import Avs.MessageComplete

/-!
Lists with malformed entries. Each of the four list decoders walks an array with `jzon_apply` and hands every
entry to a handler that appends a record or passes the entry over; `wellFormed` says which entries ought to
give which record.
-/
namespace Avs.Jzon
open List Option

variable {items : List Json}

def Handled.record {α : Type} : Handled α → Option α
  | .append record => some record
  | .skip => none
  | .stop => none

def Handled.stops {α : Type} : Handled α → Bool
  | .stop => true
  | _ => false

/-- The walk adds the records of the entries before the one that ends it. -/
theorem jzonApply_takeWhile {α : Type} {handler : Json → Handled α} : jzonApply handler items =
      (items.takeWhile (fun item => !(handler item).stops)).filterMap (fun item => (handler item).record) := by
  induction items with
  | nil => rfl
  | cons item rest ih =>
    rw [jzonApply]
    cases handled : handler item with
    | append record => simp [handled, Handled.stops, Handled.record, ih]
    | skip => simp [handled, Handled.stops, Handled.record, ih]
    | stop => simp [handled, Handled.stops]

theorem jzonApply_filterMap {α : Type} {handler : Json → Handled α} (never : ∀ item, (handler item).stops = false)
    : jzonApply handler items = items.filterMap (fun item => (handler item).record) := by
  have all : items.takeWhile (fun item => !(handler item).stops) = items := by
    induction items with
    | nil => rfl
    | cons item rest ih => rw [takeWhile_cons_of_pos (by simp [never]), ih]
  rw [jzonApply_takeWhile, all]

/-- Of two readings, one of which reads what the other does and the same way, lists are read the same where no entry is
    read by one alone. -/
theorem filterMap_same_iff {α β : Type} {loose strict : α → Option β}
    (sub : ∀ a b, strict a = some b → loose a = some b) {items : List α} :
    items.filterMap loose = items.filterMap strict ↔ ∀ a ∈ items, strict a = none → loose a = none := by
  have fewer : ∀ rest : List α, (rest.filterMap strict).length ≤ (rest.filterMap loose).length := by
    intro rest
    induction rest with
    | nil => rfl
    | cons a rest ih =>
      cases read : strict a with
      | none =>
        cases loosely : loose a with
        | none => simpa [read, loosely] using ih
        | some b =>
          simp only [filterMap_cons, read, loosely, length_cons]
          omega
      | some b => simpa [read, sub a b read] using ih
  induction items with
  | nil => simp
  | cons a rest ih =>
    cases read : strict a with
    | some b => simp [read, sub a b read, ih]
    | none =>
      cases loosely : loose a with
      | none => simp [read, loosely, ih]
      | some b =>
        refine iff_of_false ?_ (fun all => by simp [loosely] at all; exact all.1 read)
        intro same
        have lengths := congrArg List.length same
        have bound := fewer rest
        simp only [filterMap_cons, read, loosely, length_cons] at lengths
        omega

end Avs.Jzon

namespace Avs.EconnFmt

open Jzon List Option

/-- The lists of the messages, with the names of those of strings. -/
inductive ListKind
  | parts | keys | streams
  | strings (name : String)
  deriving DecidableEq, Repr

namespace ListKind

def member : ListKind → String
  | .parts => "participants"
  | .keys => "keys"
  | .streams => "streams"
  | .strings name => name

def Record : ListKind → Type
  | .parts => GroupPart
  | .keys => KeyInfo
  | .streams => StreamInfo
  | .strings _ => Bytes

def decode (libre : Libre) : (kind : ListKind) → Json → Except Errno (List kind.Record)
  | .parts, jobj => .ok (partsDecode libre jobj)
  | .keys, jobj => keysDecode libre jobj
  | .streams, jobj => streamsDecode jobj
  | .strings name, jobj => .ok (stringlistDecode jobj name)

end ListKind

/-- A number that is written as a text. -/
def numberAt (libre : Libre) (jobj : Json) (key : String) : Option (BitVec 32) :=
  (jzonStr jobj key).bind libre.sscanfU32

/-- A participant has a user and a client, is authorized or not, and has two numbers. What else there is may be missing.
    -/
def wellFormedPart (libre : Libre) (jobj : Json) : Option GroupPart :=
  match jzonStr jobj "userid", jzonStr jobj "clientid", jzonBool jobj "authorized",
    numberAt libre jobj "ssrc_audio", numberAt libre jobj "ssrc_video" with
  | some userid, some clientid, .ok authorized, some ssrca, some ssrcv =>
    some {
      userid := some userid
      clientid := some clientid
      authorized := authorized
      mutedState :=
        match jzonBool jobj "muted" with
        | .ok muted => if muted then .muted else .unmuted
        | .error _ => .unknown
      ssrca := ssrca
      ssrcv := ssrcv
      ts := (orZero (jzonInt jobj "timestamp") 0).signExtend 64 }
  | _, _, _, _, _ => none

/-- A key has an index and data in base64. -/
def wellFormedKey (libre : Libre) (jobj : Json) : Option KeyInfo :=
  match jzonInt jobj "idx", jzonStr jobj "data" with
  | .ok idx, some dstr => (libre.base64Decode dstr dstr.length).toOption.map (fun data => ⟨idx, some data⟩)
  | _, _ => none

def wellFormedStream (jobj : Json) : Option StreamInfo :=
  match jzonInt jobj "quality", jzonStr jobj "userid" with
  | .ok quality, some userid => some {
      userid := Chars.strNcpy (some userid)
      quality := quality
      clientid := Chars.strNcpy (jzonStr jobj "clientid")
      hi := orZero (jzonInt jobj "ssrcv_hi") 0
      lo := orZero (jzonInt jobj "ssrcv_lo") 0 }
  | _, _ => none

/-- The record of a well-formed entry. -/
def wellFormed (libre : Libre) : (kind : ListKind) → Json → Option kind.Record
  | .parts, jobj => wellFormedPart libre jobj
  | .keys, jobj => wellFormedKey libre jobj
  | .streams, jobj => wellFormedStream jobj
  | .strings _, jobj => getString jobj

/-- A participant with all its members, of which an id is null or a number is none. -/
structure Misread (libre : Libre) (jobj : Json) : Prop where
  userid : IsNull jobj "userid" ∨ IsText jobj "userid"
  clientid : IsNull jobj "clientid" ∨ IsText jobj "clientid"
  authorized : ∃ authorized, jzonBool jobj "authorized" = .ok authorized
  audio : IsText jobj "ssrc_audio"
  video : IsText jobj "ssrc_video"
  flaw : IsNull jobj "userid" ∨ IsNull jobj "clientid" ∨ numberAt libre jobj "ssrc_audio" = none ∨
    numberAt libre jobj "ssrc_video" = none

/-- A key with an index and with data that are no base64. -/
def Undecodable (libre : Libre) (jobj : Json) : Prop :=
  (∃ idx, jzonInt jobj "idx" = .ok idx) ∧
    ∃ dstr err, jzonStr jobj "data" = some dstr ∧ libre.base64Decode dstr dstr.length = .error err

/-- No participant is one that is misread, and no well-formed key stands behind one that is no base64. -/
def Sound (libre : Libre) : ListKind → List Json → Prop
  | .parts, items => ∀ item ∈ items, ¬ Misread libre item
  | .keys, items => ∀ front bad back, items = front ++ bad :: back → Undecodable libre bad →
      ∀ item ∈ back, wellFormedKey libre item = none
  | .streams, _ => True
  | .strings _, _ => True

variable {libre : Libre} {jobj : Json} {key : String} {items : List Json}

theorem jzonStr_eq_some {text : Bytes} : jzonStr jobj key = some text ↔ objectGetEx jobj key = some (.string text) := by
  rw [jzonStr, bind_eq_some_iff]
  constructor
  · rintro ⟨value, found, read⟩
    cases value with
    | string text' =>
      obtain rfl := some.inj read
      exact found
    | _ => cases read
  · intro found
    exact ⟨_, found, rfl⟩

theorem isText_iff : IsText jobj key ↔ ∃ text, jzonStr jobj key = some text :=
  exists_congr (fun _ => jzonStr_eq_some.symm)

theorem wellFormedPart_eq_some {part : GroupPart}
    (read : wellFormedPart libre jobj = some part) : (partDecodeHandler libre jobj).record = some part := by
  unfold wellFormedPart at read
  split at read
  · next userid clientid authorized ssrca ssrcv user client flag audio video =>
    obtain ⟨audio, texta, reada⟩ := bind_eq_some_iff.mp audio
    obtain ⟨video, textv, readv⟩ := bind_eq_some_iff.mp video
    have user' := jzonStrdup_text.mpr (jzonStr_eq_some.mp user)
    have client' := jzonStrdup_text.mpr (jzonStr_eq_some.mp client)
    cases muted : jzonBool jobj "muted" with
    | ok muted =>
      simpa [partDecodeHandler, user', client', flag, texta, textv, reada, readv, Handled.record, muted] using read
    | error err =>
      simpa [partDecodeHandler, user', client', flag, texta, textv, reada, readv, Handled.record, muted] using read
  · cases read

theorem partDecodeHandler_record_iff : ((partDecodeHandler libre jobj).record).isSome ↔
      (IsNull jobj "userid" ∨ IsText jobj "userid") ∧ (IsNull jobj "clientid" ∨ IsText jobj "clientid") ∧
        (∃ authorized, jzonBool jobj "authorized" = .ok authorized) ∧ IsText jobj "ssrc_audio" ∧
        IsText jobj "ssrc_video" := by
  rw [← jzonStrdup_ok_iff, ← jzonStrdup_ok_iff, isText_iff, isText_iff, partDecodeHandler]
  split
  · next userid clientid authorized user client flag =>
    split
    · next audio video texta textv => simp [Handled.record, user, client, flag, texta, textv]
    · next missing =>
      refine iff_of_false (by simp [Handled.record]) ?_
      rintro ⟨_, _, _, ⟨audio, texta⟩, video, textv⟩
      exact missing audio video texta textv
  · next missing =>
    refine iff_of_false (by simp [Handled.record]) ?_
    rintro ⟨⟨userid, user⟩, ⟨clientid, client⟩, ⟨authorized, flag⟩, _⟩
    exact missing userid clientid authorized user client flag

theorem wellFormedPart_isSome_iff : (wellFormedPart libre jobj).isSome ↔ IsText jobj "userid" ∧ IsText jobj "clientid" ∧
      (∃ authorized, jzonBool jobj "authorized" = .ok authorized) ∧
      (numberAt libre jobj "ssrc_audio").isSome ∧ (numberAt libre jobj "ssrc_video").isSome := by
  rw [isText_iff, isText_iff, isSome_iff_exists (x := numberAt _ _ _),
    isSome_iff_exists (x := numberAt _ _ _), wellFormedPart]
  split
  · next userid clientid authorized ssrca ssrcv user client flag audio video =>
    simp [user, client, flag, audio, video]
  · next missing =>
    refine iff_of_false (by simp) ?_
    rintro ⟨⟨userid, user⟩, ⟨clientid, client⟩, ⟨authorized, flag⟩, ⟨ssrca, audio⟩, ssrcv, video⟩
    exact missing userid clientid authorized ssrca ssrcv user client flag audio video

theorem misread_iff :
    Misread libre jobj ↔ wellFormedPart libre jobj = none ∧ (partDecodeHandler libre jobj).record ≠ none := by
  rw [← isSome_iff_ne_none, partDecodeHandler_record_iff, ← isNone_iff_eq_none, ← not_isSome,
    Bool.not_eq_true', ← Bool.not_eq_true, wellFormedPart_isSome_iff]
  constructor
  · rintro ⟨user, client, flag, audio, video, flaw⟩
    refine ⟨?_, user, client, flag, audio, video⟩
    rintro ⟨⟨_, user⟩, ⟨_, client⟩, _, audio, video⟩
    rcases flaw with null | null | none | none
    · rw [IsNull, user] at null
      cases null
    · rw [IsNull, client] at null
      cases null
    · simp [none] at audio
    · simp [none] at video
  · rintro ⟨flaw, user, client, flag, audio, video⟩
    refine ⟨user, client, flag, audio, video, ?_⟩
    by_contra fine
    simp only [not_or, ← isSome_iff_ne_none] at fine
    exact flaw ⟨user.resolve_left fine.1, client.resolve_left fine.2.1, flag, fine.2.2⟩

theorem partDecodeHandler_stops (jobj : Json) : (partDecodeHandler libre jobj).stops = false := by
  unfold partDecodeHandler
  split
  · split <;> rfl
  · rfl

theorem parts_decoded_iff :
    jzonApply (partDecodeHandler libre) items = items.filterMap (wellFormedPart libre) ↔ Sound libre .parts items := by
  rw [jzonApply_filterMap partDecodeHandler_stops,
    filterMap_same_iff (fun _ _ read => wellFormedPart_eq_some read)]
  simp only [Sound, misread_iff, not_and, not_not]

theorem keyDecodeHandler_record (jobj : Json) : (keyDecodeHandler libre jobj).record = wellFormedKey libre jobj := by
  rw [keyDecodeHandler, wellFormedKey]
  cases jzonInt jobj "idx" with
  | error err => rfl
  | ok idx =>
    cases jzonStr jobj "data" with
    | none => rfl
    | some dstr =>
      simp only
      cases libre.base64Decode dstr dstr.length with
      | ok data => rfl
      | error err => rfl

theorem keyDecodeHandler_stops_iff : (keyDecodeHandler libre jobj).stops = true ↔ Undecodable libre jobj := by
  unfold keyDecodeHandler Undecodable
  split
  · next idx dstr index data =>
    split
    · next decoded => simp [Handled.stops, index, data, decoded]
    · next err decoded => simp [Handled.stops, index, data, decoded]
  · next missing =>
    refine iff_of_false (by simp [Handled.stops]) ?_
    rintro ⟨⟨idx, index⟩, dstr, _, data, _⟩
    exact missing idx dstr index data

theorem sound_keys_cons {item : Json} {rest : List Json} : Sound libre .keys (item :: rest) ↔
      (Undecodable libre item → ∀ later ∈ rest, wellFormedKey libre later = none) ∧ Sound libre .keys rest := by
  constructor
  · intro sound
    refine ⟨fun undecodable => sound [] item rest rfl undecodable, ?_⟩
    intro front bad back split
    exact sound (item :: front) bad back (by rw [split]; rfl)
  · rintro ⟨first, later⟩ front bad back split
    cases front with
    | nil =>
      obtain ⟨rfl, rfl⟩ := List.cons.inj split
      exact first
    | cons _ front =>
      obtain ⟨rfl, behind⟩ := List.cons.inj split
      exact later front bad back behind

/-- The walk over the keys ends at the first that is no base64. -/
theorem keys_decoded_iff :
    jzonApply (keyDecodeHandler libre) items = items.filterMap (wellFormedKey libre) ↔ Sound libre .keys items := by
  have readings : (fun item => (keyDecodeHandler libre item).record) = wellFormedKey libre :=
    funext keyDecodeHandler_record
  rw [jzonApply_takeWhile, readings]
  induction items with
  | nil => simp [Sound]
  | cons item rest ih =>
    rw [sound_keys_cons, ← keyDecodeHandler_stops_iff]
    cases stops : (keyDecodeHandler libre item).stops with
    | true =>
      have none : wellFormedKey libre item = none := by
        rw [← keyDecodeHandler_record]
        cases handled : keyDecodeHandler libre item with
        | stop => rfl
        | _ => simp [handled, Handled.stops] at stops
      rw [takeWhile_cons_of_neg (by simp [stops]), filterMap_cons_none none, filterMap_nil, eq_comm,
        filterMap_eq_nil_iff]
      constructor
      · intro nothing
        refine ⟨fun _ => nothing, ?_⟩
        intro front bad back split _ later member
        exact nothing later (by simp [split, member])
      · rintro ⟨nothing, _⟩
        exact nothing rfl
    | false =>
      rw [takeWhile_cons_of_pos (by simp [stops]), filterMap_cons, filterMap_cons]
      cases read : wellFormedKey libre item with
      | none => simpa using ih
      | some key => simpa using ih

theorem streams_decoded : jzonApply streamDecodeHandler items = items.filterMap wellFormedStream := by
  have readings : (fun item => (streamDecodeHandler item).record) = wellFormedStream := by
    funext item
    rw [streamDecodeHandler, wellFormedStream]
    cases jzonInt item "quality" with
    | error err => rfl
    | ok quality =>
      cases jzonStr item "userid" with
      | none => rfl
      | some userid => rfl
  rw [jzonApply_filterMap, readings]
  intro item
  unfold streamDecodeHandler
  split <;> rfl

theorem strings_decoded : jzonApply stringDecodeHandler items = items.filterMap getString := by
  have readings : (fun item => (stringDecodeHandler item).record) = getString := by
    funext item
    unfold stringDecodeHandler
    split
    · next text read => rw [read]; rfl
    · next read => rw [read]; rfl
  rw [jzonApply_filterMap, readings]
  intro item
  unfold stringDecodeHandler
  split <;> rfl

/-- A list decoder gives the records of the well-formed entries, in order, if and only if the array is sound. -/
theorem lists_decoded_iff {libre : Libre} {kind : ListKind} {jobj : Json} {items : List Json}
    (array : jzonArray jobj kind.member = .ok items) :
    kind.decode libre jobj = .ok (items.filterMap (wellFormed libre kind)) ↔ Sound libre kind items := by
  cases kind with
  | parts =>
    simp only [ListKind.member] at array
    simp only [ListKind.decode, partsDecode, array, orZero]
    exact Iff.trans ⟨Except.ok.inj, congrArg _⟩ parts_decoded_iff
  | keys =>
    simp only [ListKind.member] at array
    simp only [ListKind.decode, keysDecode, array, bind, Except.bind]
    exact Iff.trans ⟨Except.ok.inj, congrArg _⟩ keys_decoded_iff
  | streams =>
    simp only [ListKind.member] at array
    simp only [ListKind.decode, streamsDecode, array, bind, Except.bind]
    exact iff_of_true (congrArg Except.ok streams_decoded) trivial
  | strings name =>
    simp only [ListKind.member] at array
    simp only [ListKind.decode, stringlistDecode, array, orZero]
    exact iff_of_true (congrArg Except.ok strings_decoded) trivial

/-- Reads decimal numbers; the rest of the library is not used. -/
def decimals : Libre where
  jsonEncodeOdict _ := .error .ENOSYS
  jsonDecodeOdict _ := .error .ENOSYS
  base64Encode data := data
  base64Decode _ _ := .error .ENOSYS
  printU32 _ := []
  printU64 _ := []
  plU32 _ := 0
  plU64 _ := 0
  sscanfU32 text :=
    match text.takeWhile (fun c => 48 ≤ c ∧ c ≤ 57) with
    | [] => none
    | digits => some (BitVec.ofNat 32 (digits.foldl (fun n c => 10 * n + (c.toNat - 48)) 0))

/-- A participant, a string in its place and one without numbers. -/
def mixed : List Json :=
  [.object [("userid", .string (ascii "bob")), ("clientid", .string (ascii "1")), ("authorized", .bool true),
      ("ssrc_audio", .string (ascii "7")), ("ssrc_video", .string (ascii "8"))],
    .string (ascii "bob"),
    .object [("userid", .string (ascii "eve")), ("clientid", .string (ascii "2")), ("authorized", .bool true)]]

theorem lists_decoded_bob : jzonArray (.object [("participants", .array mixed)]) "participants" = .ok mixed ∧
      ∃ bob, ListKind.parts.decode decimals (.object [("participants", .array mixed)]) = .ok [bob] ∧
        bob.userid = some (ascii "bob") ∧ bob.ssrcv = 8 := by
  have sound : Sound decimals .parts mixed := by
    intro item member misread
    simp only [mixed, mem_cons, not_mem_nil, or_false] at member
    rcases member with rfl | rfl | rfl
    · rcases misread.flaw with null | null | none | none
      · cases null
      · cases null
      · exact absurd none (by decide)
      · exact absurd none (by decide)
    · obtain ⟨_, found⟩ := misread.audio
      cases found
    · obtain ⟨_, found⟩ := misread.audio
      cases found
  refine ⟨rfl, _, (@lists_decoded_iff decimals .parts _ _ rfl).mpr sound, rfl, rfl⟩

/-- A participant without a name is taken. -/
theorem nameless_participant : ¬ ∀ (libre : Libre) (kind : ListKind) (jobj : Json) (items : List Json),
    jzonArray jobj kind.member = .ok items →
      kind.decode libre jobj = .ok (items.filterMap (wellFormed libre kind)) := by
  intro exactly
  have decoded := exactly decimals .parts
    (.object [("participants", .array [.object [("userid", .null), ("clientid", .string (ascii "1")),
      ("authorized", .bool true), ("ssrc_audio", .string (ascii "7")), ("ssrc_video", .string (ascii "8"))]])]) _ rfl
  have lengths := congrArg List.length (Except.ok.inj decoded)
  exact absurd lengths (by decide)

end Avs.EconnFmt
