import Avs.BigEndian
import Avs.Base

/-!
Values in a store object: a length of type `size_t`, all ones for an absent value, and the bytes. They are
read back as written (`round_trip_iff`), except that `sobject_read_pl` goes on after it has seen that a value
is absent: it allocates no bytes and reads the largest `size_t` of them.
-/
namespace Avs.Store
open List Option

inductive StoreErr
  | EPIPE | ENOMEM
  deriving DecidableEq, Repr

/-- How the platform lays out a `size_t`, and which amounts of memory it gives out. -/
structure Platform where
  sizeof : Nat
  sizeof_pos : 0 < sizeof
  toBytes : Nat → Bytes
  ofBytes : Bytes → Nat
  toBytes_length : ∀ len, (toBytes len).length = sizeof
  ofBytes_toBytes : ∀ len, len < 256 ^ sizeof → ofBytes (toBytes len) = len
  memAlloc : Nat → Bool

/-- `(size_t) -1`. -/
def Platform.sizeMax (p : Platform) : Nat := 256 ^ p.sizeof - 1

/-- An open file, taken apart at its position. -/
structure Sobject where
  before : Bytes
  after : Bytes
  deriving DecidableEq, Repr

def Sobject.pos (so : Sobject) : Nat := so.before.length

def Sobject.seek (so : Sobject) (pos : Nat) : Sobject :=
  ⟨(so.before ++ so.after).take pos, (so.before ++ so.after).drop pos⟩

/-- `sobject_write`; `fwrite` of no bytes counts as a failure. -/
def sobjectWrite (so : Sobject) (buf : Bytes) : Option StoreErr × Sobject :=
  if buf = [] then (some .EPIPE, so) else (none, ⟨so.before ++ buf, so.after.drop buf.length⟩)

def writeValue (p : Platform) (so : Sobject) (value : Option Bytes) : Option StoreErr × Sobject :=
  match sobjectWrite so (p.toBytes ((value.map List.length).getD p.sizeMax)) with
  | (some err, so) => (some err, so)
  | (none, so) =>
    match value with
    | some bytes => if bytes.length > 0 then sobjectWrite so bytes else (none, so)
    | none => (none, so)

def sobjectWriteLenstr (p : Platform) (so : Sobject) (str : Option Bytes) : Option StoreErr × Sobject :=
  writeValue p so str

def sobjectWritePl (p : Platform) (so : Sobject) (pl : Option Bytes) : Option StoreErr × Sobject :=
  writeValue p so pl

/-- `sobject_read` into a buffer of `capacity` bytes; nothing where `fread` writes past its end. -/
def sobjectRead (so : Sobject) (capacity size : Nat) : Option (Except StoreErr Bytes × Sobject) :=
  let got := so.after.take size
  let so := ⟨so.before ++ got, so.after.drop size⟩
  if capacity < got.length then none
  else some (if size = 0 ∨ got.length < size then .error .EPIPE else .ok got, so)

/-- The end of both readers: memory for the bytes and a NUL, and the bytes. -/
def readBody (p : Platform) (so : Sobject) (len : Nat) : Option (Except StoreErr Bytes × Sobject) :=
  let size := (len + 1) % 256 ^ p.sizeof
  if p.memAlloc size = false then some (.error .ENOMEM, so)
  else if len > 0 then sobjectRead so size len
  else some (.ok [], so)

def sobjectReadLenstr (p : Platform) (so : Sobject) : Option (Except StoreErr (Option Bytes) × Sobject) :=
  (sobjectRead so p.sizeof p.sizeof).bind fun
    | (.error err, so) => some (.error err, so)
    | (.ok len, so) =>
      if p.ofBytes len = p.sizeMax then some (.ok none, so)
      else (readBody p so (p.ofBytes len)).map (fun read => (read.1.map some, read.2))

/-- Without the `return` that `sobject_read_lenstr` has for an absent value. -/
def sobjectReadPl (p : Platform) (so : Sobject) : Option (Except StoreErr (Option Bytes) × Sobject) :=
  (sobjectRead so p.sizeof p.sizeof).bind fun
    | (.error err, so) => some (.error err, so)
    | (.ok len, so) => (readBody p so (p.ofBytes len)).map (fun read => (read.1.map some, read.2))

/-- A value in memory, which has room for a NUL after it, and how it is written; a string is its bytes before the NUL.
    -/
structure Item (p : Platform) where
  pl : Bool
  value : Option Bytes
  fits : ∀ bytes ∈ value, bytes.length < p.sizeMax

variable {p : Platform} {so : Sobject} {item : Item p} {items : List (Item p)} {before rest : Bytes}

def writeItem (so : Sobject) (item : Item p) : Option StoreErr × Sobject :=
  if item.pl then sobjectWritePl p so item.value else sobjectWriteLenstr p so item.value

def readItem (item : Item p) (so : Sobject) : Option (Except StoreErr (Option Bytes) × Sobject) :=
  if item.pl then sobjectReadPl p so else sobjectReadLenstr p so

def writeItems (so : Sobject) (items : List (Item p)) : Sobject :=
  items.foldl (fun so item => (writeItem so item).2) so

/-- Every value is written and read back, and each read ends where the next value was written. -/
def RoundTrips : List (Item p) → (writing reading : Sobject) → Prop
  | [], _, _ => True
  | item :: items, writing, reading =>
    (writeItem writing item).1 = none ∧ ∃ next, readItem item reading = some (.ok item.value, next) ∧
      next.pos = (writeItem writing item).2.pos ∧ RoundTrips items (writeItem writing item).2 next

/-- There is memory for the value; an absent one is not written with `sobject_write_pl`. -/
def Item.Readable (item : Item p) : Prop :=
  match item.value with
  | some bytes => p.memAlloc (bytes.length + 1) = true
  | none => item.pl = false

def Item.bytes (item : Item p) : Bytes :=
  p.toBytes ((item.value.map List.length).getD p.sizeMax) ++ item.value.getD []

theorem sizeMax_lt (p : Platform) : p.sizeMax < 256 ^ p.sizeof := Nat.sub_one_lt (Nat.pow_pos (by decide)).ne'

theorem writeItem_eq : writeItem so item = (none, ⟨so.before ++ item.bytes, so.after.drop item.bytes.length⟩) := by
  have written : writeItem so item = writeValue p so item.value := ite_self _
  have begun : ∀ len, p.toBytes len ≠ [] := fun len => ne_nil_of_length_pos (p.toBytes_length len ▸ p.sizeof_pos)
  rw [written, writeValue, sobjectWrite, if_neg (begun _), Item.bytes]
  rcases item.value with _ | _ | ⟨c, bytes⟩
  · simp
  · simp
  · simp [sobjectWrite, drop_drop]

theorem writeItems_eq :
    writeItems so items = ⟨so.before ++ items.flatMap Item.bytes, so.after.drop (items.flatMap Item.bytes).length⟩ := by
  induction items generalizing so with
  | nil => simp [writeItems]
  | cons item items ih =>
    have rest := @ih (writeItem so item).2
    rw [writeItem_eq] at rest
    simpa [writeItems, writeItem_eq, drop_drop] using rest

theorem sobjectRead_bytes {got : Bytes} {capacity : Nat} (some_ : 0 < got.length) (room : got.length ≤ capacity) :
    sobjectRead ⟨before, got ++ rest⟩ capacity got.length = some (.ok got, ⟨before ++ got, rest⟩) := by
  have filled : ¬ (got.length = 0 ∨ got.length < got.length) := by omega
  simp only [sobjectRead, take_left, drop_left, if_neg (Nat.not_lt.mpr room), if_neg filled]

theorem sobjectRead_length {len : Nat} : sobjectRead ⟨before, p.toBytes len ++ rest⟩ p.sizeof p.sizeof =
      some (.ok (p.toBytes len), ⟨before ++ p.toBytes len, rest⟩) := by
  have length := p.toBytes_length len
  have read := @sobjectRead_bytes before rest (p.toBytes len) p.sizeof (length ▸ p.sizeof_pos) length.le
  rwa [length] at read

theorem readBody_bytes {bytes : Bytes} (fits : bytes.length < p.sizeMax) :
    readBody p ⟨before, bytes ++ rest⟩ bytes.length =
      if p.memAlloc (bytes.length + 1) = false then some (.error .ENOMEM, ⟨before, bytes ++ rest⟩)
      else some (.ok bytes, ⟨before ++ bytes, rest⟩) := by
  have unwrapped : (bytes.length + 1) % 256 ^ p.sizeof = bytes.length + 1 := Nat.mod_eq_of_lt (by
    have := sizeMax_lt p
    omega)
  rw [readBody, unwrapped]
  cases bytes with
  | nil => simp
  | cons c bytes =>
    have read := @sobjectRead_bytes before rest (c :: bytes) ((c :: bytes).length + 1) (by simp) (Nat.le_succ _)
    simp only [read]
    simp

/-- The length of an absent value: bytes that follow go past a buffer of no bytes, and where none follow, the read
    fails. -/
theorem readBody_sizeMax {read : Except StoreErr Bytes} {next : Sobject}
    (body : readBody p so p.sizeMax = some (read, next)) : ∃ err, read = .error err := by
  have positive : 0 < p.sizeMax := Nat.sub_pos_of_lt (Nat.one_lt_pow p.sizeof_pos.ne' (by decide))
  have wraps : (p.sizeMax + 1) % 256 ^ p.sizeof = 0 := by
    rw [Platform.sizeMax, Nat.sub_add_cancel (Nat.pow_pos (by decide)), Nat.mod_self]
  simp only [readBody, wraps, if_pos positive] at body
  split at body
  · cases body
    exact ⟨_, rfl⟩
  · simp only [sobjectRead, ite_none_left_eq_some, some.injEq, Prod.mk.injEq] at body
    obtain ⟨none_, rfl, -⟩ := body
    exact ⟨.EPIPE, if_pos (.inr (Nat.lt_of_le_of_lt (Nat.not_lt.mp none_) positive))⟩

theorem readItem_iff {next : Sobject} : readItem item ⟨before, item.bytes ++ rest⟩ = some (.ok item.value, next) ↔
      item.Readable ∧ next = ⟨before ++ item.bytes, rest⟩ := by
  obtain ⟨pl, value, fits⟩ := item
  simp only [readItem, Item.bytes, Item.Readable, sobjectReadPl, sobjectReadLenstr, append_assoc,
    sobjectRead_length, bind_some]
  cases value with
  | some bytes =>
    have short := fits bytes rfl
    have spelt := p.ofBytes_toBytes bytes.length (short.trans (sizeMax_lt p))
    cases memory : p.memAlloc (bytes.length + 1) <;>
      simp [spelt, short.ne, readBody_bytes short, memory, Except.map, eq_comm]
  | none =>
    have spelt := p.ofBytes_toBytes _ (sizeMax_lt p)
    cases pl with
    | false => simp [spelt, eq_comm]
    | true =>
      simp only [map_none, getD_none, spelt, if_true, map_eq_some_iff, Bool.true_eq_false, false_and,
        iff_false]
      rintro ⟨⟨read, after⟩, body, same⟩
      obtain ⟨err, rfl⟩ := readBody_sizeMax body
      cases same

theorem roundTrips_iff {reading : Sobject} (left_ : reading.after = items.flatMap Item.bytes ++ rest)
    (together : reading.pos = so.pos) : RoundTrips items so reading ↔ ∀ item ∈ items, item.Readable := by
  induction items generalizing so reading with
  | nil => simp [RoundTrips]
  | cons item items ih =>
    obtain ⟨before, after⟩ := reading
    rw [flatMap_cons, append_assoc] at left_
    obtain rfl : after = item.bytes ++ (items.flatMap Item.bytes ++ rest) := left_
    have moved : (before ++ item.bytes).length = (so.before ++ item.bytes).length := by
      simpa [Sobject.pos] using together
    have later := @ih ⟨so.before ++ item.bytes, so.after.drop item.bytes.length⟩
      ⟨before ++ item.bytes, items.flatMap Item.bytes ++ rest⟩ rfl moved
    rw [RoundTrips, forall_mem_cons, ← later]
    simp only [writeItem_eq, readItem_iff, true_and, and_assoc, exists_and_left, exists_eq_left]
    exact and_congr_right fun _ => and_iff_right moved

/-- What is written to a store object, from any position on, is read back exactly when there is memory for it and no
    absent value is written with `sobject_write_pl`. -/
theorem round_trip_iff (p : Platform) (so : Sobject) (items : List (Item p)) :
    RoundTrips items so ((writeItems so items).seek so.pos) ↔ ∀ item ∈ items, item.Readable := by
  have left_ : ((writeItems so items).seek so.pos).after =
      items.flatMap Item.bytes ++ so.after.drop (items.flatMap Item.bytes).length := by
    simp [writeItems_eq, Sobject.seek, Sobject.pos]
  exact roundTrips_iff left_ (by simp [writeItems_eq, Sobject.seek, Sobject.pos])

/-- A platform with 64 bits, highest byte first. -/
def bigEndian : Platform where
  sizeof := 8
  sizeof_pos := by decide
  toBytes := BigEndian.toBytes 8
  ofBytes := BigEndian.ofBytes
  toBytes_length := fun _ => BigEndian.toBytes_length
  ofBytes_toBytes := fun _ less => BigEndian.ofBytes_toBytes.trans (Nat.mod_eq_of_lt less)
  memAlloc := fun _ => true

/-- Of an absent value and one more, written with `sobject_write_pl`, the first read overruns its buffer. -/
theorem absent_pl_overruns :
    let items : List (Item bigEndian) := [⟨true, none, by simp⟩, ⟨true, some [7], by simp; decide⟩]
    sobjectReadPl bigEndian ((writeItems ⟨[], []⟩ items).seek 0) = none ∧
      ¬ RoundTrips items ⟨[], []⟩ ((writeItems ⟨[], []⟩ items).seek 0) := by
  intro items
  have overruns : sobjectReadPl bigEndian ((writeItems ⟨[], []⟩ items).seek 0) = none := by decide +kernel
  refine ⟨overruns, ?_⟩
  rintro ⟨-, next, read, -⟩
  exact absurd (overruns.symm.trans read) (by simp)

end Avs.Store
