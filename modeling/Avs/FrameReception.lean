import Avs.FrameLookup
import Avs.Runs

/-!
How `frame_decryptor_decrypt` takes a frame apart, and how it counts the frames for peerflow. The sizes are
subtracted without a look at what is left. The frames counted for one csrc are told under that of the next
frame when the sender changes, and under that of the last frame when there are enough of them.
-/
namespace Avs.FrameReception
open Avs.Keystore Avs.FrameHdr Avs.FrameCrypt List Option Runs

/-- The bytes do not hold a header and a tag. -/
def TooShort (src : Bytes) : Prop :=
  src.length < minSize ∨ match frameHdrRead src with
    | .error _ => True
    | .ok hdr => src.length < hdr.len + tagSize

/-- Header, ciphertext and tag follow one another, overlap nowhere and are all of the bytes. -/
structure Split (src : Bytes) (call : OpenCall) : Prop where
  nonneg : 0 ≤ call.encSize
  header : call.header.length = call.hsize
  ciphertext : call.ciphertext.length = call.encSize.toNat
  tag : call.tag.length = tagSize
  whole : call.header ++ call.ciphertext ++ call.tag = src

/-- A call splits the bytes soundly, and refuses them before AES-GCM when there are too few. -/
structure SplitSoundly (src : Bytes) (d : Decrypted) : Prop where
  parts : ∀ call, d.opened = some call → Split src call
  short : TooShort src → (∃ err, d.answer = .error err) ∧ d.opened = none

/-- Where the header can be read, there is room for the tag behind it, and what is between them has an `int` length. -/
def Fits (src : Bytes) : Prop :=
  src.length < minSize ∨ match frameHdrRead src with
    | .error _ => True
    | .ok hdr => hdr.len + tagSize ≤ src.length ∧ src.length - hdr.len - tagSize < 2 ^ 31

variable {hdr : Header} {src : Bytes} {aead : Aead} {d : Decrypted} {csrc : UInt32}

section
variable {hkdf : Hkdf} {now : Nat → UInt64} {pf : Option Peerflow} {ks : Option Keystore} {dec : Decryptor}

/-- How far a call gets: it is refused, or AES-GCM is asked to open the frame at its header. -/
inductive Reached (src : Bytes) (d : Decrypted) : Prop
  | refused (err : Errno) (answer : d.answer = .error err) (unopened : d.opened = none)
  | asked (hdr : Header) (enough : minSize ≤ src.length) (read : frameHdrRead src = .ok hdr) (call : OpenCall)
      (opened : d.opened = some call) (frame : call.frame = src) (hsize : call.hsize = hdr.len)
      (encSize : call.encSize = encSize src.length hdr.len)

theorem openFrame_reached {counted : List Count} (enough : minSize ≤ src.length) (read : frameHdrRead src = .ok hdr)
    (ran : openFrame aead hkdf now pf ks dec csrc hdr src counted = some d) : Reached src d := by
  unfold openFrame at ran
  split at ran
  · cases ran
  · cases ran
    exact .refused .EAGAIN rfl rfl
  · simp only at ran
    split at ran
    · cases ran
      exact .asked hdr enough read _ rfl rfl rfl rfl
    · split at ran
      · cases ran
        exact .asked hdr enough read _ rfl rfl rfl rfl
      · cases ran
        exact .asked hdr enough read _ rfl rfl rfl rfl

theorem decrypt_reached (ran : decrypt aead hkdf now pf ks dec csrc src = some d) : Reached src d := by
  unfold decrypt at ran
  split at ran
  · cases ran
    exact .refused .EAGAIN rfl rfl
  · next enough =>
    split at ran
    · next err read =>
      cases ran
      exact .refused err rfl rfl
    · next hdr read =>
      simp only at ran
      split at ran
      · next err resolved =>
        cases ran
        exact .refused err rfl rfl
      · exact openFrame_reached (Nat.le_of_not_lt enough) read ran

/-- The size of the ciphertext is right where the parts fit, and only there. -/
theorem encSize_eq_iff {srcsz hsize : Nat} :
    encSize srcsz hsize = (srcsz : Int) - hsize - tagSize ∧ 0 ≤ encSize srcsz hsize ↔
      hsize + tagSize ≤ srcsz ∧ srcsz - hsize - tagSize < 2 ^ 31 := by
  have size : tagSize = 16 := rfl
  rw [size]
  constructor
  · rintro ⟨exact_, nonneg⟩
    have upper : encSize srcsz hsize < 2 ^ 31 := Int.bmod_lt (by decide)
    omega
  · rintro ⟨room, small⟩
    have exact_ : encSize srcsz hsize = (srcsz : Int) - hsize - tagSize :=
      Int.bmod_eq_of_le (by omega) (by omega)
    omega

theorem split_iff {call : OpenCall} (frame : call.frame = src)
    (encSize_ : call.encSize = encSize src.length call.hsize) :
    Split src call ↔ call.hsize + tagSize ≤ src.length ∧ src.length - call.hsize - tagSize < 2 ^ 31 := by
  rw [← encSize_eq_iff, ← encSize_]
  constructor
  · intro split
    have total : call.hsize + call.encSize.toNat + tagSize = src.length := by
      rw [← split.header, ← split.ciphertext, ← split.tag, ← length_append, ← length_append, split.whole]
    have nonneg := split.nonneg
    exact ⟨by omega, nonneg⟩
  · rintro ⟨exact_, nonneg⟩
    have total : call.hsize + call.encSize.toNat + tagSize = src.length := by omega
    have tagAt : call.tagAt.toNat = call.hsize + call.encSize.toNat := by
      rw [OpenCall.tagAt]
      omega
    have rest : (src.drop (call.hsize + call.encSize.toNat)).take tagSize =
        src.drop (call.hsize + call.encSize.toNat) := take_of_length_le (by rw [length_drop]; omega)
    refine ⟨nonneg, ?_, ?_, ?_, ?_⟩
    · rw [OpenCall.header, frame, length_take]
      omega
    · rw [OpenCall.ciphertext, frame, length_take, length_drop]
      omega
    · rw [OpenCall.tag, frame, tagAt, rest, length_drop]
      omega
    · rw [OpenCall.header, OpenCall.ciphertext, OpenCall.tag, frame, tagAt, rest, append_assoc, ← drop_drop,
        take_append_drop, take_append_drop]

theorem decrypt_soundly (fits : Fits src) (ran : decrypt aead hkdf now pf ks dec csrc src = some d) :
    SplitSoundly src d := by
  cases decrypt_reached ran with
  | refused err answer unopened => exact ⟨by simp [unopened], fun _ => ⟨⟨err, answer⟩, unopened⟩⟩
  | asked hdr enough read call opened frame hsize encSize_ =>
    have room : hdr.len + tagSize ≤ src.length ∧ src.length - hdr.len - tagSize < 2 ^ 31 := by
      rcases fits with few | fits
      · omega
      · simpa [read] using fits
    constructor
    · intro call' opened'
      obtain rfl := some.inj (opened.symm.trans opened')
      exact (split_iff frame (hsize ▸ encSize_)).mpr (hsize ▸ room)
    · rintro (few | short)
      · omega
      · simp only [read] at short
        omega

def holding (index : UInt32) : Keystore :=
  { Keystore.alloc false 0 with
    keyl := [⟨0, Vector.replicate 32 1, Vector.replicate 32 2, index, 0⟩]
    current := some 0
    init := true
    nextAddr := 1 }

def settled : Decryptor := { Decryptor.alloc .audio with useridHash := some "bob", frameRecv := true }

theorem holding_gives (hkdf : Hkdf) (now : Nat → UInt64) (index : UInt32) (ksz : Nat) :
    ∃ ks key, getMediaKey hkdf now (holding index) index ksz = some (ks, .ok key) := by
  have found : getMediaKey hkdf now (holding index) index ksz =
      some (handOut (holding index) (holding index).keyl.head?
        ((holding index).keyl.head (by simp [holding])) ksz) := by
    simp only [getMediaKey, holding, List.find?_cons, decide_true]
    rfl
  exact ⟨_, _, found⟩

theorem settled_asks (aead : Aead) (hkdf : Hkdf) (now : Nat → UInt64)
    (enough : minSize ≤ src.length) (read : frameHdrRead src = .ok hdr) :
    ∃ d, decrypt aead hkdf now none (some (holding hdr.key.toUInt32)) settled 0 src = some d ∧ d.opened ≠ none := by
  obtain ⟨ks, key, gives⟩ := holding_gives hkdf now hdr.key.toUInt32 sessionKeySize
  have made : cipher hkdf now (some (holding hdr.key.toUInt32)) hdr.key settled =
      some ({ settled with ctx := some key, kidx := hdr.key.toUInt32 }, some ks, some key) := by
    have uncached : (if hdr.key ≠ settled.kidx.toUInt64 then none else settled.ctx) = none := by
      split <;> rfl
    simp only [cipher, uncached, gives]
  simp only [decrypt, if_neg (Nat.not_lt.mpr enough), read]
  have resolved : ∀ csrc, resolve hkdf none (some (holding hdr.key.toUInt32)) csrc settled =
      (settled, some (holding hdr.key.toUInt32), [], none) := fun _ => rfl
  simp only [resolved, openFrame, made, countFrame]
  split
  · exact ⟨_, rfl, by simp [failed]⟩
  · exact ⟨_, rfl, by simp⟩

end

/-- A byte string is split soundly in every state of the decryptor exactly when its header leaves room for the tag and
    an `int` holds what is between them. -/
theorem split_soundly_iff (aead : Aead) (hkdf : Hkdf) (now : Nat → UInt64) (src : Bytes) :
    (∀ pf ks dec csrc d, decrypt aead hkdf now pf ks dec csrc src = some d → SplitSoundly src d) ↔ Fits src := by
  constructor
  · intro soundly
    by_cases few : src.length < minSize
    · exact .inl few
    · refine .inr ?_
      cases read : frameHdrRead src with
      | error err => trivial
      | ok hdr =>
        obtain ⟨d, ran, asked⟩ := settled_asks aead hkdf now (Nat.le_of_not_lt few) read
        cases decrypt_reached ran with
        | refused _ _ unopened => exact absurd unopened asked
        | asked hdr' _ read' call opened frame hsize encSize_ =>
          obtain rfl := Except.ok.inj (read.symm.trans read')
          have split := (soundly _ _ _ _ d ran).parts call opened
          have room := (split_iff frame (hsize ▸ encSize_)).mp split
          rwa [hsize] at room
  · intro fits pf ks dec csrc d ran
    exact decrypt_soundly fits ran

/-- Of a frame that ends with its header the tag is looked for before the frame. -/
theorem short_frame_opened :
    ∃ d, decrypt refusingAead shiftHkdf (fun _ => 7) none (some singleKeystore) namedDecryptor 0 [0, 1, 5] = some d ∧
      TooShort [0, 1, 5] ∧ d.opened.map (fun call => (call.encSize, call.tagAt)) = some (-16, -13) ∧
      ¬ SplitSoundly [0, 1, 5] d := by
  have read : frameHdrRead [0, 1, 5] = .ok ⟨5, 1, none, 3⟩ := by decide +kernel
  have short : TooShort [0, 1, 5] := by
    refine .inr ?_
    rw [read]
    decide
  refine exists_shown (fun d => d.opened.map (fun call => (call.encSize, call.tagAt)) = some (-16, -13))
    (by decide +kernel) fun d _ asked => ⟨short, asked, fun soundly => ?_⟩
  simp [(soundly.short short).2] at asked

/-- One frame as it arrives, with what the libraries, peerflow and the keystore are then. -/
structure Arrival where
  aead : Aead
  hkdf : Hkdf
  now : Nat → UInt64
  pf : Peerflow
  ks : Option Keystore
  csrc : UInt32
  src : Bytes

/-- The csrc of a frame: that of its header, or else the one it came with. -/
def Arrival.sender (a : Arrival) : UInt32 :=
  match frameHdrRead a.src with
  | .error _ => a.csrc
  | .ok hdr => if hdr.csrc.getD 0 ≠ 0 then hdr.csrc.getD 0 else a.csrc

/-- A decryptor with the csrcs of the frames opened so far and the counts told to peerflow. -/
structure Tally where
  dec : Decryptor
  opened : List UInt32
  told : List Count

/-- The frames opened and not yet told. -/
def Tally.pending (t : Tally) : List UInt32 := t.opened.drop (t.opened.length - t.dec.frameCount.toNat)

/-- The number of frames told for a csrc. -/
def toldFor (told : List Count) (csrc : UInt32) : Nat :=
  ((told.filter (fun count => count.csrc = csrc)).map (fun count => count.frames.toNat)).sum

def didOpen (aead : Aead) (d : Decrypted) : Bool := (d.opened.bind aead.gcmDecrypt).isSome

def receive (a : Arrival) (t : Tally) : Option Tally :=
  (decrypt a.aead a.hkdf a.now (some a.pf) a.ks t.dec a.csrc a.src).map (fun d =>
    { dec := d.dec
      opened := if didOpen a.aead d then t.opened ++ [a.sender] else t.opened
      told := t.told ++ d.counted })

/-- The sender changes only while no frame is counted, and a frame that completes a count finds only frames of its own
    csrc counted. -/
def Settled (a : Arrival) (t : Tally) : Prop :=
  (a.sender ≠ 0 → a.sender ≠ t.dec.csrc → t.dec.frameCount = 0) ∧
    (frmRes t.dec.mtype ≤ t.dec.frameCount + 1 → ∀ csrc ∈ t.pending, csrc = a.sender)

instance (a : Arrival) (t : Tally) : Decidable (Settled a t) :=
  -- The counted frames are looked at, not every csrc there is.
  letI : Decidable (∀ csrc ∈ t.pending, csrc = a.sender) := List.decidableBAll _ _
  inferInstanceAs (Decidable (_ ∧ _))

variable {a : Arrival} {t : Tally}

section
variable {hkdf : Hkdf} {now : Nat → UInt64} {pf : Peerflow} {ks ks' : Option Keystore} {dec dec' : Decryptor}

/-- What the counting reads of a decryptor. -/
def counter (dec : Decryptor) : UInt32 × MediaType := (dec.frameCount, dec.mtype)

theorem identify_counter (pf : Peerflow) (settled : csrc ≠ 0 → csrc ≠ dec.csrc → dec.frameCount = 0) :
    counter (identify (some pf) csrc dec).1 = counter dec ∧ (identify (some pf) csrc dec).2.1 = [] := by
  simp only [identify]
  split
  · next other =>
    have none_ := settled other.1 other.2
    simp only [identifyCsrc, none_, ne_eq, not_true_eq_false, if_false, List.findSome?_nil]
    split
    · exact ⟨by simp [counter, none_], rfl⟩
    · exact ⟨by simp [counter, none_], rfl⟩
  · rw [identifyFirst]
    split <;> exact ⟨rfl, rfl⟩

theorem prepareIv_counter : counter (prepareIv hkdf ks dec).1 = counter dec := by
  unfold prepareIv
  split
  · rfl
  · rfl
  · split <;> rfl

theorem resolve_counter (hkdf : Hkdf) (pf : Peerflow) (ks : Option Keystore)
    (settled : csrc ≠ 0 → csrc ≠ dec.csrc → dec.frameCount = 0) :
    counter (resolve hkdf (some pf) ks csrc dec).1 = counter dec ∧ (resolve hkdf (some pf) ks csrc dec).2.2.1 = [] := by
  have identified := identify_counter pf settled
  rw [resolve]
  split
  · next isIdentified =>
    rw [isIdentified] at identified
    exact identified
  · next isIdentified =>
    rw [isIdentified] at identified
    exact identified
  · next isIdentified =>
    rw [isIdentified] at identified
    exact ⟨prepareIv_counter.trans identified.1, identified.2⟩

theorem cipher_counter {kid : UInt64} {key : Option Bytes} (made : cipher hkdf now ks kid dec = some (dec', ks', key)) :
    counter dec' = counter dec := by
  cases cipher_ciphered made with
  | cached _ _ same => rw [same]
  | null _ dropped => rw [dropped]; rfl
  | missing _ _ _ _ _ _ dropped => rw [dropped]; rfl
  | looked _ _ _ _ _ _ created => rw [created]; rfl

/-- What a call does to the count: an opened frame adds one, and enough of them are told. -/
inductive Counted (sender : UInt32) (before : UInt32 × MediaType) (opened : Bool) (d : Decrypted) : Prop
  | unopened (shut : opened = false) (count : counter d.dec = before) (counted : d.counted = [])
  | added (open_ : opened = true) (few : before.1 + 1 < frmRes before.2)
      (count : counter d.dec = (before.1 + 1, before.2)) (counted : d.counted = [])
  | told (open_ : opened = true) (enough : frmRes before.2 ≤ before.1 + 1) (count : counter d.dec = (0, before.2))
      (err : Option Errno) (counted : d.counted = [⟨sender, before.1 + 1, err⟩])

theorem openFrame_counted (ran : openFrame aead hkdf now (some pf) ks dec csrc hdr src [] = some d) :
    Counted csrc (counter dec) (didOpen aead d) d := by
  unfold openFrame at ran
  split at ran
  · cases ran
  · next made =>
    have same := cipher_counter made
    cases ran
    exact .unopened rfl same rfl
  · next dec' ks' key made =>
    have same := cipher_counter made
    obtain ⟨count, media⟩ := Prod.mk.inj same
    simp only at ran
    split at ran
    · next refused =>
      cases ran
      exact .unopened (by simp [didOpen, failed, refused]) same rfl
    · next payload opened =>
      by_cases enough : frmRes dec.mtype ≤ dec.frameCount + 1
      · simp only [countFrame, media, count, if_pos enough] at ran
        split at ran
        · next countedTo =>
          cases ran
          simp only [Prod.mk.injEq] at countedTo
          obtain ⟨rfl, rfl, -⟩ := countedTo
          exact .told (by simp [didOpen, failed, opened]) enough rfl _ rfl
        · next countedTo =>
          cases ran
          simp only [Prod.mk.injEq] at countedTo
          obtain ⟨rfl, rfl, -⟩ := countedTo
          exact .told (by simp [didOpen, opened]) enough rfl _ rfl
      · simp only [countFrame, media, count, if_neg enough] at ran
        cases ran
        exact .added (by simp [didOpen, opened]) (UInt32.not_le.mp enough) rfl rfl

theorem decrypt_counted (settled : Settled a t)
    (ran : decrypt a.aead a.hkdf a.now (some a.pf) a.ks t.dec a.csrc a.src = some d) :
    Counted a.sender (counter t.dec) (didOpen a.aead d) d := by
  unfold decrypt at ran
  split at ran
  · cases ran
    exact .unopened rfl rfl rfl
  · split at ran
    · cases ran
      exact .unopened rfl rfl rfl
    · next hdr read =>
      have sender : a.sender = if hdr.csrc.getD 0 ≠ 0 then hdr.csrc.getD 0 else a.csrc := by
        rw [Arrival.sender, read]
      simp only [← sender] at ran
      have resolved := resolve_counter a.hkdf a.pf a.ks settled.1
      split at ran
      · next isResolved =>
        rw [isResolved] at resolved
        cases ran
        exact .unopened rfl resolved.1 resolved.2
      · next dec' ks' counted isResolved =>
        rw [isResolved] at resolved
        obtain ⟨same, rfl⟩ := resolved
        have counted := openFrame_counted ran
        rwa [show counter dec' = counter t.dec from same] at counted

end

/-- The frames told are among those opened before the ones still counted. -/
structure Fair (t : Tally) : Prop where
  few : t.dec.frameCount < frmRes t.dec.mtype
  told : ∃ settled pending, t.opened = settled ++ pending ∧ pending.length = t.dec.frameCount.toNat ∧
    ∀ csrc, toldFor t.told csrc ≤ settled.count csrc

section
variable {t' : Tally} {mtype : MediaType}

theorem pending_eq {settled pending : List UInt32} (split : t.opened = settled ++ pending)
    (length : pending.length = t.dec.frameCount.toNat) : t.pending = pending := by
  rw [Tally.pending, split, length_append, ← length, Nat.add_sub_cancel, drop_left]

theorem frmRes_le : (frmRes mtype).toNat ≤ 50 := by
  cases mtype <;> decide

theorem frmRes_pos : 0 < frmRes mtype := by
  cases mtype <;> decide

theorem toldFor_append {told told' : List Count} :
    toldFor (told ++ told') csrc = toldFor told csrc + toldFor told' csrc := by
  simp [toldFor]

theorem receive_fair (settled : Settled a t) (fair : Fair t) (received : receive a t = some t') : Fair t' := by
  obtain ⟨d, ran, rfl⟩ := map_eq_some_iff.mp received
  obtain ⟨before, pending, split, length, told⟩ := fair.told
  have small : t.dec.frameCount.toNat < 50 := lt_of_lt_of_le fair.few frmRes_le
  have next : (t.dec.frameCount + 1).toNat = t.dec.frameCount.toNat + 1 := by
    rw [UInt32.toNat_add, Nat.mod_eq_of_lt (by simp; omega)]
    rfl
  cases decrypt_counted settled ran with
  | unopened shut count counted =>
    obtain ⟨count, media⟩ := Prod.mk.inj count
    refine ⟨by simpa [count, media] using fair.few, before, pending, ?_, ?_, ?_⟩
    · simpa [shut] using split
    · simpa [count] using length
    · simpa [counted] using told
  | added open_ few count counted =>
    obtain ⟨count, media⟩ := Prod.mk.inj count
    refine ⟨by simpa [count, media] using few, before, pending ++ [a.sender], ?_, ?_, ?_⟩
    · simp [open_, split]
    · simp only [count]
      rw [length_append, length, length_singleton, ← next]
      rfl
    · simpa [counted] using told
  | told open_ enough count err counted =>
    obtain ⟨count, media⟩ := Prod.mk.inj count
    refine ⟨by simpa [count, media] using frmRes_pos, t.opened ++ [a.sender], [], ?_, ?_, ?_⟩
    · simp [open_]
    · simp [count]
    · intro csrc
      have own : ∀ c ∈ pending, c = a.sender := pending_eq split length ▸ settled.2 enough
      rw [toldFor_append, split]
      have before_ := told csrc
      by_cases same : a.sender = csrc
      · have all : pending.count csrc = t.dec.frameCount.toNat := by
          rw [count_eq_length.mpr (fun c member => (same ▸ own c member).symm), length]
        have last : toldFor d.counted csrc = t.dec.frameCount.toNat + 1 := by
          simp [toldFor, counted, same, next, counter]
        simp only [count_append, count_singleton, same, beq_self_eq_true, if_true, all, last]
        omega
      · have last : toldFor d.counted csrc = 0 := by simp [toldFor, counted, same]
        simp only [count_append, last]
        omega

end

/-- In every run in which the sender changes only while no frame is counted and a count is completed only by frames of
    one csrc, peerflow is told of at most as many frames of each csrc as were opened. -/
theorem counts_attributed (dec : Decryptor) (new : dec.frameCount = 0) (arrivals : List Arrival) (t : Tally)
    (settled : Throughout receive ⟨dec, [], []⟩ arrivals Settled)
    (ran : run receive ⟨dec, [], []⟩ arrivals = some t) (csrc : UInt32) :
    toldFor t.told csrc ≤ t.opened.count csrc := by
  have start : Fair ⟨dec, [], []⟩ :=
    ⟨new ▸ frmRes_pos, [], [], rfl, by simp [new], fun _ => Nat.le_refl _⟩
  have fair := run_throughout (fun _ _ _ settled fair received => receive_fair settled fair received) settled start
    ran
  obtain ⟨before, pending, split, -, told⟩ := fair.told
  rw [split, count_append]
  exact Nat.le_add_right_of_le (told csrc)

def genuine (csrc : UInt32) : Arrival where
  aead := { refusingAead with gcmDecrypt := fun _ => some [] }
  hkdf := shiftHkdf
  now := fun _ => 7
  pf := { getUseridForSsrc := fun _ _ => .ok "bob", incFrameCount := fun _ _ _ => none }
  ks := some singleKeystore
  csrc := csrc
  src := forgedFrame 1

theorem counts_attributed_two :
    ∃ t, run receive ⟨Decryptor.alloc .video, [], []⟩ (List.replicate 15 (genuine 7) ++ [genuine 9]) = some t ∧
      t.told = [⟨7, 15, none⟩] ∧ toldFor t.told 7 ≤ t.opened.count 7 := by
  refine exists_guarded Settled (fun t => t.told = [⟨7, 15, none⟩]) (by decide +kernel) fun t settled ran told => ?_
  exact ⟨told, counts_attributed _ rfl _ t settled ran 7⟩

/-- Two frames of one csrc are told as frames of the next. -/
theorem counts_misattributed :
    ∃ t, run receive ⟨Decryptor.alloc .video, [], []⟩ [genuine 1, genuine 1, genuine 2] = some t ∧
      t.opened = [1, 1, 2] ∧ t.told = [⟨2, 2, none⟩] ∧ t.opened.count 2 < toldFor t.told 2 := by
  refine exists_shown (fun t => t.opened = [1, 1, 2] ∧ t.told = [⟨2, 2, none⟩]) (by decide +kernel)
    fun t _ shown => ?_
  obtain ⟨opened, told⟩ := shown
  exact ⟨opened, told, by rw [opened, told]; decide⟩

end Avs.FrameReception
