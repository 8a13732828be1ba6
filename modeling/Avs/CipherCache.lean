import Avs.FrameLookup

/-!
The cached cipher contexts of an encryptor and a decryptor beside the keystore they were made from. A keystore
can drop keys and put another key under an index it has; the encryptor notices by the key id and a time stamp
in milliseconds, the decryptor by the key id only. A link is all three, with frames and keystore operations in
any order.
-/
namespace Avs.CipherCache
open Avs.FrameCrypt List Option Runs Keystore
open Avs.FrameHdr (Header frameHdrRead)
open Avs.Keystore (Op Valid apply copyOut currentKey getCurrent getMediaKey handOut number setDecryptAttempted
  setDecryptSuccessful shiftHkdf)

def held (ks : Keystore) (index : UInt32) : Option Bytes :=
  (ks.keyl.find? (fun k => k.index = index)).map (fun k => copyOut sessionKeySize k.mkey)

structure Link where
  ks : Keystore
  enc : Encryptor
  dec : Decryptor

inductive Event
  | keystore (op : Op)
  | encrypt (now : Nat → UInt64) (ssrc : UInt32) (src : Bytes)
  | decrypt (now : Nat → UInt64) (pf : Option Peerflow) (csrc : UInt32) (src : Bytes)

/-- The link after an event. The keystore of a link is never null. -/
def step (aead : Aead) (hkdf : Hkdf) : Event → Link → Option Link
  | .keystore op, st => (apply hkdf op st.ks).map (fun ks => { st with ks := ks })
  | .encrypt now ssrc src, st =>
    (encrypt aead hkdf now (some st.ks) st.enc ssrc src).map (fun (enc, ks, _) =>
      { st with ks := ks.getD st.ks, enc := enc })
  | .decrypt now pf csrc src, st =>
    (decrypt aead hkdf now pf (some st.ks) st.dec csrc src).map (fun r =>
      { st with ks := r.ks.getD st.ks, dec := r.dec })

/-- The key of a frame is the one held for its key id: for a sealed frame, and for a frame on which an opening was
    tried. -/
def Uses (aead : Aead) (hkdf : Hkdf) : Event → Link → Prop
  | .keystore _, _ => True
  | .encrypt now ssrc src, st => ∀ enc ks s,
      encrypt aead hkdf now (some st.ks) st.enc ssrc src = some (enc, ks, .ok s) →
      ks = some st.ks ∧ ∃ index : UInt32, s.kid = index.toUInt64 ∧ held st.ks index = some s.key
  | .decrypt now pf csrc src, st => ∀ r call, decrypt aead hkdf now pf (some st.ks) st.dec csrc src = some r →
      r.opened = some call → ∃ hdr ks, ∃ index : UInt32, frameHdrRead src = .ok hdr ∧ hdr.key = index.toUInt64 ∧
        r.ks = some ks ∧ held ks index = some call.key

/-- The clock has not gone back, and no other key has come under the index of the encryptor's context in the millisecond
    of its time stamp. -/
structure Noticed (st : Link) (ks : Keystore) : Prop where
  clock : st.ks.updateTs ≤ ks.updateTs
  other : st.enc.ctx.isSome → ks.updateTs = st.enc.updatedTs →
    held ks st.enc.kidx.toUInt32 = none ∨ held ks st.enc.kidx.toUInt32 = held st.ks st.enc.kidx.toUInt32

def Kept (st : Link) (ks : Keystore) : Prop := st.dec.ctx.isSome → held ks st.dec.kidx = held st.ks st.dec.kidx

/-- An operation is noticed by the encryptor and keeps the decryptor's key: a new salt where the clock has not gone
    back, a reset where the decryptor has no key that is held. What the others do depends on the keys. -/
def OpApart (hkdf : Hkdf) : Op → Link → Prop
  | .setSalt salt now, st => salt.isSome → st.ks.updateTs ≤ now
  | .reset, st | .resetKeys, st => st.dec.ctx.isSome → held st.ks st.dec.kidx = none
  | op, st => ∀ ks ∈ apply hkdf op st.ks, Noticed st ks ∧ Kept st ks

/-- So is the lookup for a received frame, whose key id has 32 bits. -/
def Apart (hkdf : Hkdf) : Event → Link → Prop
  | .keystore op, st => OpApart hkdf op st
  | .encrypt _ _ _, _ => True
  | .decrypt now _ _ src, st => ∀ hdr ∈ (frameHdrRead src).toOption, hdr.key = hdr.key.toUInt32.toUInt64 ∧
      (cached st.dec hdr.key = none →
        ∀ looked ∈ getMediaKey hkdf now st.ks hdr.key.toUInt32 sessionKeySize, Noticed st looked.1)

instance (st : Link) (ks : Keystore) : Decidable (Noticed st ks) :=
  decidable_of_iff (_ ∧ _) ⟨fun ⟨clock, other⟩ => ⟨clock, other⟩, fun noticed => ⟨noticed.clock, noticed.other⟩⟩

instance (st : Link) (ks : Keystore) : Decidable (Kept st ks) := inferInstanceAs (Decidable (_ → _))

instance (hkdf : Hkdf) (op : Op) (st : Link) : Decidable (OpApart hkdf op st) := by
  unfold OpApart
  split <;> infer_instance

instance (hkdf : Hkdf) (event : Event) (st : Link) : Decidable (Apart hkdf event st) := by
  unfold Apart
  split <;> infer_instance

variable {aead : Aead} {ks ks₂ : Keystore} {ks' : Keystore} {hkdf : Hkdf} {now : Nat → UInt64} {index ssrc : UInt32}
  {key src : Bytes} {enc : Encryptor} {dec dec' : Decryptor} {st : Link} {k : KeyInfo} {ts : UInt64}
  {answer : Except Errno Bytes} {r : Decrypted} {event : Event}

theorem held_of_mem (member : k ∈ ks.keyl) : ∃ key, held ks k.index = some key := by
  rw [← isSome_iff_exists, held, isSome_map, List.find?_isSome]
  exact ⟨k, member, by simp⟩

theorem held_valid (valid : Valid ks) (member : k ∈ ks.keyl) :
    held ks k.index = some (copyOut sessionKeySize k.mkey) := by
  rw [held, find_valid valid member, map_some]

theorem getMediaKey_held (valid : Valid ks)
    (looked : getMediaKey hkdf now ks index sessionKeySize = some (ks', .ok key)) : held ks' index = some key := by
  have looked := getMediaKey_looked valid looked
  obtain ⟨k, member, rfl, rfl⟩ := looked.answered
  exact held_valid (valid_advance looked.advance) member

theorem getCurrent_held (got : getCurrent ks = some (.ok (index, ts))) :
    ts = ks.updateTs ∧ ∃ key, held ks index = some key := by
  obtain ⟨current, points, is⟩ := map_eq_some_iff.mp got
  cases current with
  | none => cases is
  | some c =>
    simp only [Except.ok.injEq, Prod.mk.injEq] at is
    obtain ⟨rfl, rfl⟩ := is
    exact ⟨rfl, held_of_mem (currentKey_mem points).1⟩

theorem getMediaKey_current (got : getCurrent ks = some (.ok (index, ts)))
    (looked : getMediaKey hkdf now ks index sessionKeySize = some (ks', answer)) :
    ks' = ks ∧ ∃ key, answer = .ok key ∧ held ks index = some key := by
  obtain ⟨_, key, isHeld⟩ := getCurrent_held got
  obtain ⟨k, found, rfl⟩ := map_eq_some_iff.mp isHeld
  obtain ⟨current, points, is⟩ := map_eq_some_iff.mp got
  obtain rfl : k.index = index := by simpa using List.find?_some found
  simp only [getMediaKey, found, points, map_some, some.injEq] at looked
  cases current with
  | none => cases is
  | some c =>
    simp only [Except.ok.injEq, Prod.mk.injEq] at is
    have notAbove : ¬ (some c).all (fun c => c.index < k.index) = true := by simp [is.1]
    rw [handOut, if_neg notAbove, Prod.mk.injEq] at looked
    exact ⟨looked.1.symm, _, looked.2.symm, isHeld⟩

/-- An encryptor's context is not of a later time than the keystore's stamp, and with that stamp it is of the key held,
    if one is held. -/
def Fresh (ks : Keystore) (enc : Encryptor) : Prop :=
  ∀ key, enc.ctx = some key → enc.updatedTs ≤ ks.updateTs ∧
    (enc.updatedTs = ks.updateTs → ∀ key', held ks enc.kidx.toUInt32 = some key' → key' = key)

theorem fresh_uncached (uncached : enc.ctx = none) : Fresh ks enc := by
  intro key cached
  rw [uncached] at cached
  cases cached

theorem sealFrame_fresh (fresh : Fresh ks enc) (isHeld : held ks index = some key) :
    Fresh ks (sealFrame aead enc key index.toUInt64 ssrc src).1 ∧
      ∀ s, (sealFrame aead enc key index.toUInt64 ssrc src).2 = .ok s →
        ∃ index : UInt32, s.kid = index.toUInt64 ∧ held ks index = some s.key := by
  unfold sealFrame
  simp only
  split
  · exact ⟨fresh, by simp⟩
  · refine ⟨fresh, ?_⟩
    intro s isSealed
    cases isSealed
    exact ⟨index, rfl, isHeld⟩

theorem encrypt_fresh {enc' : Encryptor} {ks' : Option Keystore} {answer : Except Errno Sealed} (fresh : Fresh ks enc)
    (ran : encrypt aead hkdf now (some ks) enc ssrc src = some (enc', ks', answer)) :
    ks' = some ks ∧ Fresh ks enc' ∧ ∀ s, answer = .ok s → ∃ index : UInt32, s.kid = index.toUInt64 ∧
      held ks index = some s.key := by
  unfold encrypt at ran
  simp only at ran
  split at ran
  · cases ran
  · cases ran
    exact ⟨rfl, fresh, by simp⟩
  · rename_i kid ts got
    obtain ⟨rfl, key₀, isHeld⟩ := getCurrent_held got
    split at ran
    · rename_i key isCached
      split at isCached
      · cases isCached
      · rename_i same
        simp only [ne_eq, not_or, not_not] at same
        obtain ⟨sameKid, sameTs⟩ := same
        obtain rfl : key₀ = key := by
          refine (fresh key isCached).2 sameTs.symm key₀ ?_
          rw [← sameKid, UInt32.toUInt32_toUInt64]
          exact isHeld
        cases ran
        exact ⟨rfl, sealFrame_fresh fresh isHeld⟩
    · split at ran
      · cases ran
      · rename_i looked
        obtain ⟨_, key, isError, _⟩ := getMediaKey_current got looked
        cases isError
      · rename_i ks₁ key looked
        obtain ⟨rfl, key', isKey, isHeld'⟩ := getMediaKey_current got looked
        cases isKey
        cases ran
        refine ⟨rfl, sealFrame_fresh ?_ isHeld'⟩
        intro key' cached
        cases cached
        refine ⟨UInt64.le_refl _, fun _ key' isHeld'' => ?_⟩
        rw [UInt32.toUInt32_toUInt64, isHeld'] at isHeld''
        exact (some.inj isHeld'').symm

def Backed (ks : Keystore) (dec : Decryptor) : Prop := ∀ key, dec.ctx = some key → held ks dec.kidx = some key

theorem backed_uncached (uncached : dec.ctx = none) : Backed ks dec := by
  intro key cached
  rw [uncached] at cached
  cases cached

/-- The same keystore but for the decryption flags. -/
def Flagged (ks ks' : Keystore) : Prop :=
  ∃ attempted successful, ks' = { ks with decryptAttempted := attempted, decryptSuccessful := successful }

theorem flagged_refl : Flagged ks ks := ⟨ks.decryptAttempted, ks.decryptSuccessful, rfl⟩

theorem flagged_attempted : Flagged ks (setDecryptAttempted ks) := ⟨true, ks.decryptSuccessful, rfl⟩

theorem Flagged.successful (flagged : Flagged ks ks') : Flagged ks (setDecryptSuccessful ks') := by
  obtain ⟨attempted, successful, rfl⟩ := flagged
  exact ⟨attempted, true, rfl⟩

theorem Flagged.valid (flagged : Flagged ks ks') (valid : Valid ks) : Valid ks' := by
  obtain ⟨attempted, successful, rfl⟩ := flagged
  exact valid_frame valid rfl rfl rfl (Nat.le_refl _)

theorem Flagged.held (flagged : Flagged ks ks') (index : UInt32) : held ks' index = CipherCache.held ks index := by
  obtain ⟨attempted, successful, rfl⟩ := flagged
  rfl

theorem Flagged.updateTs (flagged : Flagged ks ks') : ks'.updateTs = ks.updateTs := by
  obtain ⟨attempted, successful, rfl⟩ := flagged
  rfl

/-- What a received frame makes of the keystore and of the decryptor. -/
structure Received (hkdf : Hkdf) (now : Nat → UInt64) (ks : Keystore) (dec : Decryptor) (src : Bytes) (r : Decrypted)
    (ks' : Keystore) : Prop where
  keystore : r.ks = some ks'
  change : Flagged ks ks' ∨ ∃ hdr looked, frameHdrRead src = .ok hdr ∧ cached dec hdr.key = none ∧
    getMediaKey hkdf now ks hdr.key.toUInt32 sessionKeySize = some looked ∧ Flagged looked.1 ks'
  valid : Valid ks'
  backed : Backed ks' r.dec
  opened : ∀ call, r.opened = some call → ∃ hdr, frameHdrRead src = .ok hdr ∧
    held ks' hdr.key.toUInt32 = some call.key

theorem before_flagged {ks' : Option Keystore}
    (before : Before dec (some ks) dec' ks') : ∃ ks₁, ks' = some ks₁ ∧ Flagged ks ks₁ := by
  rcases before.ks with same | attempted
  · exact ⟨ks, same, flagged_refl⟩
  · exact ⟨setDecryptAttempted ks, attempted, flagged_attempted⟩

theorem left_flagged (flagged : Flagged ks ks₂) (left : r.ks = some ks₂ ∨ r.ks = (some ks₂).map setDecryptSuccessful) :
    ∃ ks', r.ks = some ks' ∧ Flagged ks ks' := by
  rcases left with left | left
  · exact ⟨ks₂, left, flagged⟩
  · exact ⟨setDecryptSuccessful ks₂, left, flagged.successful⟩

theorem looked_flagged {ks₁ : Keystore} (before : Before dec (some ks) dec' (some ks₁))
    (looked : getMediaKey hkdf now ks₁ index sessionKeySize = some (ks₂, answer)) :
    ∃ looked₀, getMediaKey hkdf now ks index sessionKeySize = some (looked₀, answer) ∧ Flagged looked₀ ks₂ := by
  obtain ⟨ks₀, looked₀, isKs, found, after⟩ := before.looked looked
  cases isKs
  rcases after with rfl | rfl
  · exact ⟨_, found, flagged_refl⟩
  · exact ⟨_, found, flagged_attempted⟩

theorem cached_some {kid : UInt64} (isCached : cached dec kid = some key) :
    kid.toUInt32 = dec.kidx ∧ dec.ctx = some key := by
  unfold cached at isCached
  split at isCached
  · cases isCached
  · next same => exact ⟨by rw [not_not.mp same, UInt32.toUInt32_toUInt64], isCached⟩

theorem decrypt_received {pf : Option Peerflow} {csrc : UInt32} (valid : Valid ks) (backed : Backed ks dec)
    (ran : decrypt aead hkdf now pf (some ks) dec csrc src = some r) : ∃ ks', Received hkdf now ks dec src r ks' := by
  cases decrypt_ends ran with
  | early dec' before unopened dropped =>
    obtain ⟨ks', isKs, flagged⟩ := before_flagged before
    exact ⟨ks', isKs, .inl flagged, flagged.valid valid, backed_uncached dropped, by simp [unopened]⟩
  | late hdr read dec₁ dec₂ ks₁ ks₂ key before ciphered opened kidx ctx left =>
    obtain ⟨ks₁', rfl, flagged₁⟩ := before_flagged before
    cases ciphered with
    | cached key isCached same =>
      obtain ⟨ks', isKs, flagged⟩ := left_flagged flagged₁ left
      subst same
      rw [before.cached] at isCached
      have isHeld := cached_some isCached
      refine ⟨ks', isKs, .inl flagged, flagged.valid valid, ?_, ?_⟩
      · intro key' isKey'
        rw [flagged.held, kidx, before.kidx]
        refine backed key' ?_
        rcases ctx with none_ | same
        · rw [none_] at isKey'
          cases isKey'
        · rw [← before.ctx, ← same, isKey']
      · intro call isCall
        rw [isCall] at opened
        cases opened
        exact ⟨hdr, read, by rw [flagged.held, isHeld.1, backed _ isHeld.2]⟩
    | null isNull dropped => cases isNull
    | missing ks₀ ks₂' err uncached isKs looked dropped =>
      cases isKs
      obtain ⟨looked₀, found, flagged₀⟩ := looked_flagged before looked
      obtain ⟨ks', isKs', flagged⟩ := left_flagged flagged₀ left
      have valid₀ := valid_advance (getMediaKey_looked valid found).advance
      rw [before.cached] at uncached
      refine ⟨ks', isKs', .inr ⟨hdr, _, read, uncached, found, flagged⟩, flagged.valid valid₀, ?_, ?_⟩
      · subst dropped
        rcases ctx with none_ | none_
        · exact backed_uncached none_
        · exact backed_uncached none_
      · intro call isCall
        rw [isCall] at opened
        cases opened
    | looked ks₀ ks₂' key uncached isKs looked made =>
      cases isKs
      obtain ⟨looked₀, found, flagged₀⟩ := looked_flagged before looked
      obtain ⟨ks', isKs', flagged⟩ := left_flagged flagged₀ left
      have valid₀ := valid_advance (getMediaKey_looked valid found).advance
      have isHeld : held ks' hdr.key.toUInt32 = some key := (flagged.held _).trans (getMediaKey_held valid found)
      rw [before.cached] at uncached
      refine ⟨ks', isKs', .inr ⟨hdr, _, read, uncached, found, flagged⟩, flagged.valid valid₀, ?_, ?_⟩
      · subst made
        rcases ctx with none_ | some_
        · exact backed_uncached none_
        · intro key' isKey'
          rw [some_] at isKey'
          cases isKey'
          rw [kidx]
          exact isHeld
      · intro call isCall
        rw [isCall] at opened
        cases opened
        exact ⟨hdr, read, isHeld⟩

/-- What holds of a link at every moment. -/
structure Inv (st : Link) : Prop where
  valid : Valid st.ks
  fresh : Fresh st.ks st.enc
  backed : Backed st.ks st.dec

theorem fresh_noticed (fresh : Fresh st.ks st.enc) (noticed : Noticed st ks) : Fresh ks st.enc := by
  intro key cached
  obtain ⟨before, same⟩ := fresh key cached
  refine ⟨UInt64.le_trans before noticed.clock, ?_⟩
  intro stamp key' isHeld
  have unmoved : st.enc.updatedTs = st.ks.updateTs :=
    UInt64.le_antisymm before (by rw [stamp]; exact noticed.clock)
  rcases noticed.other (by rw [cached]; rfl) stamp.symm with gone | stays
  · rw [gone] at isHeld
    cases isHeld
  · exact same unmoved key' (by rw [← stays, isHeld])

theorem backed_kept (backed : Backed st.ks st.dec) (kept : Kept st ks) : Backed ks st.dec := by
  intro key cached
  rw [kept (by rw [cached]; rfl), backed key cached]

theorem apart_applied {op : Op} (apart : OpApart hkdf op st) (applied : apply hkdf op st.ks = some ks) :
    Noticed st ks ∧ Kept st ks := by
  have emptied : (st.dec.ctx.isSome → held st.ks st.dec.kidx = none) → ks.keyl = [] → ks.updateTs = st.ks.updateTs →
      Noticed st ks ∧ Kept st ks := by
    intro unused empty stamp
    have gone : ∀ index, held ks index = none := fun index => by rw [held, empty, List.find?_nil, map_none]
    exact ⟨⟨stamp ▸ UInt64.le_refl _, fun _ _ => .inl (gone _)⟩, fun cached => (gone _).trans (unused cached).symm⟩
  cases op with
  | setSalt salt now =>
    obtain rfl := some.inj applied
    cases salt with
    | none => exact ⟨⟨UInt64.le_refl _, fun _ _ => .inr rfl⟩, fun _ => rfl⟩
    | some bytes => exact ⟨⟨apart rfl, fun _ _ => .inr rfl⟩, fun _ => rfl⟩
  | reset | resetKeys =>
    obtain rfl := some.inj applied
    exact emptied apart rfl rfl
  | _ => exact apart ks applied

theorem step_inv {st' : Link} (apart : Apart hkdf event st)
    (inv : Inv st) (stepped : step aead hkdf event st = some st') : Inv st' := by
  cases event with
  | keystore op =>
    obtain ⟨ks, applied, rfl⟩ := map_eq_some_iff.mp stepped
    obtain ⟨noticed, kept⟩ := apart_applied apart applied
    have fresh := fresh_noticed inv.fresh noticed
    have backed := backed_kept inv.backed kept
    exact ⟨apply_valid inv.valid applied, fresh, backed⟩
  | encrypt now ssrc src =>
    obtain ⟨⟨enc, ks, answer⟩, ran, rfl⟩ := map_eq_some_iff.mp stepped
    obtain ⟨rfl, fresh, _⟩ := encrypt_fresh inv.fresh ran
    exact ⟨inv.valid, fresh, inv.backed⟩
  | decrypt now pf csrc src =>
    obtain ⟨r, ran, rfl⟩ := map_eq_some_iff.mp stepped
    obtain ⟨ks, received⟩ := decrypt_received inv.valid inv.backed ran
    have fresh : Fresh ks st.enc := by
      rcases received.change with flagged | ⟨hdr, looked, read, uncached, found, flagged⟩
      · refine fresh_noticed inv.fresh ⟨by rw [flagged.updateTs]; exact UInt64.le_refl _, fun _ _ => .inr ?_⟩
        exact flagged.held _
      · have noticed := (apart hdr (by rw [read]; rfl)).2 uncached looked found
        refine fresh_noticed inv.fresh ⟨by rw [flagged.updateTs]; exact noticed.clock, ?_⟩
        rw [flagged.updateTs, flagged.held]
        exact noticed.other
    simp only [received.keystore, getD_some]
    exact ⟨received.valid, fresh, received.backed⟩

theorem uses_of_inv (apart : Apart hkdf event st) (inv : Inv st) : Uses aead hkdf event st := by
  cases event with
  | keystore op => trivial
  | encrypt now ssrc src =>
    intro enc ks s ran
    obtain ⟨isKs, _, sealed⟩ := encrypt_fresh inv.fresh ran
    exact ⟨isKs, sealed s rfl⟩
  | decrypt now pf csrc src =>
    intro r call ran opened
    obtain ⟨ks, received⟩ := decrypt_received inv.valid inv.backed ran
    obtain ⟨hdr, read, isHeld⟩ := received.opened call opened
    exact ⟨hdr, ks, hdr.key.toUInt32, read, (apart hdr (by rw [read]; rfl)).1, received.keystore, isHeld⟩

/-- As long as the keystore changes nothing behind a cached context unnoticed, every frame of every run is sealed or
    opened with the key held for its key id at that moment. -/
theorem caching_transparent (aead : Aead) (hkdf : Hkdf) (start : Link) (events : List Event)
    (valid : Valid start.ks) (noEnc : start.enc.ctx = none) (noDec : start.dec.ctx = none)
    (apart : Throughout (step aead hkdf) start events (Apart hkdf)) :
    Throughout (step aead hkdf) start events (Uses aead hkdf) := by
  intro front event back mid split reached
  have inv : Inv mid := by
    refine run_throughout (fun _ _ _ => step_inv) ?_ ⟨valid, fresh_uncached noEnc, backed_uncached noDec⟩ reached
    rw [split] at apart
    exact throughout_front apart
  exact uses_of_inv (apart front event back mid split reached) inv

/-- An AES-GCM that takes every frame for authentic. -/
def trustingAead : Aead where
  gcmEncrypt _ _ _ payload := .ok (payload, List.replicate tagSize 0)
  gcmDecrypt _ := some []

def linkStart : Link where
  ks := Keystore.alloc true 0
  enc := Encryptor.alloc "alice" .audio 0
  dec := namedDecryptor

def setKey (index : UInt32) (byte : UInt8) (now : UInt64) : Event :=
  .keystore (.setSessionKey index (List.replicate 32 byte) now)

def sendFrame : Event := .encrypt (fun _ => 9) 0 [1]

def receiveFrame (kid : UInt64) : Event := .decrypt (fun _ => 9) none 0 (forgedFrame kid)

/-- Key 0 is replaced after a frame of it was opened, and the next frame is opened with the key of before. Key 0 is
    replaced in the millisecond in which it was set and a frame sealed, and the next frame is sealed with the key of
    before. -/
theorem stale_contexts : (∃ st r call,
      run (step trustingAead shiftHkdf) linkStart [setKey 0 1 5, receiveFrame 0, setKey 0 2 6] = some st ∧
      decrypt trustingAead shiftHkdf (fun _ => 9) none (some st.ks) st.dec 0 (forgedFrame 0) = some r ∧
      r.answer = .ok [] ∧ r.opened = some call ∧ call.key = List.replicate 32 110 ∧
      held st.ks 0 = some (List.replicate 32 111)) ∧
    ∃ st enc ks s, run (step trustingAead shiftHkdf) linkStart [setKey 0 1 5, sendFrame, setKey 0 2 5] = some st ∧
      encrypt trustingAead shiftHkdf (fun _ => 9) (some st.ks) st.enc 0 [1] = some (enc, ks, .ok s) ∧
      s.kid = 0 ∧ s.key = List.replicate 32 110 ∧ held st.ks 0 = some (List.replicate 32 111) := by
  constructor
  · simp only [exists_and_left]
    decide +kernel
  · have shown : ∃ st, run (step trustingAead shiftHkdf) linkStart [setKey 0 1 5, sendFrame, setKey 0 2 5] = some st ∧
        ∃ r, encrypt trustingAead shiftHkdf (fun _ => 9) (some st.ks) st.enc 0 [1] = some r ∧
          ∃ s, r.2.2.toOption = some s ∧ s.kid = 0 ∧ s.key = List.replicate 32 110 ∧
            held st.ks 0 = some (List.replicate 32 111) := by decide +kernel
    obtain ⟨st, ran, ⟨enc, ks, answer⟩, encrypted, s, sealed, is⟩ := shown
    cases answer with
    | error err => cases sealed
    | ok s' => exact ⟨st, enc, ks, s', ran, encrypted, some.inj sealed ▸ is⟩

def replacingEvents : List Event :=
  [setKey 0 1 5, sendFrame, setKey 0 2 6, sendFrame, receiveFrame 0, setKey 1 3 6, receiveFrame 1, sendFrame]

/-- Key 0 is replaced a millisecond after a frame was sealed with it and before one is received; later key 1 comes and
    its frame moves the keystore on. -/
theorem caching_transparent_replaced : (run (step trustingAead shiftHkdf) linkStart replacingEvents).isSome ∧
      Throughout (step trustingAead shiftHkdf) linkStart replacingEvents (Uses trustingAead shiftHkdf) := by
  have ran : (run (guarded (step trustingAead shiftHkdf) (Apart shiftHkdf)) linkStart
      replacingEvents).isSome = true := by decide +kernel
  obtain ⟨st, ran⟩ := isSome_iff_exists.mp ran
  obtain ⟨apart, ran⟩ := run_guarded ran
  refine ⟨by rw [ran]; rfl, ?_⟩
  exact caching_transparent trustingAead shiftHkdf linkStart _ (valid_alloc true 0) rfl rfl apart

end Avs.CipherCache
