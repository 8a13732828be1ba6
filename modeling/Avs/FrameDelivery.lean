import Mathlib.Logic.Function.Basic
import Avs.FrameCrypt
import Avs.Runs

/-!
Frames from several senders to one receiver, whose one decryptor is handed byte strings of any origin in any
order. Every call finds its keystore in whatever state it has then. The decryptor keeps an IV, a csrc and a
cipher context from frame to frame; that the IV belongs to the csrc of a known sender, and the cached key to
the cached index (`DecOk`), survives every frame and every exit.
-/
namespace Avs.FrameDelivery
open Avs.FrameCrypt List Option Runs
open Avs.FrameHdr (Header frameHdrWrite frameHdrRead frameHdrMaxSize frameHdrRead_frameHdrWrite)
open Avs.Keystore (getCurrent getMediaKey generateIv setDecryptAttempted)

structure Sender where
  ssrc : UInt32
  hash : String
  nonzero : ssrc ≠ 0

/-- A frame that was encrypted: its sender, its payload and what was sealed. -/
structure Sent (ι : Type) where
  sender : ι
  payload : Bytes
  sealed : Sealed

structure State (ι : Type) where
  encs : ι → Encryptor
  dec : Decryptor
  sent : List (Sent ι)

inductive Event (ι : Type)
  | send (sender : ι) (ks : Keystore) (now : Nat → UInt64) (payload : Bytes)
  | recv (ks : Keystore) (now : Nat → UInt64) (pf : Peerflow) (csrc : UInt32) (src : Bytes)

section
variable {ι : Type} [DecidableEq ι] (aead : Aead) (hkdf : Hkdf) (senders : ι → Sender) (mtype : MediaType)

def step : Event ι → State ι → Option (State ι)
  | .send s ks now payload, st =>
    match encrypt aead hkdf now (some ks) (st.encs s) (senders s).ssrc payload with
    | none => none
    | some (enc, _, .error _) => some { st with encs := Function.update st.encs s enc }
    | some (enc, _, .ok sealed) =>
      some { st with encs := Function.update st.encs s enc, sent := st.sent ++ [⟨s, payload, sealed⟩] }
  | .recv ks now pf csrc src, st =>
    (decrypt aead hkdf now (some pf) (some ks) st.dec csrc src).map (fun d => { st with dec := d.dec })

/-- Every sender with its keystore set, and a fresh decryptor. -/
structure Starts (st : State ι) : Prop where
  encs : ∀ s, ∃ fstart, (Encryptor.alloc (senders s).hash mtype fstart).setKeystore hkdf = (st.encs s, none)
  dec : st.dec = Decryptor.alloc mtype
  sent : st.sent = []

def Gives (ks : Keystore) (index : UInt32) (key : Bytes) : Prop :=
  ∃ now ks', getMediaKey hkdf now ks index sessionKeySize = some (ks', .ok key)

/-- Peerflow knows every sender's csrc and takes its frame counts. -/
def Knows (pf : Peerflow) : Prop :=
  ∀ s, pf.getUseridForSsrc (mtype = .video) (senders s).ssrc = .ok (senders s).hash ∧
    ∀ frames, pf.incFrameCount (mtype = .video) (senders s).ssrc frames = none

/-- Keystores of senders and of the receiver never give different keys for an index. -/
def Agree (Sending Receiving : Keystore → Prop) : Prop :=
  ∀ ks ks' index key key', Sending ks → Receiving ks' → Gives hkdf ks index key → Gives hkdf ks' index key' → key = key'

/-- The events of a run: each end uses its own keystore, and peerflow knows the senders. -/
def Allowed (Sending Receiving : Keystore → Prop) : Event ι → Prop
  | .send _ ks _ _ => Sending ks
  | .recv ks _ pf _ _ => Receiving ks ∧ Knows senders mtype pf

structure EncOk (Sending : Keystore → Prop) (s : ι) (enc : Encryptor) : Prop where
  iv : generateIv hkdf (senders s).hash (streamName mtype) ivSize = some enc.iv
  ctx : ∀ key, enc.ctx = some key → ∃ ks kid, Sending ks ∧ enc.kidx = kid.toUInt64 ∧ Gives hkdf ks kid key

structure SentOk (Sending : Keystore → Prop) (f : Sent ι) : Prop where
  sealed : aead.gcmEncrypt f.sealed.key f.sealed.iv f.sealed.header f.payload =
    .ok (f.sealed.ciphertext, f.sealed.tag)
  header : f.sealed.header =
    frameHdrWrite (maxSize f.payload.length) f.sealed.frameid f.sealed.kid (senders f.sender).ssrc
  frameid : f.sealed.frameid.toNat < 2 ^ 32
  kid : ∃ ks kid, Sending ks ∧ f.sealed.kid = kid.toUInt64 ∧ Gives hkdf ks kid f.sealed.key
  iv : ∃ base, generateIv hkdf (senders f.sender).hash (streamName mtype) ivSize = some base ∧
    f.sealed.iv = xorIv base f.sealed.frameid.toUInt32 f.sealed.kid.toUInt32

structure DecOk (Receiving : Keystore → Prop) (dec : Decryptor) : Prop where
  media : dec.mtype = mtype
  recv : dec.csrc ≠ 0 → dec.frameRecv = true
  iv : ∀ s, dec.csrc = (senders s).ssrc → generateIv hkdf (senders s).hash (streamName mtype) ivSize = some dec.iv
  ctx : ∀ key, dec.ctx = some key → ∃ ks, Receiving ks ∧ Gives hkdf ks dec.kidx key

structure Inv (Sending Receiving : Keystore → Prop) (st : State ι) : Prop where
  encs : ∀ s, EncOk hkdf senders mtype Sending s (st.encs s)
  dec : DecOk hkdf senders mtype Receiving st.dec
  sent : ∀ f ∈ st.sent, SentOk aead hkdf senders mtype Sending f

end

variable {ks : Keystore} {key : Bytes} {kid index : UInt32} {ks' : Option Keystore} {Sending : Keystore → Prop}

section
variable {ι : Type} {aead : Aead} {hkdf : Hkdf} {senders : ι → Sender} {mtype : MediaType} {enc : Encryptor}
  {payload : Bytes}

theorem frameid_masked (frameid : UInt64) : ((frameid + 1) &&& 0xFFFFFFFF).toNat < 2 ^ 32 := by
  rw [UInt64.toNat_and]
  exact Nat.lt_of_le_of_lt Nat.and_le_right (by decide)

theorem sealFrame_spec {s : ι} (ok : EncOk hkdf senders mtype Sending s enc) (frameid : enc.frameid.toNat < 2 ^ 32)
    (sending : Sending ks) (gives : Gives hkdf ks kid key) :
    EncOk hkdf senders mtype Sending s (sealFrame aead enc key kid.toUInt64 (senders s).ssrc payload).1 ∧
      ∀ sealed, (sealFrame aead enc key kid.toUInt64 (senders s).ssrc payload).2 = .ok sealed →
        SentOk aead hkdf senders mtype Sending ⟨s, payload, sealed⟩ := by
  unfold sealFrame
  cases made : aead.gcmEncrypt key (xorIv enc.iv enc.frameid.toUInt32 kid.toUInt64.toUInt32)
      (frameHdrWrite (maxSize payload.length) enc.frameid kid.toUInt64 (senders s).ssrc) payload with
  | error err => simp only [made]; exact ⟨ok, by simp⟩
  | ok result =>
    obtain ⟨ciphertext, tag⟩ := result
    simp only [made]
    refine ⟨⟨ok.iv, ok.ctx⟩, ?_⟩
    intro sealed isSealed
    cases isSealed
    exact ⟨made, rfl, frameid, ⟨ks, kid, sending, rfl, gives⟩, ⟨enc.iv, ok.iv, rfl⟩⟩

theorem encrypt_spec {s : ι} {enc' : Encryptor} {now : Nat → UInt64}
    {answer : Except Errno Sealed} (ok : EncOk hkdf senders mtype Sending s enc) (sending : Sending ks)
    (encrypted : encrypt aead hkdf now (some ks) enc (senders s).ssrc payload = some (enc', ks', answer)) :
    EncOk hkdf senders mtype Sending s enc' ∧
      ∀ sealed, answer = .ok sealed → SentOk aead hkdf senders mtype Sending ⟨s, payload, sealed⟩ := by
  have masked := frameid_masked enc.frameid
  unfold encrypt at encrypted
  simp only at encrypted
  split at encrypted
  · simp at encrypted
  · cases encrypted
    exact ⟨⟨ok.iv, ok.ctx⟩, by simp⟩
  · rename_i kid ts current
    split at encrypted
    · rename_i key cached
      split at cached
      · simp at cached
      · rename_i same
        simp only [not_or, not_not] at same
        obtain ⟨ks₀, kid₀, sending₀, kidx, gives⟩ := ok.ctx key cached
        have kid_eq : kid = kid₀ := by
          have := same.1.trans kidx
          exact UInt32.toUInt64_inj.mp this
        subst kid_eq
        cases encrypted
        exact sealFrame_spec ⟨ok.iv, ok.ctx⟩ masked sending₀ gives
    · split at encrypted
      · simp at encrypted
      · cases encrypted
        exact ⟨⟨ok.iv, by simp⟩, by simp⟩
      · rename_i ks₁ key looked
        cases encrypted
        have gives : Gives hkdf ks kid key := ⟨now, ks₁, looked⟩
        refine sealFrame_spec ⟨ok.iv, ?_⟩ masked sending gives
        intro key' isKey
        cases isKey
        exact ⟨ks, kid, sending, rfl, gives⟩

end

section
open Avs.Keystore (organise appendKey hashLoop hashToKey handOut hashForwardTo currentKey getLatest)
variable (hkdf : Hkdf) (now : Nat → UInt64)

theorem organise_attempted (ks : Keystore) : organise (setDecryptAttempted ks) = setDecryptAttempted (organise ks) := by
  rcases eq_none_or_eq_some ks.current with none_ | ⟨a, at_⟩
  · simp only [organise, setDecryptAttempted, none_]
  · simp only [organise, setDecryptAttempted, at_]

theorem appendKey_attempted (ks : Keystore) (kinfo : KeyInfo) :
    appendKey (setDecryptAttempted ks) kinfo = setDecryptAttempted (appendKey ks kinfo) :=
  organise_attempted { ks with keyl := ks.keyl ++ [kinfo] }

theorem hashLoop_attempted (index : UInt32) (n : Nat) : ∀ (ks : Keystore) (kinfo : KeyInfo),
    hashLoop hkdf now index n (setDecryptAttempted ks) kinfo =
      (setDecryptAttempted (hashLoop hkdf now index n ks kinfo).1, (hashLoop hkdf now index n ks kinfo).2) := by
  induction n with
  | zero => intro ks kinfo; rfl
  | succ n ih =>
    intro ks kinfo
    have salt : (setDecryptAttempted ks).salt = ks.salt := rfl
    by_cases more : kinfo.index < index
    · simp only [hashLoop, more, if_true, salt]
      cases session : Keystore.deriveSessionKey hkdf ks.salt kinfo.skey with
      | none => rfl
      | some skey =>
        simp only
        cases media : Keystore.deriveMediaKey hkdf ks.salt skey with
        | none => rfl
        | some mkey =>
          simp only
          rw [← ih]
          congr 1
          exact appendKey_attempted { ks with updateTs := now n, nextAddr := ks.nextAddr + 1 } _
    · simp only [hashLoop, more, if_false]

theorem hashToKey_attempted : hashToKey hkdf now (setDecryptAttempted ks) index =
      (setDecryptAttempted (hashToKey hkdf now ks index).1, (hashToKey hkdf now ks index).2) := by
  have latest : getLatest (setDecryptAttempted ks) = getLatest ks := rfl
  unfold hashToKey
  rw [latest]
  cases getLatest ks with
  | none => rfl
  | some kinfo => exact hashLoop_attempted hkdf now index _ ks kinfo

theorem handOut_attempted {current : Option KeyInfo} {kinfo : KeyInfo} {ksz : Nat} :
    handOut (setDecryptAttempted ks) current kinfo ksz =
      (setDecryptAttempted (handOut ks current kinfo ksz).1, (handOut ks current kinfo ksz).2) := by
  unfold handOut
  split
  · simp only [Prod.mk.injEq, and_true]
    exact organise_attempted { ks with current := some kinfo.addr }
  · rfl

theorem hashForwardTo_attempted (ks : Keystore) (index : UInt32) (ksz : Nat) :
    hashForwardTo hkdf now (setDecryptAttempted ks) index ksz =
      (hashForwardTo hkdf now ks index ksz).map (fun r => (setDecryptAttempted r.1, r.2)) := by
  unfold hashForwardTo
  rw [hashToKey_attempted]
  rcases hashToKey hkdf now ks index with ⟨ks', err⟩
  have latest : getLatest (setDecryptAttempted ks') = getLatest ks' := rfl
  have current : currentKey (setDecryptAttempted ks') = currentKey ks' := rfl
  cases err with
  | some err => rfl
  | none =>
    simp only [latest, current]
    cases getLatest ks' with
    | none => rfl
    | some kinfo =>
      rcases currentKey ks' with _ | _ | c
      · rfl
      · rfl
      · simp [handOut_attempted]

theorem getMediaKey_attempted (ks : Keystore) (index : UInt32) (ksz : Nat) :
    getMediaKey hkdf now (setDecryptAttempted ks) index ksz =
      (getMediaKey hkdf now ks index ksz).map (fun r => (setDecryptAttempted r.1, r.2)) := by
  have latest : getLatest (setDecryptAttempted ks) = getLatest ks := rfl
  have current : currentKey (setDecryptAttempted ks) = currentKey ks := rfl
  have keyl : (setDecryptAttempted ks).keyl = ks.keyl := rfl
  have forward : (setDecryptAttempted ks).hashForward = ks.hashForward := rfl
  unfold getMediaKey
  simp only [keyl, current, latest, forward]
  split
  · cases currentKey ks with
    | none => rfl
    | some c => simp [handOut_attempted]
  · split
    · split
      · rfl
      · split
        · exact hashForwardTo_attempted hkdf now { ks with errReported := false } index ksz
        · rfl
    · rfl

theorem gives_attempted (gives : Gives hkdf (setDecryptAttempted ks) index key) : Gives hkdf ks index key := by
  obtain ⟨now, ks', looked⟩ := gives
  rw [getMediaKey_attempted] at looked
  obtain ⟨⟨ks'', answer⟩, looked, same⟩ := map_eq_some_iff.mp looked
  simp only [Prod.mk.injEq] at same
  exact ⟨now, ks'', by rw [looked, same.2]⟩

end

section
variable {ι : Type} {aead : Aead} {hkdf : Hkdf} {senders : ι → Sender} {mtype : MediaType}
  {Receiving : Keystore → Prop} {dec dec' : Decryptor} {csrc : UInt32} {pf : Peerflow} {counted : List Count}
  {err : Option Errno} {src : Bytes} {d : Decrypted} {now : Nat → UInt64}

/-- The keystore a call goes on with gives the keys the call found. -/
def SameKeys (ks : Keystore) (ks' : Option Keystore) : Prop := ks' = some ks ∨ ks' = some (setDecryptAttempted ks)

theorem decOk_uncached (ok : DecOk hkdf senders mtype Receiving dec) :
    DecOk hkdf senders mtype Receiving { dec with ctx := none } :=
  ⟨ok.media, ok.recv, ok.iv, by simp⟩

theorem isVideo_eq (ok : DecOk hkdf senders mtype Receiving dec) : isVideo dec = decide (mtype = .video) := by
  simp only [isVideo, ok.media]

theorem identifyCsrc_cases (pf : Peerflow) (csrc : UInt32) (dec : Decryptor) :
    ∃ counted, (∃ err, identifyCsrc pf csrc dec = ({ dec with useridHash := none }, counted, .error err) ∧
        ((∃ frames, pf.incFrameCount (isVideo dec) csrc frames = some err) ∨
          pf.getUseridForSsrc (isVideo dec) csrc = .error err)) ∨
      ∃ hash, pf.getUseridForSsrc (isVideo dec) csrc = .ok hash ∧
        identifyCsrc pf csrc dec =
          ({ dec with useridHash := some hash, csrc := csrc, frameRecv := true, frameCount := 0 }, counted,
            .ok true) := by
  have video : isVideo { dec with useridHash := none } = isVideo dec := rfl
  unfold identifyCsrc
  simp only [video]
  split
  · rename_i err found
    refine ⟨_, .inl ⟨err, rfl, .inl ?_⟩⟩
    split at found
    · exact ⟨dec.frameCount, by simpa using found⟩
    · simp at found
  · split
    · rename_i err missing
      exact ⟨_, .inl ⟨err, rfl, .inr missing⟩⟩
    · rename_i hash known
      exact ⟨_, .inr ⟨hash, known, rfl⟩⟩

theorem prepareIv_cases (hkdf : Hkdf) (ks : Keystore) (dec : Decryptor) :
    (∃ iv err, prepareIv hkdf (some ks) dec = ({ dec with iv := iv }, some ks, some err) ∧
        ∀ hash, dec.useridHash = some hash → generateIv hkdf hash (streamName dec.mtype) ivSize = none) ∨
      ∃ hash iv, dec.useridHash = some hash ∧ generateIv hkdf hash (streamName dec.mtype) ivSize = some iv ∧
        prepareIv hkdf (some ks) dec =
          ({ dec with iv := iv, frameDec := false }, some (setDecryptAttempted ks), none) := by
  obtain ⟨kidx, ctx, iv, mtype, useridHash, csrc, frameCount, frameRecv, frameDec⟩ := dec
  cases useridHash with
  | none => exact .inl ⟨iv, .EAGAIN, rfl, by simp⟩
  | some hash =>
    cases made : generateIv hkdf hash (streamName mtype) ivSize with
    | none =>
      refine .inl ⟨Vector.replicate ivSize 0, .EINVAL, by simp [prepareIv, made], ?_⟩
      intro hash' same
      cases same
      exact made
    | some iv => exact .inr ⟨hash, iv, rfl, made, by simp [prepareIv, made]⟩

theorem resolve_other (ivs : ∀ s, ∃ iv, generateIv hkdf (senders s).hash (streamName mtype) ivSize = some iv)
    (knows : Knows senders mtype pf) (ok : DecOk hkdf senders mtype Receiving dec) (other : csrc ≠ 0 ∧ csrc ≠ dec.csrc)
    (resolved : resolve hkdf (some pf) (some ks) csrc dec = (dec', ks', counted, err)) :
    DecOk hkdf senders mtype Receiving dec' ∧ SameKeys ks ks' ∧
      ∀ s, csrc = (senders s).ssrc → err = none ∧ dec'.csrc = csrc := by
  have video := isVideo_eq ok
  rw [resolve, identify, if_pos other] at resolved
  obtain ⟨told, ⟨refused, left, why⟩ | ⟨hash, known, left⟩⟩ := identifyCsrc_cases pf csrc dec
  · simp only [left, Prod.mk.injEq] at resolved
    obtain ⟨rfl, rfl, _, rfl⟩ := resolved
    refine ⟨⟨ok.media, ok.recv, ok.iv, ok.ctx⟩, .inl rfl, ?_⟩
    rintro s rfl
    rw [video] at why
    rcases why with ⟨frames, counts⟩ | missing
    · simp [(knows s).2 frames] at counts
    · simp [(knows s).1] at missing
  · simp only [left] at resolved
    rw [video] at known
    have isHash : ∀ s, csrc = (senders s).ssrc → hash = (senders s).hash := by
      rintro s rfl
      rw [(knows s).1] at known
      exact (Except.ok.inj known).symm
    obtain ⟨iv, err', prepared, missing⟩ | ⟨hash', iv, same, made, prepared⟩ := prepareIv_cases hkdf ks
      { dec with useridHash := some hash, csrc := csrc, frameRecv := true, frameCount := 0 }
    · have missing := missing hash rfl
      have unknown : ∀ s, csrc ≠ (senders s).ssrc := by
        intro s same
        obtain ⟨iv, made⟩ := ivs s
        rw [isHash s same, ok.media, made] at missing
        simp at missing
      simp only [prepared, Prod.mk.injEq] at resolved
      obtain ⟨rfl, rfl, _, rfl⟩ := resolved
      exact ⟨⟨ok.media, fun _ => rfl, fun s same => absurd same (unknown s), ok.ctx⟩, .inl rfl,
        fun s same => absurd same (unknown s)⟩
    · cases same
      simp only [prepared, Prod.mk.injEq] at resolved
      obtain ⟨rfl, rfl, _, rfl⟩ := resolved
      refine ⟨⟨ok.media, fun _ => rfl, ?_, ok.ctx⟩, .inr rfl, fun s _ => ⟨rfl, rfl⟩⟩
      intro s same
      rw [← isHash s same, ← ok.media]
      exact made

theorem resolve_same (ok : DecOk hkdf senders mtype Receiving dec) (same : ¬ (csrc ≠ 0 ∧ csrc ≠ dec.csrc))
    (resolved : resolve hkdf (some pf) (some ks) csrc dec = (dec', ks', counted, err)) :
    DecOk hkdf senders mtype Receiving dec' ∧ SameKeys ks ks' ∧
      ∀ s, csrc = (senders s).ssrc → err = none ∧ dec'.csrc = csrc := by
  rw [resolve, identify, if_neg same] at resolved
  by_cases received : dec.frameRecv = true
  · simp only [identifyFirst, received, if_true, Prod.mk.injEq] at resolved
    obtain ⟨rfl, rfl, _, rfl⟩ := resolved
    refine ⟨ok, .inl rfl, ?_⟩
    rintro s rfl
    exact ⟨rfl, by simpa [(senders s).nonzero, eq_comm] using same⟩
  · have noCsrc : dec.csrc = 0 := by
      by_contra nonzero
      exact received (ok.recv nonzero)
    have unknown : ∀ s, dec.csrc ≠ (senders s).ssrc := fun s found =>
      (senders s).nonzero (found.symm.trans noCsrc)
    have notSender : ∀ s, csrc ≠ (senders s).ssrc := by
      rintro s rfl
      exact same ⟨(senders s).nonzero, fun found => unknown s found.symm⟩
    simp only [identifyFirst, received, if_false, Bool.false_eq_true] at resolved
    obtain ⟨iv, err', prepared, _⟩ | ⟨hash', iv, _, _, prepared⟩ := prepareIv_cases hkdf ks
      { dec with frameRecv := true, frameDec := false }
    all_goals
      simp only [prepared, Prod.mk.injEq] at resolved
      obtain ⟨rfl, rfl, _, rfl⟩ := resolved
    · exact ⟨⟨ok.media, fun _ => rfl, fun s found => absurd found (unknown s), ok.ctx⟩, .inl rfl,
        fun s found => absurd found (notSender s)⟩
    · exact ⟨⟨ok.media, fun _ => rfl, fun s found => absurd found (unknown s), ok.ctx⟩, .inr rfl,
        fun s found => absurd found (notSender s)⟩

/-- The sender of a frame is found, or nothing of the previous one is lost that later frames of it need. -/
theorem resolve_spec (ivs : ∀ s, ∃ iv, generateIv hkdf (senders s).hash (streamName mtype) ivSize = some iv)
    (knows : Knows senders mtype pf) (ok : DecOk hkdf senders mtype Receiving dec)
    (resolved : resolve hkdf (some pf) (some ks) csrc dec = (dec', ks', counted, err)) :
    DecOk hkdf senders mtype Receiving dec' ∧ SameKeys ks ks' ∧
      ∀ s, csrc = (senders s).ssrc → err = none ∧ dec'.csrc = csrc := by
  by_cases other : csrc ≠ 0 ∧ csrc ≠ dec.csrc
  · exact resolve_other ivs knows ok other resolved
  · exact resolve_same ok other resolved

theorem gives_sameKeys {ks₁ ks₂ : Keystore} (same : SameKeys ks (some ks₁))
    (looked : getMediaKey hkdf now ks₁ kid sessionKeySize = some (ks₂, .ok key)) : Gives hkdf ks kid key := by
  rcases same with same | same
  · cases same
    exact ⟨now, ks₂, looked⟩
  · cases same
    exact gives_attempted hkdf ⟨now, ks₂, looked⟩

theorem cipher_spec {ks'' : Option Keystore} {kid : UInt64}
    {key : Option Bytes} (receiving : Receiving ks) (same : SameKeys ks ks')
    (ok : DecOk hkdf senders mtype Receiving dec) (made : cipher hkdf now ks' kid dec = some (dec', ks'', key)) :
    DecOk hkdf senders mtype Receiving dec' ∧ dec'.iv = dec.iv := by
  unfold cipher at made
  split at made
  · cases made
    exact ⟨ok, rfl⟩
  · split at made
    · cases made
      exact ⟨decOk_uncached ok, rfl⟩
    · rename_i ks₁
      split at made
      · simp at made
      · cases made
        exact ⟨decOk_uncached ok, rfl⟩
      · rename_i ks₂ key₁ looked
        cases made
        refine ⟨⟨ok.media, ok.recv, ok.iv, ?_⟩, rfl⟩
        intro key' isKey
        cases isKey
        exact ⟨ks, receiving, gives_sameKeys same looked⟩

theorem countFrame_spec (pf : Option Peerflow) (csrc : UInt32) (ok : DecOk hkdf senders mtype Receiving dec) :
    DecOk hkdf senders mtype Receiving (countFrame pf csrc dec).1 := by
  unfold countFrame
  cases pf with
  | none => exact ⟨ok.media, ok.recv, ok.iv, ok.ctx⟩
  | some pf =>
    simp only
    split
    · exact ⟨ok.media, ok.recv, ok.iv, ok.ctx⟩
    · exact ⟨ok.media, ok.recv, ok.iv, ok.ctx⟩

theorem openFrame_spec {pf : Option Peerflow} {hdr : Header}
    (receiving : Receiving ks) (same : SameKeys ks ks') (ok : DecOk hkdf senders mtype Receiving dec)
    (opened : openFrame aead hkdf now pf ks' dec csrc hdr src counted = some d) :
    DecOk hkdf senders mtype Receiving d.dec := by
  unfold openFrame at opened
  split at opened
  · simp at opened
  · rename_i dec₁ ks₁ made
    cases opened
    exact decOk_uncached (cipher_spec receiving same ok made).1
  · rename_i dec₁ ks₁ key made
    have ok₁ := (cipher_spec receiving same ok made).1
    simp only at opened
    split at opened
    · cases opened
      exact decOk_uncached ok₁
    · have ok₂ := countFrame_spec pf csrc ok₁
      split at opened
      · rename_i dec₂ counted' err countedTo
        rw [countedTo] at ok₂
        cases opened
        exact decOk_uncached ok₂
      · rename_i dec₂ counted' countedTo
        rw [countedTo] at ok₂
        cases opened
        exact ⟨ok₂.media, ok₂.recv, ok₂.iv, ok₂.ctx⟩

/-- Whatever bytes arrive and however the call ends, the decryptor stays fit for the senders it knows. -/
theorem decrypt_spec (ivs : ∀ s, ∃ iv, generateIv hkdf (senders s).hash (streamName mtype) ivSize = some iv)
    (knows : Knows senders mtype pf)
    (receiving : Receiving ks) (ok : DecOk hkdf senders mtype Receiving dec)
    (decrypted : decrypt aead hkdf now (some pf) (some ks) dec csrc src = some d) :
    DecOk hkdf senders mtype Receiving d.dec := by
  unfold decrypt at decrypted
  split at decrypted
  · cases decrypted
    exact decOk_uncached ok
  · split at decrypted
    · cases decrypted
      exact decOk_uncached ok
    · simp only at decrypted
      split at decrypted
      · rename_i dec₁ ks₁ counted err resolved
        cases decrypted
        exact decOk_uncached (resolve_spec ivs knows ok resolved).1
      · rename_i dec₁ ks₁ counted resolved
        obtain ⟨ok₁, same, _⟩ := resolve_spec ivs knows ok resolved
        exact openFrame_spec receiving same ok₁ decrypted

theorem encSize_sealed {header ciphertext tag : Bytes} (small : ciphertext.length < 2 ^ 31)
    (tagLength : tag.length = tagSize) :
    encSize (header ++ (ciphertext ++ tag)).length header.length = ciphertext.length := by
  have total : ((header ++ (ciphertext ++ tag)).length : Int) - header.length - tagSize = ciphertext.length := by
    simp only [length_append, tagLength]
    omega
  rw [encSize, total, Int.bmod_eq_of_le (by omega) (by omega)]

theorem openCall_sealed {s : Sealed} (key : Bytes) (iv : Iv) (small : s.ciphertext.length < 2 ^ 31)
    (tagLength : s.tag.length = tagSize) :
    let call : OpenCall := ⟨key, iv, s.frame, s.header.length, encSize s.frame.length s.header.length⟩
    call.header = s.header ∧ 0 ≤ call.encSize ∧ call.ciphertext = s.ciphertext ∧ call.tag = s.tag := by
  intro call
  have size : call.encSize = s.ciphertext.length := encSize_sealed small tagLength
  have at_ : call.tagAt.toNat = s.header.length + s.ciphertext.length := by
    simp only [OpenCall.tagAt, size]
    show ((s.header.length : Int) + s.ciphertext.length).toNat = _
    omega
  refine ⟨?_, by omega, ?_, ?_⟩
  · show s.frame.take s.header.length = s.header
    simp [Sealed.frame]
  · show (s.frame.drop s.header.length).take call.encSize.toNat = s.ciphertext
    simp [size, Sealed.frame]
  · rw [OpenCall.tag, at_]
    show (s.frame.drop (s.header.length + s.ciphertext.length)).take tagSize = s.tag
    simp [Sealed.frame, ← tagLength, ← append_assoc, ← length_append]

theorem cipher_sealed (agree : Agree hkdf Sending Receiving) {ks₀ : Keystore}
    (sending : Sending ks₀) (gave : Gives hkdf ks₀ kid key) (receiving : Receiving ks) (same : SameKeys ks ks')
    (ok : DecOk hkdf senders mtype Receiving dec)
    (looked : ∃ after key', getMediaKey hkdf now ks kid sessionKeySize = some (after, .ok key')) :
    ∃ dec' ks'', cipher hkdf now ks' kid.toUInt64 dec = some (dec', ks'', some key) := by
  unfold cipher
  split
  · rename_i key₁ cached
    split at cached
    · simp at cached
    · rename_i sameKid
      obtain ⟨ks₁, receiving₁, gives₁⟩ := ok.ctx key₁ cached
      have kidx : kid = dec.kidx := UInt32.toUInt64_inj.mp (not_not.mp sameKid)
      rw [← kidx] at gives₁
      rw [agree ks₀ ks₁ kid key key₁ sending receiving₁ gave gives₁]
      exact ⟨_, _, rfl⟩
  · obtain ⟨after, key', looked⟩ := looked
    have equal := agree ks₀ ks kid key key' sending receiving gave ⟨now, after, looked⟩
    rcases same with rfl | rfl
    · simp only [UInt32.toUInt32_toUInt64, looked, equal]
      exact ⟨_, _, rfl⟩
    · simp only [UInt32.toUInt32_toUInt64, getMediaKey_attempted, looked, equal, map_some]
      exact ⟨_, _, rfl⟩

theorem countFrame_known (knows : Knows senders mtype pf) (s : ι)
    (ok : DecOk hkdf senders mtype Receiving dec) : (countFrame (some pf) (senders s).ssrc dec).2.2 = none := by
  have video : isVideo { dec with frameCount := dec.frameCount + 1 } = decide (mtype = .video) := by
    rw [← isVideo_eq ok]
    rfl
  simp only [countFrame]
  split
  · rw [video]
    exact (knows s).2 _
  · rfl

theorem decrypt_sent (correct : aead.Correct) (agree : Agree hkdf Sending Receiving)
    (ivs : ∀ s, ∃ iv, generateIv hkdf (senders s).hash (streamName mtype) ivSize = some iv)
    (knows : Knows senders mtype pf) {f : Sent ι} (receiving : Receiving ks)
    (ok : DecOk hkdf senders mtype Receiving dec) (sent : SentOk aead hkdf senders mtype Sending f)
    (looked : ∃ after key, getMediaKey hkdf now ks f.sealed.kid.toUInt32 sessionKeySize = some (after, .ok key)) :
    ∃ d call, decrypt aead hkdf now (some pf) (some ks) dec csrc f.sealed.frame = some d ∧
      d.answer = .ok f.payload ∧
      d.header = some ⟨f.sealed.frameid, f.sealed.kid, some (senders f.sender).ssrc, f.sealed.header.length⟩ ∧
      d.opened = some call ∧ call.key = f.sealed.key ∧ call.iv = f.sealed.iv ∧ call.header = f.sealed.header ∧
      call.ciphertext = f.sealed.ciphertext ∧ call.tag = f.sealed.tag := by
  obtain ⟨payloadSmall, ciphertextLength, tagLength⟩ := correct.sizes sent.sealed
  obtain ⟨ks₀, kid, sending, kidIs, gave⟩ := sent.kid
  obtain ⟨base, baseMade, ivIs⟩ := sent.iv
  have nonzero := (senders f.sender).nonzero
  have more : f.sealed.ciphertext ++ f.sealed.tag ≠ [] := by
    intro empty
    have := congrArg List.length empty
    simp [tagLength, tagSize] at this
  have long : ¬ f.sealed.frame.length < FrameHdr.minSize := by
    simp only [Sealed.frame, length_append, tagLength, tagSize, FrameHdr.minSize]
    omega
  have kidShort : f.sealed.kid.toNat < 2 ^ 32 := by
    rw [kidIs]
    simpa using UInt32.toNat_lt kid
  have header : frameHdrRead f.sealed.frame =
      .ok ⟨f.sealed.frameid, f.sealed.kid, some (senders f.sender).ssrc, f.sealed.header.length⟩ := by
    have read := frameHdrRead_frameHdrWrite (maxSize f.payload.length) (senders f.sender).ssrc
      (by simp only [maxSize]; omega) sent.frameid kidShort more
    rw [← sent.header, if_neg nonzero] at read
    exact read
  rw [decrypt, if_neg long, header]
  simp only [getD_some, ne_eq, nonzero, not_false_eq_true, if_true]
  rcases resolved : resolve hkdf (some pf) (some ks) (senders f.sender).ssrc dec with ⟨dec₁, ks₁, counted, err⟩
  obtain ⟨ok₁, same, known⟩ := resolve_spec ivs knows ok resolved
  obtain ⟨rfl, csrcIs⟩ := known f.sender rfl
  have ivBase : dec₁.iv = base := by
    have := ok₁.iv f.sender csrcIs
    rw [baseMade] at this
    exact (some.inj this).symm
  rw [kidIs, UInt32.toUInt32_toUInt64] at looked
  obtain ⟨dec₂, ks₂, made⟩ := cipher_sealed agree sending gave receiving same ok₁ looked
  obtain ⟨ok₂, sameIv⟩ := cipher_spec receiving same ok₁ made
  rw [← kidIs] at made
  have opens := openCall_sealed f.sealed.key f.sealed.iv (by omega) tagLength
  have ivUsed : xorIv dec₂.iv f.sealed.frameid.toUInt32 f.sealed.kid.toUInt32 = f.sealed.iv := by
    rw [sameIv, ivBase, ivIs]
  have opened := correct.opens sent.sealed _ rfl rfl opens.1 opens.2.1 opens.2.2.1 opens.2.2.2
  have counts := countFrame_known knows f.sender ok₂
  simp only [openFrame, made, ivUsed, opened]
  rcases countedTo : countFrame (some pf) (senders f.sender).ssrc dec₂ with ⟨dec₃, counted', err⟩
  rw [countedTo] at counts
  cases counts
  exact ⟨_, _, rfl, rfl, rfl, rfl, rfl, rfl, opens.1, opens.2.2⟩

end

section
variable {ι : Type} {aead : Aead} {hkdf : Hkdf} {senders : ι → Sender} {mtype : MediaType}
  {Receiving : Keystore → Prop}

theorem starts_iv {st : State ι} (starts : Starts hkdf senders mtype st) {s : ι} :
    generateIv hkdf (senders s).hash (streamName mtype) ivSize = some (st.encs s).iv ∧ (st.encs s).ctx = none := by
  obtain ⟨fstart, set⟩ := starts.encs s
  unfold Encryptor.setKeystore at set
  split at set
  · rename_i iv made
    simp only [Prod.mk.injEq, and_true] at set
    rw [← set]
    exact ⟨made, rfl⟩
  · simp at set

theorem inv_start {st : State ι} (starts : Starts hkdf senders mtype st) :
    Inv aead hkdf senders mtype Sending Receiving st := by
  refine ⟨?_, ?_, by simp [starts.sent]⟩
  · intro s
    obtain ⟨iv, noCtx⟩ := starts_iv starts
    exact ⟨iv, by simp [noCtx]⟩
  · rw [starts.dec]
    refine ⟨rfl, by simp [Decryptor.alloc], ?_, by simp [Decryptor.alloc]⟩
    intro s same
    exact absurd same.symm (senders s).nonzero

variable [DecidableEq ι]

theorem step_inv (ivs : ∀ s, ∃ iv, generateIv hkdf (senders s).hash (streamName mtype) ivSize = some iv)
    {event : Event ι} {st st' : State ι} (allowed : Allowed senders mtype Sending Receiving event)
    (inv : Inv aead hkdf senders mtype Sending Receiving st) (stepped : step aead hkdf senders event st = some st') :
    Inv aead hkdf senders mtype Sending Receiving st' := by
  cases event with
  | send s ks now payload =>
    have encs : ∀ enc, EncOk hkdf senders mtype Sending s enc →
        ∀ s', EncOk hkdf senders mtype Sending s' (Function.update st.encs s enc s') := by
      intro enc ok s'
      by_cases same : s' = s
      · subst same
        simpa using ok
      · simpa [Function.update_of_ne same] using inv.encs s'
    simp only [step] at stepped
    split at stepped
    · simp at stepped
    · rename_i enc ks' err encrypted
      cases stepped
      exact ⟨encs enc (encrypt_spec (inv.encs s) allowed encrypted).1, inv.dec, inv.sent⟩
    · rename_i enc ks' sealed encrypted
      cases stepped
      obtain ⟨ok, made⟩ := encrypt_spec (inv.encs s) allowed encrypted
      refine ⟨encs enc ok, inv.dec, ?_⟩
      intro f member
      rcases mem_append.mp member with old | new
      · exact inv.sent f old
      · simp only [mem_singleton] at new
        subst new
        exact made sealed rfl
  | recv ks now pf csrc src =>
    obtain ⟨d, decrypted, rfl⟩ := map_eq_some_iff.mp stepped
    exact ⟨inv.encs, decrypt_spec ivs allowed.2 allowed.1 inv.dec decrypted, inv.sent⟩

/-- However the frames of the senders are lost, repeated, reordered and mixed with other bytes, a frame of a sender
    peerflow knows, for whose key id the receiver's keystore has a key, is decrypted to its payload, with the header
    that was written and the AES-GCM arguments that were sealed. -/
theorem known_frame_delivered (aead : Aead) (hkdf : Hkdf) (senders : ι → Sender) (mtype : MediaType)
    (Sending Receiving : Keystore → Prop) (correct : aead.Correct) (agree : Agree hkdf Sending Receiving)
    (start st : State ι) (starts : Starts hkdf senders mtype start) (events : List (Event ι))
    (allowed : ∀ event ∈ events, Allowed senders mtype Sending Receiving event)
    (ran : run (step aead hkdf senders) start events = some st) (f : Sent ι) (member : f ∈ st.sent) (ks : Keystore)
    (now : Nat → UInt64) (pf : Peerflow) (csrc : UInt32) (receiving : Receiving ks) (knows : Knows senders mtype pf)
    (looked : ∃ after key, getMediaKey hkdf now ks f.sealed.kid.toUInt32 sessionKeySize = some (after, .ok key)) :
    ∃ d call, decrypt aead hkdf now (some pf) (some ks) st.dec csrc f.sealed.frame = some d ∧
      d.answer = .ok f.payload ∧
      d.header = some ⟨f.sealed.frameid, f.sealed.kid, some (senders f.sender).ssrc, f.sealed.header.length⟩ ∧
      d.opened = some call ∧ call.key = f.sealed.key ∧ call.iv = f.sealed.iv ∧ call.header = f.sealed.header ∧
      call.ciphertext = f.sealed.ciphertext ∧ call.tag = f.sealed.tag := by
  have ivs : ∀ s, ∃ iv, generateIv hkdf (senders s).hash (streamName mtype) ivSize = some iv :=
    fun s => ⟨_, (starts_iv starts).1⟩
  have inv : Inv aead hkdf senders mtype Sending Receiving st :=
    run_invariant (fun event _ _ allowed inv stepped => step_inv ivs allowed inv stepped) allowed
      (inv_start starts) ran
  exact decrypt_sent correct agree ivs knows receiving inv.dec (inv.sent f member) looked

end

/-!
A stand-in for AES-GCM, whose tag spells the IV, the header and the key, and a conference of two senders that
share one keystore with the receiver.
-/

def spelledTag (key : Bytes) (iv : Iv) (header : Bytes) : Bytes :=
  List.ofFn (fun n : Fin tagSize => (iv.toList ++ header ++ key).getD n 0)

def spelledAead : Aead where
  gcmEncrypt key iv header payload :=
    if payload.length < 2 ^ 31 then .ok (payload, spelledTag key iv header) else .error .EBADF
  gcmDecrypt call :=
    if 0 ≤ call.encSize ∧ call.tag = spelledTag call.key call.iv call.header then some call.ciphertext else none

theorem spelledAead_correct : spelledAead.Correct := by
  refine ⟨?_, ?_⟩
  · intro key iv header payload ciphertext tag sealed
    simp only [spelledAead] at sealed
    split at sealed
    · rename_i small
      cases sealed
      exact ⟨small, rfl, by simp [spelledTag]⟩
    · simp at sealed
  · intro key iv header payload ciphertext tag sealed call isKey isIv isHeader positive isCiphertext isTag
    simp only [spelledAead] at sealed ⊢
    split at sealed
    · cases sealed
      rw [if_pos ⟨positive, by rw [isTag, isKey, isIv, isHeader]⟩, isCiphertext]
    · simp at sealed

def pairSender : Bool → Sender
  | true => ⟨7, "alice", by decide⟩
  | false => ⟨9, "bob", by decide⟩

def pairPeerflow : Peerflow where
  getUseridForSsrc _ csrc := if csrc = 7 then .ok "alice" else if csrc = 9 then .ok "bob" else .error .ENOENT
  incFrameCount _ csrc _ := if csrc = 7 ∨ csrc = 9 then none else some .ENOENT

def plainHkdf : Hkdf := fun _ secret _ _ => some (Vector.ofFn fun b => secret.getD b 0)

def pairKeystore : Keystore :=
  { Keystore.alloc false 0 with
    keyl := [⟨0, Vector.replicate 32 1, Vector.replicate 32 2, 5, 0⟩], current := some 0, init := true, nextAddr := 1 }

def pairStart : State Bool where
  encs s := ((Encryptor.alloc (pairSender s).hash .audio 41).setKeystore plainHkdf).1
  dec := Decryptor.alloc .audio
  sent := []

theorem pair_gives (gives : Gives plainHkdf pairKeystore index key) :
    key = Keystore.copyOut sessionKeySize (Vector.replicate 32 2) := by
  obtain ⟨now, ks', looked⟩ := gives
  by_cases at_ : (5 : UInt32) = index
  · subst at_
    simp only [getMediaKey, pairKeystore, List.find?_cons, decide_true, Keystore.currentKey, Keystore.keyAt,
      map_some, Keystore.handOut, some.injEq, Prod.mk.injEq, Except.ok.injEq] at looked
    exact looked.2.symm
  · simp [getMediaKey, pairKeystore, at_, Keystore.alloc] at looked

/-- Two senders, noise in between, then the first sender's frame. -/
theorem known_frame_delivered_pair : ∃ st f d, run (step spelledAead plainHkdf pairSender) pairStart
        [.send true pairKeystore (fun _ => 0) [1, 2, 3], .send false pairKeystore (fun _ => 0) [4],
          .recv pairKeystore (fun _ => 0) pairPeerflow 0 [0x10, 0, 0, 0x31, 0, 0, 0, 8, 0],
          .recv pairKeystore (fun _ => 0) pairPeerflow 9 [0x10, 0, 0]] = some st ∧
      f ∈ st.sent ∧ f.payload = [1, 2, 3] ∧
      decrypt spelledAead plainHkdf (fun _ => 0) (some pairPeerflow) (some pairKeystore)
        st.dec 0 f.sealed.frame = some d ∧
      d.answer = .ok [1, 2, 3] := by
  simp only [exists_and_left]
  refine exists_shown (fun st => ∃ f ∈ st.sent, f.payload = [1, 2, 3] ∧ f.sealed.kid.toUInt32 = 5)
    (by decide +kernel) ?_
  rintro st ran ⟨f, member, payload, kid⟩
  have knows : Knows pairSender .audio pairPeerflow := by
    intro s
    cases s <;> simp [pairSender, pairPeerflow]
  obtain ⟨d, call, decrypted, answer, _⟩ := known_frame_delivered spelledAead plainHkdf
    pairSender .audio (· = pairKeystore) (· = pairKeystore) spelledAead_correct
    (fun _ _ _ _ _ sending receiving gives gives' => by
      subst sending receiving
      rw [pair_gives gives, pair_gives gives'])
    pairStart st ⟨fun s => ⟨41, by cases s <;> rfl⟩, rfl, rfl⟩ _ (by simp [Allowed, knows]) ran f member
    pairKeystore (fun _ => 0) pairPeerflow 0 rfl knows (by rw [kid]; exact ⟨_, _, rfl⟩)
  exact ⟨f, member, payload, d, decrypted, by rw [answer, payload]⟩

/-!
One encryptor over all its calls, each with the keystore in any state, or none. The frame counter counts the calls,
those that fail too.
-/

structure EncryptCall where
  now : Nat → UInt64
  ks : Option Keystore
  ssrc : UInt32
  src : Bytes

/-- The encryptor and its answers so far. -/
abbrev Answered := Encryptor × List (Except Errno Sealed)

def encryptStep (aead : Aead) (hkdf : Hkdf) (call : EncryptCall) (s : Answered) : Option Answered :=
  (encrypt aead hkdf call.now call.ks s.1 call.ssrc call.src).map (fun r => (r.1, s.2 ++ [r.2.2]))

section
variable {aead : Aead} {hkdf : Hkdf} {enc first : Encryptor} {payload : Bytes}

/-- The frame counter and the key id come back out of an IV. -/
theorem xorIv_eq_iff {base : Iv} {frameid frameid' keyid keyid' : UInt32} :
    xorIv base frameid keyid = xorIv base frameid' keyid' ↔ frameid = frameid' ∧ keyid = keyid' := by
  constructor
  · intro same
    have bytes : ∀ n : Fin 12, _ = _ := fun n => by
      have equal := congrArg (fun v => Vector.get v n) same
      exact congrArg UInt8.toNat ((UInt8.xor_right_inj (base.get n)).mp
        ((Vector.getElem_ofFn n.isLt).symm.trans (equal.trans (Vector.getElem_ofFn n.isLt))))
    have frameids := And.intro (And.intro (bytes 0) (bytes 1)) (And.intro (bytes 2) (bytes 3))
    have keyids := And.intro (And.intro (bytes 4) (bytes 5)) (And.intro (bytes 6) (bytes 7))
    simp [fbytes, Nat.shiftRight_eq_div_pow] at frameids keyids
    constructor <;> apply UInt32.toNat_inj.mp
    · have := frameid.toNat_lt
      have := frameid'.toNat_lt
      omega
    · have := keyid.toNat_lt
      have := keyid'.toNat_lt
      omega
  · rintro ⟨rfl, rfl⟩
    rfl

theorem frameid_next (frameid : UInt64) : ((frameid + 1) &&& 0xFFFFFFFF).toUInt32 = frameid.toUInt32 + 1 := by
  have masked := Nat.and_two_pow_sub_one_eq_mod (frameid + 1).toNat 32
  apply UInt32.toNat_inj.mp
  rw [UInt64.toNat_toUInt32, UInt64.toNat_and, UInt32.toNat_add, UInt64.toNat_toUInt32]
  change (frameid + 1).toNat &&& 0xFFFFFFFF = _ at masked
  change ((frameid + 1).toNat &&& 0xFFFFFFFF) % _ = (_ + 1) % _
  rw [masked, UInt64.toNat_add]
  change (_ + 1) % _ % _ % _ = _
  omega

theorem sealFrame_counts {key : Bytes} {kid : UInt64} {ssrc : UInt32} :
    (sealFrame aead enc key kid ssrc payload).1.iv = enc.iv ∧
      (sealFrame aead enc key kid ssrc payload).1.frameid = enc.frameid ∧
      ∀ sealed, (sealFrame aead enc key kid ssrc payload).2 = .ok sealed →
        sealed.iv = xorIv enc.iv enc.frameid.toUInt32 sealed.kid.toUInt32 := by
  unfold sealFrame
  simp only
  split
  · exact ⟨rfl, rfl, by simp⟩
  · refine ⟨rfl, rfl, ?_⟩
    rintro sealed ⟨⟩
    rfl

theorem encrypt_counts {enc' : Encryptor} {now : Nat → UInt64} {ks : Option Keystore} {ssrc : UInt32}
    {answer : Except Errno Sealed}
    (encrypted : encrypt aead hkdf now ks enc ssrc payload = some (enc', ks', answer)) :
    enc'.iv = enc.iv ∧ enc'.frameid.toUInt32 = enc.frameid.toUInt32 + 1 ∧
      ∀ sealed, answer = .ok sealed → sealed.iv = xorIv enc.iv enc'.frameid.toUInt32 sealed.kid.toUInt32 := by
  have next := frameid_next enc.frameid
  unfold encrypt at encrypted
  split at encrypted
  · cases encrypted
    exact ⟨rfl, next, by simp⟩
  · simp only at encrypted
    split at encrypted
    · cases encrypted
    · cases encrypted
      exact ⟨rfl, next, by simp⟩
    · split at encrypted
      · cases encrypted
        obtain ⟨iv, frameid, made⟩ := sealFrame_counts
        exact ⟨iv, frameid ▸ next, frameid ▸ made⟩
      · split at encrypted
        · cases encrypted
        · cases encrypted
          exact ⟨rfl, next, by simp⟩
        · cases encrypted
          obtain ⟨iv, frameid, made⟩ := sealFrame_counts
          exact ⟨iv, frameid ▸ next, frameid ▸ made⟩

/-- The counter is past its start by the number of calls, and each sealed frame has the counter of its call. -/
structure Numbered (first : Encryptor) (s : Answered) : Prop where
  iv : s.1.iv = first.iv
  counter : s.1.frameid.toUInt32 = first.frameid.toUInt32 + UInt32.ofNat s.2.length
  sealed : ∀ i f, s.2[i]? = some (.ok f) →
    f.iv = xorIv first.iv (first.frameid.toUInt32 + UInt32.ofNat (i + 1)) f.kid.toUInt32

theorem numbered_step {call : EncryptCall} {s s' : Answered} (numbered : Numbered first s)
    (stepped : encryptStep aead hkdf call s = some s') : Numbered first s' := by
  obtain ⟨r, encrypted, rfl⟩ := map_eq_some_iff.mp stepped
  obtain ⟨iv, next, made⟩ := encrypt_counts encrypted
  have counter : r.1.frameid.toUInt32 = first.frameid.toUInt32 + UInt32.ofNat (s.2.length + 1) := by
    rw [next, numbered.counter, UInt32.ofNat_add, UInt32.add_assoc]
    rfl
  refine ⟨iv.trans numbered.iv, by simpa using counter, ?_⟩
  intro i f at_
  rcases Nat.lt_trichotomy i s.2.length with before | rfl | after
  · rw [List.getElem?_append_left before] at at_
    exact numbered.sealed i f at_
  · simp only [List.getElem?_concat_length, some.injEq] at at_
    rw [made f at_, counter, numbered.iv]
  · rw [List.getElem?_eq_none (by simpa using Nat.succ_le_of_lt after)] at at_
    cases at_

/-- Whatever keystores the calls find and whichever of them fail, two of an encryptor's frames share an IV exactly when
    they are a multiple of 2^32 calls apart and under one key id. -/
theorem ivs_eq_iff (aead : Aead) (hkdf : Hkdf) (enc : Encryptor) (calls : List EncryptCall)
    (s : Answered) (ran : run (encryptStep aead hkdf) (enc, []) calls = some s)
    (i j : Nat) (f g : Sealed) (atI : s.2[i]? = some (.ok f)) (atJ : s.2[j]? = some (.ok g)) :
    f.iv = g.iv ↔ i % 2 ^ 32 = j % 2 ^ 32 ∧ f.kid.toUInt32 = g.kid.toUInt32 := by
  have start : Numbered enc (enc, []) := ⟨rfl, by simp, by simp⟩
  have numbered : Numbered enc s := run_invariant
    (fun _ _ _ (_ : True) numbered stepped => numbered_step numbered stepped) (fun _ _ => trivial) start ran
  rw [numbered.sealed i f atI, numbered.sealed j g atJ, xorIv_eq_iff, UInt32.add_right_inj, ← UInt32.toNat_inj,
    UInt32.toNat_ofNat', UInt32.toNat_ofNat']
  exact and_congr_left fun _ => by omega

end

/-- Two frames, with a call that finds no keystore in between. -/
def pairCalls : List EncryptCall :=
  [⟨fun _ => 0, some pairKeystore, 7, [1, 2, 3]⟩, ⟨fun _ => 0, none, 7, [4]⟩, ⟨fun _ => 0, some pairKeystore, 7, [5]⟩]

theorem ivs_eq_iff_pair :
    ∃ s f g, run (encryptStep spelledAead plainHkdf) (pairStart.encs true, []) pairCalls = some s ∧
      s.2[0]? = some (.ok f) ∧ s.2[2]? = some (.ok g) ∧ f.iv ≠ g.iv := by
  refine ⟨_, _, _, rfl, rfl, rfl, fun same => ?_⟩
  have apart := (ivs_eq_iff spelledAead plainHkdf (pairStart.encs true) pairCalls _ rfl 0 2 _ _ rfl rfl).mp same
  exact absurd apart.1 (by decide)

end Avs.FrameDelivery
