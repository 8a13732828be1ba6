import Avs.FrameDelivery
import Avs.KeyChain

/-!
What one call of `frame_decryptor_decrypt` does to the keystore. The key id is read from the frame and looked
up before anything of the frame is checked, and a lookup can move the keystore on.
-/
namespace Avs.FrameCrypt
open Option
open Avs.FrameHdr (Header frameHdrRead)
open Avs.Keystore (currentKey getLatest getMediaKey handOut numKeys setDecryptAttempted setDecryptSuccessful shiftHkdf)
open Avs.FrameDelivery (getMediaKey_attempted)

/-- The keys of a keystore, and which one is current. -/
def keysHeld (ks : Keystore) : List KeyInfo × Option Nat := (ks.keyl, ks.current)

/-- A lookup of the index moves the keystore on. -/
inductive Ahead (ks : Keystore) (index : UInt32) : Prop
  | held (k : KeyInfo) (member : k ∈ ks.keyl) (at_ : k.index = index)
      (above : ∀ c, currentKey ks = some (some c) → c.index < index)
  | beyond (last : KeyInfo) (missing : ∀ k ∈ ks.keyl, k.index ≠ index) (hashing : ks.hashForward = true)
      (isLast : getLatest ks = some last) (above : last.index < index) (near : index < last.index + numKeys)

variable {hkdf : Hkdf} {now : Nat → UInt64} {index csrc : UInt32} {ks ks' : Option Keystore} {dec dec' : Decryptor}
  {kid : UInt64} {key : Option Bytes} {aead : Aead} {pf : Option Peerflow} {src : Bytes} {r : Decrypted}

theorem getMediaKey_keys {ks : Keystore} {ksz : Nat} {looked : Keystore × Except Errno Bytes}
    (found : getMediaKey hkdf now ks index ksz = some looked) : keysHeld looked.1 = keysHeld ks ∨ Ahead ks index := by
  unfold getMediaKey at found
  split at found
  · rename_i kinfo isHeld
    have member := List.mem_of_find?_eq_some isHeld
    obtain rfl : kinfo.index = index := by simpa using List.find?_some isHeld
    obtain ⟨current, points, rfl⟩ := map_eq_some_iff.mp found
    by_cases above : current.all (fun c => c.index < kinfo.index)
    · refine .inr (.held kinfo member rfl ?_)
      intro c isCurrent
      rw [points] at isCurrent
      cases isCurrent
      simpa using above
    · exact .inl (by rw [handOut, if_neg above])
  · rename_i notHeld
    split at found
    · rename_i hashing
      split at found
      · cases found
        exact .inl rfl
      · rename_i last isLast
        simp only at found
        split at found
        · rename_i near
          exact .inr (.beyond last (by simpa using notHeld) hashing isLast near.1 near.2)
        · cases found
          exact .inl rfl
    · cases found
      exact .inl rfl

def cached (dec : Decryptor) (kid : UInt64) : Option Bytes := if kid ≠ dec.kidx.toUInt64 then none else dec.ctx

/-- The steps before the cipher leave the cached context, and of the keystore all but a flag. -/
structure Before (dec : Decryptor) (ks : Option Keystore) (dec' : Decryptor) (ks' : Option Keystore) : Prop where
  ctx : dec'.ctx = dec.ctx
  kidx : dec'.kidx = dec.kidx
  ks : ks' = ks ∨ ks' = ks.map setDecryptAttempted

theorem identify_before (pf : Option Peerflow) (csrc : UInt32) (dec : Decryptor) (ks : Option Keystore) :
    Before dec ks (identify pf csrc dec).1 ks := by
  have first : Before dec ks (identifyFirst dec).1 ks := by
    unfold identifyFirst
    split
    · exact ⟨rfl, rfl, .inl rfl⟩
    · exact ⟨rfl, rfl, .inl rfl⟩
  unfold identify
  split
  · exact first
  · rename_i pf
    split
    · obtain ⟨counted, ⟨err, refused, _⟩ | ⟨hash, _, taken⟩⟩ := FrameDelivery.identifyCsrc_cases pf csrc dec
      · rw [refused]
        exact ⟨rfl, rfl, .inl rfl⟩
      · rw [taken]
        exact ⟨rfl, rfl, .inl rfl⟩
    · exact first

theorem prepareIv_before (hkdf : Hkdf) (ks : Option Keystore) (dec : Decryptor) :
    Before dec ks (prepareIv hkdf ks dec).1 (prepareIv hkdf ks dec).2.1 := by
  unfold prepareIv
  split
  · exact ⟨rfl, rfl, .inl rfl⟩
  · exact ⟨rfl, rfl, .inl rfl⟩
  · split
    · exact ⟨rfl, rfl, .inl rfl⟩
    · exact ⟨rfl, rfl, .inr rfl⟩

theorem resolve_before (hkdf : Hkdf) (pf : Option Peerflow) (ks : Option Keystore) (csrc : UInt32) (dec : Decryptor) :
    Before dec ks (resolve hkdf pf ks csrc dec).1 (resolve hkdf pf ks csrc dec).2.1 := by
  have identified := identify_before pf csrc dec ks
  unfold resolve
  split
  · rename_i isIdentified
    rw [isIdentified] at identified
    exact identified
  · rename_i isIdentified
    rw [isIdentified] at identified
    exact identified
  · rename_i dec₁ counted isIdentified
    rw [isIdentified] at identified
    have prepared := prepareIv_before hkdf ks dec₁
    exact ⟨prepared.ctx.trans identified.ctx, prepared.kidx.trans identified.kidx, prepared.ks⟩

/-- The cipher step takes the cached context, or asks the keystore. -/
inductive Ciphered (hkdf : Hkdf) (now : Nat → UInt64) (ks : Option Keystore) (kid : UInt64) (dec dec' : Decryptor) :
    Option Keystore → Option Bytes → Prop
  | cached (key : Bytes) (held : cached dec kid = some key) (same : dec' = dec) :
      Ciphered hkdf now ks kid dec dec' ks (some key)
  | null (isNull : ks = none) (dropped : dec' = { dec with ctx := none }) : Ciphered hkdf now ks kid dec dec' ks none
  | missing (ks₀ ks' : Keystore) (err : Errno) (uncached : cached dec kid = none) (isKs : ks = some ks₀)
      (looked : getMediaKey hkdf now ks₀ kid.toUInt32 sessionKeySize = some (ks', .error err))
      (dropped : dec' = { dec with ctx := none }) : Ciphered hkdf now ks kid dec dec' (some ks') none
  | looked (ks₀ ks' : Keystore) (key : Bytes) (uncached : cached dec kid = none) (isKs : ks = some ks₀)
      (looked : getMediaKey hkdf now ks₀ kid.toUInt32 sessionKeySize = some (ks', .ok key))
      (made : dec' = { dec with ctx := some key, kidx := kid.toUInt32 }) :
      Ciphered hkdf now ks kid dec dec' (some ks') (some key)

theorem cipher_ciphered (made : cipher hkdf now ks kid dec = some (dec', ks', key)) :
    Ciphered hkdf now ks kid dec dec' ks' key := by
  unfold cipher at made
  split at made
  · rename_i key isCached
    cases made
    exact .cached key isCached rfl
  · rename_i notCached
    split at made
    · cases made
      exact .null rfl rfl
    · rename_i ks₀
      split at made
      · cases made
      · rename_i ks₁ err looked
        cases made
        exact .missing ks₀ ks₁ err notCached rfl looked rfl
      · rename_i ks₁ key looked
        cases made
        exact .looked ks₀ ks₁ key notCached rfl looked rfl

theorem Ciphered.keystore (ciphered : Ciphered hkdf now ks kid dec dec' ks' key) :
    ks' = ks ∨ ∃ ks₁ ks₂ answer, FrameCrypt.cached dec kid = none ∧ ks = some ks₁ ∧ ks' = some ks₂ ∧
      getMediaKey hkdf now ks₁ kid.toUInt32 sessionKeySize = some (ks₂, answer) := by
  cases ciphered with
  | cached _ _ _ => exact .inl rfl
  | null _ _ => exact .inl rfl
  | missing ks₁ ks₂ err uncached isKs looked _ => exact .inr ⟨ks₁, ks₂, .error err, uncached, isKs, rfl, looked⟩
  | looked ks₁ ks₂ key uncached isKs looked _ => exact .inr ⟨ks₁, ks₂, .ok key, uncached, isKs, rfl, looked⟩

/-- What a call comes to: it ends before the key id is looked up, or it gets as far as the cipher; then it opens the
    frame with the key the cipher step gives, if it gives one. -/
inductive Ends (hkdf : Hkdf) (now : Nat → UInt64) (ks : Option Keystore) (dec : Decryptor) (src : Bytes)
    (r : Decrypted) : Prop
  | early (dec' : Decryptor) (before : Before dec ks dec' r.ks) (unopened : r.opened = none)
      (dropped : r.dec.ctx = none)
  | late (hdr : Header) (read : frameHdrRead src = .ok hdr) (dec₁ dec₂ : Decryptor) (ks₁ ks₂ : Option Keystore)
      (key : Option Bytes) (before : Before dec ks dec₁ ks₁)
      (ciphered : Ciphered hkdf now ks₁ hdr.key dec₁ dec₂ ks₂ key) (opened : r.opened.map (·.key) = key)
      (kidx : r.dec.kidx = dec₂.kidx) (ctx : r.dec.ctx = none ∨ r.dec.ctx = dec₂.ctx)
      (left : r.ks = ks₂ ∨ r.ks = ks₂.map setDecryptSuccessful)

theorem countFrame_cached (pf : Option Peerflow) (csrc : UInt32) (dec : Decryptor) :
    (countFrame pf csrc dec).1.ctx = dec.ctx ∧ (countFrame pf csrc dec).1.kidx = dec.kidx := by
  unfold countFrame
  split
  · exact ⟨rfl, rfl⟩
  · simp only
    split
    · exact ⟨rfl, rfl⟩
    · exact ⟨rfl, rfl⟩

theorem openFrame_ends {ks₁ : Option Keystore} {dec₁ : Decryptor} {hdr : Header}
    {counted : List Count} (read : frameHdrRead src = .ok hdr) (before : Before dec ks dec₁ ks₁)
    (ran : openFrame aead hkdf now pf ks₁ dec₁ csrc hdr src counted = some r) : Ends hkdf now ks dec src r := by
  unfold openFrame at ran
  split at ran
  · cases ran
  · rename_i dec₂ ks₂ made
    cases ran
    exact .late hdr read dec₁ dec₂ ks₁ ks₂ none before (cipher_ciphered made) rfl rfl (.inl rfl) (.inl rfl)
  · rename_i dec₂ ks₂ key made
    simp only at ran
    split at ran
    · cases ran
      exact .late hdr read dec₁ dec₂ ks₁ ks₂ (some key) before (cipher_ciphered made) rfl rfl (.inl rfl) (.inl rfl)
    · have same := countFrame_cached pf csrc dec₂
      split at ran
      · rename_i dec₃ counted' err countedTo
        rw [countedTo] at same
        cases ran
        exact .late hdr read dec₁ dec₂ ks₁ ks₂ (some key) before (cipher_ciphered made) rfl same.2 (.inl rfl) (.inl rfl)
      · rename_i dec₃ counted' countedTo
        rw [countedTo] at same
        cases ran
        refine .late hdr read dec₁ dec₂ ks₁ ks₂ (some key) before (cipher_ciphered made) rfl same.2 (.inr same.1) ?_
        show (if dec₃.frameDec then ks₂ else ks₂.map setDecryptSuccessful) = ks₂ ∨
          (if dec₃.frameDec then ks₂ else ks₂.map setDecryptSuccessful) = ks₂.map setDecryptSuccessful
        cases dec₃.frameDec with
        | true => exact .inl rfl
        | false => exact .inr rfl

theorem decrypt_ends (ran : decrypt aead hkdf now pf ks dec csrc src = some r) : Ends hkdf now ks dec src r := by
  unfold decrypt at ran
  split at ran
  · cases ran
    exact .early dec ⟨rfl, rfl, .inl rfl⟩ rfl rfl
  · split at ran
    · cases ran
      exact .early dec ⟨rfl, rfl, .inl rfl⟩ rfl rfl
    · rename_i hdr read
      simp only at ran
      have before := resolve_before hkdf pf ks (if hdr.csrc.getD 0 ≠ 0 then hdr.csrc.getD 0 else csrc) dec
      split at ran
      · rename_i dec₁ ks₁ counted err resolved
        rw [resolved] at before
        cases ran
        exact .early dec₁ before rfl rfl
      · rename_i dec₁ ks₁ counted resolved
        rw [resolved] at before
        exact openFrame_ends read before ran

theorem map_keysHeld {f : Keystore → Keystore} (same : ∀ ks, keysHeld (f ks) = keysHeld ks) (ks : Option Keystore) :
    (ks.map f).map keysHeld = ks.map keysHeld := by
  rw [map_map]
  exact congrArg (fun g => ks.map g) (funext same)

theorem Before.keys (before : Before dec ks dec' ks') : ks'.map keysHeld = ks.map keysHeld := by
  rcases before.ks with same | attempted
  · rw [same]
  · rw [attempted]
    exact map_keysHeld (f := setDecryptAttempted) (fun _ => rfl) ks

theorem Before.cached (before : Before dec ks dec' ks')
    (kid : UInt64) : cached dec' kid = FrameCrypt.cached dec kid := by
  rw [FrameCrypt.cached, FrameCrypt.cached, before.kidx, before.ctx]

theorem Before.looked {ks₁ ks₂ : Keystore} {answer : Except Errno Bytes} (before : Before dec ks dec' (some ks₁))
    (looked : getMediaKey hkdf now ks₁ index sessionKeySize = some (ks₂, answer)) :
    ∃ ks₀ ks', ks = some ks₀ ∧ getMediaKey hkdf now ks₀ index sessionKeySize = some (ks', answer) ∧
      (ks₂ = ks' ∨ ks₂ = setDecryptAttempted ks') := by
  rcases before.ks with same | attempted
  · exact ⟨ks₁, ks₂, same.symm, looked, .inl rfl⟩
  · obtain ⟨ks₀, isKs, rfl⟩ := map_eq_some_iff.mp attempted.symm
    rw [getMediaKey_attempted] at looked
    obtain ⟨⟨ks', answer'⟩, found, is⟩ := map_eq_some_iff.mp looked
    simp only [Prod.mk.injEq] at is
    obtain ⟨isKs', rfl⟩ := is
    exact ⟨ks₀, ks', isKs, found, .inr isKs'.symm⟩

/-- However a call ends, and whatever the bytes: the keys held and the current key are those of before, or those that
    looking up the frame's key id leaves, and then no context was cached for the key id and it was ahead. -/
theorem frame_keys (aead : Aead) (hkdf : Hkdf) (now : Nat → UInt64) (pf : Option Peerflow) (ks : Option Keystore)
    (dec : Decryptor) (csrc : UInt32) (src : Bytes) (r : Decrypted)
    (ran : decrypt aead hkdf now pf ks dec csrc src = some r) :
    r.ks.map keysHeld = ks.map keysHeld ∨
      ∃ hdr ks₀ looked, frameHdrRead src = .ok hdr ∧ cached dec hdr.key = none ∧ ks = some ks₀ ∧
        Ahead ks₀ hdr.key.toUInt32 ∧ getMediaKey hkdf now ks₀ hdr.key.toUInt32 sessionKeySize = some looked ∧
        r.ks.map keysHeld = some (keysHeld looked.1) := by
  cases decrypt_ends ran with
  | early dec' before _ _ => exact .inl before.keys
  | late hdr read dec₁ dec₂ ks₁ ks₂ key before ciphered _ _ _ left =>
    have same : r.ks.map keysHeld = ks₂.map keysHeld := by
      rcases left with left | left
      · rw [left]
      · rw [left]
        exact map_keysHeld (f := setDecryptSuccessful) (fun _ => rfl) ks₂
    rcases ciphered.keystore with stays | ⟨ks₁', ks₂', answer, uncached, rfl, rfl, looked⟩
    · exact .inl (by rw [same, stays, before.keys])
    · rw [before.cached] at uncached
      obtain ⟨ks₀, ks', isKs, found, after⟩ := before.looked looked
      have held : keysHeld ks₂' = keysHeld ks' := by
        rcases after with rfl | rfl
        · rfl
        · rfl
      rw [map_some, held] at same
      rcases getMediaKey_keys found with stays | ahead
      · exact .inl (by rw [same, isKs, map_some, stays])
      · exact .inr ⟨hdr, ks₀, (ks', answer), read, uncached, isKs, ahead, found, same⟩

/-- AES-GCM that finds no frame authentic. -/
def refusingAead : Aead where
  gcmEncrypt _ _ _ _ := .error .EBADF
  gcmDecrypt _ := none

def singleKeystore : Keystore :=
  { Keystore.alloc true 0 with
    keyl := [⟨0, Vector.replicate 32 1, Vector.replicate 32 2, 1, 0⟩], current := some 0, init := true, nextAddr := 1 }

/-- Frame 1 of a key id, followed by zeros. -/
def forgedFrame (kid : UInt64) : Bytes := FrameHdr.frameHdrWrite 64 1 kid 0 ++ List.replicate 16 0

def namedDecryptor : Decryptor := (Decryptor.alloc .audio).setUid "bob"

def indices (ks : Keystore) : List UInt32 × Option (Option UInt32) :=
  (ks.keyl.map (·.index), (currentKey ks).map (·.map (·.index)))

/-- A frame that is not authentic, with the key id 4, is refused. By then the keystore has hashed forward to key 4, made
    it the current one and dropped key 1. -/
theorem forged_frame_advances :
    ∃ r, decrypt refusingAead shiftHkdf (fun _ => 7) none (some singleKeystore) namedDecryptor 0 (forgedFrame 4) =
        some r ∧ r.answer = .error .EIOERR ∧ r.ks.map indices = some ([3, 4], some (some 4)) ∧
      indices singleKeystore = ([1], some (some 1)) := by
  refine Runs.exists_shown (fun r => r.answer = .error .EIOERR ∧ r.ks.map indices = some ([3, 4], some (some 4)))
    (by decide +kernel) fun r _ shown => ⟨shown.1, shown.2, by decide⟩

/-- The same frame with the current key's id is refused as well, and nothing is ahead: the keys stay. -/
theorem frame_keys_current :
    ∃ r, decrypt refusingAead shiftHkdf (fun _ => 7) none (some singleKeystore) namedDecryptor 0 (forgedFrame 1) =
        some r ∧ r.answer = .error .EIOERR ∧ r.ks.map keysHeld = some (keysHeld singleKeystore) := by
  have ran : (decrypt refusingAead shiftHkdf (fun _ => 7) none (some singleKeystore) namedDecryptor 0
      (forgedFrame 1)).map (fun r => decide (r.answer = .error .EIOERR)) = some true := by decide +kernel
  obtain ⟨r, ran, refused⟩ := map_eq_some_iff.mp ran
  refine ⟨r, ran, of_decide_eq_true refused, ?_⟩
  obtain stays | ⟨hdr, ks₀, looked, read, _, isKs, ahead, _, _⟩ := frame_keys refusingAead shiftHkdf (fun _ => 7) none
    (some singleKeystore) namedDecryptor 0 (forgedFrame 1) r ran
  · exact stays
  · have is : ((frameHdrRead (forgedFrame 1)).toOption.map (·.key)) = some 1 := by decide +kernel
    rw [read] at is
    have key : hdr.key = 1 := by simpa [Except.toOption] using is
    cases isKs
    rw [key] at ahead
    cases ahead with
    | held k member at_ above =>
      have points : currentKey singleKeystore =
          some (some ⟨0, Vector.replicate 32 1, Vector.replicate 32 2, 1, 0⟩) := rfl
      exact absurd (above _ points) (by decide)
    | beyond last missing _ _ _ _ => exact absurd rfl (missing _ (List.mem_singleton.mpr rfl))

end Avs.FrameCrypt
