import Avs.FrameCrypt
import Avs.Runs

/-!
The sending half of the web worker in `wasm/src/avs_pc.ts`: the frame counter, the media keys and the calls of
WebCrypto. JavaScript runs one callback at a time, so an event is a frame handed to `encryptFrame`, a message
to the worker, or the settling of a promise that WebCrypto still owes. Numbers are those of JavaScript: `>>>`
and `>>` see 32 bits of them. A `kinfo` object is shared by the list of keys and by `currentKey`, so both hold
its place among the objects. `encryptFrame` reads the frame counter when it is called, and the counter moves
when the promise is fulfilled.
-/
namespace Avs.WebWorker
open List Option Runs
open Avs.FrameCrypt (Iv ivSize xorFront xorVector xorVector_toList)

/-- `val >>> n`; the shift count counts modulo 32. -/
def shr (val n : Nat) : Nat := val % 2 ^ 32 / 2 ^ (n % 32)

/-- `(val >> n) & 0xFF`. -/
def byteOf (val n : Nat) : UInt8 := ⟨((BitVec.ofNat 32 val).sshiftRight n).setWidth 8⟩

/-- The loop of `calcLen`; after four shifts nothing is left. -/
def calcLenLoop : Nat → Nat → Nat
  | 0, _ => 0
  | n + 1, val => if val = 0 then 0 else calcLenLoop n (shr val 8) + 1

def calcLen (val : Nat) : Nat := if val = 0 then 1 else calcLenLoop 5 val

def writeBytes : Nat → Nat → Bytes
  | 0, _ => []
  | n + 1, val => UInt8.ofNat (shr val (8 * n)) :: writeBytes n val

def frameHeaderEncode (fid kid csrc : Nat) : Bytes :=
  let x := if 7 < kid then 1 else 0
  let klen := if 7 < kid then calcLen kid - 1 else kid
  let flen := calcLen fid
  [UInt8.ofNat ((if 0 < csrc then 1 else 0) * 16), UInt8.ofNat ((flen - 1) * 16 + x * 8 + klen)] ++
    (if 7 < kid then writeBytes (klen + 1) kid else []) ++ writeBytes flen fid ++
    (if 0 < csrc then 0x31 :: writeBytes 4 csrc else [])

def idBytes (fid kid : Nat) : Bytes :=
  [byteOf fid 24, byteOf fid 16, byteOf fid 8, byteOf fid 0, byteOf kid 24, byteOf kid 16, byteOf kid 8, byteOf kid 0]

/-- `xor_iv` of an IV of any size. -/
def xorIvBytes (iv : Bytes) (fid kid : Nat) : Bytes := xorFront iv (idBytes fid kid)

/-- `xor_iv` of an IV of the size that is used. -/
def xorIv (iv : Iv) (fid kid : Nat) : Iv := xorVector iv (idBytes fid kid)

theorem xorIv_toList (iv : Iv) (fid kid : Nat) : (xorIv iv fid kid).toList = xorIvBytes iv.toList fid kid :=
  xorVector_toList iv _

/-- A `kinfo` object; `key` is the raw key its `CryptoKey` was imported from. -/
structure Kinfo where
  id : Nat
  key : Bytes
  deriving DecidableEq

/-- A coder, with the `kinfo` objects made so far; `keys` and `currentKey` refer to them by place. -/
structure Coder where
  frameId : Nat
  currentKey : Option Nat
  keys : List Nat
  objects : List Kinfo
  audioIv : Iv
  videoIv : Iv
  audioSsrc : Nat
  videoSsrc : Nat

/-- The `create` message; the frame counter starts at a random number. -/
def Coder.create (frameId : Nat) (iva ivv : Iv) : Coder where
  frameId := frameId
  currentKey := none
  keys := []
  objects := []
  audioIv := iva
  videoIv := ivv
  audioSsrc := 0
  videoSsrc := 0

/-- One call of `crypto.subtle.encrypt`; `after` is how many of the calls before it had their promise fulfilled. -/
structure Call where
  video : Bool
  frameId : Nat
  keyId : Nat
  key : Bytes
  iv : Iv
  additionalData : Bytes
  data : Bytes
  after : Nat
  deriving DecidableEq

/-- A call of `crypto.subtle.importKey` that has not settled. -/
structure Import where
  index : Nat
  current : Nat
  key : Bytes

/-- The coder, the promises WebCrypto owes it, every call of `encrypt` in order, and the calls whose frames were
    enqueued, in the order of their completion. -/
structure Worker where
  coder : Coder
  importing : List Import
  pending : List Nat
  calls : List Call
  enqueued : List Nat

def start (coder : Coder) : Worker := ⟨coder, [], [], [], []⟩

/-- `encryptFrame`. Without a current key the frame is dropped and the key is asked for. -/
def encryptFrame (w : Worker) (video : Bool) (ssrc : Nat) (data : Bytes) : Worker :=
  match w.coder.currentKey.bind (w.coder.objects[·]?) with
  | none => w
  | some kinfo =>
    let ssrc := if video then w.coder.videoSsrc else ssrc
    let baseiv := if video then w.coder.videoIv else w.coder.audioIv
    let call : Call := {
      video := video, frameId := w.coder.frameId, keyId := kinfo.id, key := kinfo.key,
      iv := xorIv baseiv w.coder.frameId kinfo.id,
      additionalData := frameHeaderEncode w.coder.frameId kinfo.id ssrc,
      data := data, after := w.enqueued.length }
    { w with calls := w.calls ++ [call], pending := w.pending ++ [w.calls.length] }

def encrypted (w : Worker) (call : Nat) : Worker :=
  { w with coder := { w.coder with frameId := w.coder.frameId + 1 },
           pending := w.pending.erase call, enqueued := w.enqueued ++ [call] }

/-- The handler of a fulfilled `importKey` promise: an object with that id gets the key, or a new one is pushed; four
    keys are kept. -/
def imported (coder : Coder) (index current : Nat) (key : Bytes) : Coder :=
  match coder.keys.find? (fun ref => (coder.objects[ref]?).any (·.id = index)) with
  | some ref =>
    let coder := { coder with objects := coder.objects.modify ref (fun kinfo => { kinfo with key := key }) }
    { coder with currentKey := if index = current then some ref else coder.currentKey,
                 keys := coder.keys.drop (coder.keys.length - 4) }
  | none =>
    let ref := coder.objects.length
    let keys := coder.keys ++ [ref]
    { coder with objects := coder.objects ++ [⟨index, key⟩],
                 currentKey := if index = current then some ref else coder.currentKey,
                 keys := keys.drop (keys.length - 4) }

inductive Event
  | frame (video : Bool) (ssrc : Nat) (data : Bytes)
  | encrypted (call : Nat)
  | encryptFailed (call : Nat)
  | setMediaKey (index current : Nat) (key : Bytes)
  | imported (n : Nat)
  | importFailed (n : Nat)
  | updateSsrc (ssrca ssrcv : Nat)

/-- A promise settles only while it is owed. A rejected `encrypt` promise has no handler. -/
def step : Event → Worker → Option Worker
  | .frame video ssrc data, w => some (encryptFrame w video ssrc data)
  | .encrypted call, w => if call ∈ w.pending then some (encrypted w call) else none
  | .encryptFailed call, w => if call ∈ w.pending then some { w with pending := w.pending.erase call } else none
  | .setMediaKey index current key, w => some { w with importing := w.importing ++ [⟨index, current, key⟩] }
  | .imported n, w =>
    (w.importing[n]?).map (fun i =>
      { w with coder := imported w.coder i.index i.current i.key, importing := w.importing.eraseIdx n })
  | .importFailed n, w => (w.importing[n]?).map (fun _ => { w with importing := w.importing.eraseIdx n })
  | .updateSsrc ssrca ssrcv, w => some { w with coder := { w.coder with audioSsrc := ssrca, videoSsrc := ssrcv } }

variable {val n val' fid kid : Nat} {iv : Iv} {w : Worker}

theorem byte_mod (fits : n + 8 ≤ 32) : val % 2 ^ 32 / 2 ^ n % 256 = val / 2 ^ n % 256 := by
  have : (2 : Nat) ^ 32 = 2 ^ n * 2 ^ (32 - n) := by rw [← Nat.pow_add]; congr 1; omega
  rw [this, Nat.mod_mul_right_div_self, Nat.mod_mod_of_dvd]
  exact Nat.pow_dvd_pow 2 (by omega : 8 ≤ 32 - n)

theorem byteOf_toNat (fits : n + 8 ≤ 32) : (byteOf val n).toNat = val / 2 ^ n % 256 := by
  have unsigned : ((BitVec.ofNat 32 val).sshiftRight n).setWidth 8 = ((BitVec.ofNat 32 val) >>> n).setWidth 8 := by
    ext b small
    have inside : n + b < 32 := by omega
    have within : b < 32 := by omega
    simp [BitVec.getElem_sshiftRight, inside, within]
  show (((BitVec.ofNat 32 val).sshiftRight n).setWidth 8).toNat = _
  rw [unsigned]
  simp only [BitVec.toNat_setWidth, BitVec.toNat_ushiftRight, BitVec.toNat_ofNat, Nat.shiftRight_eq_div_pow]
  exact byte_mod fits

theorem byteOf_eq (fits : n + 8 ≤ 32) : byteOf val n = byteOf val' n ↔ val / 2 ^ n % 256 = val' / 2 ^ n % 256 := by
  rw [← UInt8.toNat_inj, byteOf_toNat fits, byteOf_toNat fits]

/-- The four bytes of two numbers are the same when their low 32 bits are. -/
theorem bytes_eq_iff : (byteOf val 24 = byteOf val' 24 ∧ byteOf val 16 = byteOf val' 16 ∧ byteOf val 8 = byteOf val' 8 ∧
      byteOf val 0 = byteOf val' 0) ↔ val % 2 ^ 32 = val' % 2 ^ 32 := by
  rw [byteOf_eq (by omega), byteOf_eq (by omega), byteOf_eq (by omega),
    byteOf_eq (by omega)]
  omega

theorem xorIv_get {n : Fin ivSize} : (xorIv iv fid kid).get n = iv.get n ^^^ (idBytes fid kid).getD n 0 :=
  Vector.getElem_ofFn n.isLt

/-- The frame counter and the key id come back out of the IV, modulo 2^32. -/
theorem xorIv_inj {fid' kid' : Nat} :
    xorIv iv fid kid = xorIv iv fid' kid' ↔ fid % 2 ^ 32 = fid' % 2 ^ 32 ∧ kid % 2 ^ 32 = kid' % 2 ^ 32 := by
  rw [← bytes_eq_iff, ← bytes_eq_iff]
  constructor
  · intro same
    have at_ : ∀ n : Fin ivSize, (idBytes fid kid).getD n 0 = (idBytes fid' kid').getD n 0 := by
      intro n
      have equal := congrArg (fun v => Vector.get v n) same
      simp only [xorIv_get] at equal
      exact (UInt8.xor_right_inj _).mp equal
    exact ⟨⟨at_ ⟨0, by decide⟩, at_ ⟨1, by decide⟩, at_ ⟨2, by decide⟩, at_ ⟨3, by decide⟩⟩, at_ ⟨4, by decide⟩,
      at_ ⟨5, by decide⟩, at_ ⟨6, by decide⟩, at_ ⟨7, by decide⟩⟩
  · rintro ⟨⟨a, b, c, d⟩, e, f, g, h⟩
    simp only [xorIv, idBytes, a, b, c, d, e, f, g, h]

section
variable (frameId : Nat) (iva ivv : Iv)

/-- What ties the calls to the counter: each used the base IV of its kind and the counter at the start plus the promises
    fulfilled before it, and of the calls so far at least the enqueued ones and those pending were made. -/
structure Counted (w : Worker) : Prop where
  counter : w.coder.frameId = frameId + w.enqueued.length
  ivs : w.coder.audioIv = iva ∧ w.coder.videoIv = ivv
  calls : ∀ c ∈ w.calls, c.frameId = frameId + c.after ∧ c.after ≤ w.enqueued.length ∧
    c.iv = xorIv (if c.video then ivv else iva) c.frameId c.keyId
  ordered : w.calls.Pairwise (fun c d => c.after ≤ d.after)
  owed : w.enqueued.length + w.pending.length ≤ w.calls.length

theorem counted_start : Counted frameId iva ivv (start (Coder.create frameId iva ivv)) :=
  ⟨rfl, ⟨rfl, rfl⟩, by simp [start], List.Pairwise.nil, Nat.le_refl _⟩

end

section
variable {frameId : Nat} {iva ivv : Iv}

theorem imported_frame {coder : Coder} {index current : Nat} {key : Bytes} :
    (imported coder index current key).frameId = coder.frameId ∧
      (imported coder index current key).audioIv = coder.audioIv ∧
      (imported coder index current key).videoIv = coder.videoIv := by
  unfold imported
  split <;> exact ⟨rfl, rfl, rfl⟩

theorem counted_encryptFrame {video : Bool} {ssrc : Nat} {data : Bytes}
    (counted : Counted frameId iva ivv w) : Counted frameId iva ivv (encryptFrame w video ssrc data) := by
  unfold encryptFrame
  split
  · exact counted
  · rename_i kinfo found
    refine ⟨counted.counter, counted.ivs, ?_, ?_, ?_⟩
    · intro c member
      rcases mem_append.mp member with old | new
      · exact counted.calls c old
      · simp only [mem_singleton] at new
        subst new
        refine ⟨counted.counter, Nat.le_refl _, ?_⟩
        simp only [counted.ivs]
    · rw [pairwise_append]
      refine ⟨counted.ordered, pairwise_singleton _ _, ?_⟩
      intro c old d new
      simp only [mem_singleton] at new
      subst new
      exact (counted.calls c old).2.1
    · simp only [length_append, length_singleton]
      have := counted.owed
      omega

theorem counted_step {w' : Worker} {event : Event} (counted : Counted frameId iva ivv w)
    (stepped : step event w = some w') : Counted frameId iva ivv w' := by
  cases event with
  | frame video ssrc data =>
    simp only [step, some.injEq] at stepped
    exact stepped ▸ counted_encryptFrame counted
  | encrypted call =>
    simp only [step] at stepped
    split at stepped
    · rename_i member
      cases stepped
      have owed := counted.owed
      have some_ : 0 < w.pending.length := length_pos_of_mem member
      refine ⟨?_, counted.ivs, ?_, counted.ordered, ?_⟩
      · simp only [encrypted, counted.counter, length_append, length_singleton]
        omega
      · intro c member
        obtain ⟨fid, before, iv⟩ := counted.calls c member
        exact ⟨fid, by simp only [encrypted, length_append]; omega, iv⟩
      · simp only [encrypted, length_append, length_singleton, length_erase_of_mem member]
        omega
    · simp at stepped
  | encryptFailed call =>
    simp only [step] at stepped
    split at stepped
    · rename_i member
      cases stepped
      refine ⟨counted.counter, counted.ivs, counted.calls, counted.ordered, ?_⟩
      have owed := counted.owed
      simp only [length_erase_of_mem member]
      omega
    · simp at stepped
  | setMediaKey index current key =>
    simp only [step, some.injEq] at stepped
    subst stepped
    exact ⟨counted.counter, counted.ivs, counted.calls, counted.ordered, counted.owed⟩
  | imported n =>
    obtain ⟨i, _, rfl⟩ := map_eq_some_iff.mp stepped
    obtain ⟨fid, audio, video⟩ := imported_frame
    exact ⟨fid.trans counted.counter, ⟨audio.trans counted.ivs.1, video.trans counted.ivs.2⟩, counted.calls,
      counted.ordered, counted.owed⟩
  | importFailed n =>
    obtain ⟨i, _, rfl⟩ := map_eq_some_iff.mp stepped
    exact ⟨counted.counter, counted.ivs, counted.calls, counted.ordered, counted.owed⟩
  | updateSsrc ssrca ssrcv =>
    simp only [step, some.injEq] at stepped
    subst stepped
    exact ⟨counted.counter, counted.ivs, counted.calls, counted.ordered, counted.owed⟩

theorem counted_run {events : List Event}
    (ran : run step (start (Coder.create frameId iva ivv)) events = some w) : Counted frameId iva ivv w :=
  run_invariant (fun _ _ _ (_ : True) counted stepped => counted_step counted stepped) (fun _ _ => trivial)
    (counted_start frameId iva ivv) ran

end

/-- The base IVs are such that no audio IV is ever a video IV. -/
def Apart (iva ivv : Iv) : Prop := ∀ fid kid fid' kid', xorIv iva fid kid ≠ xorIv ivv fid' kid'

/-- With fewer than 2^32 frames, two calls share an IV exactly when they are of one kind, have one key id modulo 2^32,
    and no promise was fulfilled between. -/
theorem iv_eq_iff {frameId : Nat} {iva ivv : Iv} (apart : Apart iva ivv) (counted : Counted frameId iva ivv w)
    (few : w.calls.length < 2 ^ 32) {c d : Call} (memberC : c ∈ w.calls) (memberD : d ∈ w.calls) :
    c.iv = d.iv ↔ c.video = d.video ∧ c.keyId % 2 ^ 32 = d.keyId % 2 ^ 32 ∧ c.after = d.after := by
  obtain ⟨fid, before, iv⟩ := counted.calls c memberC
  obtain ⟨fid', before', iv'⟩ := counted.calls d memberD
  have owed := counted.owed
  by_cases kind : c.video = d.video
  · rw [iv, iv', kind, xorIv_inj, fid, fid']
    constructor
    · rintro ⟨frames, keys⟩
      exact ⟨rfl, keys, by omega⟩
    · rintro ⟨_, keys, same⟩
      exact ⟨by rw [same], keys⟩
  · simp only [kind, false_and, iff_false]
    rw [iv, iv']
    cases video : c.video <;> cases video' : d.video
    · exact absurd (video.trans video'.symm) kind
    · simpa using apart _ _ _ _
    · simpa using (apart _ _ _ _).symm
    · exact absurd (video.trans video'.symm) kind

/-- With fewer than 2^32 frames and base IVs apart, the calls of `encrypt` use no IV twice under one key exactly when
    between any two frames of one kind under one key and key id some `encrypt` promise was fulfilled. -/
theorem nonces_differ_iff (frameId : Nat) (iva ivv : Iv) (apart : Apart iva ivv) (events : List Event) (w : Worker)
    (ran : run step (start (Coder.create frameId iva ivv)) events = some w) (few : w.calls.length < 2 ^ 32) :
    w.calls.Pairwise (fun c d => ¬ (c.key = d.key ∧ c.iv = d.iv)) ↔
      w.calls.Pairwise (fun c d =>
        c.video = d.video → c.key = d.key → c.keyId % 2 ^ 32 = d.keyId % 2 ^ 32 → c.after < d.after) := by
  have counted := counted_run ran
  have ordered := counted.ordered
  constructor
  · intro differ
    have both := pairwise_and_iff.mpr ⟨differ, ordered⟩
    refine both.imp_of_mem ?_
    rintro c d memberC memberD ⟨different, le⟩ kind key keyId
    by_contra late
    exact different ⟨key, (iv_eq_iff apart counted few memberC memberD).mpr ⟨kind, keyId, by omega⟩⟩
  · intro spaced
    refine spaced.imp_of_mem ?_
    rintro c d memberC memberD between ⟨key, iv⟩
    obtain ⟨kind, keyId, same⟩ := (iv_eq_iff apart counted few memberC memberD).mp iv
    have := between kind key keyId
    omega

/-- Base IVs that differ after the eight bytes the counter and the key id go into. -/
theorem apart_of_last {iva ivv : Iv} (n : Fin ivSize) (beyond : 8 ≤ n.val) (differ : iva.get n ≠ ivv.get n) :
    Apart iva ivv := by
  intro fid kid fid' kid' same
  have equal := congrArg (fun v => Vector.get v n) same
  simp only [xorIv_get] at equal
  have unused : ∀ bytes : Bytes, bytes.length = 8 → bytes.getD n 0 = 0 := by
    intro bytes eight
    rw [getD_eq_getElem?_getD, List.getElem?_eq_none (by omega), getD_none]
  rw [unused _ rfl, unused _ rfl] at equal
  exact differ ((UInt8.xor_left_inj 0).mp equal)

/-- A key becomes current, then two audio frames arrive before the promise of the first is fulfilled. -/
def twoFrames : List Event :=
  [.setMediaKey 3 3 [1, 2], .imported 0, .frame false 7 [10], .frame false 7 [20], .encrypted 0, .encrypted 1]

def spacedFrames : List Event :=
  [.setMediaKey 3 3 [1, 2], .imported 0, .frame false 7 [10], .encrypted 0, .frame false 7 [20], .encrypted 1]

def zeroIv : Iv := Vector.replicate ivSize 0
def oneIv : Iv := Vector.replicate ivSize 1

theorem zeroIv_apart : Apart zeroIv oneIv := apart_of_last ⟨8, by decide⟩ (by decide) (by decide)

/-- Both frames are encrypted with one key and one IV. -/
theorem nonces_repeat :
    Apart zeroIv oneIv ∧ ∃ w c d, run step (start (Coder.create 41 zeroIv oneIv)) twoFrames = some w ∧
      w.calls = [c, d] ∧ c.data ≠ d.data ∧ c.key = d.key ∧ c.iv = d.iv := by
  refine ⟨zeroIv_apart, ?_⟩
  have ran : (run step (start (Coder.create 41 zeroIv oneIv)) twoFrames).map (fun w => w.calls) =
      some [⟨false, 41, 3, [1, 2], xorIv zeroIv 41 3, frameHeaderEncode 41 3 7, [10], 0⟩,
        ⟨false, 41, 3, [1, 2], xorIv zeroIv 41 3, frameHeaderEncode 41 3 7, [20], 0⟩] := by decide
  obtain ⟨w, ran, calls⟩ := map_eq_some_iff.mp ran
  exact ⟨w, _, _, ran, calls, by decide, rfl, rfl⟩

/-- Spaced by a completion the two calls differ. -/
theorem nonces_differ_spaced :
    ∃ w, run step (start (Coder.create 41 zeroIv oneIv)) spacedFrames = some w ∧ w.calls.length = 2 ∧
      w.calls.Pairwise (fun c d => ¬ (c.key = d.key ∧ c.iv = d.iv)) := by
  refine exists_shown (fun w => w.calls =
    [⟨false, 41, 3, [1, 2], xorIv zeroIv 41 3, frameHeaderEncode 41 3 7, [10], 0⟩,
      ⟨false, 42, 3, [1, 2], xorIv zeroIv 42 3, frameHeaderEncode 42 3 7, [20], 1⟩]) (by decide)
    fun w ran calls => ⟨by simp [calls], ?_⟩
  refine (nonces_differ_iff 41 zeroIv oneIv zeroIv_apart spacedFrames w ran (by simp [calls])).mpr ?_
  simp [calls]

end Avs.WebWorker
