import Avs.WebWorker

/-!
The two frame codecs side by side: `src/frame_hdr/frame_hdr.c` and `frame_encryptor_xor_iv`, which compute
with 32 and 64 bits, and the functions of `wasm/src/avs_pc.ts`, which compute with the numbers of JavaScript.
-/
namespace Avs
open List UInt32 Nat

namespace WebWorker
open FrameHdr (byteAt bytesAt extBytes frontBytes lengthsByte frameHdrWrite maxExts lowBits calcLen_spec
  writeBytes_length frameHdrRead Spelt)
open FrameHdr renaming calcLen → calcLen32, writeBytes → writeBytes64

/-- The double next to a natural number; of two that are as near, the even one. -/
def double (v : Nat) : Nat :=
  if v < 2 ^ 53 then v
  else
    let unit := 2 ^ (Nat.log2 v - 52)
    let q := v / unit
    if unit < 2 * (v % unit) ∨ (unit = 2 * (v % unit) ∧ q % 2 = 1) then (q + 1) * unit else q * unit

/-- The loop of `readBytes`. A byte past the end is undefined, which makes the number NaN. -/
def readBytesLoop (buf : Bytes) : Nat → Nat → Option Nat → Option Nat
  | 0, _, v => v
  | l + 1, p, v => readBytesLoop buf l (p + 1) (v.bind (fun v => buf[p]?.map (fun b => double (v * 256 + b.toNat))))

/-- The `val` that `readBytes` returns, nothing for NaN. -/
def readBytes (buf : Bytes) (p len : Nat) : Option Nat := readBytesLoop buf len p (some 0)

/-- `toString` of a number that `readBytes` returns for four bytes. -/
def numberText : Option Nat → String
  | some v => Nat.repr v
  | none => "NaN"

/-- What `frameHeaderDecode` returns. -/
structure FrameHeader where
  len : Nat
  frameId : Option Nat
  keyId : Option Nat
  csrc : String
  deriving DecidableEq, Repr

/-- The loop over the extensions, at most `n` more of them. -/
def decodeExts (buf : Bytes) : Nat → Bool → Nat → String → Nat × String
  | 0, _, p, csrc => (p, csrc)
  | n + 1, ext, p, csrc =>
    if ext ∧ p < buf.length then
      let b := byteAt buf p
      let elen := ((b >>> 4) &&& 7).toNat + 1
      decodeExts buf n ((b &&& 0x80) ≠ 0) (p + elen + 1)
        (if (b &&& 0x0f) = 0x01 ∧ elen = 4 then numberText (readBytes buf (p + 1) elen) else csrc)
    else (p, csrc)

/-- `frameHeaderDecode`; neither id is negative, so it never returns `null`. -/
def frameHeaderDecode (buf : Bytes) : FrameHeader :=
  let b := byteAt buf 1
  let flen := ((b >>> 4) &&& 7).toNat + 1
  let x := ((b >>> 3) &&& 1) ≠ 0
  let klen := (b &&& 7).toNat
  let p := if x then 2 + (klen + 1) else 2
  let kid := if x then readBytes buf 2 (klen + 1) else some klen
  let exts := decodeExts buf maxExts ((byteAt buf 0 &&& 0x10) ≠ 0) (p + flen) "0"
  ⟨exts.1, readBytes buf p flen, kid, exts.2⟩

variable {val n : Nat}

theorem shr_eight : shr val 8 = val % 2 ^ 32 / 256 := rfl

theorem calcLenLoop_nonzero (some_ : val ≠ 0) : calcLenLoop (n + 1) val = calcLenLoop n (shr val 8) + 1 :=
  if_neg some_

theorem calcLenLoop_succ : ∀ {val : Nat}, val < 256 ^ n → calcLenLoop (n + 1) val = calcLenLoop n val := by
  induction n with
  | zero =>
    intro val small
    have : val = 0 := by simpa using small
    simp [calcLenLoop, this]
  | succ n ih =>
    intro val small
    by_cases zero : val = 0
    · simp [calcLenLoop, zero]
    · have shifted : shr val 8 < 256 ^ n := by
        rw [shr_eight]
        rw [pow_succ] at small
        omega
      rw [calcLenLoop_nonzero zero, calcLenLoop_nonzero zero, ih shifted]

theorem calcLenLoop_agree : ∀ val : UInt32, calcLenLoop n val.toNat = FrameHdr.calcLenLoop n val := by
  induction n with
  | zero => exact fun _ => rfl
  | succ n ih =>
    intro val
    have shifted : shr val.toNat 8 = (val >>> 8).toNat := by
      simp [shr, mod_eq_of_lt (toNat_lt val), UInt32.toNat_shiftRight, shiftRight_eq_div_pow]
    rw [calcLenLoop, FrameHdr.calcLenLoop, shifted, ih]
    simp only [← UInt32.toNat_inj, UInt32.toNat_zero]

/-- A number past 32 bits has its first byte counted even where it is zero, as the number zero has. -/
theorem calcLen_agree (val : Nat) : calcLen val = calcLen32 (ofNat val) := by
  have low : (ofNat val).toNat = val % 2 ^ 32 := toNat_ofNat
  have shifted : shr val 8 = shr (ofNat val).toNat 8 := by rw [low, shr, shr, mod_mod]
  have small : shr val 8 < 256 ^ 3 := by
    rw [shr_eight]
    omega
  by_cases zero : val = 0
  · simp [calcLen, calcLen32, zero]
  · rw [calcLen, if_neg zero, calcLenLoop_nonzero zero, calcLenLoop_succ small, calcLen32]
    by_cases none_ : ofNat val = 0
    · have : shr val 8 = 0 := by rw [shifted, none_]; rfl
      rw [if_pos none_, this]
      rfl
    · have some_ : (ofNat val).toNat ≠ 0 := fun zero_ => none_ (UInt32.toNat_inj.mp zero_)
      rw [if_neg none_, ← calcLenLoop_agree, calcLenLoop_nonzero some_, shifted]

theorem writeBytes_toBytes (le : n ≤ 4) : writeBytes n val = BigEndian.toBytes n val := by
  induction n with
  | zero => rfl
  | succ n ih =>
    rw [writeBytes, BigEndian.toBytes, ih (by omega)]
    congr 1
    apply UInt8.toNat_inj.mp
    have unit : (256 : Nat) ^ n = 2 ^ (8 * n) := by rw [Nat.pow_mul]
    have low : val % 2 ^ 32 / 2 ^ (8 * n) % 256 = val / 2 ^ (8 * n) % 256 := by
      have : (2 : Nat) ^ 32 = 2 ^ (8 * n) * 2 ^ (32 - 8 * n) := by rw [← Nat.pow_add]; congr 1; omega
      rw [this, Nat.mod_mul_right_div_self, Nat.mod_mod_of_dvd]
      exact Nat.pow_dvd_pow 2 (by omega : 8 ≤ 32 - 8 * n)
    rw [UInt8.toNat_ofNat', UInt8.toNat_ofNat', shr, mod_eq_of_lt (by omega : 8 * n < 32), unit]
    exact low

theorem writeBytes_agree (le : n ≤ 4) {val' : UInt64} (low : val'.toNat = val % 2 ^ 32) :
    writeBytes n val = writeBytes64 n val' := by
  have same : writeBytes n (val % 2 ^ 32) = writeBytes n val := by
    clear le
    induction n with
    | zero => rfl
    | succ n ih => rw [writeBytes, writeBytes, ih, shr, shr, mod_mod]
  rw [FrameHdr.writeBytes_eq (by omega), ← same, writeBytes_toBytes le, low]

theorem lengthsByte_agree : ∀ f k : Fin 8, ∀ long : Bool,
    UInt8.ofNat (f.val * 16 + (if long then 1 else 0) * 8 + k.val) = lengthsByte (f.val + 1) long k.val := by
  decide

section
variable {fid kid bsz : Nat} {csrc : Nat}

/-- The arguments of the C functions: the frame id modulo 2^32, the key id and the csrc. -/
def frameArg (fid : Nat) : UInt64 := UInt64.ofNat (fid % 2 ^ 32)

theorem frameArg_toNat : (frameArg fid).toNat = fid % 2 ^ 32 := by
  rw [frameArg, UInt64.toNat_ofNat_of_lt']
  exact lt_of_lt_of_le (Nat.mod_lt _ (by decide)) (by decide)

theorem frameArg_toUInt32 (fid : Nat) : (frameArg fid).toUInt32 = ofNat fid := by
  apply UInt32.toNat_inj.mp
  rw [UInt64.toNat_toUInt32, frameArg_toNat, mod_mod]
  exact toNat_ofNat.symm

theorem keyArg_toNat (short : kid < 2 ^ 32) : (UInt64.ofNat kid).toNat = kid :=
  UInt64.toNat_ofNat_of_lt' (lt_of_lt_of_le short (by decide))

theorem keyArg_toUInt32 (short : kid < 2 ^ 32) : (UInt64.ofNat kid).toUInt32 = ofNat kid := by
  apply UInt32.toNat_inj.mp
  rw [UInt64.toNat_toUInt32, keyArg_toNat short]
  exact toNat_ofNat.symm

theorem csrcArg_ne_zero (short : csrc < 2 ^ 32) : ofNat csrc ≠ 0 ↔ 0 < csrc := by
  rw [Ne, ← UInt32.toNat_inj, toNat_ofNat_of_lt' short, UInt32.toNat_zero]
  omega

theorem extBytes_agree (short : csrc < 2 ^ 32) :
    (if 0 < csrc then 0x31 :: writeBytes 4 csrc else []) = extBytes (ofNat csrc) := by
  have bytes : writeBytes 4 csrc = writeBytes64 4 (ofNat csrc).toUInt64 := by
    apply writeBytes_agree (by omega)
    rw [toNat_toUInt64]
    exact toNat_ofNat
  simp only [extBytes, csrcArg_ne_zero short, bytes]

theorem frontBytes_agree (keyShort : kid < 2 ^ 32) (csrcShort : csrc < 2 ^ 32) :
    [UInt8.ofNat ((if 0 < csrc then 1 else 0) * 16),
      UInt8.ofNat ((calcLen fid - 1) * 16 + (if 7 < kid then 1 else 0) * 8 +
        (if 7 < kid then calcLen kid - 1 else kid))] ++
      (if 7 < kid then writeBytes ((if 7 < kid then calcLen kid - 1 else kid) + 1) kid else []) =
    frontBytes (calcLen32 (frameArg fid).toUInt32) (UInt64.ofNat kid) (ofNat csrc) := by
  have long : 7 < UInt64.ofNat kid ↔ 7 < kid := by
    show 7 < (UInt64.ofNat kid).toNat ↔ 7 < kid
    rw [keyArg_toNat keyShort]
  obtain ⟨flenPos, flenLe, -⟩ := calcLen_spec (ofNat fid)
  obtain ⟨klenPos, klenLe, -⟩ := calcLen_spec (ofNat kid)
  have first : UInt8.ofNat ((if 0 < csrc then 1 else 0) * 16) = (if 0 < csrc then (1 : UInt8) else 0) <<< 4 := by
    split <;> rfl
  have lengths : ∀ (long : Bool) {klen : Nat}, klen < 8 →
      UInt8.ofNat ((calcLen fid - 1) * 16 + (if long then 1 else 0) * 8 + klen) =
        lengthsByte (calcLen32 (ofNat fid)) long klen := by
    intro long klen small
    have := lengthsByte_agree ⟨calcLen32 (ofNat fid) - 1, by omega⟩ ⟨klen, small⟩ long
    simpa [calcLen_agree, Nat.sub_add_cancel flenPos] using this
  simp only [frontBytes, long, csrcArg_ne_zero csrcShort, frameArg_toUInt32, keyArg_toUInt32 keyShort,
    keyArg_toNat keyShort, first, calcLen_agree kid]
  by_cases key : 7 < kid
  · have bytes := writeBytes_agree (n := calcLen32 (ofNat kid) - 1 + 1) (by omega)
      ((keyArg_toNat keyShort).trans (mod_eq_of_lt keyShort).symm)
    have byte := lengths true (by omega : calcLen32 (ofNat kid) - 1 < 8)
    simp only [if_true] at byte
    simp only [key, if_true, decide_true, byte, bytes]
  · have byte := lengths false (by omega : kid < 8)
    simp only [Bool.false_eq_true, if_false] at byte
    simp only [key, if_false, decide_false, byte]

theorem frameHeaderEncode_parts (keyShort : kid < 2 ^ 32) (csrcShort : csrc < 2 ^ 32) : frameHeaderEncode fid kid csrc =
      frontBytes (calcLen32 (frameArg fid).toUInt32) (UInt64.ofNat kid) (ofNat csrc) ++
        (writeBytes64 (calcLen32 (frameArg fid).toUInt32) (frameArg fid) ++
          extBytes (ofNat csrc)) := by
  have frame : writeBytes (calcLen fid) fid =
      writeBytes64 (calcLen32 (frameArg fid).toUInt32) (frameArg fid) := by
    rw [calcLen_agree, frameArg_toUInt32]
    exact writeBytes_agree (calcLen_spec _).2.1 frameArg_toNat
  rw [← frontBytes_agree keyShort csrcShort, ← frame, ← extBytes_agree csrcShort, frameHeaderEncode]
  simp only [append_assoc]

theorem written_of_room {frame key : UInt64} {csrc : UInt32} (room : (frontBytes (calcLen32 frame.toUInt32) key csrc ++
      (writeBytes64 (calcLen32 frame.toUInt32) frame ++ extBytes csrc)).length ≤ bsz) :
    frameHdrWrite bsz frame key csrc ≠ [] := by
  have le := (calcLen_spec frame.toUInt32).2.1
  rw [length_append, length_append, FrameHdr.frontBytes_length, FrameHdr.extBytes_length, writeBytes_length (by omega),
    FrameHdr.minSize] at room
  simp only [frameHdrWrite]
  rw [if_neg (by omega)]
  simp

theorem frameHdrWrite_agree (keyShort : kid < 2 ^ 32) (csrcShort : csrc < 2 ^ 32)
    (room : (frameHeaderEncode fid kid csrc).length ≤ bsz) :
    frameHdrWrite bsz (frameArg fid) (UInt64.ofNat kid) (ofNat csrc) =
      frameHeaderEncode fid kid csrc := by
  rw [frameHeaderEncode_parts keyShort csrcShort] at room ⊢
  exact FrameHdr.frameHdrWrite_eq (written_of_room room)

theorem byteOf_agree (fits : n + 8 ≤ 32) : (ofNat val >>> ofNat n).toUInt8 = byteOf val n := by
  apply UInt8.toNat_inj.mp
  have count : (ofNat n).toNat % 32 = n := by
    rw [toNat_ofNat_of_lt' (lt_of_lt_of_le (by omega : n < 32) (by decide)), mod_eq_of_lt (by omega)]
  rw [byteOf_toNat fits, toNat_toUInt8, UInt32.toNat_shiftRight, count, shiftRight_eq_div_pow]
  exact byte_mod fits

theorem xorIv_agree {iv : Bytes} (size : 8 ≤ iv.length) :
    FrameCrypt.frameEncryptorXorIv iv (ofNat fid) (ofNat kid) = some (xorIvBytes iv fid kid) := by
  rw [FrameCrypt.frameEncryptorXorIv, if_pos (by omega), xorIvBytes, idBytes, ← byteOf_agree (by omega : 24 + 8 ≤ 32),
    ← byteOf_agree (by omega : 16 + 8 ≤ 32), ← byteOf_agree (by omega : 8 + 8 ≤ 32),
    ← byteOf_agree (by omega : 0 + 8 ≤ 32), ← byteOf_agree (by omega : 24 + 8 ≤ 32),
    ← byteOf_agree (by omega : 16 + 8 ≤ 32), ← byteOf_agree (by omega : 8 + 8 ≤ 32),
    ← byteOf_agree (by omega : 0 + 8 ≤ 32)]
  simp [FrameCrypt.fbytes]

theorem double_small {v : Nat} (small : v < 2 ^ 53) : double v = v := if_pos small

/-- Bytes that spell a number below 2^53 are read exactly. -/
theorem readBytesLoop_eq {rest bytes : Bytes} : ∀ (front : Bytes) {v : Nat}, (v + 1) * 256 ^ bytes.length ≤ 2 ^ 53 →
    readBytesLoop (front ++ (bytes ++ rest)) bytes.length front.length (some v) =
      some (bytes.foldl (fun v b => v * 256 + b.toNat) v) := by
  induction bytes with
  | nil => exact fun _ _ _ => rfl
  | cons b bytes ih =>
    intro front v small
    have byte := UInt8.toNat_lt b
    have more : (v * 256 + b.toNat + 1) * 256 ^ bytes.length ≤ 2 ^ 53 := by
      rw [length_cons, pow_succ, Nat.mul_comm (256 ^ bytes.length) 256, ← Nat.mul_assoc] at small
      exact le_trans (Nat.mul_le_mul_right _ (by omega)) small
    have exact_ : v * 256 + b.toNat < 2 ^ 53 :=
      lt_of_lt_of_le (Nat.lt_succ_self _) (le_trans (Nat.le_mul_of_pos_right _ (Nat.pow_pos (by decide))) more)
    have next := ih (front ++ [b]) more
    rw [length_append, length_singleton, append_assoc] at next
    rw [length_cons, readBytesLoop]
    simpa [double_small exact_] using next

theorem readBytes_agree {buf : Bytes} {p len : Nat} (inside : p + len ≤ buf.length) (short : len ≤ 6) :
    readBytes buf p len = some (FrameHdr.readBytes (bytesAt buf p len)).toNat := by
  have size : (bytesAt buf p len).length = len := by
    simp only [bytesAt, length_take, length_drop]
    omega
  have position : (buf.take p).length = p := by
    rw [length_take]
    omega
  have parts : buf = buf.take p ++ (bytesAt buf p len ++ (buf.drop p).drop len) := by
    rw [bytesAt, take_append_drop, take_append_drop]
  have bound : 256 ^ len ≤ 256 ^ 6 := Nat.pow_le_pow_right (by decide) short
  have loop := @readBytesLoop_eq ((buf.drop p).drop len) (bytesAt buf p len) (buf.take p) 0 (by rw [size]; omega)
  have fits := BigEndian.ofBytes_lt (bytesAt buf p len)
  rw [size] at fits
  rw [← parts, size, position] at loop
  rw [readBytes, loop, FrameHdr.readBytes_toNat, mod_eq_of_lt (by omega)]
  rfl

section
variable {buf : Bytes} {frame key : UInt64} {csrc : UInt32} {p len : Nat}

theorem decodeExts_spelt (spelt : Spelt buf frame key csrc p len) :
    decodeExts buf maxExts ((byteAt buf 0 &&& 0x10) ≠ 0) (p + calcLen32 frame.toUInt32) "0" =
      (len, Nat.repr csrc.toNat) := by
  have ext : decide ((byteAt buf 0 &&& 0x10) ≠ 0) = decide (csrc ≠ 0) := by simp only [spelt.ext]
  have end_ := spelt.length
  have inside := spelt.inside
  rw [ext]
  by_cases zero : csrc = 0
  · simp [zero, maxExts, decodeExts] at end_ ⊢
    exact ⟨end_.symm, by decide⟩
  · obtain ⟨first, value⟩ := spelt.extension zero
    rw [if_pos zero] at end_
    have read := @readBytes_agree buf (p + calcLen32 frame.toUInt32 + 1) 4 (by omega) (by omega)
    rw [value, toNat_toUInt64] at read
    rw [maxExts, decodeExts, first, if_pos ⟨by simpa using zero, by omega⟩]
    have elen : (((0x31 : UInt8) >>> 4) &&& 7).toNat + 1 = 4 := by decide
    have eid : ((0x31 : UInt8) &&& 0x0f) = 0x01 := by decide
    have last : ((0x31 : UInt8) &&& 0x80) = 0 := by decide
    simp only [elen, eid, and_self, if_true, last, read]
    simp [decodeExts, numberText, end_, Nat.add_assoc]

theorem frameHeaderDecode_spelt (spelt : Spelt buf frame key csrc p len) :
    frameHeaderDecode buf =
      ⟨len, some (lowBits frame).toNat, some (lowBits key).toNat, Nat.repr csrc.toNat⟩ := by
  have end_ := spelt.length
  have inside := spelt.inside
  have le := (calcLen_spec frame.toUInt32).2.1
  have read := @readBytes_agree buf p (calcLen32 frame.toUInt32) (by omega) (by omega)
  rw [spelt.frameid] at read
  have exts := decodeExts_spelt spelt
  simp only [frameHeaderDecode, spelt.flen]
  by_cases long : ((byteAt buf 1 >>> 3) &&& 1) ≠ 0
  · obtain ⟨small, at_, value⟩ := spelt.long long
    rw [FrameHdr.minSize] at at_ value
    have keyRead := @readBytes_agree buf 2 ((byteAt buf 1 &&& 7).toNat + 1) (by omega) (by omega)
    rw [value] at keyRead
    simp only [if_pos long, ← Nat.add_assoc, ← at_, read, exts, keyRead]
  · obtain ⟨at_, value⟩ := spelt.short (not_not.mp long)
    have inline : (byteAt buf 1 &&& 7).toNat = (lowBits key).toNat := by
      rw [← value, UInt64.toNat_ofNat_of_lt']
      exact lt_of_lt_of_le (UInt8.toNat_lt _) (by decide)
    rw [FrameHdr.minSize] at at_
    simp only [if_neg long, ← at_, read, exts, inline]

end

end

/-- The two codecs agree: the header and the IV for a frame are the same bytes, with the frame id taken modulo 2^32 by
    the C side, and of a header with at least one byte behind it both read the same length, ids and csrc, which is text
    in JavaScript and is left at the caller's zero in C where there is none. -/
theorem codecs_agree (fid kid csrc bsz : Nat) (iv rest : Bytes) (keyShort : kid < 2 ^ 32) (csrcShort : csrc < 2 ^ 32)
    (size : 8 ≤ iv.length) (room : (frameHeaderEncode fid kid csrc).length ≤ bsz) (more : rest ≠ []) :
    frameHdrWrite bsz (UInt64.ofNat (fid % 2 ^ 32)) (UInt64.ofNat kid) (ofNat csrc) =
        frameHeaderEncode fid kid csrc ∧
      FrameCrypt.frameEncryptorXorIv iv (ofNat (fid % 2 ^ 32)) (ofNat kid) =
        some (xorIvBytes iv fid kid) ∧
      ∃ hdr, frameHdrRead (frameHeaderEncode fid kid csrc ++ rest) = .ok hdr ∧
        frameHeaderDecode (frameHeaderEncode fid kid csrc ++ rest) =
          ⟨hdr.len, some hdr.frameid.toNat, some hdr.key.toNat, Nat.repr (hdr.csrc.getD 0).toNat⟩ := by
  have write := frameHdrWrite_agree keyShort csrcShort room
  have frame : ofNat (fid % 2 ^ 32) = ofNat fid := by
    apply UInt32.toNat_inj.mp
    rw [toNat_ofNat', toNat_ofNat', mod_mod]
  refine ⟨write, frame ▸ xorIv_agree size, ?_⟩
  have written : frameHdrWrite bsz (frameArg fid) (UInt64.ofNat kid) (ofNat csrc) ≠ [] := by
    rw [frameHeaderEncode_parts keyShort csrcShort] at room
    exact written_of_room room
  have read := FrameHdr.frameHdrRead_written written more
  rw [write] at read
  refine ⟨_, read, ?_⟩
  have decoded := frameHeaderDecode_spelt (FrameHdr.spelt_written (frameArg fid) (UInt64.ofNat kid) (ofNat csrc) more)
  have flen := writeBytes_length (le_trans (calcLen_spec (frameArg fid).toUInt32).2.1 (by decide))
    (frameArg fid)
  have text : ((if ofNat csrc = 0 then none else some (ofNat csrc)).getD 0).toNat =
      (ofNat csrc).toNat := by
    split
    · next zero => rw [zero]; rfl
    · rfl
  rw [frameHeaderEncode_parts keyShort csrcShort, append_assoc, append_assoc, decoded, text]
  simp only [length_append, flen, FrameHdr.extBytes_length, Nat.add_assoc]

theorem codecs_agree_wrapped : frameHeaderEncode (2 ^ 32 + 5) 300 7 = [0x10, 0x09, 1, 44, 5, 0x31, 0, 0, 0, 7] ∧
      frameHdrWrite 32 (UInt64.ofNat ((2 ^ 32 + 5) % 2 ^ 32)) (UInt64.ofNat 300) (ofNat 7) =
        frameHeaderEncode (2 ^ 32 + 5) 300 7 ∧
      FrameCrypt.frameEncryptorXorIv [1, 2, 3, 4, 5, 6, 7, 8] (ofNat ((2 ^ 32 + 5) % 2 ^ 32))
          (ofNat 300) =
        some (xorIvBytes [1, 2, 3, 4, 5, 6, 7, 8] (2 ^ 32 + 5) 300) ∧
      ∃ hdr, frameHdrRead (frameHeaderEncode (2 ^ 32 + 5) 300 7 ++ [9]) = .ok hdr ∧
        frameHeaderDecode (frameHeaderEncode (2 ^ 32 + 5) 300 7 ++ [9]) =
          ⟨hdr.len, some hdr.frameid.toNat, some hdr.key.toNat, Nat.repr (hdr.csrc.getD 0).toNat⟩ :=
  ⟨by decide, codecs_agree (2 ^ 32 + 5) 300 7 32 [1, 2, 3, 4, 5, 6, 7, 8] [9] (by decide) (by decide) (by decide)
    (by decide) (by decide)⟩

end WebWorker
end Avs
