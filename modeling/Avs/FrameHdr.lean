import Avs.Base
import Avs.BigEndian

/-!
The frame header of `src/frame_hdr/frame_hdr.c`: a version and extension byte, a byte with the two lengths,
the key id, the frame id and the csrc extension. `calc_len` takes its argument as 32 bits, so of a longer id
only the low bytes are counted. Reads stay within a buffer of at least `FRAME_HDR_MINSZ` bytes, which is what
the callers hand over.
-/
namespace Avs.FrameHdr
open List BigEndian Nat

def minSize : Nat := 2

def maxExts : Nat := 16

def frameHdrMaxSize : Nat := 18 + 9 * 8

/-- The loop of `calc_len`; a 32-bit value is zero after four shifts. -/
def calcLenLoop : Nat → UInt32 → Nat
  | 0, _ => 0
  | n + 1, val => if val = 0 then 0 else calcLenLoop n (val >>> 8) + 1

def calcLen (val : UInt32) : Nat := if val = 0 then 1 else calcLenLoop 4 val

/-- `write_bytes`, for the lengths up to eight. -/
def writeBytes : Nat → UInt64 → Bytes
  | 0, _ => []
  | n + 1, val => (val >>> UInt64.ofNat (8 * n)).toUInt8 :: writeBytes n val

def readBytes (bytes : Bytes) : UInt64 := bytes.foldl (fun (v : UInt64) b => v <<< 8 ||| b.toUInt64) 0

/-- `buf[1]` of a written header: both lengths and the bit for a key id of its own bytes. -/
def lengthsByte (flen : Nat) (long : Bool) (klen : Nat) : UInt8 :=
  UInt8.ofNat (flen - 1) <<< 4 ||| (if long then (1 : UInt8) else 0) <<< 3 ||| UInt8.ofNat klen

/-- `frame_hdr_write`: the bytes it writes, none where the buffer is too small. -/
def frameHdrWrite (bsz : Nat) (frame key : UInt64) (csrc : UInt32) : Bytes :=
  let long := 7 < key
  let ksz := if long then calcLen key.toUInt32 else 0
  let klen := if long then ksz - 1 else key.toNat
  let flen := calcLen frame.toUInt32
  let xsz := if csrc ≠ 0 then 5 else 0
  let ext : UInt8 := if csrc ≠ 0 then 1 else 0
  if bsz < 2 + ksz + flen + xsz then []
  else
    [ext <<< 4, lengthsByte flen long klen] ++
    (if long then writeBytes (klen + 1) key else []) ++ writeBytes flen frame ++
    (if csrc ≠ 0 then 0x31 :: writeBytes 4 csrc.toUInt64 else [])

/-- What `frame_hdr_read` reads. Without a csrc extension it leaves the caller's csrc as it was. -/
structure Header where
  frameid : UInt64
  key : UInt64
  csrc : Option UInt32
  len : Nat
  deriving DecidableEq, Repr

def byteAt (buf : Bytes) (p : Nat) : UInt8 := buf.getD p 0

def bytesAt (buf : Bytes) (p len : Nat) : Bytes := (buf.drop p).take len

/-- The loop over the extensions, at most `n` more of them. An extension that reaches the end of the buffer stops it and
    is not consumed. -/
def readExts (buf : Bytes) : Nat → Bool → Nat → Option UInt32 → Except Errno (Nat × Option UInt32)
  | 0, _, p, csrc => .ok (p, csrc)
  | n + 1, ext, p, csrc =>
    if ext ∧ p < buf.length then
      let b := byteAt buf p
      let elen := ((b >>> 4) &&& 7).toNat + 1
      if buf.length ≤ p + elen + 1 then .ok (p, csrc)
      else if (b &&& 0x0f) = 0x01 ∧ elen = 4 then
        if buf.length < p + 5 then .error .ERANGE
        else readExts buf n ((b &&& 0x80) ≠ 0) (p + elen + 1) (some (readBytes (bytesAt buf (p + 1) 4)).toUInt32)
      else readExts buf n ((b &&& 0x80) ≠ 0) (p + elen + 1) csrc
    else .ok (p, csrc)

/-- The second half of `frame_hdr_read`, from the frame id on. -/
def readFrame (buf : Bytes) (flen p : Nat) (key : UInt64) : Except Errno Header :=
  if buf.length < p + flen then .error .ERANGE
  else
    match readExts buf maxExts ((byteAt buf 0 &&& 0x10) ≠ 0) (p + flen) none with
    | .error err => .error err
    | .ok (len, csrc) => .ok ⟨readBytes (bytesAt buf p flen), key, csrc, len⟩

def frameHdrRead (buf : Bytes) : Except Errno Header :=
  let b := byteAt buf 1
  let flen := ((b >>> 4) &&& 7).toNat + 1
  let klen := (b &&& 7).toNat
  if ((b >>> 3) &&& 1) ≠ 0 then
    if buf.length < minSize + klen + 1 then .error .ERANGE
    else readFrame buf flen (minSize + klen + 1) (readBytes (bytesAt buf minSize (klen + 1)))
  else readFrame buf flen minSize (UInt64.ofNat klen)

variable {n bsz : Nat} {val v frame key : UInt64} {b : UInt8} {bytes front rest buf : Bytes} {csrc : UInt32}

theorem writeBytes_eq (le : n ≤ 8) : writeBytes n val = BigEndian.toBytes n val.toNat := by
  induction n with
  | zero => rfl
  | succ n ih =>
    rw [writeBytes, BigEndian.toBytes, ih (by omega)]
    congr 1
    apply UInt8.toNat_inj.mp
    have small : 8 * n < 64 := by omega
    have exact_ : (256 : Nat) ^ n = 2 ^ (8 * n) := by rw [Nat.pow_mul]
    simp only [UInt64.toNat_toUInt8, UInt64.toNat_shiftRight, UInt64.toNat_ofNat', UInt8.toNat_ofNat', exact_,
      shiftRight_eq_div_pow]
    rw [mod_eq_of_lt (by omega : 8 * n < 2 ^ 64), mod_eq_of_lt small]

theorem shift_or_toNat : (v <<< 8 ||| b.toUInt64).toNat = (v.toNat * 256 + b.toNat) % 2 ^ 64 := by
  have small := UInt8.toNat_lt b
  have or_ : v.toNat <<< 8 % 2 ^ 64 ||| b.toNat = (v.toNat * 256 + b.toNat) % 2 ^ 64 := by
    have low : v.toNat <<< 8 % 2 ^ 64 = (v.toNat % 2 ^ 56) <<< 8 := by
      rw [shiftLeft_eq, shiftLeft_eq]
      omega
    rw [low, ← Nat.shiftLeft_add_eq_or_of_lt (by omega), shiftLeft_eq]
    omega
  simpa [UInt64.toNat_or, UInt64.toNat_shiftLeft] using or_

theorem foldl_readBytes : (bytes.foldl (fun (v : UInt64) b => v <<< 8 ||| b.toUInt64) v).toNat =
      bytes.foldl (fun v b => v * 256 + b.toNat) v.toNat % 2 ^ 64 := by
  induction bytes generalizing v with
  | nil => simp [mod_eq_of_lt (UInt64.toNat_lt v)]
  | cons b rest ih =>
    rw [foldl_cons, foldl_cons, ih, shift_or_toNat, foldl_ofBytes, foldl_ofBytes]
    rw [add_mod, Nat.mod_mul_mod, ← add_mod]

theorem readBytes_toNat : (readBytes bytes).toNat = BigEndian.ofBytes bytes % 2 ^ 64 := by
  rw [readBytes, foldl_readBytes]
  rfl

theorem readBytes_writeBytes_toNat (le : n ≤ 8) : (readBytes (writeBytes n val)).toNat = val.toNat % 256 ^ n := by
  have small : val.toNat % 256 ^ n < 2 ^ 64 := Nat.lt_of_le_of_lt (Nat.mod_le _ _) (UInt64.toNat_lt val)
  rw [readBytes_toNat, writeBytes_eq le, ofBytes_toBytes, mod_eq_of_lt small]

theorem readBytes_writeBytes (le : n ≤ 8) (fits : val.toNat < 256 ^ n) : readBytes (writeBytes n val) = val := by
  apply UInt64.toNat_inj.mp
  rw [readBytes_writeBytes_toNat le, mod_eq_of_lt fits]

theorem writeBytes_length (le : n ≤ 8) (val : UInt64) : (writeBytes n val).length = n := by
  rw [writeBytes_eq le, toBytes_length]

theorem bytesAt_append (front bytes rest : Bytes) :
    bytesAt (front ++ (bytes ++ rest)) front.length bytes.length = bytes := by
  simp [bytesAt]

theorem byteAt_append : byteAt (front ++ b :: rest) front.length = b := by
  simp [byteAt]

theorem calcLenLoop_spec (n : Nat) : ∀ val : UInt32, val.toNat < 256 ^ n →
    calcLenLoop n val ≤ n ∧ val.toNat < 256 ^ calcLenLoop n val := by
  induction n with
  | zero =>
    intro val fits
    exact ⟨Nat.le_refl _, fits⟩
  | succ n ih =>
    intro val fits
    by_cases zero : val = 0
    · simp [calcLenLoop, zero]
    · have shifted : (val >>> 8).toNat = val.toNat / 256 := by
        simp [UInt32.toNat_shiftRight, shiftRight_eq_div_pow]
      rw [pow_succ] at fits
      obtain ⟨le, lt⟩ := ih (val >>> 8) (by rw [shifted]; exact Nat.div_lt_of_lt_mul (by omega))
      rw [shifted] at lt
      rw [calcLenLoop, if_neg zero, pow_succ]
      omega

theorem calcLen_spec (val : UInt32) : 1 ≤ calcLen val ∧ calcLen val ≤ 4 ∧ val.toNat < 256 ^ calcLen val := by
  by_cases zero : val = 0
  · simp [calcLen, zero]
  · obtain ⟨le, lt⟩ := calcLenLoop_spec 4 val (by have := UInt32.toNat_lt val; omega)
    have some_ : 1 ≤ calcLenLoop 4 val := by
      rw [calcLenLoop, if_neg zero]
      omega
    rw [calcLen, if_neg zero]
    exact ⟨some_, le, lt⟩

/-- The low 32 bits of an id, which are all that `calc_len` sees. -/
def lowBits (val : UInt64) : UInt64 := val.toUInt32.toUInt64

theorem lowBits_toNat : (lowBits val).toNat = val.toNat % 2 ^ 32 := by
  simp [lowBits]

theorem lowBits_eq_iff : lowBits val = val ↔ val.toNat < 2 ^ 32 := by
  rw [← UInt64.toNat_inj, lowBits_toNat]
  constructor
  · intro same
    rw [← same]
    exact Nat.mod_lt _ (by decide)
  · exact mod_eq_of_lt

/-- The bytes counted hold the low 32 bits of the id, whatever is above them. -/
theorem readBytes_calcLen (val : UInt64) : readBytes (writeBytes (calcLen val.toUInt32) val) = lowBits val := by
  obtain ⟨_, le, fits⟩ := calcLen_spec val.toUInt32
  rw [UInt64.toNat_toUInt32] at fits
  have divides : 256 ^ calcLen val.toUInt32 ∣ 2 ^ 32 := pow_dvd_pow 256 le
  apply UInt64.toNat_inj.mp
  rw [readBytes_writeBytes_toNat (by omega), lowBits_toNat, ← Nat.mod_mod_of_dvd _ divides, mod_eq_of_lt fits]

theorem lengthsByte_table : ∀ f k : Fin 8, ∀ long : Bool,
    (lengthsByte (f.val + 1) long k.val >>> 4 &&& 7).toNat = f.val ∧
      ((lengthsByte (f.val + 1) long k.val >>> 3 &&& 1) ≠ 0 ↔ long = true) ∧
      (lengthsByte (f.val + 1) long k.val &&& 7).toNat = k.val := by
  decide

theorem lengthsByte_spec {flen klen : Nat} (long : Bool) (pos : 1 ≤ flen) (le : flen ≤ 8) (small : klen < 8) :
    (lengthsByte flen long klen >>> 4 &&& 7).toNat + 1 = flen ∧
      ((lengthsByte flen long klen >>> 3 &&& 1) ≠ 0 ↔ long = true) ∧
        (lengthsByte flen long klen &&& 7).toNat = klen := by
  have table := lengthsByte_table ⟨flen - 1, by omega⟩ ⟨klen, small⟩ long
  simp only [Nat.sub_add_cancel pos] at table
  exact ⟨by omega, table.2⟩

def extBytes (csrc : UInt32) : Bytes := if csrc ≠ 0 then 0x31 :: writeBytes 4 csrc.toUInt64 else []

theorem extBytes_length (csrc : UInt32) : (extBytes csrc).length = if csrc ≠ 0 then 5 else 0 := by
  by_cases zero : csrc = 0
  · simp [extBytes, zero]
  · simp [extBytes, zero, writeBytes_length (by omega : 4 ≤ 8)]

/-- The bytes before the frame id. -/
def frontBytes (flen : Nat) (key : UInt64) (csrc : UInt32) : Bytes :=
  let klen := if 7 < key then calcLen key.toUInt32 - 1 else key.toNat
  [(if csrc ≠ 0 then (1 : UInt8) else 0) <<< 4, lengthsByte flen (7 < key) klen] ++
  (if 7 < key then writeBytes (klen + 1) key else [])

theorem frameHdrWrite_eq (written : frameHdrWrite bsz frame key csrc ≠ []) : frameHdrWrite bsz frame key csrc =
      frontBytes (calcLen frame.toUInt32) key csrc ++
        (writeBytes (calcLen frame.toUInt32) frame ++ extBytes csrc) := by
  have fits : ¬ bsz < 2 + (if 7 < key then calcLen key.toUInt32 else 0) + calcLen frame.toUInt32 +
      (if csrc ≠ 0 then 5 else 0) := by
    intro small
    exact written (by simp only [frameHdrWrite, if_pos small])
  simp only [frameHdrWrite, frontBytes, extBytes, if_neg fits, append_assoc]
  by_cases long : 7 < key <;> simp [long]

theorem frameHdrWrite_ne_nil (room : frameHdrMaxSize ≤ bsz) : frameHdrWrite bsz frame key csrc ≠ [] := by
  have fits : ¬ bsz < 2 + (if 7 < key then calcLen key.toUInt32 else 0) + calcLen frame.toUInt32 +
      (if csrc ≠ 0 then 5 else 0) := by
    have := (calcLen_spec key.toUInt32).2.1
    have := (calcLen_spec frame.toUInt32).2.1
    have : frameHdrMaxSize = 90 := rfl
    split <;> split <;> omega
  simp only [frameHdrWrite, if_neg fits]
  simp

theorem frontBytes_length (flen : Nat) (key : UInt64) (csrc : UInt32) :
    (frontBytes flen key csrc).length = minSize + if 7 < key then calcLen key.toUInt32 else 0 := by
  obtain ⟨pos, le, -⟩ := calcLen_spec key.toUInt32
  by_cases long : 7 < key
  · simp [frontBytes, long, writeBytes_length (by omega : calcLen key.toUInt32 - 1 + 1 ≤ 8), minSize]
    omega
  · simp [frontBytes, long, minSize]

theorem frontBytes_ext (flen : Nat) (key : UInt64) (csrc : UInt32) :
    (byteAt (frontBytes flen key csrc) 0 &&& 0x10) ≠ 0 ↔ csrc ≠ 0 := by
  have bit : ((1 : UInt8) <<< 4 &&& 0x10) ≠ 0 := by decide
  by_cases zero : csrc = 0
  · simp [frontBytes, byteAt, zero]
  · simpa [frontBytes, byteAt, zero] using bit

/-- What a reader finds in a buffer that starts with a header: the frame id stands at `p` and the header ends at `len`,
    before the end of the buffer. -/
structure Spelt (buf : Bytes) (frame key : UInt64) (csrc : UInt32) (p len : Nat) : Prop where
  flen : ((byteAt buf 1 >>> 4) &&& 7).toNat + 1 = calcLen frame.toUInt32
  long : ((byteAt buf 1 >>> 3) &&& 1) ≠ 0 → (byteAt buf 1 &&& 7).toNat < 4 ∧
    p = minSize + (byteAt buf 1 &&& 7).toNat + 1 ∧
    readBytes (bytesAt buf minSize ((byteAt buf 1 &&& 7).toNat + 1)) = lowBits key
  short : ((byteAt buf 1 >>> 3) &&& 1) = 0 → p = minSize ∧ UInt64.ofNat (byteAt buf 1 &&& 7).toNat = lowBits key
  frameid : readBytes (bytesAt buf p (calcLen frame.toUInt32)) = lowBits frame
  ext : (byteAt buf 0 &&& 0x10) ≠ 0 ↔ csrc ≠ 0
  extension : csrc ≠ 0 → byteAt buf (p + calcLen frame.toUInt32) = 0x31 ∧
    readBytes (bytesAt buf (p + calcLen frame.toUInt32 + 1) 4) = csrc.toUInt64
  length : len = p + calcLen frame.toUInt32 + if csrc ≠ 0 then 5 else 0
  inside : len < buf.length

theorem spelt_written (frame key : UInt64) (csrc : UInt32) (more : rest ≠ []) :
    let front := frontBytes (calcLen frame.toUInt32) key csrc
    Spelt (front ++ (writeBytes (calcLen frame.toUInt32) frame ++ (extBytes csrc ++ rest))) frame key csrc front.length
      (front.length + calcLen frame.toUInt32 + if csrc ≠ 0 then 5 else 0) := by
  intro front
  obtain ⟨flenPos, flenLe, -⟩ := calcLen_spec frame.toUInt32
  obtain ⟨klenPos, klenLe, -⟩ := calcLen_spec key.toUInt32
  have flen : (writeBytes (calcLen frame.toUInt32) frame).length = calcLen frame.toUInt32 :=
    writeBytes_length (by omega) _
  have four : (writeBytes 4 csrc.toUInt64).length = 4 := writeBytes_length (by omega) _
  have second : ∀ tail, byteAt (front ++ tail) 1 = lengthsByte (calcLen frame.toUInt32) (7 < key)
      (if 7 < key then calcLen key.toUInt32 - 1 else key.toNat) := fun _ => rfl
  obtain ⟨flenByte, longBit, klenByte⟩ := @lengthsByte_spec (calcLen frame.toUInt32)
    (if 7 < key then calcLen key.toUInt32 - 1 else key.toNat) (7 < key) flenPos (by omega) (by
      split
      · omega
      · next short => exact Nat.lt_succ_of_le (Nat.le_of_not_lt short))
  refine ⟨?_, ?_, ?_, ?_, frontBytes_ext (calcLen frame.toUInt32) key csrc, ?_, rfl, ?_⟩
  · rw [second, flenByte]
  · rw [second, longBit, klenByte]
    intro long
    have long : 7 < key := by simpa using long
    have klen : calcLen key.toUInt32 - 1 + 1 = calcLen key.toUInt32 := by omega
    have value := bytesAt_append (front.take 2) (writeBytes (calcLen key.toUInt32) key)
      (writeBytes (calcLen frame.toUInt32) frame ++ (extBytes csrc ++ rest))
    rw [writeBytes_length (by omega)] at value
    refine ⟨by simp only [long, if_true]; omega, ?_, ?_⟩
    · rw [frontBytes_length]
      simp only [long, if_true]
      omega
    · rw [← readBytes_calcLen, ← value]
      simp [front, frontBytes, long, klen, minSize]
  · rw [second, klenByte]
    intro bit
    have short : ¬ 7 < key := by simpa [bit] using longBit
    have small : key.toNat ≤ 7 := Nat.le_of_not_lt short
    refine ⟨by simp [front, frontBytes_length, short], ?_⟩
    rw [if_neg short, lowBits_eq_iff.mpr (by omega)]
    simp
  · have value := bytesAt_append front (writeBytes (calcLen frame.toUInt32) frame) (extBytes csrc ++ rest)
    rw [flen] at value
    rw [value, readBytes_calcLen]
  · intro some_
    have bytes : extBytes csrc = 0x31 :: writeBytes 4 csrc.toUInt64 := if_pos some_
    have fits : csrc.toUInt64.toNat < 256 ^ 4 := by simpa using UInt32.toNat_lt csrc
    have first := @byteAt_append 0x31 (front ++ writeBytes (calcLen frame.toUInt32) frame)
      (writeBytes 4 csrc.toUInt64 ++ rest)
    have value := bytesAt_append (front ++ writeBytes (calcLen frame.toUInt32) frame ++ [0x31])
      (writeBytes 4 csrc.toUInt64) rest
    rw [four] at value
    refine ⟨by simpa [bytes, flen] using first, ?_⟩
    rw [← @readBytes_writeBytes 4 _ (by omega) fits, ← value]
    simp [bytes, flen, Nat.add_assoc]
  · have := length_pos_iff.mpr more
    simp only [length_append, flen, extBytes_length]
    omega

theorem readExts_spelt {p len : Nat} (spelt : Spelt buf frame key csrc p len) :
    readExts buf maxExts ((byteAt buf 0 &&& 0x10) ≠ 0) (p + calcLen frame.toUInt32) none =
      .ok (len, if csrc = 0 then none else some csrc) := by
  have ext : decide ((byteAt buf 0 &&& 0x10) ≠ 0) = decide (csrc ≠ 0) := by simp only [spelt.ext]
  have end_ := spelt.length
  have inside := spelt.inside
  rw [ext]
  by_cases zero : csrc = 0
  · simp [zero, maxExts, readExts] at end_ ⊢
    exact end_.symm
  · obtain ⟨first, value⟩ := spelt.extension zero
    rw [if_pos zero] at end_
    rw [maxExts, readExts, first, value, if_pos ⟨by simpa using zero, by omega⟩]
    have elen : (((0x31 : UInt8) >>> 4) &&& 7).toNat + 1 = 4 := by decide
    have eid : ((0x31 : UInt8) &&& 0x0f) = 0x01 ∧ 4 = 4 := by decide
    have last : ((0x31 : UInt8) &&& 0x80) = 0 := by decide
    simp only [elen, eid, and_self, if_true, last]
    rw [if_neg (by omega), if_neg (by omega)]
    simp [readExts, zero, end_, Nat.add_assoc]

theorem readFrame_spelt {p len : Nat} (spelt : Spelt buf frame key csrc p len) :
    readFrame buf (calcLen frame.toUInt32) p (lowBits key) =
      .ok ⟨lowBits frame, lowBits key, if csrc = 0 then none else some csrc, len⟩ := by
  have end_ := spelt.length
  have inside := spelt.inside
  rw [readFrame, if_neg (by omega), readExts_spelt spelt, spelt.frameid]

theorem frameHdrRead_spelt {p len : Nat} (spelt : Spelt buf frame key csrc p len) :
    frameHdrRead buf = .ok ⟨lowBits frame, lowBits key, if csrc = 0 then none else some csrc, len⟩ := by
  have end_ := spelt.length
  have inside := spelt.inside
  have read := readFrame_spelt spelt
  simp only [frameHdrRead, spelt.flen]
  split
  · next long =>
    obtain ⟨-, at_, value⟩ := spelt.long long
    rw [if_neg (by omega), value, ← at_, read]
  · next short =>
    obtain ⟨at_, value⟩ := spelt.short (not_not.mp short)
    rw [value, ← at_, read]

theorem frameHdrRead_written (written : frameHdrWrite bsz frame key csrc ≠ []) (more : rest ≠ []) :
    frameHdrRead (frameHdrWrite bsz frame key csrc ++ rest) =
      .ok ⟨lowBits frame, lowBits key, if csrc = 0 then none else some csrc,
        (frameHdrWrite bsz frame key csrc).length⟩ := by
  have le := (calcLen_spec frame.toUInt32).2.1
  have read := frameHdrRead_spelt (spelt_written frame key csrc more)
  rw [frameHdrWrite_eq written]
  simpa [extBytes_length, writeBytes_length (by omega : calcLen frame.toUInt32 ≤ 8), Nat.add_assoc] using read

theorem frameHdrRead_frameHdrWrite (bsz : Nat) (csrc : UInt32) (room : frameHdrMaxSize ≤ bsz)
    (frameShort : frame.toNat < 2 ^ 32) (keyShort : key.toNat < 2 ^ 32) (more : rest ≠ []) :
    frameHdrRead (frameHdrWrite bsz frame key csrc ++ rest) =
      .ok ⟨frame, key, if csrc = 0 then none else some csrc, (frameHdrWrite bsz frame key csrc).length⟩ := by
  rw [frameHdrRead_written (frameHdrWrite_ne_nil room) more, lowBits_eq_iff.mpr frameShort,
    lowBits_eq_iff.mpr keyShort]

def ReadBack (frame key : UInt64) (csrc : UInt32) (written : Bytes) : Except Errno Header → Prop
  | .error _ => False
  | .ok hdr => hdr.frameid = frame ∧ hdr.key = key ∧ (csrc ≠ 0 → hdr.csrc = some csrc) ∧ hdr.len = written.length

/-- A header written into a buffer with room for it is read back exactly when both ids have 32 bits. -/
theorem roundTrip_iff (bsz : Nat) (frame key : UInt64) (csrc : UInt32) (rest : Bytes)
    (written : frameHdrWrite bsz frame key csrc ≠ []) (more : rest ≠ []) :
    ReadBack frame key csrc (frameHdrWrite bsz frame key csrc)
        (frameHdrRead (frameHdrWrite bsz frame key csrc ++ rest)) ↔
      frame.toNat < 2 ^ 32 ∧ key.toNat < 2 ^ 32 := by
  rw [frameHdrRead_written written more, ReadBack, lowBits_eq_iff, lowBits_eq_iff]
  constructor
  · rintro ⟨frameShort, keyShort, _⟩
    exact ⟨frameShort, keyShort⟩
  · rintro ⟨frameShort, keyShort⟩
    exact ⟨frameShort, keyShort, fun some_ => if_neg some_, rfl⟩

theorem roundTrip_multibyte :
    ReadBack 0x11223344 0x55667788 0x99aabbcc (frameHdrWrite 64 0x11223344 0x55667788 0x99aabbcc)
      (frameHdrRead (frameHdrWrite 64 0x11223344 0x55667788 0x99aabbcc ++ [0])) :=
  (roundTrip_iff 64 0x11223344 0x55667788 0x99aabbcc [0] (by decide) (by decide)).mpr (by decide)

/-- A frame id of 33 bits loses its top bit on the wire. -/
theorem roundTrip_long_frame : frameHdrWrite 64 0x100000000 3 0 ≠ [] ∧
      frameHdrRead (frameHdrWrite 64 0x100000000 3 0 ++ [0]) = .ok ⟨0, 3, none, 3⟩ ∧
      ¬ ReadBack 0x100000000 3 0 (frameHdrWrite 64 0x100000000 3 0)
        (frameHdrRead (frameHdrWrite 64 0x100000000 3 0 ++ [0])) := by
  have read : frameHdrRead (frameHdrWrite 64 0x100000000 3 0 ++ [0]) = .ok ⟨0, 3, none, 3⟩ := by decide +kernel
  refine ⟨by decide, read, ?_⟩
  rw [read, ReadBack]
  rintro ⟨same, _⟩
  exact absurd same (by decide)

end Avs.FrameHdr
