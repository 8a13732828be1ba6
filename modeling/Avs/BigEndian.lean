import Mathlib.Tactic.Ring

/-!
Natural numbers as big-endian byte strings of a given length, and back. Reading what was written gives the
number modulo 256 to the length (`ofBytes_toBytes`).
-/
namespace Avs.BigEndian

/-- The lowest `n` bytes of a number, highest first. -/
def toBytes : Nat → Nat → List UInt8
  | 0, _ => []
  | n + 1, v => UInt8.ofNat (v / 256 ^ n) :: toBytes n v

/-- The number a byte string spells. -/
def ofBytes (bytes : List UInt8) : Nat := bytes.foldl (fun v b => v * 256 + b.toNat) 0

variable {n v : Nat}

@[simp] theorem toBytes_length : (toBytes n v).length = n := by
  induction n with
  | zero => rfl
  | succ n ih => simp [toBytes, ih]

theorem foldl_ofBytes {bytes : List UInt8} (v : Nat) :
    bytes.foldl (fun v b => v * 256 + b.toNat) v = v * 256 ^ bytes.length + ofBytes bytes := by
  induction bytes generalizing v with
  | nil => simp [ofBytes]
  | cons b rest ih =>
    rw [ofBytes, List.foldl_cons, List.foldl_cons, ih, ih (0 * 256 + b.toNat), List.length_cons]
    ring

theorem ofBytes_cons {b : UInt8} {rest : List UInt8} :
    ofBytes (b :: rest) = b.toNat * 256 ^ rest.length + ofBytes rest := by
  rw [ofBytes, List.foldl_cons, foldl_ofBytes]
  simp

theorem ofBytes_lt (bytes : List UInt8) : ofBytes bytes < 256 ^ bytes.length := by
  induction bytes with
  | nil => simp [ofBytes]
  | cons b rest ih =>
    have byte := UInt8.toNat_lt b
    have scaled : b.toNat * 256 ^ rest.length ≤ 255 * 256 ^ rest.length := Nat.mul_le_mul_right _ (by omega)
    rw [ofBytes_cons, List.length_cons, Nat.pow_succ]
    omega

/-- The low bytes of a number are read back. -/
theorem ofBytes_toBytes : ofBytes (toBytes n v) = v % 256 ^ n := by
  induction n with
  | zero => simp [toBytes, ofBytes, Nat.mod_one]
  | succ n ih =>
    have split : v % 256 ^ (n + 1) = v % 256 ^ n + 256 ^ n * (v / 256 ^ n % 256) := by
      rw [Nat.pow_succ, Nat.mod_mul]
    rw [toBytes, ofBytes_cons, ih, toBytes_length, UInt8.toNat_ofNat', split, Nat.mul_comm, Nat.add_comm]

end Avs.BigEndian
