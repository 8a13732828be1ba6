import Mathlib.Data.List.TakeWhile
import Mathlib.Data.Nat.Digits.Lemmas
import Avs.Base

/-!
The parts of libre that read and write text: expressions of character classes, each matched as often as it can
be without going back, numbers and base64. A number that was printed is read back (`readBase_printBase`), and so
are data in base64 (`base64Decode_base64Encode`).
-/
namespace Avs.LibreText
open List

/-- A class of characters and how often it is to match. -/
structure Item where
  cls : UInt8 → Bool
  min : Nat
  max : Option Nat

/-- A range of a class; characters are compared in lower case. -/
def inRange (low high : UInt8) (c : UInt8) : Bool := low ≤ lower c && lower c ≤ high

/-- The characters an item takes off the front of a text. -/
def Item.taken (item : Item) (text : Bytes) : Bytes :=
  match item.max with
  | none => text.takeWhile item.cls
  | some n => (text.take n).takeWhile item.cls

/-- The match of an expression at the front of a text: what each item took. -/
def matchHere : List Item → Bytes → Option (List Bytes)
  | [], _ => some []
  | item :: rest, text =>
    if (item.taken text).length < item.min then none
    else (matchHere rest (text.drop (item.taken text).length)).map (item.taken text :: ·)

/-- `re_regex`: the first place an expression matches at and what its items took there. -/
def reRegex (items : List Item) : Bytes → Option (Nat × List Bytes)
  | [] => none
  | c :: rest =>
    match matchHere items (c :: rest) with
    | some runs => some (0, runs)
    | none => (reRegex items rest).map (fun found => (found.1 + 1, found.2))

variable {items : List Item} {text : Bytes} {runs : List Bytes} {item : Item} {n : Nat}

theorem reRegex_zero_iff (filled : text ≠ []) :
    reRegex items text = some (0, runs) ↔ matchHere items text = some runs := by
  cases text with
  | nil => exact absurd rfl filled
  | cons c rest =>
    rw [reRegex]
    cases matchHere items (c :: rest) with
    | some found => simp
    | none => simp

theorem Item.taken_append (unlimited : item.max = none) {run rest : Bytes} (inside : ∀ c ∈ run, item.cls c = true)
    (outside : ∀ c ∈ rest.head?, item.cls c = false) : item.taken (run ++ rest) = run := by
  have stop : rest.takeWhile item.cls = [] := by
    cases rest with
    | nil => rfl
    | cons c rest => simp [outside c rfl]
  simp only [Item.taken, unlimited]
  rw [takeWhile_append_of_pos inside, stop, append_nil]

theorem Item.taken_prefix (item : Item) (text : Bytes) : item.taken text <+: text := by
  unfold Item.taken
  split
  · exact takeWhile_prefix _
  · exact (List.takeWhile_prefix _).trans (List.take_prefix _ _)

theorem Item.taken_cls {c : UInt8} (member : c ∈ item.taken text) : item.cls c = true := by
  unfold Item.taken at member
  split at member
  · exact mem_takeWhile_imp member
  · exact mem_takeWhile_imp member

theorem matchHere_mem (matched : matchHere items text = some runs) (member : item ∈ items) (needed : 0 < item.min) :
    ∃ c ∈ text, item.cls c = true := by
  induction items generalizing text runs with
  | nil => cases member
  | cons first rest ih =>
    rw [matchHere] at matched
    split at matched
    · cases matched
    · next enough =>
      rcases mem_cons.mp member with rfl | later
      · obtain ⟨c, taken⟩ := exists_mem_of_length_pos (show 0 < (item.taken text).length by omega)
        exact ⟨c, (item.taken_prefix text).subset taken, Item.taken_cls taken⟩
      · obtain ⟨runs', matched', _⟩ := Option.map_eq_some_iff.mp matched
        obtain ⟨c, inside, cls⟩ := ih matched' later
        exact ⟨c, mem_of_mem_drop inside, cls⟩

def hexDigit (d : Nat) : UInt8 := if d < 10 then UInt8.ofNat (48 + d) else UInt8.ofNat (87 + d)

def chHex (c : UInt8) : Nat :=
  if 48 ≤ c ∧ c ≤ 57 then c.toNat - 48
  else if 65 ≤ c ∧ c ≤ 70 then c.toNat - 55
  else if 97 ≤ c ∧ c ≤ 102 then c.toNat - 87
  else 0

/-- A number in a base of at most 16, its highest digit first. -/
def printBase (b n : Nat) : Bytes := if n = 0 then [48] else (Nat.digits b n).reverse.map hexDigit

def readBase (b : Nat) (text : Bytes) : Nat := Nat.ofDigits b (text.reverse.map chHex)

/-- `%x`. -/
def printHex (n : Nat) : Bytes := printBase 16 n

def plX32 (text : Bytes) : Nat := readBase 16 text % 2 ^ 32

def isDigit (c : UInt8) : Bool := 48 ≤ c && c ≤ 57

def isHex (c : UInt8) : Bool := inRange 48 57 c || inRange 97 102 c

theorem hexDigit_table : ∀ d : Fin 16, chHex (hexDigit d.val) = d.val ∧ isHex (hexDigit d.val) = true ∧
    (d.val < 10 → isDigit (hexDigit d.val) = true) := by
  decide

variable {b : Nat}

theorem printBase_ne_nil : printBase b n ≠ [] := by
  unfold printBase
  split
  · simp
  · next positive => simpa using Nat.digits_ne_nil_iff_ne_zero.mpr positive

theorem printBase_digits (more : 1 < b) : ∀ c ∈ printBase b n, ∃ d < b, c = hexDigit d := by
  intro c member
  unfold printBase at member
  split at member
  · exact ⟨0, by omega, mem_singleton.mp member⟩
  · simp only [mem_map, mem_reverse] at member
    obtain ⟨d, digit, rfl⟩ := member
    exact ⟨d, Nat.digits_lt_base more digit, rfl⟩

theorem printBase_isDigit : ∀ c ∈ printBase 10 n, isDigit c = true := by
  intro c member
  obtain ⟨d, small, rfl⟩ := printBase_digits (by decide) c member
  exact (hexDigit_table ⟨d, by omega⟩).2.2 small

theorem printHex_isHex : ∀ c ∈ printHex n, isHex c = true := by
  intro c member
  obtain ⟨d, small, rfl⟩ := printBase_digits (by decide) c member
  exact (hexDigit_table ⟨d, small⟩).2.1

/-- A number that was printed is read back. -/
theorem readBase_printBase (more : 1 < b) (most : b ≤ 16) : readBase b (printBase b n) = n := by
  by_cases zero : n = 0
  · subst zero
    simp [readBase, printBase, chHex]
  · have digits : ((Nat.digits b n).map hexDigit).map chHex = Nat.digits b n := by
      rw [map_map]
      refine (map_congr_left ?_).trans (map_id _)
      intro d digit
      exact (hexDigit_table ⟨d, (Nat.digits_lt_base more digit).trans_le most⟩).1
    simp only [readBase, printBase, if_neg zero, map_reverse, reverse_reverse, digits, Nat.ofDigits_digits]

/-- A number of 32 bits that was printed is read back. -/
theorem plX32_printHex (small : n < 2 ^ 32) : plX32 (printHex n) = n := by
  rw [plX32, printHex, readBase_printBase (by decide) (by decide), Nat.mod_eq_of_lt small]

/-! ## Base64 -/

/-- The character of six bits. -/
def base64Char (n : Nat) : UInt8 :=
  UInt8.ofNat (if n < 26 then 65 + n else if n < 52 then 71 + n else if n < 62 then n - 4 else if n = 62 then 43 else 47)

def base64Bits (c : UInt8) : Nat :=
  if 65 ≤ c ∧ c ≤ 90 then c.toNat - 65
  else if 97 ≤ c ∧ c ≤ 122 then c.toNat - 71
  else if 48 ≤ c ∧ c ≤ 57 then c.toNat + 4
  else if c = 43 then 62
  else 63

/-- The characters of three bytes. -/
def quad (a b c : UInt8) : Bytes :=
  [base64Char (a.toNat / 4), base64Char (a.toNat % 4 * 16 + b.toNat / 16),
   base64Char (b.toNat % 16 * 4 + c.toNat / 64), base64Char (c.toNat % 64)]

/-- The bytes of four characters. -/
def triple (w x y z : UInt8) : Bytes :=
  [UInt8.ofNat (base64Bits w * 4 + base64Bits x / 16), UInt8.ofNat (base64Bits x % 16 * 16 + base64Bits y / 4),
   UInt8.ofNat (base64Bits y % 4 * 64 + base64Bits z)]

/-- `base64_encode`: a last group of fewer than three bytes is filled up with `=`. -/
def base64Encode : Bytes → Bytes
  | [] => []
  | [a] => (quad a 0 0).take 2 ++ [61, 61]
  | [a, b] => (quad a b 0).take 3 ++ [61]
  | a :: b :: c :: rest => quad a b c ++ base64Encode rest

def base64Decode : Bytes → Bytes
  | w :: x :: y :: z :: rest =>
    (triple w x y z).take (if y = 61 then 1 else if z = 61 then 2 else 3) ++ base64Decode rest
  | _ => []

theorem base64_table : ∀ n : Fin 64, base64Bits (base64Char n.val) = n.val ∧ base64Char n.val ≠ 61 := by
  decide

theorem base64Bits_base64Char (small : n < 64) : base64Bits (base64Char n) = n := (base64_table ⟨n, small⟩).1

theorem base64Char_ne_pad (small : n < 64) : base64Char n ≠ 61 := (base64_table ⟨n, small⟩).2

section
variable (a b c : UInt8)

theorem first_byte : UInt8.ofNat (base64Bits (base64Char (a.toNat / 4)) * 4 +
    base64Bits (base64Char (a.toNat % 4 * 16 + b.toNat / 16)) / 16) = a := by
  have := a.toNat_lt
  have := b.toNat_lt
  rw [base64Bits_base64Char (by omega), base64Bits_base64Char (by omega)]
  exact (congrArg UInt8.ofNat (by omega)).trans UInt8.ofNat_toNat

theorem second_byte : UInt8.ofNat (base64Bits (base64Char (a.toNat % 4 * 16 + b.toNat / 16)) % 16 * 16 +
    base64Bits (base64Char (b.toNat % 16 * 4 + c.toNat / 64)) / 4) = b := by
  have := b.toNat_lt
  have := c.toNat_lt
  rw [base64Bits_base64Char (by omega), base64Bits_base64Char (by omega)]
  exact (congrArg UInt8.ofNat (by omega)).trans UInt8.ofNat_toNat

theorem third_byte : UInt8.ofNat (base64Bits (base64Char (b.toNat % 16 * 4 + c.toNat / 64)) % 4 * 64 +
    base64Bits (base64Char (c.toNat % 64))) = c := by
  have := c.toNat_lt
  rw [base64Bits_base64Char (by omega), base64Bits_base64Char (by omega)]
  exact (congrArg UInt8.ofNat (by omega)).trans UInt8.ofNat_toNat

theorem third_char_ne_pad : base64Char (b.toNat % 16 * 4 + c.toNat / 64) ≠ 61 := by
  have := c.toNat_lt
  exact base64Char_ne_pad (by omega)

end

theorem base64Decode_base64Encode (data : Bytes) : base64Decode (base64Encode data) = data := by
  fun_induction base64Encode data with
  | case1 => rfl
  | case2 a =>
    simp only [quad, take_succ_cons, take_zero, cons_append, nil_append, base64Decode, triple, first_byte, if_true]
  | case3 a b =>
    simp only [quad, take_succ_cons, take_zero, cons_append, nil_append, base64Decode, triple, first_byte, second_byte,
      third_char_ne_pad, if_true, if_false]
  | case4 a b c rest ih =>
    have last := base64Char_ne_pad (Nat.mod_lt c.toNat (show 0 < 64 by decide))
    simp only [quad, take_succ_cons, take_zero, cons_append, nil_append, base64Decode, triple, first_byte, second_byte,
      third_byte, third_char_ne_pad, last, if_false, ih]

end Avs.LibreText
