import Avs.Jzon
import Avs.LibreText

/-!
The texts libre makes of objects, data and numbers, as libraries for given messages: `printing` writes and reads
one object and is correct, `knowing` reads given texts.
-/
namespace Avs.Jzon
open List LibreText

def quoted (text : Bytes) : Bytes :=
  34 :: text.flatMap (fun c => if c = 34 ∨ c = 92 then [92, c] else [c]) ++ [34]

def bracketed (left right : UInt8) (texts : List Bytes) : Bytes := left :: intercalate [44] texts ++ [right]

mutual

/-- The text of a value. A double, which no message holds, has none here. -/
def printJson : Json → Option Bytes
  | .null => some (ascii "null")
  | .bool b => some (ascii (if b then "true" else "false"))
  | .int i => some ((if i.msb then [45] else []) ++ printBase 10 i.toInt.natAbs)
  | .double _ => none
  | .string text => some (quoted text)
  | .array items => (printItems items).map (bracketed 91 93)
  | .object members => (printMembers members).map (bracketed 123 125)

def printItems : List Json → Option (List Bytes)
  | [] => some []
  | item :: rest => (printJson item).bind (fun text => (printItems rest).map (text :: ·))

def printMembers : Odict → Option (List Bytes)
  | [] => some []
  | member :: rest => (printMember member).bind (fun text => (printMembers rest).map (text :: ·))

def printMember : String × Json → Option Bytes
  | (key, value) => (printJson value).map (quoted (ascii key) ++ 58 :: ·)

end

/-- `pl_u32` and `pl_u64`: a text with any other character is zero. -/
def plDecimal {w : Nat} (text : Bytes) : BitVec w :=
  if text.all isDigit then BitVec.ofNat w (readBase 10 text) else 0

/-- Base64 and decimal numbers as libre and the C library have them, without JSON. -/
def formats : Libre where
  jsonEncodeOdict _ := .error .ENOSYS
  jsonDecodeOdict _ := .error .ENOSYS
  base64Encode := base64Encode
  base64Decode text size := if size < 3 * (text.length / 4) then .error .EOVERFLOW else .ok (base64Decode text)
  printU32 val := printBase 10 val.toNat
  printU64 val := printBase 10 val.toNat
  plU32 := plDecimal
  plU64 := plDecimal
  sscanfU32 text :=
    if text.takeWhile isDigit = [] then none else some (BitVec.ofNat 32 (readBase 10 (text.takeWhile isDigit)))

/-- A JSON parser that knows some texts and finds an object without members in all others. -/
def knowing (texts : List (Bytes × Odict)) : Libre :=
  { formats with jsonDecodeOdict text := .ok ((texts.lookup text).getD []) }

/-- A library that prints one object and reads its text. -/
noncomputable def printing (members : Odict) : Libre :=
  { formats with
    jsonEncodeOdict odict := open Classical in
      if odict = members then (printJson (.object odict)).elim (.error .ENOSYS) .ok else .error .ENOMEM
    jsonDecodeOdict text := if printJson (.object members) = some text then .ok members else .error .EBADMSG }

variable {members odict : Odict} {text : Bytes}

theorem printing_encode : (printing members).jsonEncodeOdict odict = .ok text ↔
    odict = members ∧ printJson (.object members) = some text := by
  by_cases same : odict = members
  · subst same
    cases printed : printJson (.object odict) with
    | none => simp [printing, printed]
    | some other => simp [printing, printed]
  · simp [printing, same]

theorem decimal_read {w : Nat} {val : BitVec w} : BitVec.ofNat w (readBase 10 (printBase 10 val.toNat)) = val := by
  rw [readBase_printBase (by decide) (by decide), BitVec.ofNat_toNat, BitVec.setWidth_eq]

theorem plDecimal_printBase {w : Nat} {val : BitVec w} : plDecimal (printBase 10 val.toNat) = val := by
  rw [plDecimal, if_pos (all_eq_true.mpr printBase_isDigit), decimal_read]

theorem printing_correct : (printing members).Correct where
  json := by
    intro odict text encoded
    obtain ⟨rfl, printed⟩ := printing_encode.mp encoded
    exact if_pos printed
  brace := by
    intro odict text encoded
    obtain ⟨rfl, printed⟩ := printing_encode.mp encoded
    rw [printJson] at printed
    obtain ⟨texts, -, rfl⟩ := Option.map_eq_some_iff.mp printed
    rfl
  base64 := by
    intro data size enough
    exact (if_neg (Nat.not_lt.mpr enough)).trans (congrArg _ (base64Decode_base64Encode data))
  u32 := plDecimal_printBase
  u64 := plDecimal_printBase
  scanned := by
    intro val
    have digits : (printBase 10 val.toNat).takeWhile isDigit = printBase 10 val.toNat :=
      takeWhile_eq_self_iff.mpr printBase_isDigit
    simp only [printing, formats, digits, if_neg printBase_ne_nil, decimal_read]

example : printJson (.object [("type", .string (ascii "PING")), ("level", .int (-7))]) =
    some (ascii "\x7b\"type\":\"PING\",\"level\":-7\x7d") := by
  decide +kernel

end Avs.Jzon
