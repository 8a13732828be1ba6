import Avs.Base

/-!
The JSON objects of the signalling messages and the functions that read and fill them, with what the code
takes from libre as a record of functions (`Libre`). An object built by the `jzon_add` functions is the
concatenation of what each adds. Allocations succeed.
-/
namespace Avs

/-- The values of an ordered dictionary. -/
inductive Json
  | null
  | bool (b : Bool)
  | int (i : BitVec 64)
  | double (bits : BitVec 64)
  | string (text : Bytes)
  | array (items : List Json)
  | object (members : List (String × Json))

/-- `struct odict`; of two members with one key the first is found. -/
abbrev Odict := List (String × Json)

/-- What the codec calls in libre and in the C library. `base64Decode` is told the size of the buffer it writes to. -/
structure Libre where
  jsonEncodeOdict : Odict → Except Errno Bytes
  jsonDecodeOdict : Bytes → Except Errno Odict
  base64Encode : Bytes → Bytes
  base64Decode : (text : Bytes) → (size : Nat) → Except Errno Bytes
  /-- `%u`. -/
  printU32 : BitVec 32 → Bytes
  /-- `%llu`. -/
  printU64 : BitVec 64 → Bytes
  plU32 : Bytes → BitVec 32
  plU64 : Bytes → BitVec 64
  /-- `sscanf` of `%u`: none where no number was read. -/
  sscanfU32 : Bytes → Option (BitVec 32)

namespace Jzon

def objectGetEx : Json → String → Option Json
  | .object members, key => members.lookup key
  | _, _ => none

def getString : Json → Option Bytes
  | .string text => some text
  | _ => none

/-- `jzon_str`. -/
def jzonStr (obj : Json) (key : String) : Option Bytes := (objectGetEx obj key).bind getString

/-- `jzon_strdup`: a null leaves the string unset without an error. -/
def jzonStrdup (obj : Json) (key : String) : Except Errno (Option Bytes) :=
  match objectGetEx obj key with
  | none => .error .ENOENT
  | some (.string text) => .ok (some text)
  | some .null => .ok none
  | some _ => .error .EPROTO

/-- `jzon_int` and `jzon_u32`, which differ in the sign of the 32 bits they keep. -/
def jzonInt (obj : Json) (key : String) : Except Errno (BitVec 32) :=
  match objectGetEx obj key with
  | none => .error .ENOENT
  | some (.int i) => .ok (i.setWidth 32)
  | some _ => .error .EPROTO

def jzonBool (obj : Json) (key : String) : Except Errno Bool :=
  match objectGetEx obj key with
  | none => .error .ENOENT
  | some (.bool b) => .ok b
  | some _ => .error .EPROTO

def jzonObject (obj : Json) (key : String) : Except Errno Odict :=
  match objectGetEx obj key with
  | none => .error .ENOENT
  | some (.object members) => .ok members
  | some _ => .error .EPROTO

def jzonArray (obj : Json) (key : String) : Except Errno (List Json) :=
  match objectGetEx obj key with
  | none => .error .ENOENT
  | some (.array items) => .ok items
  | some _ => .error .EPROTO

/-- What a handler of `jzon_apply` makes of an entry: a record for its list, nothing, or the end of the walk. -/
inductive Handled (α : Type)
  | append (record : α)
  | skip
  | stop

/-- `jzon_apply` with a handler that fills a list. -/
def jzonApply {α : Type} (handler : Json → Handled α) : List Json → List α
  | [] => []
  | item :: rest =>
    match handler item with
    | .append record => record :: jzonApply handler rest
    | .skip => jzonApply handler rest
    | .stop => []

/-- The blanks `jzon_decode` skips to find the first token. -/
def blanks : Bytes := ascii " \t\r\n"

def jzonDecode (libre : Libre) (text : Bytes) : Except Errno Json :=
  if text = [] then .error .EINVAL
  else
    match text.find? (· ∉ blanks) with
    | none => .error .EBADMSG
    | some token =>
      if token = 123 then (libre.jsonDecodeOdict text).map .object
      else if token = 91 then (libre.jsonDecodeOdict text).map (fun odict => .array (odict.map Prod.snd))
      else .error .EBADMSG

/-- `jzon_encode` of an object. -/
def jzonEncode (libre : Libre) (members : Odict) : Except Errno Bytes := libre.jsonEncodeOdict members

def addStr (key : String) (text : Bytes) : Odict := [(key, .string text)]

def addInt (key : String) (val : BitVec 32) : Odict := [(key, .int (val.signExtend 64))]

def addBool (key : String) (val : Bool) : Odict := [(key, .bool val)]

/-- `json_object_object_add` of an array. -/
def addArray (key : String) (items : List Json) : Odict := [(key, .array items)]

/-- `jzon_add_base64`, whose error for a null buffer no caller looks at. -/
def addBase64 (libre : Libre) (key : String) (buf : Option Bytes) : Odict :=
  match buf with
  | none => []
  | some data => addStr key (libre.base64Encode data)

/-- `jzon_add_str` of a string that is looked at first. -/
def addStrIf (key : String) (text : Option Bytes) : Odict :=
  match text with
  | none => []
  | some text => addStr key text

end Jzon

/-- The library's readers undo its writers. An encoded object starts with a brace, and a base64 text is decoded into any
    buffer that has three bytes for each four of it. -/
structure Libre.Correct (libre : Libre) : Prop where
  json : ∀ {odict text}, libre.jsonEncodeOdict odict = .ok text → libre.jsonDecodeOdict text = .ok odict
  brace : ∀ {odict text}, libre.jsonEncodeOdict odict = .ok text → text.find? (· ∉ Jzon.blanks) = some 123
  base64 : ∀ {data size}, 3 * ((libre.base64Encode data).length / 4) ≤ size →
    libre.base64Decode (libre.base64Encode data) size = .ok data
  u32 : ∀ {val}, libre.plU32 (libre.printU32 val) = val
  u64 : ∀ {val}, libre.plU64 (libre.printU64 val) = val
  scanned : ∀ {val}, libre.sscanfU32 (libre.printU32 val) = some val

namespace Jzon

theorem bind_ok_iff {α β : Type} {read : Except Errno α} {next : α → Except Errno β} {result : β} :
    (read >>= next) = .ok result ↔ ∃ value, read = .ok value ∧ next value = .ok result := by
  cases read with
  | error err => simp [bind, Except.bind]
  | ok value => simp [bind, Except.bind]

theorem map_ok_iff {α β : Type} {read : Except Errno α} {f : α → β} {result : β} :
    read.map f = .ok result ↔ ∃ value, read = .ok value ∧ f value = result := by
  cases read with
  | error err => simp [Except.map]
  | ok value => simp [Except.map]

variable {obj : Json} {key name : String} {text : Bytes} {libre : Libre} {members : Odict} {val : BitVec 32}

theorem jzonStrdup_null : jzonStrdup obj key = .ok none ↔ objectGetEx obj key = some .null := by
  unfold jzonStrdup
  split
  · next missing => simp [missing]
  · next text found => simp [found]
  · next found => simp [found]
  · next value _ notNull found =>
    constructor
    · rintro ⟨⟩
    · intro null
      rw [found] at null
      cases null
      exact absurd rfl notNull

theorem jzonStrdup_text : jzonStrdup obj key = .ok (some text) ↔ objectGetEx obj key = some (.string text) := by
  unfold jzonStrdup
  split
  · next missing => simp [missing]
  · next text found => simp [found]
  · next found => simp [found]
  · next value notText _ found =>
    constructor
    · rintro ⟨⟩
    · intro given
      rw [found] at given
      cases given
      exact absurd rfl (notText text)

theorem jzonDecode_jzonEncode (correct : libre.Correct)
    (encoded : jzonEncode libre members = .ok text) : jzonDecode libre text = .ok (.object members) := by
  have first := correct.brace encoded
  have filled : text ≠ [] := by
    rintro rfl
    cases first
  unfold jzonDecode
  rw [if_neg filled, first]
  simp [correct.json encoded, Except.map]

@[simp]
theorem objectGetEx_object : objectGetEx (.object members) key = members.lookup key := rfl

@[simp]
theorem lookup_single {value : Json} : List.lookup key [(name, value)] = if key = name then some value else none := by
  by_cases same : key = name
  · simp [same]
  · have differ : (key == name) = false := by simp [same]
    simp [List.lookup_cons, differ, same]

@[simp]
theorem lookup_addStr : (addStr name text).lookup key = if key = name then some (.string text) else none :=
  lookup_single

@[simp]
theorem lookup_addInt : (addInt name val).lookup key = if key = name then some (.int (val.signExtend 64)) else none :=
  lookup_single

@[simp]
theorem lookup_addBool {val : Bool} : (addBool name val).lookup key = if key = name then some (.bool val) else none :=
  lookup_single

@[simp]
theorem lookup_addArray {items : List Json} :
    (addArray name items).lookup key = if key = name then some (.array items) else none :=
  lookup_single

@[simp]
theorem lookup_addStrIf {text : Option Bytes} :
    (addStrIf name text).lookup key = if key = name then text.map .string else none := by
  cases text with
  | none => simp [addStrIf]
  | some text => simp [addStrIf]

@[simp]
theorem lookup_addBase64 {buf : Option Bytes} : (addBase64 libre name buf).lookup key =
      if key = name then buf.map (fun data => .string (libre.base64Encode data)) else none := by
  cases buf with
  | none => simp [addBase64]
  | some data => simp [addBase64]

/-- A 32-bit number written by `jzon_add_int` is read back whole. -/
theorem setWidth_signExtend : (val.signExtend 64).setWidth 32 = val := by grind

/-- A walk whose handler takes every entry a list was written to gives the list's records. -/
theorem jzonApply_map {α β : Type} {handler : Json → Handled β} {write : α → Json} {read : α → β}
    {records : List α} (taken : ∀ record ∈ records, handler (write record) = .append (read record)) :
    jzonApply handler (records.map write) = records.map read := by
  induction records with
  | nil => rfl
  | cons first rest ih =>
    have front := taken first List.mem_cons_self
    have behind := ih (fun record member => taken record (List.mem_cons_of_mem _ member))
    rw [List.map_cons, jzonApply, front, behind, List.map_cons]

end Jzon

end Avs
