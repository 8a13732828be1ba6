import Mathlib.Data.Vector.Defs

/-!
Types the components share: byte strings, the error codes they return and the HKDF of the crypto library,
which the components call and never look into.
-/
namespace Avs

abbrev Bytes := List UInt8

/-- The error codes the modelled functions return; success is no code, and `EIO` is written out. -/
inductive Errno
  | EINVAL | ENOENT | EALREADY | ENOMEM | EAGAIN | EIOERR | ERANGE | EBADF | ENOSYS | EPROTO
  | ENOTSUP | EACCES | ETIMEDOUT | ENOTCONN | ECANCELED | ETIMEDOUT_ECONN | ENOONEJOINED | EEVERYONELEFT
  | EDURATION | EBADMSG | EPROTONOSUPPORT | EOVERFLOW | ECONNRESET | EREMOTE | EDATACHANNEL
  deriving DecidableEq, Repr

def sessionKeySize : Nat := 32

abbrev Key := Vector UInt8 sessionKeySize

/-- `HKDF(out, out_len, hash_md, secret, salt, info)`: deterministic, of the length asked for, or a failure. -/
abbrev Hkdf := (outLen : Nat) → (secret salt info : Bytes) → Option (Vector UInt8 outLen)

/-- The bytes of an ASCII literal. -/
def ascii (text : String) : Bytes := text.toList.map (fun c => UInt8.ofNat c.toNat)

/-- `tolower` of the C locale. -/
def lower (c : UInt8) : UInt8 := if 65 ≤ c ∧ c ≤ 90 then c + 32 else c

/-- A string that may be null, without regard to case. -/
def fold (text : Option Bytes) : Option Bytes := text.map (·.map lower)

/-- `strcaseeq`: a null string equals only a null string. -/
def strcaseeq (a b : Option Bytes) : Bool := fold a = fold b

end Avs
