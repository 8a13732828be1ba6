import Avs.Base
import Avs.Runs
import Avs.KeyedList

/-!
The keystore of `src/keystore/keystore.c`: a list of session keys sorted by index, a pointer to the key in use
and the rules that add, derive, overwrite and drop keys.

A key lives at an address, so that a dangling pointer can be told from a good one. A function returns nothing
where the code follows a null or dangling pointer; every other path returns the state and the error code.
Allocation succeeds. HKDF may fail wherever it is called. `list_sort` is the stable sort of the list, and the
clock (`tmr_jiffies`) is an argument.
-/
namespace Avs

/-- `keyinfo`. -/
structure KeyInfo where
  addr : Nat
  skey : Key
  mkey : Key
  index : UInt32
  updateTs : UInt64
  deriving DecidableEq, Repr

structure Keystore where
  keyl : List KeyInfo
  current : Option Nat
  init : Bool
  salt : Option Bytes
  hashForward : Bool
  hasKeys : Bool
  decryptSuccessful : Bool
  decryptAttempted : Bool
  errReported : Bool
  updateTs : UInt64
  nextAddr : Nat
  deriving DecidableEq, Repr

namespace Keystore

def numKeys : UInt32 := 16

def skeyInfo : Bytes := ascii "session_key"
def mkeyInfo : Bytes := ascii "media_key"
def csInfo : Bytes := ascii "cs"

/-- What a call leaves: the state, the error code it returns, and whether it called the listeners. -/
structure Done where
  ks : Keystore
  err : Option Errno
  told : Bool

def alloc (hashForward : Bool) (now : UInt64) : Keystore where
  keyl := []
  current := none
  init := false
  salt := none
  hashForward := hashForward
  hasKeys := false
  decryptSuccessful := false
  decryptAttempted := false
  errReported := false
  updateTs := now
  nextAddr := 0

def getLatest (ks : Keystore) : Option KeyInfo := ks.keyl.getLast?

/-- The key at an address, while it is in the list. -/
def keyAt (ks : Keystore) (a : Nat) : Option KeyInfo := ks.keyl.find? (fun k => k.addr = a)

/-- `le.next` of the key at an address. -/
def nextOf (ks : Keystore) (a : Nat) : Option KeyInfo := (ks.keyl.dropWhile (fun k => k.addr ≠ a)).tail.head?

/-- Reads through `current`: `none` where it dangles, `some none` where it is null. -/
def currentKey (ks : Keystore) : Option (Option KeyInfo) :=
  match ks.current with
  | none => some none
  | some a => (keyAt ks a).map some

def sortHandler (a b : KeyInfo) : Prop := a.index ≤ b.index

instance : DecidableRel sortHandler := fun a b => inferInstanceAs (Decidable (a.index ≤ b.index))

/-- `keystore_organise`: sorts, then drops keys from the head as long as neither the head nor its successor is the
    current key. -/
def organise (ks : Keystore) : Keystore :=
  let sorted := ks.keyl.insertionSort sortHandler
  match ks.current with
  | none => { ks with keyl := sorted }
  | some a => { ks with keyl := KeyedList.cutBefore (fun k => k.addr = a) sorted }

def appendKey (ks : Keystore) (kinfo : KeyInfo) : Keystore :=
  organise { ks with keyl := ks.keyl ++ [kinfo] }

def resetKeys (ks : Keystore) : Keystore :=
  { ks with keyl := [], current := none, init := false, hasKeys := false, decryptAttempted := false,
            decryptSuccessful := false, errReported := false }

/-- `keystore_reset`; unlike `resetKeys` it drops the salt and keeps `err_reported`. -/
def reset (ks : Keystore) : Keystore :=
  { ks with keyl := [], current := none, init := false, salt := none, hasKeys := false,
            decryptAttempted := false, decryptSuccessful := false }

/-- `keystore_set_salt`; the salt pointer may be null. -/
def setSalt (ks : Keystore) (salt : Option Bytes) (now : UInt64) : Done :=
  match salt with
  | none => ⟨ks, some .EINVAL, false⟩
  | some bytes => ⟨{ ks with salt := some bytes, updateTs := now }, none, false⟩

/-- The 32-byte array after `memset` to zero and `memcpy` of the first `MIN(ksz, E2EE_SESSIONKEY_SIZE)` bytes of a key.
    -/
def padKey (key : Bytes) : Key := Vector.ofFn (fun i => key.getD i.val 0)

/-- A caller's buffer of `ksz` bytes after the same from a stored key. -/
def copyOut (ksz : Nat) (key : Key) : Bytes := key.toList.take ksz ++ List.replicate (ksz - sessionKeySize) 0

/-- `keystore_derive_media_key`, from the keystore's salt. -/
def deriveMediaKey (hkdf : Hkdf) (salt : Option Bytes) (skey : Key) : Option Key :=
  hkdf sessionKeySize skey.toList (salt.getD []) mkeyInfo

/-- The HKDF call of `keystore_derive_session_key`. -/
def deriveSessionKey (hkdf : Hkdf) (salt : Option Bytes) (prev : Key) : Option Key :=
  hkdf sessionKeySize prev.toList (salt.getD []) skeyInfo

/-- The key at an index gets a new session key. Where the media key cannot be derived the session key is overwritten all
    the same. -/
def overwrite (hkdf : Hkdf) (now : UInt64) (ks : Keystore) (kinfo : KeyInfo) (key : Bytes) : Done :=
  let skey := padKey key
  let mkey := deriveMediaKey hkdf ks.salt skey
  let kinfo' := { kinfo with skey := skey, mkey := mkey.getD kinfo.mkey }
  ⟨{ ks with keyl := ks.keyl.map (fun k => if k.addr = kinfo.addr then kinfo' else k), updateTs := now },
    if mkey.isSome then none else some .EINVAL, false⟩

/-- A key that is not yet in the list is added; the first one becomes current. -/
def insertKey (hkdf : Hkdf) (now : UInt64) (ks : Keystore) (index : UInt32) (key : Bytes) : Done :=
  let a := ks.nextAddr
  let ks := { ks with updateTs := now, nextAddr := a + 1 }
  match deriveMediaKey hkdf ks.salt (padKey key) with
  | none => ⟨ks, some .EINVAL, false⟩
  | some mkey =>
    let ks := appendKey ks { addr := a, skey := padKey key, mkey := mkey, index := index, updateTs := now }
    let ks := { ks with hasKeys := true }
    if ks.init then ⟨ks, none, false⟩
    else ⟨{ organise { ks with current := some a } with init := true }, none, true⟩

def setSessionKey (hkdf : Hkdf) (now : UInt64) (ks : Keystore) (index : UInt32) (key : Bytes) : Option Done :=
  if key.length = 0 then some ⟨ks, some .EINVAL, false⟩
  else match currentKey ks with
    | none => none
    | some current =>
      if current.any (fun c => index < c.index) then some ⟨ks, some .EALREADY, false⟩
      else match ks.keyl.find? (fun k => k.index = index) with
        | some kinfo =>
          let sz := min key.length sessionKeySize
          if kinfo.skey.toList.take sz = key.take sz then some ⟨ks, some .EALREADY, false⟩
          else some (overwrite hkdf now ks kinfo key)
        | none => some (insertKey hkdf now ks index key)

/-- `keystore_set_fresh_session_key`; the salt pointer may be null. -/
def setFreshSessionKey (hkdf : Hkdf) (now : UInt64) (ks : Keystore) (index : UInt32) (key : Bytes)
    (salt : Option Bytes) : Option Done :=
  match salt with
  | none => some ⟨ks, some .EINVAL, false⟩
  | some salt =>
    match hkdf sessionKeySize key salt csInfo with
    | none => some ⟨ks, some .EINVAL, false⟩
    | some hashed => setSessionKey hkdf now ks index hashed.toList

/-- `keystore_get_current_session_key`, of a dangling `current` nothing. -/
def getCurrentSessionKey (ks : Keystore) : Option (Except Errno (UInt32 × Key)) :=
  (currentKey ks).map (fun current => match current with
    | none => .error .ENOENT
    | some k => .ok (k.index, k.skey))

def getNextSessionKey (ks : Keystore) : Option (Except Errno (UInt32 × Key)) :=
  (currentKey ks).map (fun current => match current with
    | none => .error .ENOENT
    | some k => match nextOf ks k.addr with
      | none => .error .ENOENT
      | some next => .ok (next.index, next.skey))

/-- The loop of `keystore_hash_to_key`, from the latest key `kinfo` on. The bound is the distance to the wanted index;
    `now` gives the clock at each reading. -/
def hashLoop (hkdf : Hkdf) (now : Nat → UInt64) (index : UInt32) :
    Nat → Keystore → KeyInfo → Keystore × Option Errno
  | 0, ks, _ => (ks, none)
  | n + 1, ks, kinfo =>
    if kinfo.index < index then
      let a := ks.nextAddr
      let ks := { ks with updateTs := now n, nextAddr := a + 1 }
      match deriveSessionKey hkdf ks.salt kinfo.skey with
      | none => (ks, some .EINVAL)
      | some skey =>
        match deriveMediaKey hkdf ks.salt skey with
        | none => (ks, some .EINVAL)
        | some mkey =>
          let knext := { addr := a, skey := skey, mkey := mkey, index := kinfo.index + 1, updateTs := now n }
          hashLoop hkdf now index n (appendKey ks knext) knext
    else (ks, none)

def hashToKey (hkdf : Hkdf) (now : Nat → UInt64) (ks : Keystore) (index : UInt32) : Keystore × Option Errno :=
  match getLatest ks with
  | none => (ks, some .ENOENT)
  | some kinfo => hashLoop hkdf now index (index.toNat - kinfo.index.toNat) ks kinfo

/-- The end of `keystore_rotate`: `current` moves to its successor, which the code does not check for null. -/
def rotateTo (ks : Keystore) (current : KeyInfo) : Option Done :=
  (nextOf ks current.addr).map (fun next => ⟨organise { ks with current := some next.addr }, none, true⟩)

/-- `keystore_rotate`. A last key with index 2^32 - 1 hashes to nothing new, and the code then follows its null `next`.
    -/
def rotate (hkdf : Hkdf) (now : Nat → UInt64) (ks : Keystore) : Option Done :=
  match currentKey ks with
  | none => none
  | some none => some ⟨ks, some .ENOENT, false⟩
  | some (some current) =>
    if (nextOf ks current.addr).isSome then rotateTo ks current
    else if ks.hashForward then
      match hashToKey hkdf now ks (current.index + 1) with
      | (ks, some err) => some ⟨ks, some err, false⟩
      | (ks, none) => rotateTo ks current
    else some ⟨ks, some .ENOENT, false⟩

def getCurrent (ks : Keystore) : Option (Except Errno (UInt32 × UInt64)) :=
  (currentKey ks).map (fun current => match current with
    | none => .error .ENOENT
    | some k => .ok (k.index, ks.updateTs))

def setCurrent (ks : Keystore) (index : UInt32) : Done :=
  match ks.keyl.find? (fun k => k.index = index) with
  | none => ⟨ks, some .ENOENT, false⟩
  | some kinfo => ⟨organise { ks with current := some kinfo.addr }, none, true⟩

/-- A looked-up key is handed out; `current` moves to it when it is ahead. -/
def handOut (ks : Keystore) (current : Option KeyInfo) (kinfo : KeyInfo) (ksz : Nat) :
    Keystore × Except Errno Bytes :=
  (if current.all (fun c => c.index < kinfo.index) then organise { ks with current := some kinfo.addr } else ks,
    .ok (copyOut ksz kinfo.mkey))

/-- The part of `keystore_get_media_key` that hashes forward from the last key to an index that no key has. Here
    `current` is not checked for null. -/
def hashForwardTo (hkdf : Hkdf) (now : Nat → UInt64) (ks : Keystore) (index : UInt32) (ksz : Nat) :
    Option (Keystore × Except Errno Bytes) :=
  match hashToKey hkdf now ks index with
  | (ks, some _) => some (ks, .error .ENOENT)
  | (ks, none) =>
    match getLatest ks with
    | none => some (ks, .error .ENOENT)
    | some kinfo =>
      match currentKey ks with
      | some (some current) => some (handOut ks (some current) kinfo ksz)
      | _ => none

/-- `keystore_get_media_key`: the buffer it fills, or the error it returns. Both a hit above the current key and a hash
    forward move `current`. -/
def getMediaKey (hkdf : Hkdf) (now : Nat → UInt64) (ks : Keystore) (index : UInt32) (ksz : Nat) :
    Option (Keystore × Except Errno Bytes) :=
  match ks.keyl.find? (fun k => k.index = index) with
  | some kinfo => (currentKey ks).map (fun current => handOut ks current kinfo ksz)
  | none =>
    if ks.hashForward then
      match getLatest ks with
      | none => some ({ ks with errReported := true }, .error .ENOENT)
      | some last =>
        let ks := { ks with errReported := false }
        if last.index < index ∧ index < last.index + numKeys then hashForwardTo hkdf now ks index ksz
        else some (ks, .error .ENOENT)
    else some (ks, .error .ENOENT)

def getMaxKey (ks : Keystore) : UInt32 := ((getLatest ks).map (·.index)).getD 0

def generateIv (hkdf : Hkdf) (clientid streamName : String) (ivsz : Nat) : Option (Vector UInt8 ivsz) :=
  hkdf ivsz (ascii clientid) (ascii streamName) []

def setDecryptAttempted (ks : Keystore) : Keystore := { ks with decryptAttempted := true }

def setDecryptSuccessful (ks : Keystore) : Keystore := { ks with decryptSuccessful := true }

/-- The key `keystore_rotate_by_time` picks: of the keys from the current one on (from the head on when there is none),
    the last one no younger than `minTs`. -/
def pickByTime (ks : Keystore) (minTs : UInt64) : Option KeyInfo :=
  let from_ := match ks.current with
    | none => ks.keyl
    | some a => ks.keyl.dropWhile (fun k => k.addr ≠ a)
  (from_.filter (fun k => k.updateTs ≤ minTs)).getLast?

/-- `keystore_rotate_by_time`; it returns whether there is more to rotate to. -/
def rotateByTime (ks : Keystore) (minTs : UInt64) : Option (Done × Bool) :=
  match currentKey ks, pickByTime ks minTs with
  | none, _ => none
  | some _, none => some (⟨ks, none, false⟩, true)
  | some _, some latest =>
    if ks.current = some latest.addr then some (⟨ks, none, false⟩, (nextOf ks latest.addr).isSome)
    else
      let ks := organise { ks with current := some latest.addr }
      some (⟨ks, none, true⟩, (nextOf ks latest.addr).isSome)

inductive Op
  | setSalt (salt : Option Bytes) (now : UInt64)
  | setSessionKey (index : UInt32) (key : Bytes) (now : UInt64)
  | setFreshSessionKey (index : UInt32) (key : Bytes) (salt : Option Bytes) (now : UInt64)
  | rotate (now : Nat → UInt64)
  | setCurrent (index : UInt32)
  | getMediaKey (index : UInt32) (ksz : Nat) (now : Nat → UInt64)
  | rotateByTime (minTs : UInt64)
  | reset
  | resetKeys

/-- The state a completed operation leaves. -/
def apply (hkdf : Hkdf) : Op → Keystore → Option Keystore
  | .setSalt salt now, ks => some (setSalt ks salt now).ks
  | .setSessionKey index key now, ks => (setSessionKey hkdf now ks index key).map (·.ks)
  | .setFreshSessionKey index key salt now, ks => (setFreshSessionKey hkdf now ks index key salt).map (·.ks)
  | .rotate now, ks => (rotate hkdf now ks).map (·.ks)
  | .setCurrent index, ks => some (setCurrent ks index).ks
  | .getMediaKey index ksz now, ks => (getMediaKey hkdf now ks index ksz).map (·.1)
  | .rotateByTime minTs, ks => (rotateByTime ks minTs).map (·.1.ks)
  | .reset, ks => some (reset ks)
  | .resetKeys, ks => some (resetKeys ks)

end Keystore

end Avs
