import Avs.FrameHdr
import Avs.Keystore

/-!
Frame encryption: `frame_encryptor.c` and `frame_decryptor.c` of `src/frame_enc`. The keystore they share with
the rest of the call is handed to each call in the state it has then, and is null until it is set.

OpenSSL is a parameter: sealing takes a key, an IV, the header as additional data and a payload; opening takes
what the code passes, pointers into the received frame and an `int` length, which may be negative. What
peerflow knows about a csrc is a parameter as well, and may differ at each call.
-/
namespace Avs.FrameCrypt
open Avs.FrameHdr (Header frameHdrWrite frameHdrRead frameHdrMaxSize minSize)
open Avs.Keystore (getCurrent getMediaKey generateIv setDecryptAttempted setDecryptSuccessful)

inductive MediaType
  | audio
  | video
  deriving DecidableEq, Repr

def blockSize : Nat := 32
def tagSize : Nat := 16
def ivSize : Nat := 12

abbrev Iv := Vector UInt8 ivSize

/-- The stream name an IV is derived for. -/
def streamName : MediaType → String
  | .video => "video_iv"
  | .audio => "audio_iv"

def fbytes (frameid keyid : UInt32) : Bytes :=
  [(frameid >>> 24).toUInt8, (frameid >>> 16).toUInt8, (frameid >>> 8).toUInt8, frameid.toUInt8,
    (keyid >>> 24).toUInt8, (keyid >>> 16).toUInt8, (keyid >>> 8).toUInt8, keyid.toUInt8]

/-- An IV with its first bytes changed by the given ones. -/
def xorFront (iv bytes : Bytes) : Bytes := iv.mapIdx (fun npos b => b ^^^ bytes.getD npos 0)

/-- `frame_encryptor_xor_iv` of an IV of any size; the assertion stops at one of less than eight bytes. -/
def frameEncryptorXorIv (srciv : Bytes) (frameid keyid : UInt32) : Option Bytes :=
  if 7 < srciv.length then some (xorFront srciv (fbytes frameid keyid)) else none

def xorVector (iv : Iv) (bytes : Bytes) : Iv := Vector.ofFn (fun npos => iv.get npos ^^^ bytes.getD npos 0)

theorem xorVector_toList (iv : Iv) (bytes : Bytes) : (xorVector iv bytes).toList = xorFront iv.toList bytes := by
  apply List.ext_getElem
  · simp [xorFront]
  · intro npos _ _
    simp [xorVector, xorFront]
    rfl

/-- `frame_encryptor_xor_iv` of an IV of the size that is used. -/
def xorIv (srciv : Iv) (frameid keyid : UInt32) : Iv := xorVector srciv (fbytes frameid keyid)

theorem xorIv_toList (srciv : Iv) (frameid keyid : UInt32) :
    frameEncryptorXorIv srciv.toList frameid keyid = some (xorIv srciv frameid keyid).toList := by
  rw [frameEncryptorXorIv, if_pos (by rw [Vector.length_toList]; decide), xorIv, xorVector_toList]

/-- One AES-GCM decryption as the decryptor asks for it: the header is the first `hsize` bytes of the frame, the
    ciphertext the `encSize` bytes after it, the tag the sixteen bytes after those. -/
structure OpenCall where
  key : Bytes
  iv : Iv
  frame : Bytes
  hsize : Nat
  encSize : Int
  deriving DecidableEq

namespace OpenCall

def header (call : OpenCall) : Bytes := call.frame.take call.hsize

def ciphertext (call : OpenCall) : Bytes := (call.frame.drop call.hsize).take call.encSize.toNat

def tagAt (call : OpenCall) : Int := call.hsize + call.encSize

def tag (call : OpenCall) : Bytes := (call.frame.drop call.tagAt.toNat).take tagSize

end OpenCall

/-- The EVP calls: a payload sealed to ciphertext and tag, or the error of the call that failed; a frame opened, or not.
    -/
structure Aead where
  gcmEncrypt : (key : Bytes) → Iv → (header payload : Bytes) → Except Errno (Bytes × Bytes)
  gcmDecrypt : OpenCall → Option Bytes

/-- AES-GCM as a correct AEAD behind EVP, whose lengths are `int`s: what was sealed has an `int` length, as many bytes
    of ciphertext and a tag of sixteen, and opens to the payload. -/
structure Aead.Correct (aead : Aead) : Prop where
  sizes : ∀ {key : Bytes} {iv : Iv} {header payload ciphertext tag : Bytes},
    aead.gcmEncrypt key iv header payload = .ok (ciphertext, tag) →
      payload.length < 2 ^ 31 ∧ ciphertext.length = payload.length ∧ tag.length = tagSize
  opens : ∀ {key : Bytes} {iv : Iv} {header payload ciphertext tag : Bytes},
    aead.gcmEncrypt key iv header payload = .ok (ciphertext, tag) →
      ∀ call : OpenCall, call.key = key → call.iv = iv → call.header = header → 0 ≤ call.encSize →
        call.ciphertext = ciphertext → call.tag = tag → aead.gcmDecrypt call = some payload

structure Encryptor where
  useridHash : String
  kidx : UInt64
  frameid : UInt64
  ctx : Option Bytes
  iv : Iv
  mtype : MediaType
  frameRecv : Bool
  frameEnc : Bool
  updatedTs : UInt64

/-- `frame_encryptor_alloc`; `fstart` is random. -/
def Encryptor.alloc (useridHash : String) (mtype : MediaType) (fstart : UInt32) : Encryptor where
  useridHash := useridHash
  kidx := 0
  frameid := fstart.toUInt64
  ctx := none
  iv := Vector.replicate ivSize 0
  mtype := mtype
  frameRecv := false
  frameEnc := false
  updatedTs := 0

def Encryptor.setKeystore (hkdf : Hkdf) (enc : Encryptor) : Encryptor × Option Errno :=
  match generateIv hkdf enc.useridHash (streamName enc.mtype) ivSize with
  | some iv => ({ enc with iv := iv }, none)
  | none => ({ enc with iv := Vector.replicate ivSize 0 }, some .EINVAL)

def maxSize (srcsz : Nat) : Nat := srcsz + blockSize + tagSize + frameHdrMaxSize

/-- What one encryption sealed. The frame is its header, ciphertext and tag. -/
structure Sealed where
  key : Bytes
  iv : Iv
  frameid : UInt64
  kid : UInt64
  header : Bytes
  ciphertext : Bytes
  tag : Bytes

def Sealed.frame (s : Sealed) : Bytes := s.header ++ (s.ciphertext ++ s.tag)

/-- The end of `frame_encryptor_encrypt`, with the cipher context in place. -/
def sealFrame (aead : Aead) (enc : Encryptor) (key : Bytes) (kid : UInt64) (ssrc : UInt32) (src : Bytes) :
    Encryptor × Except Errno Sealed :=
  let header := frameHdrWrite (maxSize src.length) enc.frameid kid ssrc
  let iv := xorIv enc.iv enc.frameid.toUInt32 kid.toUInt32
  match aead.gcmEncrypt key iv header src with
  | .error err => (enc, .error err)
  | .ok (ciphertext, tag) => ({ enc with frameEnc := true }, .ok ⟨key, iv, enc.frameid, kid, header, ciphertext, tag⟩)

/-- `frame_encryptor_encrypt`. The cached context goes when the current key or the keystore's time stamp is another one.
    -/
def encrypt (aead : Aead) (hkdf : Hkdf) (now : Nat → UInt64) (ks : Option Keystore) (enc : Encryptor) (ssrc : UInt32)
    (src : Bytes) : Option (Encryptor × Option Keystore × Except Errno Sealed) :=
  let enc := { enc with frameid := (enc.frameid + 1) &&& 0xFFFFFFFF }
  match ks with
  | none => some (enc, none, .error .EINVAL)
  | some ks =>
    let enc := { enc with frameRecv := true }
    match getCurrent ks with
    | none => none
    | some (.error _) => some (enc, some ks, .error .EAGAIN)
    | some (.ok (kid32, updatedTs)) =>
      let kid := kid32.toUInt64
      match if kid ≠ enc.kidx ∨ updatedTs ≠ enc.updatedTs then none else enc.ctx with
      | some key => some ((sealFrame aead enc key kid ssrc src).1, some ks, (sealFrame aead enc key kid ssrc src).2)
      | none =>
        match getMediaKey hkdf now ks kid32 sessionKeySize with
        | none => none
        | some (ks, .error _) => some ({ enc with ctx := none }, some ks, .error .EAGAIN)
        | some (ks, .ok key) =>
          let enc := { enc with ctx := some key, kidx := kid, updatedTs := updatedTs }
          some ((sealFrame aead enc key kid ssrc src).1, some ks, (sealFrame aead enc key kid ssrc src).2)

structure Decryptor where
  kidx : UInt32
  ctx : Option Bytes
  iv : Iv
  mtype : MediaType
  useridHash : Option String
  csrc : UInt32
  frameCount : UInt32
  frameRecv : Bool
  frameDec : Bool

def Decryptor.alloc (mtype : MediaType) : Decryptor where
  kidx := 0
  ctx := none
  iv := Vector.replicate ivSize 0
  mtype := mtype
  useridHash := none
  csrc := 0
  frameCount := 0
  frameRecv := false
  frameDec := false

def Decryptor.setUid (dec : Decryptor) (useridHash : String) : Decryptor := { dec with useridHash := some useridHash }

/-- `peerflow_get_userid_for_ssrc` and `peerflow_inc_frame_count` as they answer at one moment. -/
structure Peerflow where
  getUseridForSsrc : (video : Bool) → (csrc : UInt32) → Except Errno String
  incFrameCount : (video : Bool) → (csrc frames : UInt32) → Option Errno

/-- A frame count told to peerflow, and its answer. -/
structure Count where
  csrc : UInt32
  frames : UInt32
  err : Option Errno
  deriving DecidableEq

/-- What one call of `frame_decryptor_decrypt` leaves and did. -/
structure Decrypted where
  dec : Decryptor
  ks : Option Keystore
  answer : Except Errno Bytes
  header : Option Header
  opened : Option OpenCall
  counted : List Count

def isVideo (dec : Decryptor) : Bool := dec.mtype = .video

/-- The first frame without a csrc makes a new user as well. -/
def identifyFirst (dec : Decryptor) : Decryptor × List Count × Except Errno Bool :=
  if dec.frameRecv then (dec, [], .ok false)
  else ({ dec with frameRecv := true, frameDec := false }, [], .ok true)

/-- A frame of another csrc: the frames counted so far are told, the hash is looked up, and only when both succeed is
    the csrc taken over. -/
def identifyCsrc (pf : Peerflow) (csrc : UInt32) (dec : Decryptor) : Decryptor × List Count × Except Errno Bool :=
  let dec := { dec with useridHash := none }
  let counted : List Count :=
    if dec.frameCount ≠ 0 then [⟨csrc, dec.frameCount, pf.incFrameCount (isVideo dec) csrc dec.frameCount⟩] else []
  match counted.findSome? (·.err) with
  | some err => (dec, counted, .error err)
  | none =>
    match pf.getUseridForSsrc (isVideo dec) csrc with
    | .error err => (dec, counted, .error err)
    | .ok hash =>
      ({ dec with useridHash := some hash, csrc := csrc, frameRecv := true, frameCount := 0 }, counted, .ok true)

def identify (pf : Option Peerflow) (csrc : UInt32) (dec : Decryptor) : Decryptor × List Count × Except Errno Bool :=
  match pf with
  | none => identifyFirst dec
  | some pf => if csrc ≠ 0 ∧ csrc ≠ dec.csrc then identifyCsrc pf csrc dec else identifyFirst dec

def prepareIv (hkdf : Hkdf) (ks : Option Keystore) (dec : Decryptor) : Decryptor × Option Keystore × Option Errno :=
  match dec.useridHash, ks with
  | none, ks => (dec, ks, some .EAGAIN)
  | some _, none => (dec, none, some .EINVAL)
  | some hash, some ks =>
    match generateIv hkdf hash (streamName dec.mtype) ivSize with
    | none => ({ dec with iv := Vector.replicate ivSize 0 }, some ks, some .EINVAL)
    | some iv => ({ dec with iv := iv, frameDec := false }, some (setDecryptAttempted ks), none)

/-- The cipher context for a key id: the cached one when it is that key's, or one made of the keystore's key. -/
def cipher (hkdf : Hkdf) (now : Nat → UInt64) (ks : Option Keystore) (kid : UInt64) (dec : Decryptor) :
    Option (Decryptor × Option Keystore × Option Bytes) :=
  match if kid ≠ dec.kidx.toUInt64 then none else dec.ctx with
  | some key => some (dec, ks, some key)
  | none =>
    match ks with
    | none => some ({ dec with ctx := none }, none, none)
    | some ks =>
      match getMediaKey hkdf now ks kid.toUInt32 sessionKeySize with
      | none => none
      | some (ks, .error _) => some ({ dec with ctx := none }, some ks, none)
      | some (ks, .ok key) => some ({ dec with ctx := some key, kidx := kid.toUInt32 }, some ks, some key)

/-- `srcsz - hsize - TAG_SIZE`, computed in `size_t` and narrowed to `int`. -/
def encSize (srcsz hsize : Nat) : Int := ((srcsz : Int) - hsize - tagSize).bmod (2 ^ 32)

def frmRes : MediaType → UInt32
  | .video => 15
  | .audio => 50

/-- The count after an opened frame. -/
def countFrame (pf : Option Peerflow) (csrc : UInt32) (dec : Decryptor) : Decryptor × List Count × Option Errno :=
  let dec := { dec with frameCount := dec.frameCount + 1 }
  match pf with
  | none => (dec, [], none)
  | some pf =>
    if frmRes dec.mtype ≤ dec.frameCount then
      let err := pf.incFrameCount (isVideo dec) csrc dec.frameCount
      ({ dec with frameCount := 0 }, [⟨csrc, dec.frameCount, err⟩], err)
    else (dec, [], none)

/-- The exit with an error, which drops the cipher context. -/
def failed (dec : Decryptor) (ks : Option Keystore) (err : Errno) (header : Option Header) (opened : Option OpenCall)
    (counted : List Count) : Decrypted :=
  ⟨{ dec with ctx := none }, ks, .error err, header, opened, counted⟩

def openFrame (aead : Aead) (hkdf : Hkdf) (now : Nat → UInt64) (pf : Option Peerflow) (ks : Option Keystore)
    (dec : Decryptor) (csrc : UInt32) (hdr : Header) (src : Bytes) (counted : List Count) : Option Decrypted :=
  match cipher hkdf now ks hdr.key dec with
  | none => none
  | some (dec, ks, none) => some (failed dec ks .EAGAIN (some hdr) none counted)
  | some (dec, ks, some key) =>
    let call : OpenCall :=
      ⟨key, xorIv dec.iv hdr.frameid.toUInt32 hdr.key.toUInt32, src, hdr.len, encSize src.length hdr.len⟩
    match aead.gcmDecrypt call with
    | none => some (failed dec ks .EIOERR (some hdr) (some call) counted)
    | some payload =>
      match countFrame pf csrc dec with
      | (dec, counted', some err) => some (failed dec ks err (some hdr) (some call) (counted ++ counted'))
      | (dec, counted', none) =>
        some ⟨{ dec with frameDec := true }, if dec.frameDec then ks else ks.map setDecryptSuccessful, .ok payload,
          some hdr, some call, counted ++ counted'⟩

/-- Identifying the sender and, for a new one, its IV. -/
def resolve (hkdf : Hkdf) (pf : Option Peerflow) (ks : Option Keystore) (csrc : UInt32) (dec : Decryptor) :
    Decryptor × Option Keystore × List Count × Option Errno :=
  match identify pf csrc dec with
  | (dec, counted, .error err) => (dec, ks, counted, some err)
  | (dec, counted, .ok false) => (dec, ks, counted, none)
  | (dec, counted, .ok true) =>
    match prepareIv hkdf ks dec with
    | (dec, ks, err) => (dec, ks, counted, err)

/-- `frame_decryptor_decrypt`; the csrc in the header goes before the caller's. -/
def decrypt (aead : Aead) (hkdf : Hkdf) (now : Nat → UInt64) (pf : Option Peerflow) (ks : Option Keystore)
    (dec : Decryptor) (csrc : UInt32) (src : Bytes) : Option Decrypted :=
  if src.length < minSize then some (failed dec ks .EAGAIN none none [])
  else match frameHdrRead src with
    | .error err => some (failed dec ks err none none [])
    | .ok hdr =>
      let csrc := if hdr.csrc.getD 0 ≠ 0 then hdr.csrc.getD 0 else csrc
      match resolve hkdf pf ks csrc dec with
      | (dec, ks, counted, some err) => some (failed dec ks err (some hdr) none counted)
      | (dec, ks, counted, none) => openFrame aead hkdf now pf ks dec csrc hdr src counted

end Avs.FrameCrypt
