import Avs.Jzon
import Avs.Userlist

/-!
The codec of the signalling messages. `messageEncode` writes a message as a JSON object, and `messageDecode`
reads it back, the same parts in the same order; a list's malformed entries are passed over, and an optional
field that is missing or of another type stays as the zeroed message has it.
-/
namespace Avs

/-- A C array of `n` characters: the string it holds ends within it. -/
abbrev Chars (n : Nat) := { text : Bytes // text.length < n }

/-- `str_ncpy`; a null source leaves the empty string. -/
def Chars.strNcpy {last : Nat} (src : Option Bytes) : Chars (last + 1) :=
  ⟨(src.getD []).take last, by rw [List.length_take]; omega⟩

namespace EconnFmt

open Jzon

/-- `enum econn_msg`. -/
inductive MsgType
  | setup | cancel | hangup | propsync | groupStart | groupLeave | groupCheck | groupSetup
  | confConn | confStart | confEnd | confPart | confKey | confCheck | confStreams
  | update | reject | alert | ping | devpairPublish | devpairAccept
  deriving DecidableEq, Repr

/-- `ECONN_ID_LEN` characters. -/
abbrev Id := Chars 128

structure IceServer where
  url : Chars 256
  username : Chars 128
  credential : Chars 128

structure GroupPart where
  userid : Option Bytes
  clientid : Option Bytes
  authorized : Bool
  mutedState : MutedState
  ssrca : BitVec 32
  ssrcv : BitVec 32
  ts : BitVec 64

structure KeyInfo where
  idx : BitVec 32
  data : Option Bytes

/-- `struct econn_stream_info`; `hi`, `lo` and `clientid` are its `ssrcv`. -/
structure StreamInfo where
  userid : Id
  quality : BitVec 32
  clientid : Id
  hi : BitVec 32
  lo : BitVec 32

structure Setup where
  sdpMsg : Option Bytes
  props : Option Odict
  url : Option Bytes
  sftTuple : Option Bytes

structure ConfConn where
  turnv : List IceServer
  update : Bool
  env : BitVec 32
  tool : Option Bytes
  toolver : Option Bytes
  status : BitVec 32
  selectiveAudio : Bool
  selectiveVideo : Bool
  vstreams : BitVec 32
  sftUrl : Option Bytes
  sftTuple : Option Bytes
  sftUsername : Option Bytes
  sftCredential : Option Bytes

structure ConfCheck where
  sftUrl : Option Bytes
  sftTuple : Option Bytes
  secret : Option Bytes
  timestamp : BitVec 64
  seqno : BitVec 32
  sftl : List Bytes

structure ConfStart extends ConfCheck where
  props : Option Odict

structure ConfPart where
  timestamp : BitVec 64
  seqno : BitVec 32
  shouldStart : Bool
  partl : List GroupPart
  entropy : Option Bytes
  sftl : List Bytes

structure DevpairPublish where
  turnv : List IceServer
  sdp : Option Bytes
  username : Option Bytes

/-- The type of a message with its part of the union. A message that was only allocated has no type. -/
inductive Payload
  | untyped
  | setup (setup : Setup)
  | groupSetup (setup : Setup)
  | update (setup : Setup)
  | cancel
  | hangup
  | reject
  | propsync (props : Option Odict)
  | groupStart (props : Option Odict)
  | groupLeave
  | groupCheck
  | confConn (confconn : ConfConn)
  | confStart (confstart : ConfStart)
  | confCheck (confcheck : ConfCheck)
  | confEnd
  | confPart (confpart : ConfPart)
  | confKey (keyl : List KeyInfo)
  | confStreams (streaml : List StreamInfo) (mode : Option Bytes)
  | devpairPublish (publish : DevpairPublish)
  | devpairAccept (sdp : Option Bytes)
  | alert (level : BitVec 32) (descr : Option Bytes)
  | ping

def Payload.msgType : Payload → Option MsgType
  | .untyped => none
  | .setup _ => some .setup
  | .groupSetup _ => some .groupSetup
  | .update _ => some .update
  | .cancel => some .cancel
  | .hangup => some .hangup
  | .reject => some .reject
  | .propsync _ => some .propsync
  | .groupStart _ => some .groupStart
  | .groupLeave => some .groupLeave
  | .groupCheck => some .groupCheck
  | .confConn _ => some .confConn
  | .confStart _ => some .confStart
  | .confCheck _ => some .confCheck
  | .confEnd => some .confEnd
  | .confPart _ => some .confPart
  | .confKey _ => some .confKey
  | .confStreams _ _ => some .confStreams
  | .devpairPublish _ => some .devpairPublish
  | .devpairAccept _ => some .devpairAccept
  | .alert _ _ => some .alert
  | .ping => some .ping

structure Message where
  payload : Payload
  sessidSender : Id
  srcUserid : Id
  srcClientid : Id
  destUserid : Id
  destClientid : Id
  resp : Bool
  transient : Bool
  time : BitVec 32
  age : BitVec 32

def messageAlloc : Message where
  payload := .untyped
  sessidSender := Chars.strNcpy none
  srcUserid := Chars.strNcpy none
  srcClientid := Chars.strNcpy none
  destUserid := Chars.strNcpy none
  destClientid := Chars.strNcpy none
  resp := false
  transient := false
  time := 0
  age := 0

def econnProtoVersion : Bytes := ascii "3.0"

def msgName : Option MsgType → Bytes
  | some .setup => ascii "SETUP"
  | some .cancel => ascii "CANCEL"
  | some .update => ascii "UPDATE"
  | some .hangup => ascii "HANGUP"
  | some .reject => ascii "REJECT"
  | some .propsync => ascii "PROPSYNC"
  | some .groupStart => ascii "GROUPSTART"
  | some .groupLeave => ascii "GROUPLEAVE"
  | some .groupCheck => ascii "GROUPCHECK"
  | some .groupSetup => ascii "GROUPSETUP"
  | some .devpairPublish => ascii "DEVPAIR_PUBLISH"
  | some .devpairAccept => ascii "DEVPAIR_ACCEPT"
  | some .alert => ascii "ALERT"
  | some .confConn => ascii "CONFCONN"
  | some .confStart => ascii "CONFSTART"
  | some .confEnd => ascii "CONFEND"
  | some .confPart => ascii "CONFPART"
  | some .confKey => ascii "CONFKEY"
  | some .confCheck => ascii "CONFCHECK"
  | some .confStreams => ascii "CONFSTREAMS"
  | some .ping => ascii "PING"
  | none => ascii "???"

/-- What `%s` prints of a pointer that is not looked at first; a null prints nothing. -/
def printed (text : Option Bytes) : Bytes := text.getD []

/-- `econn_props_encode` where there are props. -/
def propsEncode (props : Option Odict) : Odict :=
  match props with
  | none => []
  | some dict => [("props", .object dict)]

def partEncode (libre : Libre) (part : GroupPart) : Json :=
  .object (addStr "userid" (printed part.userid)
    ++ addStr "clientid" (printed part.clientid)
    ++ addBool "authorized" part.authorized
    ++ addStr "ssrc_audio" (libre.printU32 part.ssrca)
    ++ addStr "ssrc_video" (libre.printU32 part.ssrcv)
    ++ addInt "timestamp" (part.ts.setWidth 32)
    ++ match part.mutedState with
      | .unmuted => addBool "muted" false
      | .muted => addBool "muted" true
      | .unknown => [])

def partsEncode (libre : Libre) (partl : List GroupPart) : Odict :=
  addArray "participants" (partl.map (partEncode libre))

def keyEncode (libre : Libre) (key : KeyInfo) : Json :=
  .object (addInt "idx" key.idx ++ addBase64 libre "data" key.data)

def keysEncode (libre : Libre) (keyl : List KeyInfo) : Odict :=
  addArray "keys" (keyl.map (keyEncode libre))

/-- A number that is written unless it is zero. -/
def addIntIf (key : String) (val : BitVec 32) : Odict := if val = 0 then [] else addInt key val

def addCharsIf {n : Nat} (key : String) (text : Chars n) : Odict :=
  if text.val = [] then [] else addStr key text.val

def streamEncode (stream : StreamInfo) : Json :=
  .object (addStr "userid" stream.userid.val
    ++ addInt "quality" stream.quality
    ++ addIntIf "ssrcv_hi" stream.hi
    ++ addIntIf "ssrcv_lo" stream.lo
    ++ addCharsIf "clientid" stream.clientid)

def streamsEncode (streaml : List StreamInfo) : Odict := addArray "streams" (streaml.map streamEncode)

def stringlistEncode (name : String) (strl : List Bytes) : Odict :=
  if strl = [] then [] else addArray name (strl.map .string)

def iceserverEncode (srv : IceServer) : Json :=
  .object [("urls", .string srv.url.val), ("username", .string srv.username.val),
    ("credential", .string srv.credential.val)]

def iceserversEncode (turnv : List IceServer) : Except Errno Odict :=
  if turnv = [] then .error .EINVAL else .ok (addArray "ice_servers" (turnv.map iceserverEncode))

def setupEncode (setup : Setup) : Odict :=
  addStr "sdp" (printed setup.sdpMsg)
    ++ propsEncode setup.props
    ++ addStrIf "url" setup.url
    ++ addStrIf "sft_tuple" setup.sftTuple

def turnsEncode (turnv : List IceServer) : Except Errno Odict :=
  if turnv = [] then .ok [] else iceserversEncode turnv

def confConnEncode (confconn : ConfConn) : Except Errno Odict := do
  let servers ← turnsEncode confconn.turnv
  .ok (servers
    ++ addBool "update" confconn.update
    ++ addStr "tool" (printed confconn.tool)
    ++ addStr "toolver" (printed confconn.toolver)
    ++ addInt "env" confconn.env
    ++ addInt "status" confconn.status
    ++ addBool "selective_audio" confconn.selectiveAudio
    ++ addBool "selective_video" confconn.selectiveVideo
    ++ addInt "vstreams" confconn.vstreams
    ++ addStrIf "sft_url" confconn.sftUrl
    ++ addStrIf "sft_tuple" confconn.sftTuple
    ++ addStrIf "username" confconn.sftUsername
    ++ addStrIf "credential" confconn.sftCredential)

/-- The case of `ECONN_CONF_CHECK` and the first lines of `ECONN_CONF_START`. -/
def confCheckEncode (libre : Libre) (confcheck : ConfCheck) : Odict :=
  addStr "sft_url" (printed confcheck.sftUrl)
    ++ addStrIf "sft_tuple" confcheck.sftTuple
    ++ addBase64 libre "secret" confcheck.secret
    ++ addStr "timestamp" (libre.printU64 confcheck.timestamp)
    ++ addStr "seqno" (libre.printU32 confcheck.seqno)
    ++ stringlistEncode "sfts" confcheck.sftl

def confPartEncode (libre : Libre) (confpart : ConfPart) : Odict :=
  addBool "should_start" confpart.shouldStart
    ++ addStr "timestamp" (libre.printU64 confpart.timestamp)
    ++ addStr "seqno" (libre.printU32 confpart.seqno)
    ++ addBase64 libre "entropy" confpart.entropy
    ++ partsEncode libre confpart.partl
    ++ stringlistEncode "sfts" confpart.sftl

def devpairPublishEncode (publish : DevpairPublish) : Except Errno Odict := do
  let servers ← iceserversEncode publish.turnv
  .ok (servers ++ addStr "sdp" (printed publish.sdp) ++ addStr "username" (printed publish.username))

/-- The `switch` of `econn_message_encode`. -/
def payloadEncode (libre : Libre) : Payload → Except Errno Odict
  | .setup setup | .groupSetup setup | .update setup => .ok (setupEncode setup)
  | .propsync none => .error .EINVAL
  | .propsync (some dict) => .ok (propsEncode (some dict))
  | .groupStart props => .ok (propsEncode props)
  | .confConn confconn => confConnEncode confconn
  | .confStart confstart =>
    .ok (confCheckEncode libre confstart.toConfCheck ++ propsEncode confstart.props)
  | .confCheck confcheck => .ok (confCheckEncode libre confcheck)
  | .confPart confpart => .ok (confPartEncode libre confpart)
  | .confKey keyl => .ok (keysEncode libre keyl)
  | .confStreams streaml mode => .ok (addStr "mode" (printed mode) ++ streamsEncode streaml)
  | .devpairPublish publish => devpairPublishEncode publish
  | .devpairAccept sdp => .ok (addStr "sdp" (printed sdp))
  | .alert level descr => .ok (addInt "level" level ++ addStr "descr" (printed descr))
  | .cancel | .hangup | .reject | .groupLeave | .groupCheck | .confEnd | .ping => .ok []
  | .untyped => .error .EBADMSG

/-- What every message starts with. -/
def headerEncode (msg : Message) : Odict :=
  addStr "version" econnProtoVersion
    ++ addStr "type" (msgName msg.payload.msgType)
    ++ addStr "sessid" msg.sessidSender.val
    ++ addCharsIf "src_userid" msg.srcUserid
    ++ addCharsIf "src_clientid" msg.srcClientid
    ++ addCharsIf "dest_userid" msg.destUserid
    ++ addCharsIf "dest_clientid" msg.destClientid
    ++ addBool "resp" msg.resp

def messageEncode (libre : Libre) (msg : Message) : Except Errno Bytes := do
  let body ← payloadEncode libre msg.payload
  jzonEncode libre (headerEncode msg ++ body)

/-- The value of a read whose error is not looked at, of a field that was zeroed. -/
def orZero {α : Type} (read : Except Errno α) (zero : α) : α :=
  match read with
  | .ok value => value
  | .error _ => zero

def propsDecode (jobj : Json) : Except Errno Odict := jzonObject jobj "props"

/-- The props where they are optional. -/
def propsDecodeOpt (jobj : Json) : Option Odict := (propsDecode jobj).toOption

/-- `part_decode_handler`. A participant's ids may be null. -/
def partDecodeHandler (libre : Libre) (jobj : Json) : Handled GroupPart :=
  match jzonStrdup jobj "userid", jzonStrdup jobj "clientid", jzonBool jobj "authorized" with
  | .ok userid, .ok clientid, .ok authorized =>
    match jzonStr jobj "ssrc_audio", jzonStr jobj "ssrc_video" with
    | some audio, some video =>
      .append {
        userid := userid
        clientid := clientid
        authorized := authorized
        mutedState :=
          match jzonBool jobj "muted" with
          | .ok muted => if muted then .muted else .unmuted
          | .error _ => .unknown
        ssrca := (libre.sscanfU32 audio).getD 0
        ssrcv := (libre.sscanfU32 video).getD 0
        -- the 32 bits are signed, and are widened as such
        ts := (orZero (jzonInt jobj "timestamp") 0).signExtend 64 }
    | _, _ => .skip
  | _, _, _ => .skip

/-- `econn_parts_decode`, whose only caller goes on without the list. -/
def partsDecode (libre : Libre) (jobj : Json) : List GroupPart :=
  jzonApply (partDecodeHandler libre) (orZero (jzonArray jobj "participants") [])

/-- `key_decode_handler`, which returns the decoder's error as its own and so ends the walk. -/
def keyDecodeHandler (libre : Libre) (jobj : Json) : Handled KeyInfo :=
  match jzonInt jobj "idx", jzonStr jobj "data" with
  | .ok idx, some dstr =>
    match libre.base64Decode dstr dstr.length with
    | .ok data => .append ⟨idx, some data⟩
    | .error _ => .stop
  | _, _ => .skip

def keysDecode (libre : Libre) (jobj : Json) : Except Errno (List KeyInfo) := do
  let jkeys ← jzonArray jobj "keys"
  .ok (jzonApply (keyDecodeHandler libre) jkeys)

def streamDecodeHandler (jobj : Json) : Handled StreamInfo :=
  match jzonInt jobj "quality", jzonStr jobj "userid" with
  | .ok quality, some userid =>
    .append {
      userid := Chars.strNcpy (some userid)
      quality := quality
      clientid := Chars.strNcpy (jzonStr jobj "clientid")
      hi := orZero (jzonInt jobj "ssrcv_hi") 0
      lo := orZero (jzonInt jobj "ssrcv_lo") 0 }
  | _, _ => .skip

def streamsDecode (jobj : Json) : Except Errno (List StreamInfo) := do
  let jstreams ← jzonArray jobj "streams"
  .ok (jzonApply streamDecodeHandler jstreams)

def stringDecodeHandler (jobj : Json) : Handled Bytes :=
  match getString jobj with
  | some val => .append val
  | none => .skip

/-- `econn_stringlist_decode`, whose error no caller looks at. -/
def stringlistDecode (jobj : Json) (name : String) : List Bytes :=
  jzonApply stringDecodeHandler (orZero (jzonArray jobj name) [])

/-- The url of an ICE server: the first of a list, or a string under either key. -/
def iceserverUrl (jice : Json) : Option Bytes :=
  match jzonArray jice "urls" with
  | .ok urls => urls.head?.bind getString
  | .error _ => (jzonStr jice "urls").or (jzonStr jice "url")

def iceserverDecode (jice : Json) : Except Errno IceServer :=
  match iceserverUrl jice with
  | none => .error .EPROTO
  | some url => .ok {
      url := Chars.strNcpy (some url)
      username := Chars.strNcpy (jzonStr jice "username")
      credential := Chars.strNcpy (jzonStr jice "credential") }

def iceserversDecode (jarr : List Json) : Except Errno (List IceServer) := jarr.mapM iceserverDecode

/-- The cases of `ECONN_GROUP_SETUP` and `ECONN_UPDATE`. The latter only logs that the props are missing, and returns
    the error at the end. -/
def offerDecode (jobj : Json) : Except Errno Setup :=
  match jzonStr jobj "sdp" with
  | none => .error .EBADMSG
  | some sdp => do
    let props ← propsDecode jobj
    .ok { sdpMsg := some sdp, props := some props, url := none, sftTuple := none }

def setupDecode (jobj : Json) : Except Errno Setup := do
  let offer ← offerDecode jobj
  .ok { offer with url := jzonStr jobj "url", sftTuple := jzonStr jobj "sft_tuple" }

/-- The range of `vstreams`, a signed number until it is stored. -/
def limitVstreams (vstreams : BitVec 32) : BitVec 32 :=
  if vstreams.slt 0 then 0 else if BitVec.slt 32 vstreams then 32 else vstreams

def turnsDecode (jobj : Json) : Except Errno (List IceServer) :=
  match jzonArray jobj "ice_servers" with
  | .error _ => .ok []
  | .ok jturns => iceserversDecode jturns

def confConnDecode (jobj : Json) : Except Errno ConfConn := do
  let turnv ← turnsDecode jobj
  .ok {
    turnv := turnv
    update := orZero (jzonBool jobj "update") false
    env := orZero (jzonInt jobj "env") 0
    tool := jzonStr jobj "tool"
    toolver := jzonStr jobj "toolver"
    status := orZero (jzonInt jobj "status") 0
    selectiveAudio := orZero (jzonBool jobj "selective_audio") false
    selectiveVideo := orZero (jzonBool jobj "selective_video") false
    vstreams := limitVstreams (orZero (jzonInt jobj "vstreams") 0)
    sftUrl := jzonStr jobj "sft_url"
    sftTuple := jzonStr jobj "sft_tuple"
    sftUsername := jzonStr jobj "username"
    sftCredential := jzonStr jobj "credential" }

/-- `pl_set_str`, which leaves the pointer-length object alone for a null. -/
def plSetStr (pl : Bytes) (str : Option Bytes) : Bytes := str.getD pl

/-- The text the timestamp and the one the sequence number is read from: a message without a sequence number has its
    timestamp read for it. -/
def stampTexts (jobj : Json) : Bytes × Bytes :=
  let pl := plSetStr [] (jzonStr jobj "timestamp")
  (pl, plSetStr pl (jzonStr jobj "seqno"))

/-- Base64 data into a buffer of the size the code gives it. -/
def dataDecode (libre : Libre) (text : Bytes) : Except Errno Bytes :=
  libre.base64Decode text (text.length * 3 / 4)

/-- The case of `ECONN_CONF_CHECK` and most of that of `ECONN_CONF_START`. -/
def confCheckDecode (libre : Libre) (jobj : Json) : Except Errno ConfCheck := do
  let sftUrl ← jzonStrdup jobj "sft_url"
  match jzonStr jobj "secret" with
  | none => .error .EBADMSG
  | some secret => do
    let sdata ← dataDecode libre secret
    .ok {
      sftUrl := sftUrl
      sftTuple := jzonStr jobj "sft_tuple"
      secret := some sdata
      timestamp := libre.plU64 (stampTexts jobj).1
      seqno := libre.plU32 (stampTexts jobj).2
      sftl := stringlistDecode jobj "sfts" }

def confStartDecode (libre : Libre) (jobj : Json) : Except Errno ConfStart := do
  let confcheck ← confCheckDecode libre jobj
  .ok { confcheck with props := propsDecodeOpt jobj }

/-- The entropy of a CONFPART, which may be missing. -/
def entropyDecode (libre : Libre) (jobj : Json) : Except Errno (Option Bytes) :=
  match jzonStr jobj "entropy" with
  | none => .ok none
  | some text => (dataDecode libre text).map some

def confPartDecode (libre : Libre) (jobj : Json) : Except Errno ConfPart := do
  let entropy ← entropyDecode libre jobj
  .ok {
    timestamp := libre.plU64 (stampTexts jobj).1
    seqno := libre.plU32 (stampTexts jobj).2
    shouldStart := orZero (jzonBool jobj "should_start") false
    partl := partsDecode libre jobj
    entropy := entropy
    sftl := stringlistDecode jobj "sfts" }

def devpairPublishDecode (jobj : Json) : Except Errno DevpairPublish := do
  let jturns ← jzonArray jobj "ice_servers"
  let turnv ← iceserversDecode jturns
  let sdp ← jzonStrdup jobj "sdp"
  let username ← jzonStrdup jobj "username"
  .ok ⟨turnv, sdp, username⟩

/-- The types in the order in which `econn_message_decode` compares their names. -/
def cascade : List MsgType :=
  [.setup, .groupSetup, .update, .cancel, .hangup, .reject, .propsync, .groupStart, .groupLeave,
   .groupCheck, .confStart, .confCheck, .confConn, .confEnd, .confPart, .confKey, .confStreams,
   .devpairPublish, .devpairAccept, .alert, .ping]

/-- The type a name stands for. -/
def typeNamed (name : Bytes) : Option MsgType :=
  cascade.find? (fun msgType => strcaseeq (some name) (some (msgName (some msgType))))

/-- The branches of `econn_message_decode`. -/
def payloadDecode (libre : Libre) (jobj : Json) : MsgType → Except Errno Payload
  | .setup => (setupDecode jobj).map .setup
  | .groupSetup => (offerDecode jobj).map .groupSetup
  | .update => (offerDecode jobj).map .update
  | .cancel => .ok .cancel
  | .hangup => .ok .hangup
  | .reject => .ok .reject
  | .propsync => (propsDecode jobj).map (fun props => .propsync (some props))
  | .groupStart => .ok (.groupStart (propsDecodeOpt jobj))
  | .groupLeave => .ok .groupLeave
  | .groupCheck => .ok .groupCheck
  | .confStart => (confStartDecode libre jobj).map .confStart
  | .confCheck => (confCheckDecode libre jobj).map .confCheck
  | .confConn => (confConnDecode jobj).map .confConn
  | .confEnd => .ok .confEnd
  | .confPart => (confPartDecode libre jobj).map .confPart
  | .confKey => (keysDecode libre jobj).map .confKey
  | .confStreams => do
    let streaml ← streamsDecode jobj
    let mode ← jzonStrdup jobj "mode"
    .ok (.confStreams streaml mode)
  | .devpairPublish => (devpairPublishDecode jobj).map .devpairPublish
  | .devpairAccept => (jzonStrdup jobj "sdp").map .devpairAccept
  | .alert => do
    let level ← jzonInt jobj "level"
    let descr ← jzonStrdup jobj "descr"
    .ok (.alert level descr)
  | .ping => .ok .ping

/-- What is read once the session id is known. -/
def sessionDecode (libre : Libre) (currTime msgTime : BitVec 64) (jobj : Json) (name sessid : Bytes) :
    Except Errno Message := do
  let resp ← jzonBool jobj "resp"
  match typeNamed name with
  | none => .error .EPROTONOSUPPORT
  | some msgType => do
    let payload ← payloadDecode libre jobj msgType
    .ok {
      payload := payload
      sessidSender := Chars.strNcpy (some sessid)
      srcUserid := Chars.strNcpy (jzonStr jobj "src_userid")
      srcClientid := Chars.strNcpy (jzonStr jobj "src_clientid")
      destUserid := Chars.strNcpy (jzonStr jobj "dest_userid")
      destClientid := Chars.strNcpy (jzonStr jobj "dest_clientid")
      resp := resp
      transient := false
      time := msgTime.setWidth 32
      age := if currTime.ult msgTime then 0 else (currTime - msgTime).setWidth 32 }

/-- What is read of a parsed object. -/
def objectDecode (libre : Libre) (currTime msgTime : BitVec 64) (jobj : Json) : Except Errno Message :=
  match jzonStr jobj "type" with
  | none => .error .EBADMSG
  | some name =>
    match jzonStr jobj "version" with
    | none => .error .EBADMSG
    | some ver =>
      if strcaseeq (some econnProtoVersion) (some ver) then
        match jzonStr jobj "sessid" with
        -- the jump to `out` is taken with no error set
        | none => .ok messageAlloc
        | some sessid => sessionDecode libre currTime msgTime jobj name sessid
      else .error .EPROTO

def messageDecode (libre : Libre) (currTime msgTime : BitVec 64) (str : Bytes) : Except Errno Message := do
  let jobj ← jzonDecode libre str
  objectDecode libre currTime msgTime jobj

variable {libre : Libre} {currTime msgTime : BitVec 64} {msg : Message}

theorem sessionDecode_dated {jobj : Json} {name sessid : Bytes}
    (decoded : sessionDecode libre currTime msgTime jobj name sessid = .ok msg) :
    msg.time = msgTime.setWidth 32 ∧
      msg.age = if currTime.ult msgTime then 0 else (currTime - msgTime).setWidth 32 := by
  obtain ⟨resp, _, decoded⟩ := bind_ok_iff.mp decoded
  cases named : typeNamed name with
  | none => simp [named] at decoded
  | some msgType =>
    simp only [named] at decoded
    obtain ⟨payload, _, decoded⟩ := bind_ok_iff.mp decoded
    cases decoded
    exact ⟨rfl, rfl⟩

theorem messageDecode_dated {str : Bytes} (decoded : messageDecode libre currTime msgTime str = .ok msg) :
    msg = messageAlloc ∨ (msg.time = msgTime.setWidth 32 ∧
      msg.age = if currTime.ult msgTime then 0 else (currTime - msgTime).setWidth 32) := by
  obtain ⟨jobj, _, decoded⟩ := bind_ok_iff.mp decoded
  unfold objectDecode at decoded
  cases type : jzonStr jobj "type" with
  | none => simp [type] at decoded
  | some name =>
    cases version : jzonStr jobj "version" with
    | none => simp [type, version] at decoded
    | some ver =>
      simp only [type, version] at decoded
      by_cases known : strcaseeq (some econnProtoVersion) (some ver)
      · rw [if_pos known] at decoded
        cases session : jzonStr jobj "sessid" with
        | none =>
          simp only [session] at decoded
          cases decoded
          exact .inl rfl
        | some sessid =>
          simp only [session] at decoded
          exact .inr (sessionDecode_dated decoded)
      · rw [if_neg known] at decoded
        cases decoded

end EconnFmt

end Avs
