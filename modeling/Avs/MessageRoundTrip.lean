import Avs.EconnFmt
import Avs.LibreFormats

/-!
What a decoder makes of an encoded message. `readBack` is what is left of the parts a type adds: the number of
video streams within its range, the low 32 bits of a participant's timestamp, and of an offer that is no SETUP
neither url nor SFT tuple. The decoder looks at no key of the header once it knows the type, so a payload's
round trip is stated on its own members (`payloadDecode_alike`).
-/
namespace Avs
open List Option Except

variable {last : Nat}

theorem Chars.strNcpy_val {text : Chars (last + 1)} : Chars.strNcpy (some text.val) = text := by
  apply Subtype.ext
  have fits : text.val.length ≤ last := by
    have := text.property
    omega
  exact take_of_length_le fits

namespace EconnFmt

open Jzon

variable {key name : String} {val : BitVec 32} {strl : List Bytes} {libre : Libre} {members body : Odict}
  {turnv : List IceServer} {setup : Setup} {payload : Payload} {msgType : MsgType} {msg : Message}

@[simp]
theorem lookup_addIntIf : (addIntIf name val).lookup key =
      if key = name ∧ val ≠ 0 then some (.int (val.signExtend 64)) else none := by
  unfold addIntIf
  by_cases zero : val = 0
  · simp [zero]
  · rw [if_neg zero]
    simp [show val ≠ 0#32 from zero]

@[simp]
theorem lookup_addCharsIf {n : Nat} {text : Chars n} : (addCharsIf name text).lookup key =
      if key = name ∧ text.val ≠ [] then some (.string text.val) else none := by
  unfold addCharsIf
  by_cases empty : text.val = []
  · simp [empty]
  · simp [empty]

@[simp]
theorem lookup_propsEncode {props : Option Odict} :
    (propsEncode props).lookup key = if key = "props" then props.map .object else none := by
  cases props with
  | none => simp [propsEncode]
  | some dict => simp [propsEncode]

@[simp]
theorem lookup_stringlistEncode : (stringlistEncode name strl).lookup key =
      if key = name ∧ strl ≠ [] then some (.array (strl.map .string)) else none := by
  unfold stringlistEncode
  by_cases empty : strl = []
  · simp [empty]
  · simp [empty]

@[simp]
theorem bind_getString_map {text : Option Bytes} : (text.map Json.string).bind getString = text := by
  cases text <;> rfl

theorem strNcpy_omitted {text : Chars (last + 1)} :
    Chars.strNcpy (if text.val = [] then none else some text.val) = text := by
  by_cases empty : text.val = []
  · apply Subtype.ext
    simp [Chars.strNcpy, empty]
  · rw [if_neg empty, Chars.strNcpy_val]

/-- A participant as its entry carries it: of its timestamp the low 32 bits, as a signed number. -/
def lowStamp (part : GroupPart) : GroupPart := { part with ts := (part.ts.setWidth 32).signExtend 64 }

theorem partDecodeHandler_partEncode (correct : libre.Correct) {part : GroupPart} (userid : part.userid.isSome)
    (clientid : part.clientid.isSome) : partDecodeHandler libre (partEncode libre part) = .append (lowStamp part) := by
  obtain ⟨user, client, authorized, state, ssrca, ssrcv, ts⟩ := part
  obtain ⟨user, rfl⟩ := isSome_iff_exists.mp userid
  obtain ⟨client, rfl⟩ := isSome_iff_exists.mp clientid
  cases state <;>
    simp [partDecodeHandler, partEncode, lowStamp, jzonStrdup, jzonStr, jzonBool, jzonInt, getString,
      lookup_append, printed, orZero, setWidth_signExtend, correct.scanned]

theorem keyDecodeHandler_keyEncode (correct : libre.Correct) {key : KeyInfo}
    (data : key.data.isSome) : keyDecodeHandler libre (keyEncode libre key) = .append key := by
  obtain ⟨idx, buf⟩ := key
  obtain ⟨bytes, rfl⟩ := isSome_iff_exists.mp data
  have decoded : libre.base64Decode (libre.base64Encode bytes) (libre.base64Encode bytes).length = .ok bytes :=
    correct.base64 (by omega)
  simp [keyDecodeHandler, keyEncode, jzonInt, jzonStr, getString, lookup_append, setWidth_signExtend, decoded]

theorem jzonInt_omitted (found : members.lookup key = if val = 0 then none else some (.int (val.signExtend 64))) :
    orZero (jzonInt (.object members) key) 0 = val := by
  unfold jzonInt
  rw [objectGetEx_object, found]
  by_cases zero : val = 0
  · simp [zero, orZero]
  · rw [if_neg zero]
    exact setWidth_signExtend

theorem streamDecodeHandler_streamEncode {stream : StreamInfo} :
    streamDecodeHandler (streamEncode stream) = .append stream := by
  have quality : jzonInt (streamEncode stream) "quality" = .ok stream.quality := by
    simp [jzonInt, streamEncode, lookup_append, setWidth_signExtend]
  have userid : jzonStr (streamEncode stream) "userid" = some stream.userid.val := by
    simp [jzonStr, streamEncode, lookup_append, getString]
  have clientid : jzonStr (streamEncode stream) "clientid" =
      if stream.clientid.val = [] then none else some stream.clientid.val := by
    by_cases empty : stream.clientid.val = []
    · simp [jzonStr, streamEncode, lookup_append, empty]
    · simp [jzonStr, streamEncode, lookup_append, empty, getString]
  have hi : orZero (jzonInt (streamEncode stream) "ssrcv_hi") 0 = stream.hi := by
    apply jzonInt_omitted
    simp [lookup_append]
  have lo : orZero (jzonInt (streamEncode stream) "ssrcv_lo") 0 = stream.lo := by
    apply jzonInt_omitted
    simp [lookup_append]
  simp only [streamDecodeHandler, quality, userid, clientid, hi, lo, Chars.strNcpy_val, strNcpy_omitted]

theorem iceserverDecode_iceserverEncode {srv : IceServer} : iceserverDecode (iceserverEncode srv) = .ok srv := by
  have url : iceserverUrl (iceserverEncode srv) = some srv.url.val := by
    simp [iceserverUrl, iceserverEncode, jzonArray, jzonStr, getString]
  have username : jzonStr (iceserverEncode srv) "username" = some srv.username.val := by
    simp [iceserverEncode, jzonStr, getString, lookup_cons]
  have credential : jzonStr (iceserverEncode srv) "credential" = some srv.credential.val := by
    simp [iceserverEncode, jzonStr, getString, lookup_cons]
  simp only [iceserverDecode, url, username, credential, Chars.strNcpy_val]

theorem iceserversDecode_map : iceserversDecode (turnv.map iceserverEncode) = .ok turnv := by
  induction turnv with
  | nil => rfl
  | cons srv rest ih =>
    unfold iceserversDecode at ih ⊢
    rw [map_cons, mapM_cons, iceserverDecode_iceserverEncode, ih]
    rfl

theorem jzonApply_strings : jzonApply stringDecodeHandler (strl.map .string) = strl := by
  have walked : jzonApply stringDecodeHandler (strl.map .string) = strl.map id :=
    jzonApply_map (fun _ _ => rfl)
  rw [walked, List.map_id]

theorem stringlistDecode_omitted
    (found : members.lookup name = if strl = [] then none else some (.array (strl.map .string))) :
    stringlistDecode (.object members) name = strl := by
  unfold stringlistDecode jzonArray
  rw [objectGetEx_object, found]
  by_cases empty : strl = []
  · simp [empty, orZero, jzonApply]
  · rw [if_neg empty]
    exact jzonApply_strings

theorem offerDecode_setupEncode (sdp : setup.sdpMsg.isSome) (props : setup.props.isSome) :
    offerDecode (.object (setupEncode setup)) = .ok { setup with url := none, sftTuple := none } := by
  obtain ⟨sdpMsg, dict, url, tuple⟩ := setup
  obtain ⟨text, rfl⟩ := isSome_iff_exists.mp sdp
  obtain ⟨members, rfl⟩ := isSome_iff_exists.mp props
  simp [offerDecode, propsDecode, setupEncode, jzonStr, jzonObject, getString, lookup_append, printed,
    bind, Except.bind]

theorem setupDecode_setupEncode (sdp : setup.sdpMsg.isSome) (props : setup.props.isSome) :
    setupDecode (.object (setupEncode setup)) = .ok setup := by
  have url : jzonStr (.object (setupEncode setup)) "url" = setup.url := by
    simp [setupEncode, jzonStr, lookup_append]
  have tuple : jzonStr (.object (setupEncode setup)) "sft_tuple" = setup.sftTuple := by
    simp [setupEncode, jzonStr, lookup_append]
  unfold setupDecode
  rw [offerDecode_setupEncode sdp props, url, tuple]
  rfl

theorem turnsEncode_ok {servers : Odict} (encoded : turnsEncode turnv = .ok servers) (key : String) :
    servers.lookup key =
      if key = "ice_servers" ∧ turnv ≠ [] then some (.array (turnv.map iceserverEncode)) else none := by
  unfold turnsEncode iceserversEncode at encoded
  by_cases empty : turnv = []
  · rw [if_pos empty] at encoded
    cases encoded
    simp [empty]
  · rw [if_neg empty, if_neg empty] at encoded
    cases encoded
    simp [empty]

theorem turnsDecode_omitted (found : members.lookup "ice_servers" =
      if turnv = [] then none else some (.array (turnv.map iceserverEncode))) :
    turnsDecode (.object members) = .ok turnv := by
  unfold turnsDecode jzonArray
  rw [objectGetEx_object, found]
  by_cases empty : turnv = []
  · simp [empty]
  · rw [if_neg empty]
    exact iceserversDecode_map

theorem confConnDecode_confConnEncode {confconn : ConfConn} (tool : confconn.tool.isSome)
    (toolver : confconn.toolver.isSome) (encoded : confConnEncode confconn = .ok body) :
    confConnDecode (.object body) = .ok { confconn with vstreams := limitVstreams confconn.vstreams } := by
  obtain ⟨toolText, toolEq⟩ := isSome_iff_exists.mp tool
  obtain ⟨toolverText, toolverEq⟩ := isSome_iff_exists.mp toolver
  unfold confConnEncode at encoded
  cases turns : turnsEncode confconn.turnv with
  | error err =>
    rw [turns] at encoded
    cases encoded
  | ok servers =>
    have found := turnsEncode_ok turns
    rw [turns] at encoded
    cases encoded
    unfold confConnDecode
    rw [@turnsDecode_omitted _ confconn.turnv (by simp [lookup_append, found])]
    simp [jzonStr, jzonBool, jzonInt, lookup_append, found, printed, orZero, setWidth_signExtend,
      toolEq, toolverEq, getString, bind, Except.bind]

section
variable (correct : libre.Correct)
include correct

theorem dataDecode_base64Encode {data : Bytes} : dataDecode libre (libre.base64Encode data) = .ok data := by
  apply correct.base64
  omega

/-- The object may go on with props, as that of a CONFSTART does. -/
theorem confCheckDecode_confCheckEncode {confcheck : ConfCheck}
    (sftUrl : confcheck.sftUrl.isSome) (secret : confcheck.secret.isSome) (props : Option Odict) :
    confCheckDecode libre (.object (confCheckEncode libre confcheck ++ propsEncode props)) = .ok confcheck := by
  obtain ⟨url, tuple, secretData, timestamp, seqno, sftl⟩ := confcheck
  obtain ⟨url, rfl⟩ := isSome_iff_exists.mp sftUrl
  obtain ⟨data, rfl⟩ := isSome_iff_exists.mp secret
  unfold confCheckDecode
  rw [@stringlistDecode_omitted _ sftl _ (by simp [confCheckEncode, lookup_append])]
  simp [confCheckEncode, jzonStrdup, jzonStr, getString, lookup_append, printed, stampTexts, plSetStr,
    dataDecode_base64Encode correct, correct.u32, correct.u64, bind, Except.bind]

theorem confStartDecode_confCheckEncode {confstart : ConfStart}
    (sftUrl : confstart.sftUrl.isSome) (secret : confstart.secret.isSome) :
    confStartDecode libre
      (.object (confCheckEncode libre confstart.toConfCheck ++ propsEncode confstart.props)) = .ok confstart := by
  have props : propsDecodeOpt
      (.object (confCheckEncode libre confstart.toConfCheck ++ propsEncode confstart.props)) = confstart.props := by
    cases confstart.props <;>
      simp [propsDecodeOpt, propsDecode, jzonObject, confCheckEncode, lookup_append, Except.toOption]
  unfold confStartDecode
  rw [confCheckDecode_confCheckEncode correct sftUrl secret, props]
  rfl

theorem confPartDecode_confPartEncode {confpart : ConfPart}
    (ids : ∀ part ∈ confpart.partl, part.userid.isSome ∧ part.clientid.isSome) :
    confPartDecode libre (.object (confPartEncode libre confpart)) =
      .ok { confpart with partl := confpart.partl.map lowStamp } := by
  have entropy : entropyDecode libre (.object (confPartEncode libre confpart)) = .ok confpart.entropy := by
    cases given : confpart.entropy <;>
      simp [entropyDecode, jzonStr, getString, confPartEncode, partsEncode, lookup_append, given,
        dataDecode_base64Encode correct, Except.map]
  have parts : partsDecode libre (.object (confPartEncode libre confpart)) = confpart.partl.map lowStamp := by
    have found : jzonArray (.object (confPartEncode libre confpart)) "participants" =
        .ok (confpart.partl.map (partEncode libre)) := by
      simp [jzonArray, confPartEncode, partsEncode, lookup_append]
    unfold partsDecode
    rw [found]
    exact jzonApply_map (fun part member =>
      partDecodeHandler_partEncode correct (ids part member).1 (ids part member).2)
  unfold confPartDecode
  rw [entropy, parts,
    @stringlistDecode_omitted _ confpart.sftl _ (by simp [confPartEncode, partsEncode, lookup_append])]
  simp [confPartEncode, partsEncode, jzonBool, jzonStr, getString, lookup_append, stampTexts, plSetStr, orZero,
    correct.u32, correct.u64, bind, Except.bind]

theorem keysDecode_keysEncode {keyl : List KeyInfo}
    (data : ∀ key ∈ keyl, key.data.isSome) : keysDecode libre (.object (keysEncode libre keyl)) = .ok keyl := by
  have found : jzonArray (.object (keysEncode libre keyl)) "keys" = .ok (keyl.map (keyEncode libre)) := by
    simp [jzonArray, keysEncode]
  have walked : jzonApply (keyDecodeHandler libre) (keyl.map (keyEncode libre)) = keyl.map id :=
    jzonApply_map (fun key member => keyDecodeHandler_keyEncode correct (data key member))
  unfold keysDecode
  rw [found]
  show ok (jzonApply (keyDecodeHandler libre) (keyl.map (keyEncode libre))) = ok keyl
  rw [walked, List.map_id]

end

theorem streamsDecode_streamsEncode {streaml : List StreamInfo} {mode : Bytes} :
    streamsDecode (.object (addStr "mode" mode ++ streamsEncode streaml)) = .ok streaml := by
  have found : jzonArray (.object (addStr "mode" mode ++ streamsEncode streaml)) "streams" =
      .ok (streaml.map streamEncode) := by
    simp [jzonArray, streamsEncode, lookup_append]
  have walked : jzonApply streamDecodeHandler (streaml.map streamEncode) = streaml.map id :=
    jzonApply_map (fun stream _ => streamDecodeHandler_streamEncode)
  unfold streamsDecode
  rw [found]
  show ok (jzonApply streamDecodeHandler (streaml.map streamEncode)) = ok streaml
  rw [walked, List.map_id]

theorem devpairPublishDecode_devpairPublishEncode {publish : DevpairPublish} (sdp : publish.sdp.isSome)
    (username : publish.username.isSome) (encoded : devpairPublishEncode publish = .ok body) :
    devpairPublishDecode (.object body) = .ok publish := by
  obtain ⟨turnv, sdpText, usernameText⟩ := publish
  obtain ⟨sdpText, rfl⟩ := isSome_iff_exists.mp sdp
  obtain ⟨usernameText, rfl⟩ := isSome_iff_exists.mp username
  unfold devpairPublishEncode iceserversEncode at encoded
  by_cases empty : turnv = []
  · rw [if_pos empty] at encoded
    cases encoded
  · rw [if_neg empty] at encoded
    cases encoded
    simp [devpairPublishDecode, jzonArray, jzonStrdup, lookup_append, printed, iceserversDecode_map,
      bind, Except.bind]

/-- The fields `econn_message_encode` prints without a look at the pointer. -/
def Payload.Dereferenced : Payload → Prop
  | .setup offer | .groupSetup offer | .update offer => offer.sdpMsg.isSome
  | .confConn confconn => confconn.tool.isSome ∧ confconn.toolver.isSome
  | .confStart confstart => confstart.sftUrl.isSome
  | .confCheck confcheck => confcheck.sftUrl.isSome
  | .confPart confpart => ∀ part ∈ confpart.partl, part.userid.isSome ∧ part.clientid.isSome
  | .confStreams _ mode => mode.isSome
  | .devpairPublish publish => publish.sdp.isSome ∧ publish.username.isSome
  | .devpairAccept sdp => sdp.isSome
  | .alert _ descr => descr.isSome
  | _ => True

/-- The fields the decoder asks for though the encoder writes a message without them: the props of an offer, the secret
    of a CONFSTART or a CONFCHECK and the data of a key. -/
def Payload.Expected : Payload → Prop
  | .setup offer | .groupSetup offer | .update offer => offer.props.isSome
  | .confStart confstart => confstart.secret.isSome
  | .confCheck confcheck => confcheck.secret.isSome
  | .confKey keyl => ∀ key ∈ keyl, key.data.isSome
  | _ => True

/-- What the decoder makes of what the encoder wrote. -/
def readBack : Payload → Payload
  | .groupSetup setup => .groupSetup { setup with url := none, sftTuple := none }
  | .update setup => .update { setup with url := none, sftTuple := none }
  | .confConn confconn => .confConn { confconn with vstreams := limitVstreams confconn.vstreams }
  | .confPart confpart => .confPart { confpart with partl := confpart.partl.map lowStamp }
  | payload => payload

theorem payloadDecode_payloadEncode (correct : libre.Correct) (typed : payload.msgType = some msgType)
    (set : payload.Dereferenced) (expected : payload.Expected) (encoded : payloadEncode libre payload = .ok body) :
    payloadDecode libre (.object body) msgType = .ok (readBack payload) := by
  cases payload with
  | untyped => cases typed
  | setup setup =>
    cases typed
    cases encoded
    simp only [payloadDecode, setupDecode_setupEncode set expected]
    rfl
  | groupSetup setup =>
    cases typed
    cases encoded
    simp only [payloadDecode, offerDecode_setupEncode set expected]
    rfl
  | update setup =>
    cases typed
    cases encoded
    simp only [payloadDecode, offerDecode_setupEncode set expected]
    rfl
  | propsync props =>
    cases typed
    cases props with
    | none => cases encoded
    | some dict =>
      cases encoded
      simp [payloadDecode, propsDecode, jzonObject, readBack, Except.map]
  | groupStart props =>
    cases typed
    cases encoded
    cases props <;> simp [payloadDecode, propsDecodeOpt, propsDecode, jzonObject, readBack, Except.toOption]
  | confConn confconn =>
    cases typed
    simp only [payloadDecode, confConnDecode_confConnEncode set.1 set.2 encoded]
    rfl
  | confStart confstart =>
    cases typed
    cases encoded
    simp only [payloadDecode, confStartDecode_confCheckEncode correct set expected]
    rfl
  | confCheck confcheck =>
    cases typed
    cases encoded
    -- no props are an empty end of the object
    have read := confCheckDecode_confCheckEncode correct set expected none
    rw [show propsEncode none = [] from rfl, append_nil] at read
    simp only [payloadDecode, read]
    rfl
  | confPart confpart =>
    cases typed
    cases encoded
    simp only [payloadDecode, confPartDecode_confPartEncode correct set]
    rfl
  | confKey keyl =>
    cases typed
    cases encoded
    simp only [payloadDecode, keysDecode_keysEncode correct expected]
    rfl
  | confStreams streaml mode =>
    cases typed
    cases encoded
    obtain ⟨text, rfl⟩ := isSome_iff_exists.mp set
    simp [payloadDecode, streamsDecode_streamsEncode, jzonStrdup, lookup_append, printed, readBack, bind,
      Except.bind]
  | devpairPublish publish =>
    cases typed
    simp only [payloadDecode, devpairPublishDecode_devpairPublishEncode set.1 set.2 encoded]
    rfl
  | devpairAccept sdp =>
    cases typed
    cases encoded
    obtain ⟨text, rfl⟩ := isSome_iff_exists.mp set
    simp [payloadDecode, jzonStrdup, printed, readBack, Except.map]
  | alert level descr =>
    cases typed
    cases encoded
    obtain ⟨text, rfl⟩ := isSome_iff_exists.mp set
    simp [payloadDecode, jzonInt, jzonStrdup, lookup_append, printed, readBack, setWidth_signExtend, bind,
      Except.bind]
  | _ =>
    cases typed
    cases encoded
    rfl

def headerKeys : List String :=
  ["version", "type", "sessid", "src_userid", "src_clientid", "dest_userid", "dest_clientid", "resp"]

/-- What a type's branch reads is under other keys than the header's. -/
theorem payloadDecode_alike {one other : Json}
    (alike : ∀ key, key ∉ headerKeys → objectGetEx one key = objectGetEx other key) :
    payloadDecode libre one msgType = payloadDecode libre other msgType := by
  cases msgType <;>
    simp [payloadDecode, setupDecode, offerDecode, propsDecode, propsDecodeOpt, confConnDecode, turnsDecode,
      confCheckDecode, confStartDecode, confPartDecode, entropyDecode, keysDecode, streamsDecode, stringlistDecode,
      partsDecode, devpairPublishDecode, stampTexts, jzonStr, jzonStrdup, jzonInt, jzonBool, jzonObject, jzonArray,
      headerKeys, alike]

theorem headerEncode_apart (apart : key ∉ headerKeys) : (headerEncode msg).lookup key = none := by
  simp only [headerKeys, mem_cons, not_mem_nil, or_false, not_or] at apart
  simp [headerEncode, lookup_append, apart]

theorem payloadEncode_apart (encoded : payloadEncode libre payload = .ok body) (header : key ∈ headerKeys) :
    body.lookup key = none := by
  simp only [headerKeys, mem_cons, not_mem_nil, or_false] at header
  cases payload with
  | untyped => cases encoded
  | propsync props =>
    cases props with
    | none => cases encoded
    | some dict =>
      cases encoded
      rcases header with rfl | rfl | rfl | rfl | rfl | rfl | rfl | rfl <;> simp
  | confConn confconn =>
    simp only [payloadEncode, confConnEncode] at encoded
    cases turns : turnsEncode confconn.turnv with
    | error err =>
      rw [turns] at encoded
      cases encoded
    | ok servers =>
      have found := turnsEncode_ok turns
      rw [turns] at encoded
      cases encoded
      rcases header with rfl | rfl | rfl | rfl | rfl | rfl | rfl | rfl <;> simp [lookup_append, found]
  | devpairPublish publish =>
    simp only [payloadEncode, devpairPublishEncode, iceserversEncode] at encoded
    by_cases empty : publish.turnv = []
    · rw [if_pos empty] at encoded
      cases encoded
    · rw [if_neg empty] at encoded
      cases encoded
      rcases header with rfl | rfl | rfl | rfl | rfl | rfl | rfl | rfl <;> simp [lookup_append]
  | _ =>
    cases encoded
    rcases header with rfl | rfl | rfl | rfl | rfl | rfl | rfl | rfl <;>
      simp [setupEncode, confCheckEncode, confPartEncode, partsEncode, keysEncode, streamsEncode,
        lookup_append]

theorem typeNamed_msgName : typeNamed (msgName (some msgType)) = some msgType := by
  cases msgType <;> decide

/-- An id that the header omits where it is empty is read back as it was. -/
theorem strNcpy_found {id : Id} (found : members.lookup key = if id.val = [] then none else some (.string id.val)) :
    Chars.strNcpy (jzonStr (.object members) key) = id := by
  have read : jzonStr (.object members) key = if id.val = [] then none else some id.val := by
    unfold jzonStr
    rw [objectGetEx_object, found]
    by_cases empty : id.val = []
    · simp [empty]
    · simp [empty, getString]
  rw [read, strNcpy_omitted]

/-- What is read of an object that starts with a message's header, where the rest has none of the header's keys and is
    decoded as the message's type. -/
theorem objectDecode_headerEncode {currTime msgTime : BitVec 64} (typed : msg.payload.msgType = some msgType)
    (apart : ∀ {key}, key ∈ headerKeys → body.lookup key = none)
    (decoded : payloadDecode libre (.object (headerEncode msg ++ body)) msgType = .ok payload) :
    objectDecode libre currTime msgTime (.object (headerEncode msg ++ body)) = .ok { msg with
      payload := payload
      transient := false
      time := msgTime.setWidth 32
      age := if currTime.ult msgTime then 0 else (currTime - msgTime).setWidth 32 } := by
  -- an id that is empty is in neither part, so the rest has to be without it too
  have first : ∀ {key}, key ∈ headerKeys → (headerEncode msg ++ body).lookup key = (headerEncode msg).lookup key := by
    intro key header
    rw [lookup_append, apart header, or_none]
  have type : jzonStr (.object (headerEncode msg ++ body)) "type" = some (msgName (some msgType)) := by
    simp [jzonStr, headerEncode, lookup_append, getString, typed]
  have version : jzonStr (.object (headerEncode msg ++ body)) "version" = some econnProtoVersion := by
    simp [jzonStr, headerEncode, lookup_append, getString]
  have sessid : jzonStr (.object (headerEncode msg ++ body)) "sessid" = some msg.sessidSender.val := by
    simp [jzonStr, headerEncode, lookup_append, getString]
  have resp : jzonBool (.object (headerEncode msg ++ body)) "resp" = .ok msg.resp := by
    simp [jzonBool, headerEncode, lookup_append]
  have srcUserid : Chars.strNcpy (jzonStr (.object (headerEncode msg ++ body)) "src_userid") = msg.srcUserid := by
    apply strNcpy_found
    rw [first (by decide)]
    simp [headerEncode, lookup_append]
  have srcClientid :
      Chars.strNcpy (jzonStr (.object (headerEncode msg ++ body)) "src_clientid") = msg.srcClientid := by
    apply strNcpy_found
    rw [first (by decide)]
    simp [headerEncode, lookup_append]
  have destUserid : Chars.strNcpy (jzonStr (.object (headerEncode msg ++ body)) "dest_userid") = msg.destUserid := by
    apply strNcpy_found
    rw [first (by decide)]
    simp [headerEncode, lookup_append]
  have destClientid :
      Chars.strNcpy (jzonStr (.object (headerEncode msg ++ body)) "dest_clientid") = msg.destClientid := by
    apply strNcpy_found
    rw [first (by decide)]
    simp [headerEncode, lookup_append]
  have supported : strcaseeq (some econnProtoVersion) (some econnProtoVersion) = true := by
    simp [strcaseeq]
  simp only [objectDecode, type, version, supported, if_true, sessid, sessionDecode, resp, typeNamed_msgName,
    decoded, srcUserid, srcClientid, destUserid, destClientid, Chars.strNcpy_val, bind, Except.bind]

theorem payloadEncode_typed
    (encoded : payloadEncode libre payload = .ok body) : ∃ msgType, payload.msgType = some msgType := by
  cases payload with
  | untyped => cases encoded
  | _ => exact ⟨_, rfl⟩

theorem messageDecode_messageEncode (correct : libre.Correct) {text : Bytes} (currTime msgTime : BitVec 64)
    (set : msg.payload.Dereferenced) (expected : msg.payload.Expected) (encoded : messageEncode libre msg = .ok text) :
    messageDecode libre currTime msgTime text = .ok { msg with
      payload := readBack msg.payload
      transient := false
      time := msgTime.setWidth 32
      age := if currTime.ult msgTime then 0 else (currTime - msgTime).setWidth 32 } := by
  unfold messageEncode at encoded
  cases written : payloadEncode libre msg.payload with
  | error err =>
    rw [written] at encoded
    cases encoded
  | ok body =>
    rw [written] at encoded
    obtain ⟨msgType, typed⟩ := payloadEncode_typed written
    have decoded : payloadDecode libre (.object (headerEncode msg ++ body)) msgType =
        .ok (readBack msg.payload) := by
      rw [← payloadDecode_payloadEncode correct typed set expected written]
      apply payloadDecode_alike
      intro key outside
      rw [objectGetEx_object, lookup_append, headerEncode_apart outside, none_or, objectGetEx_object]
    unfold messageDecode
    rw [jzonDecode_jzonEncode correct encoded]
    exact objectDecode_headerEncode typed (payloadEncode_apart written) decoded

/-- What of a payload the codec carries: all of it, but for a number of video streams outside its range and the high
    half of a participant's timestamp. The url and the SFT tuple are carried in a SETUP only. -/
def Carried : Payload → Payload → Prop
  | .groupSetup offer, read => ∃ url sftTuple, read = .groupSetup { offer with url := url, sftTuple := sftTuple }
  | .update offer, read => ∃ url sftTuple, read = .update { offer with url := url, sftTuple := sftTuple }
  | .confConn confconn, read => read = .confConn { confconn with vstreams := limitVstreams confconn.vstreams }
  | .confPart confpart, read => read = .confPart { confpart with partl := confpart.partl.map lowStamp }
  | payload, read => read = payload

theorem carried_readBack : Carried payload (readBack payload) := by
  cases payload with
  | groupSetup offer => exact ⟨none, none, rfl⟩
  | update offer => exact ⟨none, none, rfl⟩
  | _ => rfl

/-- An encoded message is decoded with its type, its ids, its resp flag and what the codec carries of its payload. -/
theorem message_round_trip {libre : Libre} (correct : libre.Correct) {msg : Message} {text : Bytes}
    (currTime msgTime : BitVec 64) (set : msg.payload.Dereferenced) (expected : msg.payload.Expected)
    (encoded : messageEncode libre msg = .ok text) :
    ∃ read, messageDecode libre currTime msgTime text = .ok read ∧ Carried msg.payload read.payload ∧
      read.payload.msgType = msg.payload.msgType ∧ read.sessidSender = msg.sessidSender ∧
      read.srcUserid = msg.srcUserid ∧ read.srcClientid = msg.srcClientid ∧
      read.destUserid = msg.destUserid ∧ read.destClientid = msg.destClientid ∧ read.resp = msg.resp := by
  have sameType : (readBack msg.payload).msgType = msg.payload.msgType := by
    cases msg.payload <;> rfl
  exact ⟨_, messageDecode_messageEncode correct currTime msgTime set expected encoded,
    carried_readBack, sameType, rfl, rfl, rfl, rfl, rfl, rfl⟩

/-! ## Given messages

A library that prints one object is correct, and enough to encode a given message.
-/

/-- A message with a given payload, sent by one client to no one in particular. -/
def announced (payload : Payload) : Message :=
  { messageAlloc with
    payload := payload
    sessidSender := ⟨ascii "s1", by decide⟩
    srcUserid := ⟨ascii "alice", by decide⟩ }

variable {text : Bytes}

theorem messageEncode_printing (written : payloadEncode formats payload = .ok body)
    (shown : printJson (.object (headerEncode (announced payload) ++ body)) = some text) :
    messageEncode (printing (headerEncode (announced payload) ++ body)) (announced payload) = .ok text := by
  have same : payloadEncode (printing (headerEncode (announced payload) ++ body)) payload = .ok body := by
    rw [← written]
    cases payload <;> rfl
  show (payloadEncode (printing _) payload >>= _) = _
  rw [same]
  exact printing_encode.mpr ⟨rfl, shown⟩

theorem messageDecode_printing (shown : printJson (.object members) = some text) (currTime msgTime : BitVec 64) :
    messageDecode (printing members) currTime msgTime text =
      objectDecode (printing members) currTime msgTime (.object members) := by
  unfold messageDecode
  rw [jzonDecode_jzonEncode printing_correct (printing_encode.mpr ⟨rfl, shown⟩)]
  rfl

/-- A participant whose timestamp does not fit 32 bits, with another that is muted. -/
def roster : ConfPart where
  timestamp := 3
  seqno := 2
  shouldStart := true
  partl := [⟨some (ascii "alice"), some (ascii "a1"), true, .unknown, 1, 2, 0x100000005⟩,
    ⟨some (ascii "bob"), some (ascii "b1"), false, .muted, 3, 40, 7⟩]
  entropy := some [1, 2, 3, 255]
  sftl := []

def rosterMembers : Odict := headerEncode (announced (.confPart roster)) ++ confPartEncode formats roster

def rosterText : Bytes :=
  ascii "\x7b\"version\":\"3.0\",\"type\":\"CONFPART\",\"sessid\":\"s1\",\"src_userid\":\"alice\",\"resp\":false," ++
  ascii "\"should_start\":true,\"timestamp\":\"3\",\"seqno\":\"2\",\"entropy\":\"AQID/w==\",\"participants\":[" ++
  ascii "\x7b\"userid\":\"alice\",\"clientid\":\"a1\",\"authorized\":true,\"ssrc_audio\":\"1\",\"ssrc_video\":\"2\"," ++
  ascii "\"timestamp\":5\x7d,\x7b\"userid\":\"bob\",\"clientid\":\"b1\",\"authorized\":false,\"ssrc_audio\":\"3\"," ++
  ascii "\"ssrc_video\":\"40\",\"timestamp\":7,\"muted\":true\x7d]\x7d"

theorem roster_dereferenced : (announced (.confPart roster)).payload.Dereferenced := by
  intro part member
  simp only [roster, mem_cons, not_mem_nil, or_false] at member
  rcases member with rfl | rfl
  · exact ⟨rfl, rfl⟩
  · exact ⟨rfl, rfl⟩

theorem rosterText_printed : printJson (.object rosterMembers) = some rosterText := by
  decide +kernel

theorem message_round_trip_roster :
    messageEncode (printing rosterMembers) (announced (.confPart roster)) = .ok rosterText ∧
    ∃ read, messageDecode (printing rosterMembers) 10 4 rosterText = .ok read ∧
      read.payload = .confPart { roster with partl := roster.partl.map lowStamp } ∧
      read.srcUserid.val = ascii "alice" := by
  have encoded := @messageEncode_printing _ (.confPart roster) _ rfl rosterText_printed
  obtain ⟨read, decoded, carried, _, _, srcUserid, _⟩ :=
    message_round_trip printing_correct 10 4 roster_dereferenced trivial encoded
  refine ⟨encoded, read, decoded, carried, ?_⟩
  rw [srcUserid]
  rfl

/-- A conference with more video streams than the decoder lets through. -/
def crowd : ConfConn where
  turnv := []
  update := false
  env := 0
  tool := some (ascii "avs")
  toolver := some (ascii "9")
  status := 0
  selectiveAudio := false
  selectiveVideo := false
  vstreams := 33
  sftUrl := none
  sftTuple := none
  sftUsername := none
  sftCredential := none

/-- A message that is encoded, with what a correct library reads of it: not its payload. -/
def ReadAs (payload : Payload) (result : Except Errno Payload) : Prop :=
  payload.Dereferenced ∧ result ≠ .ok payload ∧ ∃ (libre : Libre) (text : Bytes), libre.Correct ∧
    messageEncode libre (announced payload) = .ok text ∧ (messageDecode libre 0 0 text).map Message.payload = result

theorem readAs_printing {result : Except Errno Payload} (set : payload.Dereferenced) (other : result ≠ .ok payload)
    (written : payloadEncode formats payload = .ok body)
    (shown : (printJson (.object (headerEncode (announced payload) ++ body))).isSome)
    (read : ∀ members, (objectDecode (printing members) 0 0 (.object (headerEncode (announced payload) ++ body))).map
      Message.payload = result) : ReadAs payload result := by
  obtain ⟨text, shown⟩ := isSome_iff_exists.mp shown
  refine ⟨set, other, _, text, printing_correct, messageEncode_printing written shown, ?_⟩
  rw [messageDecode_printing shown]
  exact read _

/-- Not everything is read back: of 33 video streams 32 are, of a participant's timestamp the low half, of the keys
    those with data, and an offer without props and a CONFSTART without a secret are refused. -/
theorem not_read_back : ReadAs (.confConn crowd) (.ok (.confConn { crowd with vstreams := 32 })) ∧
    ReadAs (.confPart roster) (.ok (.confPart { roster with partl := roster.partl.map lowStamp })) ∧
    ReadAs (.confKey [⟨1, none⟩, ⟨2, some [7]⟩]) (.ok (.confKey [⟨2, some [7]⟩])) ∧
    ReadAs (.setup ⟨some (ascii "v=0"), none, none, none⟩) (.error .ENOENT) ∧
    ReadAs (.confStart ⟨⟨some (ascii "sft"), none, none, 3, 2, []⟩, none⟩) (.error .EBADMSG) := by
  refine ⟨readAs_printing ⟨rfl, rfl⟩ ?_ rfl ?_ fun _ => rfl, readAs_printing roster_dereferenced ?_ rfl ?_ fun _ => rfl,
    readAs_printing trivial ?_ rfl ?_ fun _ => rfl, readAs_printing rfl nofun rfl ?_ fun _ => rfl,
    readAs_printing rfl nofun rfl ?_ fun _ => rfl⟩
  · simp [crowd]
  · decide +kernel
  · simp [roster, lowStamp]
  · decide +kernel
  · simp
  · decide +kernel
  · decide +kernel
  · decide +kernel

end EconnFmt

end Avs
