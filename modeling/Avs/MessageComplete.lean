import Avs.MessageRoundTrip

/-!
Which texts the decoder accepts. A complete message has the version, the type and the session id its object
names and every field its type must have (`Complete`). An object without a session id is accepted too, and so
is one whose mandatory string is null.
-/
namespace Avs.EconnFmt

open Jzon

/-- The fields a message of the type must have. -/
def Payload.Filled (jobj : Json) : Payload → Prop
  | .setup offer | .groupSetup offer => offer.sdpMsg.isSome ∧ offer.props.isSome
  | .update offer => offer.sdpMsg.isSome
  | .propsync props => props.isSome
  | .confStart confstart => confstart.sftUrl.isSome ∧ confstart.secret.isSome
  | .confCheck confcheck => confcheck.sftUrl.isSome ∧ confcheck.secret.isSome
  | .confStreams _ mode => mode.isSome
  | .devpairPublish publish =>
    (∃ jturns, jzonArray jobj "ice_servers" = .ok jturns ∧ iceserversDecode jturns = .ok publish.turnv) ∧
      publish.sdp.isSome ∧ publish.username.isSome
  | .devpairAccept sdp => sdp.isSome
  | .alert level descr => jzonInt jobj "level" = .ok level ∧ descr.isSome
  | _ => True

/-- The object names the version this decoder speaks. -/
def Supported (jobj : Json) : Prop :=
  ∃ ver, jzonStr jobj "version" = some ver ∧ strcaseeq (some econnProtoVersion) (some ver) = true

/-- The message is a complete reading of the object. -/
structure Complete (jobj : Json) (msg : Message) : Prop where
  version : Supported jobj
  type : ∃ name msgType, jzonStr jobj "type" = some name ∧ typeNamed name = some msgType ∧
    msg.payload.msgType = some msgType
  session : ∃ sessid, jzonStr jobj "sessid" = some sessid ∧ msg.sessidSender = Chars.strNcpy (some sessid)
  filled : msg.payload.Filled jobj

def IsNull (jobj : Json) (key : String) : Prop := objectGetEx jobj key = some .null

def IsText (jobj : Json) (key : String) : Prop := ∃ text, objectGetEx jobj key = some (.string text)

/-- A mandatory string is null in an object that has what else its type asks for. -/
def NullField (libre : Libre) (jobj : Json) : MsgType → Prop
  | .confStart | .confCheck => IsNull jobj "sft_url" ∧
      ∃ secret data, jzonStr jobj "secret" = some secret ∧ dataDecode libre secret = .ok data
  | .confStreams => IsNull jobj "mode" ∧ ∃ jstreams, jzonArray jobj "streams" = .ok jstreams
  | .devpairPublish =>
    (∃ jturns turnv, jzonArray jobj "ice_servers" = .ok jturns ∧ iceserversDecode jturns = .ok turnv) ∧
      (IsNull jobj "sdp" ∧ (IsNull jobj "username" ∨ IsText jobj "username") ∨
        IsText jobj "sdp" ∧ IsNull jobj "username")
  | .devpairAccept => IsNull jobj "sdp"
  | .alert => IsNull jobj "descr" ∧ ∃ level, jzonInt jobj "level" = .ok level
  | _ => False

/-- An object of the supported version that names a type and has no session id, or that has one, a `resp` flag and a
    known type of which a mandatory string is null. -/
def Overlooked (libre : Libre) (jobj : Json) : Prop :=
  Supported jobj ∧ ∃ name, jzonStr jobj "type" = some name ∧
    (jzonStr jobj "sessid" = none ∨
      (∃ sessid, jzonStr jobj "sessid" = some sessid) ∧ (∃ resp, jzonBool jobj "resp" = .ok resp) ∧
        ∃ msgType, typeNamed name = some msgType ∧ NullField libre jobj msgType)

variable {libre : Libre} {jobj : Json} {msgType : MsgType} {payload : Payload} {offer : Setup}
  {currTime msgTime : BitVec 64} {msg : Message} {name sessid : Bytes}

theorem payloadDecode_msgType
    (decoded : payloadDecode libre jobj msgType = .ok payload) : payload.msgType = some msgType := by
  cases msgType <;> simp only [payloadDecode, map_ok_iff, bind_ok_iff] at decoded
  case confStreams =>
    obtain ⟨streaml, _, mode, _, result⟩ := decoded
    cases result
    rfl
  case alert =>
    obtain ⟨level, _, descr, _, result⟩ := decoded
    cases result
    rfl
  all_goals
    first
    | (cases decoded; rfl)
    | (obtain ⟨_, _, rfl⟩ := decoded; rfl)

theorem offerDecode_filled (decoded : offerDecode jobj = .ok offer) : offer.sdpMsg.isSome ∧ offer.props.isSome := by
  unfold offerDecode at decoded
  split at decoded
  · cases decoded
  · obtain ⟨props, _, result⟩ := bind_ok_iff.mp decoded
    cases result
    exact ⟨rfl, rfl⟩

theorem setupDecode_filled (decoded : setupDecode jobj = .ok offer) : offer.sdpMsg.isSome ∧ offer.props.isSome := by
  obtain ⟨first, read, result⟩ := bind_ok_iff.mp decoded
  cases result
  have filled := offerDecode_filled read
  exact filled

theorem confCheckDecode_ok_iff {url : Option Bytes} :
    (∃ confcheck, confCheckDecode libre jobj = .ok confcheck ∧ confcheck.sftUrl = url) ↔
      jzonStrdup jobj "sft_url" = .ok url ∧
        ∃ secret data, jzonStr jobj "secret" = some secret ∧ dataDecode libre secret = .ok data := by
  constructor
  · rintro ⟨confcheck, decoded, rfl⟩
    obtain ⟨sftUrl, readUrl, rest⟩ := bind_ok_iff.mp decoded
    split at rest
    · cases rest
    · next secret found =>
      obtain ⟨data, readSecret, result⟩ := bind_ok_iff.mp rest
      cases result
      exact ⟨readUrl, secret, data, found, readSecret⟩
  · rintro ⟨readUrl, secret, data, found, readSecret⟩
    simp [confCheckDecode, readUrl, found, readSecret, bind, Except.bind]

theorem confCheckDecode_secret {confcheck : ConfCheck}
    (decoded : confCheckDecode libre jobj = .ok confcheck) : confcheck.secret.isSome := by
  obtain ⟨sftUrl, readUrl, rest⟩ := bind_ok_iff.mp decoded
  split at rest
  · cases rest
  · obtain ⟨data, readSecret, result⟩ := bind_ok_iff.mp rest
    cases result
    rfl

theorem jzonStrdup_ok_iff {key : String} :
    (∃ text, jzonStrdup jobj key = .ok text) ↔ IsNull jobj key ∨ IsText jobj key := by
  constructor
  · rintro ⟨text, read⟩
    cases text with
    | none => exact .inl (jzonStrdup_null.mp read)
    | some text => exact .inr ⟨text, jzonStrdup_text.mp read⟩
  · rintro (null | ⟨text, given⟩)
    · exact ⟨none, jzonStrdup_null.mpr null⟩
    · exact ⟨some text, jzonStrdup_text.mpr given⟩

theorem confCheck_unfilled : (∃ confcheck, confCheckDecode libre jobj = .ok confcheck ∧
      ¬ (confcheck.sftUrl.isSome ∧ confcheck.secret.isSome)) ↔ NullField libre jobj .confCheck := by
  constructor
  · rintro ⟨confcheck, decoded, missing⟩
    have url : confcheck.sftUrl = none := by
      by_contra given
      exact missing ⟨Option.isSome_iff_ne_none.mpr given, confCheckDecode_secret decoded⟩
    obtain ⟨null, secret⟩ := confCheckDecode_ok_iff.mp ⟨confcheck, decoded, url⟩
    exact ⟨jzonStrdup_null.mp null, secret⟩
  · rintro ⟨null, secret⟩
    obtain ⟨confcheck, decoded, url⟩ := confCheckDecode_ok_iff.mpr ⟨jzonStrdup_null.mpr null, secret⟩
    refine ⟨confcheck, decoded, ?_⟩
    rw [url]
    rintro ⟨⟨⟩, _⟩

theorem devpairPublish_unfilled :
    (∃ publish, devpairPublishDecode jobj = .ok publish ∧ ¬ (Payload.devpairPublish publish).Filled jobj) ↔
      NullField libre jobj .devpairPublish := by
  constructor
  · rintro ⟨publish, decoded, missing⟩
    simp only [devpairPublishDecode, bind_ok_iff] at decoded
    obtain ⟨jturns, array, turnv, servers, sdp, readSdp, username, readUsername, result⟩ := decoded
    cases result
    refine ⟨⟨jturns, turnv, array, servers⟩, ?_⟩
    cases sdp with
    | none => exact .inl ⟨jzonStrdup_null.mp readSdp, jzonStrdup_ok_iff.mp ⟨username, readUsername⟩⟩
    | some sdpText =>
      cases username with
      | none => exact .inr ⟨⟨sdpText, jzonStrdup_text.mp readSdp⟩, jzonStrdup_null.mp readUsername⟩
      | some usernameText => exact absurd ⟨⟨jturns, array, servers⟩, rfl, rfl⟩ missing
  · rintro ⟨⟨jturns, turnv, array, servers⟩, null⟩
    obtain ⟨sdp, username, readSdp, readUsername, unset⟩ : ∃ sdp username, jzonStrdup jobj "sdp" = .ok sdp ∧
        jzonStrdup jobj "username" = .ok username ∧ ¬ (sdp.isSome ∧ username.isSome) := by
      rcases null with ⟨sdpNull, usernameGiven⟩ | ⟨⟨text, sdpGiven⟩, usernameNull⟩
      · obtain ⟨username, read⟩ := jzonStrdup_ok_iff.mpr usernameGiven
        exact ⟨none, username, jzonStrdup_null.mpr sdpNull, read, by rintro ⟨⟨⟩, _⟩⟩
      · exact ⟨some text, none, jzonStrdup_text.mpr sdpGiven, jzonStrdup_null.mpr usernameNull, by rintro ⟨_, ⟨⟩⟩⟩
    refine ⟨⟨turnv, sdp, username⟩, ?_, fun filled => unset filled.2⟩
    simp [devpairPublishDecode, array, servers, readSdp, readUsername, bind, Except.bind]

theorem map_unfilled {α : Type} {read : Except Errno α} {make : α → Payload} :
    (∃ payload, read.map make = .ok payload ∧ ¬ payload.Filled jobj) ↔
      ∃ value, read = .ok value ∧ ¬ (make value).Filled jobj := by
  constructor
  · rintro ⟨payload, decoded, missing⟩
    obtain ⟨value, found, rfl⟩ := map_ok_iff.mp decoded
    exact ⟨value, found, missing⟩
  · rintro ⟨value, found, missing⟩
    exact ⟨make value, map_ok_iff.mpr ⟨value, found, rfl⟩, missing⟩

/-- A payload is decoded without one of its mandatory fields exactly where one is null. -/
theorem payloadDecode_unfilled : (∃ payload, payloadDecode libre jobj msgType = .ok payload ∧ ¬ payload.Filled jobj) ↔
      NullField libre jobj msgType := by
  cases msgType with
  | setup =>
    refine map_unfilled.trans (iff_of_false ?_ id)
    rintro ⟨offer, read, missing⟩
    exact missing (setupDecode_filled read)
  | groupSetup =>
    refine map_unfilled.trans (iff_of_false ?_ id)
    rintro ⟨offer, read, missing⟩
    exact missing (offerDecode_filled read)
  | update =>
    refine map_unfilled.trans (iff_of_false ?_ id)
    rintro ⟨offer, read, missing⟩
    exact missing (offerDecode_filled read).1
  | propsync =>
    refine map_unfilled.trans (iff_of_false ?_ id)
    rintro ⟨props, read, missing⟩
    exact missing rfl
  | confStart =>
    -- a CONFSTART is a CONFCHECK with props, which are optional
    refine map_unfilled.trans (Iff.trans ?_ confCheck_unfilled)
    constructor
    · rintro ⟨confstart, read, missing⟩
      obtain ⟨confcheck, check, result⟩ := bind_ok_iff.mp read
      cases result
      exact ⟨confcheck, check, missing⟩
    · rintro ⟨confcheck, check, missing⟩
      refine ⟨{ confcheck with props := propsDecodeOpt jobj }, ?_, missing⟩
      exact bind_ok_iff.mpr ⟨confcheck, check, rfl⟩
  | confCheck => exact map_unfilled.trans confCheck_unfilled
  | confStreams =>
    constructor
    · rintro ⟨payload, decoded, missing⟩
      simp only [payloadDecode, streamsDecode, bind_ok_iff] at decoded
      obtain ⟨streaml, ⟨jstreams, array, _⟩, mode, readMode, result⟩ := decoded
      cases result
      cases mode with
      | none => exact ⟨jzonStrdup_null.mp readMode, jstreams, array⟩
      | some text => exact absurd rfl missing
    · rintro ⟨null, jstreams, array⟩
      refine ⟨.confStreams (jzonApply streamDecodeHandler jstreams) none, ?_, Bool.false_ne_true⟩
      simp [payloadDecode, streamsDecode, array, jzonStrdup_null.mpr null, bind, Except.bind]
  | devpairPublish => exact map_unfilled.trans devpairPublish_unfilled
  | devpairAccept =>
    refine map_unfilled.trans ?_
    constructor
    · rintro ⟨sdp, read, missing⟩
      cases sdp with
      | none => exact jzonStrdup_null.mp read
      | some text => exact absurd rfl missing
    · intro null
      exact ⟨none, jzonStrdup_null.mpr null, Bool.false_ne_true⟩
  | alert =>
    constructor
    · rintro ⟨payload, decoded, missing⟩
      simp only [payloadDecode, bind_ok_iff] at decoded
      obtain ⟨level, readLevel, descr, readDescr, result⟩ := decoded
      cases result
      cases descr with
      | none => exact ⟨jzonStrdup_null.mp readDescr, level, readLevel⟩
      | some text => exact absurd ⟨readLevel, rfl⟩ missing
    · rintro ⟨null, level, readLevel⟩
      refine ⟨.alert level none, ?_, fun filled => Bool.false_ne_true filled.2⟩
      simp [payloadDecode, readLevel, jzonStrdup_null.mpr null, bind, Except.bind]
  | _ =>
    refine iff_of_false ?_ id
    rintro ⟨payload, decoded, missing⟩
    have typed := payloadDecode_msgType decoded
    cases payload <;> first | exact missing trivial | cases typed

/-- The two ways to a decoded message: a session id and the rest of the object, or none. -/
theorem objectDecode_ok_iff : objectDecode libre currTime msgTime jobj = .ok msg ↔
      Supported jobj ∧ ∃ name, jzonStr jobj "type" = some name ∧
        (jzonStr jobj "sessid" = none ∧ messageAlloc = msg ∨
          ∃ sessid, jzonStr jobj "sessid" = some sessid ∧
            sessionDecode libre currTime msgTime jobj name sessid = .ok msg) := by
  constructor
  · intro decoded
    unfold objectDecode at decoded
    split at decoded
    · cases decoded
    · next name type =>
      split at decoded
      · cases decoded
      · next ver version =>
        split at decoded
        · next supported =>
          refine ⟨⟨ver, version, supported⟩, name, type, ?_⟩
          split at decoded
          · next missing =>
            cases decoded
            exact .inl ⟨missing, rfl⟩
          · next sessid given => exact .inr ⟨sessid, given, decoded⟩
        · cases decoded
  · rintro ⟨⟨ver, version, supported⟩, name, type, ⟨missing, rfl⟩ | ⟨sessid, given, decoded⟩⟩
    · simp [objectDecode, type, version, supported, missing]
    · simp [objectDecode, type, version, supported, given, decoded]

theorem sessionDecode_ok (decoded : sessionDecode libre currTime msgTime jobj name sessid = .ok msg) :
    (∃ resp, jzonBool jobj "resp" = .ok resp) ∧ msg.sessidSender = Chars.strNcpy (some sessid) ∧
      ∃ msgType, typeNamed name = some msgType ∧ payloadDecode libre jobj msgType = .ok msg.payload := by
  obtain ⟨resp, flag, rest⟩ := bind_ok_iff.mp decoded
  split at rest
  · cases rest
  · next msgType named =>
    obtain ⟨payload, read, result⟩ := bind_ok_iff.mp rest
    cases result
    exact ⟨⟨resp, flag⟩, rfl, msgType, named, read⟩

theorem sessionDecode_of_payload {resp : Bool} (flag : jzonBool jobj "resp" = .ok resp)
    (named : typeNamed name = some msgType) (read : payloadDecode libre jobj msgType = .ok payload) :
    ∃ msg, sessionDecode libre currTime msgTime jobj name sessid = .ok msg ∧ msg.payload = payload := by
  simp [sessionDecode, flag, named, read, bind, Except.bind]

/-- An object is decoded to an incomplete message exactly where it is overlooked. -/
theorem objectDecode_incomplete :
    (∃ msg, objectDecode libre currTime msgTime jobj = .ok msg ∧ ¬ Complete jobj msg) ↔ Overlooked libre jobj := by
  constructor
  · rintro ⟨msg, decoded, incomplete⟩
    obtain ⟨supported, name, type, ⟨missing, _⟩ | ⟨sessid, given, rest⟩⟩ := objectDecode_ok_iff.mp decoded
    · exact ⟨supported, name, type, .inl missing⟩
    · obtain ⟨flag, session, msgType, named, read⟩ := sessionDecode_ok rest
      have unfilled : ¬ msg.payload.Filled jobj := by
        intro filled
        exact incomplete ⟨supported, ⟨name, msgType, type, named, payloadDecode_msgType read⟩,
          ⟨sessid, given, session⟩, filled⟩
      have null := payloadDecode_unfilled.mp ⟨msg.payload, read, unfilled⟩
      exact ⟨supported, name, type, .inr ⟨⟨sessid, given⟩, flag, msgType, named, null⟩⟩
  · rintro ⟨supported, name, type, missing | ⟨⟨sessid, given⟩, ⟨resp, flag⟩, msgType, named, null⟩⟩
    · refine ⟨messageAlloc, objectDecode_ok_iff.mpr ⟨supported, name, type, .inl ⟨missing, rfl⟩⟩, ?_⟩
      intro complete
      obtain ⟨sessid, given, _⟩ := complete.session
      rw [missing] at given
      cases given
    · obtain ⟨payload, read, unfilled⟩ := payloadDecode_unfilled.mpr null
      obtain ⟨msg, rest, rfl⟩ := sessionDecode_of_payload flag named read
      refine ⟨msg, objectDecode_ok_iff.mpr ⟨supported, name, type, .inr ⟨sessid, given, rest⟩⟩, ?_⟩
      intro complete
      exact unfilled complete.filled

/-- A text is decoded to complete messages only, exactly where its object is not one that is overlooked. -/
theorem decode_complete (libre : Libre) (currTime msgTime : BitVec 64) (text : Bytes) :
    (∀ msg, messageDecode libre currTime msgTime text = .ok msg →
      ∃ jobj, jzonDecode libre text = .ok jobj ∧ Complete jobj msg) ↔
    ∀ jobj, jzonDecode libre text = .ok jobj → ¬ Overlooked libre jobj := by
  constructor
  · intro complete jobj parsed overlooked
    obtain ⟨msg, decoded, incomplete⟩ := objectDecode_incomplete.mpr overlooked
    obtain ⟨other, again, isComplete⟩ := complete msg (bind_ok_iff.mpr ⟨jobj, parsed, decoded⟩)
    rw [parsed] at again
    cases again
    exact incomplete isComplete
  · intro seen msg decoded
    obtain ⟨jobj, parsed, rest⟩ := bind_ok_iff.mp decoded
    refine ⟨jobj, parsed, ?_⟩
    by_contra incomplete
    exact seen jobj parsed (objectDecode_incomplete.mp ⟨msg, rest, incomplete⟩)

/-- A SETUP of which nothing but the type and the version is given. -/
def anonymous : Odict := [("version", .string econnProtoVersion), ("type", .string (ascii "SETUP"))]

def anonymousText : Bytes := ascii "\x7b\"version\":\"3.0\",\"type\":\"SETUP\"\x7d"

/-- An ALERT whose description is null. -/
def unexplained : Odict :=
  [("version", .string econnProtoVersion), ("type", .string (ascii "ALERT")), ("sessid", .string (ascii "s1")),
   ("resp", .bool false), ("level", .int 1), ("descr", .null)]

def unexplainedText : Bytes :=
  ascii "\x7b\"version\":\"3.0\",\"type\":\"ALERT\",\"sessid\":\"s1\",\"resp\":false,\"level\":1,\"descr\":null\x7d"

/-- Incomplete messages are accepted: a SETUP without a session id comes back without its type, and an ALERT without a
    description. -/
theorem incomplete_accepted : messageDecode (printing anonymous) 0 0 anonymousText = .ok messageAlloc ∧
    messageAlloc.payload.msgType = none ∧ messageAlloc.sessidSender.val = [] ∧
    ∃ msg, messageDecode (printing unexplained) 0 0 unexplainedText = .ok msg ∧ msg.payload = .alert 1 none :=
  ⟨messageDecode_printing (by decide +kernel) 0 0, rfl, rfl, _, messageDecode_printing (by decide +kernel) 0 0, rfl⟩

end Avs.EconnFmt
