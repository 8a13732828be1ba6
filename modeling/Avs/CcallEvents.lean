import Avs.Ccall

/-!
The events of a conference call: the application's commands, the messages of the other clients and of the SFT,
the reports of the inner call, the timers and the frames that look up keys. `step` is what one event does.
-/
namespace Avs

inductive SftMsg
  | confConn (status : ConfconnStatus)
  | setup (url sftTuple : Option Bytes)
  | update
  | other
  deriving DecidableEq, Repr

inductive CcallEvent
  | start (meeting : Bool)
  | answer
  | end_
  | reject
  | setClients (clientl : List Client) (epoch : UInt32)
  | setMediaKey (epochid : UInt32) (key : Bytes)
  | setDuration (duration : Int32)
  | setBackground (background : Bool)
  | config (cfg : CallConfig)
  | msgRecv (userid clientid : Bytes) (age : UInt32) (msg : Message)
  /-- `SFT_STATUS_NETWORK_ERROR`. -/
  | sftNetworkError
  /-- A reply of the SFT, with no message or with a message of a session. -/
  | sftMsgRecv (msg : Option (Bytes × SftMsg))
  | transpSend (msg : SftMessage)
  | datachanEstab
  | mediaEstab (ecall : Nat)
  | ping
  | confpart (ecall : Nat) (msg : Confpart)
  | propsync (useridHash clientidHash : Bytes) (muted : Option Bool) (latestEpoch : UInt32)
  | closed (ecall : Nat) (err : Option Errno)
  /-- A frame looks up the media key of an index. -/
  | lookup (index : UInt32)
  | decryptAttempted
  | decryptSuccessful
  | timer (t : CcallTimer)
  | tick (now : UInt64)

namespace Ccall

def answer (env : Env) (cc : Ccall) : Ccall :=
  let cc := { cc with error := none }
  if cc.state = .idle ∨ cc.state = .incoming then
    (reqCfgJoin env { cc with isCaller := false, stopRingingReason := .answered } false false).1
  else cc

/-- `ccall_start`; an incoming call is answered. -/
def start (env : Env) (cc : Ccall) (meeting : Bool) : Ccall :=
  let cc := { cc with error := none, meeting := meeting }
  match cc.state with
  | .incoming => answer env cc
  | .idle => (reqCfgJoin env { cc with isCaller := true } false true).1
  | _ => cc

def reject (env : Env) (cc : Ccall) : Option Ccall :=
  if cc.state = .incoming then stopOthersRinging env { cc with stopRingingReason := .rejected } else some cc

def setClients (env : Env) (cc : Ccall) (clientl : List Client) (epoch : UInt32) : Option Ccall :=
  let upd := cc.userl.updateFromSelist env.hashUser clientl epoch cc.secret
  (userCalls env upd.calls { cc with userl := upd.list }).bind (fun cc =>
    let cc := if upd.changed then cc.tell .groupChangedh else cc
    let cc := if upd.removed then { cc with someoneLeft := true }.tmrStart .rotateKey else cc
    let keyed := if cc.state = .active then sendKeys env cc false else some cc
    keyed.bind (stopOthersRingingI env))

def setBackground (cc : Ccall) (background : Bool) : Ccall :=
  if cc.state = .incoming then
    if background then cc.tmrCancel [.ongoing] else cc.tmrStart .ongoing
  else cc

/-- How the conference of a message compares with the adopted one: positive where it is earlier. The sequence numbers
    are compared by their difference. -/
def tsCmp (cc : Ccall) (info : ConfInfo) : Int32 :=
  if cc.sftTimestamp = 0 ∨ info.timestamp < cc.sftTimestamp then 1
  else if info.timestamp > cc.sftTimestamp then -1
  else (cc.sftSeqno - info.seqno).toInt32

def adopt (env : Env) (cc : Ccall) (info : ConfInfo) : Ccall :=
  let cc := setSecret env { cc with
    primarySftUrl := some (copySft info.sftUrl)
    sftTuple := info.sftTuple
    sftTimestamp := info.timestamp
    sftSeqno := info.seqno
    keystore := cc.keystore.reset } info.secret
  { cc with isCaller := false, userl := cc.userl.resetKeygenerator }

/-- The inner call is dropped and the adopted conference joined. -/
def rejoin (env : Env) (cc : Ccall) (info : ConfInfo) : Ccall :=
  (reqCfgJoin env { ecallEnd cc with ecall := none, sftl := info.sftl } false false).1

/-- An idle call comes in. -/
def comeIn (cc : Ccall) (userid clientid : Bytes) (shouldRing : Bool) : Ccall :=
  let cc := (setState { cc with isRinging := shouldRing } .incoming).tell (.starth userid clientid shouldRing)
  if shouldRing then cc.tmrStart .ring else cc

/-- Another client of this user took the call or rejected it. -/
def stopRinging (cc : Ccall) : Ccall :=
  { (cc.tmrCancel [.ring]).tell (.leaveh .stillOngoing) with isRinging := false }

def takeSftl (cc : Ccall) (order : Int32) (info : ConfInfo) : Ccall :=
  if order ≥ 0 then { cc with sftl := info.sftl } else cc

/-- The `switch` of `ccall_handle_confstart_check`; `rings` says that the message asks to ring, `order` how it compares.
    -/
def confstartState (env : Env) (cc : Ccall) (userid clientid : Bytes) (rings : Bool) (order : Int32)
    (info : ConfInfo) : Option Ccall :=
  let own := strcaseeq (some userid) cc.userl.self.useridReal
  match cc.state with
  | .idle => some (takeSftl (comeIn cc userid clientid (rings && !own && !cc.meeting)) order info)
  | .incoming =>
    let cc := if own && cc.isRinging then stopRinging cc else cc
    some (takeSftl (cc.tmrStart .ongoing) order info)
  | .connsent | .setuprecv | .connecting | .connected | .waitconfig | .waitconfigOutgoing | .waitnetwork =>
    some (if order > 0 then rejoin env cc info else cc)
  | .active =>
    if order > 0 then some (rejoin env cc info)
    else if order < 0 ∧ cc.isKg then sendMsg env cc .confStart true none
    else some cc
  | .terminating => some cc

/-- `ccall_handle_confstart_check`; a CONFCHECK has to be a response. -/
def handleConfstartCheck (env : Env) (cc : Ccall) (userid clientid : Bytes) (age : UInt32) (isStart resp : Bool)
    (info : ConfInfo) : Option Ccall :=
  if age < confstartTimeoutS ∧ (isStart ∨ resp) then
    let order := tsCmp cc info
    let cc := if order > 0 then adopt env cc info else cc
    confstartState env cc userid clientid (isStart && !resp && age * 1000 < shouldRingTimeout) order info
  else some cc

def confEndRecv (cc : Ccall) (sessid : Bytes) : Ccall :=
  match cc.state with
  | .incoming => if sessid = cc.convidHash then (setState cc .idle).tell (.closeh none) else cc
  | .active => if cc.isKg then cc.tmrStart .sendCheck else cc
  | _ => cc

/-- The loop over the keys of a CONFKEY response. A key the keystore already has, or is past, does not end it; other
    errors do. -/
def receiveKeys (env : Env) : List (UInt32 × Bytes) → Ccall → Option Ccall
  | [], cc => some cc
  | k :: rest, cc =>
    match cc.keystore.setSessionKey env.hkdf cc.now k.1 k.2 with
    | none => none
    | some done =>
      let cc := { cc with keystore := done.ks }
      if done.err.isSome ∧ done.err ≠ some .EALREADY then some cc else receiveKeys env rest cc

/-- The sender of a message is the key generator, and is not this client. -/
def fromKg (cc : Ccall) (userid clientid : Bytes) : Bool :=
  !cc.isKg && cc.userl.getKeygenerator.any (fun kg => kg.useridReal.isSome && kg.clientidReal.isSome &&
    strcaseeq (some userid) kg.useridReal && strcaseeq (some clientid) kg.clientidReal)

/-- A CONFKEY response is received. It is taken in MLS calls too. -/
def confKeyResp (env : Env) (cc : Ccall) (userid clientid : Bytes) (keyl : List (UInt32 × Bytes)) : Option Ccall :=
  if cc.userl.getKeygenerator.isNone then some { cc with requestKey := true }
  else if fromKg cc userid clientid then
    receiveKeys env keyl { cc with keystore := (cc.keystore.setSalt (some cc.convidHash) cc.now).ks }
  else some cc

def confKeyReq (env : Env) (cc : Ccall) (userid clientid : Bytes) : Option Ccall :=
  if cc.isKg then
    match cc.userl.findByReal (some userid) (some clientid) with
    | none => some cc
    | some u =>
      if u.incallNow then
        sendKeys env { cc with userl := cc.userl.modify u.addr (fun u => { u with needsKey := true }) } false
      else some cc
  else some cc

def rejectRecv (cc : Ccall) (userid : Bytes) : Ccall :=
  if cc.state = .incoming ∧ strcaseeq (some userid) cc.userl.self.useridReal then stopRinging cc else cc

def msgRecv (env : Env) (cc : Ccall) (userid clientid : Bytes) (age : UInt32) : Message → Option Ccall
  | .confStart resp info => handleConfstartCheck env cc userid clientid age true resp info
  | .confCheck resp info => handleConfstartCheck env cc userid clientid age false resp info
  | .confEnd _ sessid => some (confEndRecv cc sessid)
  | .confKey true keyl => confKeyResp env cc userid clientid keyl
  | .confKey false _ => confKeyReq env cc userid clientid
  | .reject _ => some (rejectRecv cc userid)

/-- The message goes to the inner call, which is made if there is none. -/
def ecallMsgRecv (cc : Ccall) : Ccall :=
  match cc.ecall with
  | some ecall => cc.tell (.ecallMsgRecv ecall)
  | none => { cc with ecall := some cc.nextEcall, nextEcall := cc.nextEcall + 1 }.tell (.ecallMsgRecv cc.nextEcall)

/-- The urls a SETUP of the SFT sets where there are none. -/
def setupUrls (cc : Ccall) (url sftTuple : Option Bytes) : Ccall :=
  match url with
  | none => cc
  | some url =>
    { cc with
      sftUrl := some (cc.sftUrl.getD (copySft url))
      primarySftUrl := some (cc.primarySftUrl.getD (copySft url))
      sftTuple := if cc.primarySftUrl.isSome then cc.sftTuple else sftTuple }

/-- `ccall_sft_msg_recv` of a message. -/
def sftMsgRecv (cc : Ccall) (sessid : Bytes) (msg : SftMsg) : Ccall :=
  if !strcaseeq (some cc.convidHash) (some sessid) then cc
  else match msg with
    | .confConn .ok => cc
    | .confConn status => { cc with confconnStatus := status }.tmrStart .sftReject
    | .setup url sftTuple =>
      if cc.state = .connsent then ecallMsgRecv (setupUrls (setState cc .setuprecv) url sftTuple) else cc
    | .update => if cc.state = .connsent then ecallMsgRecv (setState cc .setuprecv) else cc
    | .other => ecallMsgRecv cc

def mediaEstabHandler (cc : Ccall) (ecall : Nat) : Ccall :=
  if cc.ecall ≠ some ecall then cc
  else
    let cc := if cc.isMlsCall then cc.tell .reqNewEpochh else cc
    if cc.state = .connsent then cc
    else
      let old := cc.state
      let cc := setState cc .active
      { cc with userl := cc.userl.incallClear true (old = .active) }

/-- The bytes `ccall_keep_confpart_data` keeps. -/
def keepConfpartData (msg : Confpart) : Bytes :=
  BigEndian.toBytes 8 msg.timestamp.toNat ++ BigEndian.toBytes 4 msg.seqno.toNat ++ msg.entropy ++
    msg.partl.flatMap (fun p => p.userid ++ BigEndian.toBytes 4 p.ssrca.toNat ++ BigEndian.toBytes 4 p.ssrcv.toNat)

/-- The first part of `ecall_confpart_handler`: the conference is started, or its time is set where there is none. -/
def confpartStart (env : Env) (cc : Ccall) (msg : Confpart) (shouldStart : Bool) : Option Ccall :=
  let cc := { cc with receivedConfpart := true, confpartData := some (keepConfpartData msg) }
  if shouldStart && cc.isCaller then
    sendMsg env { cc with sftTimestamp := msg.timestamp, sftSeqno := msg.seqno } .confStart false none
  else if cc.sftTimestamp = 0 ∧ cc.sftSeqno = 0 then
    some { cc with sftTimestamp := msg.timestamp, sftSeqno := msg.seqno }
  else some cc

def confpartAlone (cc : Ccall) (parts : Nat) : Ccall :=
  if parts > 1 then { cc.tmrCancel [.alone] with someoneJoined := true }
  else if cc.someoneJoined || !cc.meeting then cc.tmrStart .alone
  else cc

/-- The end of a meeting, on its first CONFPART. -/
def confpartDuration (env : Env) (cc : Ccall) (msg : Confpart) (first : Bool) : Ccall :=
  if cc.meetingDuration ≠ 0 ∧ first then
    let startDuration := (msg.timestamp - cc.sftTimestamp).toUInt32.toInt32
    if cc.meetingDuration - startDuration ≤ 0 then endWithErr env cc .EDURATION else cc.tmrStart .duration
  else cc

def sftlistChanged (a b : List Bytes) : Bool := a.length ≠ b.length || (a.zip b).any (fun p => !sftsEqual p.1 p.2)

def takePartlist (env : Env) (cc : Ccall) (upd : Userlist.SftUpdate) : Option Ccall :=
  (userCalls env upd.calls { cc with userl := upd.list }).map (fun cc => { cc with userl := cc.userl.sort })

/-- The end of `ecall_confpart_handler`. -/
def confpartEnd (env : Env) (cc : Ccall) (upd : Userlist.SftUpdate) (sftl : List Bytes) (shouldStart : Bool) :
    Option Ccall :=
  let keyed := if upd.changed then
      let cc := cc.tell .groupChangedh
      if cc.isKg && !cc.isMlsCall then sendKeys env cc false else some cc
    else some cc
  keyed.bind (fun cc =>
    let cc := if upd.missing then cc.tell .reqClientsh else cc
    let changed := sftlistChanged cc.sftl sftl
    let cc := { cc with sftl := sftl }
    if cc.isKg && !shouldStart && changed then sendCheckTimeout env cc else some cc)

/-- `ecall_confpart_handler`. A caller that is alone and has no time yet starts the conference although it is not asked
    to. -/
def confpartHandler (env : Env) (cc : Ccall) (ecall : Nat) (msg : Confpart) : Option Ccall :=
  if cc.ecall ≠ some ecall then some cc
  else
    let first := !cc.receivedConfpart
    let shouldStart := msg.shouldStart ||
      (cc.isCaller && cc.sftTimestamp = 0 && cc.sftSeqno = 0 && msg.partl.length = 1)
    (confpartStart env cc msg shouldStart).bind (fun cc =>
      let cc := confpartDuration env (confpartAlone cc msg.partl.length) msg first
      let upd := cc.userl.updateBeforeSort msg.partl false
      (takePartlist env cc upd).bind (fun cc => confpartEnd env cc upd msg.sftl shouldStart))

def muteUser (cc : Ccall) (user : UserInfo) (muted : Option Bool) : Ccall :=
  match muted with
  | none => cc
  | some muted =>
    if muted = user.muted then cc
    else { cc with userl := cc.userl.modify user.addr (fun u => { u with muted := muted }) }.tell .groupChangedh

def propsyncHandler (cc : Ccall) (useridHash clientidHash : Bytes) (muted : Option Bool) (latestEpoch : UInt32) :
    Option Ccall :=
  match cc.userl.findByHash (some useridHash) (some clientidHash) with
  | none => some cc
  | some user =>
    let cc := muteUser cc user muted
    if latestEpoch > 0 ∧ latestEpoch ≠ user.latestEpoch then
      syncMediaKeys { cc with
        userl := cc.userl.modify user.addr (fun u => { u with latestEpoch := latestEpoch }) }
    else some cc

/-- The end of `ecall_close_handler`, where the inner call does not come back; `shouldEnd` says that no participant was
    in the call. -/
def closeCall (cc : Ccall) (shouldEnd : Bool) : Ccall :=
  let overtime := cc.error = some .EDURATION
  let cc := if shouldEnd then
      let cc := setState cc .idle
      if overtime then cc else cc.tell (.closeh cc.error)
    else if overtime then cc.tmrStart .term
    else (setState cc .incoming).tell (.leaveh .stillOngoing)
  { cc with ecall := none, error := none }

def closeHandler (env : Env) (cc : Ccall) (ecall : Nat) (err : Option Errno) : Option Ccall :=
  if cc.ecall ≠ some ecall then some cc
  else
    let shouldEnd : Bool := cc.userl.incallCount = 0
    let cc := { cc with userl := cc.userl.resetKeygenerator }
    if err = some .EAGAIN ∨ err = some .ENOTCONN then
      some (reconnect env { cc with reconnectAttempts := 0, expectedPing := 0 } (err = some .EAGAIN))
    else
      let cc := { cc with userl := cc.userl.incallClear false false }
      let finished := cc.error = none ∨ cc.error = some .ENOONEJOINED ∨ cc.error = some .EEVERYONELEFT
      let ended := if finished ∧ shouldEnd ∧ cc.receivedConfpart then sendMsg env cc .confEnd false none else some cc
      ended.map (closeCall · shouldEnd)

/-- The reason `ccall_sft_reject_timeout` gives for a status. -/
def rejectReason : ConfconnStatus → Option Reason
  | .ok => none
  | .rejectedBlacklist => some .outdatedClient
  | .rejectedAuthInvalid | .rejectedAuthLimit | .rejectedAuthExpired => some .authFailed
  | .rejectedAuthCantstart => some .authFailedStart

def sftRejectTimeout (cc : Ccall) : Ccall :=
  if cc.state = .connsent then
    let cc := setState cc .idle
    match rejectReason cc.confconnStatus with
    | none => cc
    | some reason => ecallEnd (cc.tell (.leaveh reason))
  else cc

def decryptCheckTimeout (env : Env) (cc : Ccall) : Option Ccall :=
  if cc.state ≠ .active then some cc
  else if !cc.receivedConfpart then some (reconnect env cc false)
  else if cc.userl.getKeygenerator.isNone then some (cc.tmrStart .decryptCheck)
  else if cc.isKg then some cc
  else if !cc.keystore.hasKeys || (cc.keystore.decryptAttempted && !cc.keystore.decryptSuccessful) then
    requestKeys env cc
  else some cc

def keepaliveTimeout (env : Env) (cc : Ccall) : Ccall :=
  if cc.state ≠ .active ∨ cc.ecall = none then cc
  else
    let cc := { cc with expectedPing := cc.expectedPing + 1 }
    if cc.expectedPing > maxMissingPings then reconnect env cc false else cc.tmrStart .keepalive

def aloneTimeout (env : Env) (cc : Ccall) : Ccall :=
  if cc.state ≠ .active ∨ cc.ecall = none then cc
  else endWithErr env cc (if cc.someoneJoined then .EEVERYONELEFT else .ENOONEJOINED)

def ongoingCallTimeout (cc : Ccall) : Ccall :=
  if cc.state = .incoming then (setState cc .idle).tell (.closeh none) else cc

def stopRingingTimeout (cc : Ccall) : Ccall :=
  if cc.state = .incoming then { cc.tell (.leaveh .stillOngoing) with isRinging := false } else cc

def connectTimeout (env : Env) (cc : Ccall) : Ccall :=
  if cc.state = .active then cc else endWithErr env cc .ETIMEDOUT

/-- `durterm_timeout_handler`. -/
def durtermTimeout (cc : Ccall) : Ccall := let cc := setState cc .idle; cc.tell (.closeh cc.error)

def fire (env : Env) (cc : Ccall) : CcallTimer → Option Ccall
  | .connect => some (connectTimeout env cc)
  | .sendCheck => sendCheckTimeout env cc
  | .ongoing => some (ongoingCallTimeout cc)
  | .rotateKey => rotateKeyTimeout env cc
  | .rotateMls => rotateMlsTimeout cc
  | .ring => some (stopRingingTimeout cc)
  | .sftReject => some (sftRejectTimeout cc)
  | .decryptCheck => decryptCheckTimeout env cc
  | .keepalive => some (keepaliveTimeout env cc)
  | .alone => some (aloneTimeout env cc)
  | .duration => some (endWithErr env cc .EDURATION)
  | .term => some (durtermTimeout cc)

/-- What an event does. A report of an inner call that was never made, and a timer that is not set, do not happen. -/
def step (env : Env) : CcallEvent → Ccall → Option Ccall
  | .start meeting, cc => some (start env cc meeting)
  | .answer, cc => some (answer env cc)
  | .end_, cc => some (ecallEnd cc)
  | .reject, cc => reject env cc
  | .setClients clientl epoch, cc => setClients env cc clientl epoch
  | .setMediaKey epochid key, cc => setMediaKey env cc epochid key
  | .setDuration duration, cc => some { cc with meetingDuration := duration * 1000 }
  | .setBackground background, cc => some (setBackground cc background)
  | .config cfg, cc =>
    let cc := { cc with cfg := cfg }
    match cc.je with
    | none => some cc
    | some je => configUpdateHandler env cc je
  | .msgRecv userid clientid age msg, cc => msgRecv env cc userid clientid age msg
  | .sftNetworkError, cc => some (endWithErr env cc .ENOSYS)
  | .sftMsgRecv none, cc => some (if cc.state = .connsent then setState cc .waitnetwork else cc)
  | .sftMsgRecv (some (sessid, msg)), cc => some (sftMsgRecv cc sessid msg)
  | .transpSend msg, cc => if cc.nextEcall = 0 then none else some (sendMsgSft env cc cc.sftUrl msg).1
  | .datachanEstab, cc =>
    if cc.nextEcall = 0 then none
    else some (if cc.state = .connecting then setState cc .connected else cc)
  | .mediaEstab ecall, cc => if ecall < cc.nextEcall then some (mediaEstabHandler cc ecall) else none
  | .ping, cc => if cc.nextEcall = 0 then none else some { cc with expectedPing := 0, reconnectAttempts := 0 }
  | .confpart ecall msg, cc => if ecall < cc.nextEcall then confpartHandler env cc ecall msg else none
  | .propsync useridHash clientidHash muted latestEpoch, cc =>
    if cc.nextEcall = 0 then none else propsyncHandler cc useridHash clientidHash muted latestEpoch
  | .closed ecall err, cc => if ecall < cc.nextEcall then closeHandler env cc ecall err else none
  | .lookup index, cc =>
    (cc.keystore.getMediaKey env.hkdf (fun _ => cc.now) index sessionKeySize).map (fun r =>
      { cc with keystore := r.1 })
  | .decryptAttempted, cc => some { cc with keystore := cc.keystore.setDecryptAttempted }
  | .decryptSuccessful, cc => some { cc with keystore := cc.keystore.setDecryptSuccessful }
  | .timer t, cc => if t ∈ cc.timers then fire env (cc.tmrCancel [t]) t else none
  | .tick now, cc => some { cc with now := now }

end Ccall

end Avs
