import Avs.Econn

/-!
One call between two clients, `src/ecall/ecall.c`: the econn, the media flow with its data channel, the local
video state and the properties announced to the peer.

Flows are numbered in the order they are made. What a flow answers, the SDP it makes and what the transport's
send handler returns are parts of each event's environment; the other flow calls, the property updates and
allocations succeed. Timers fire at any moment or never. The application's handlers do not call back.
`devpair` is never set. Left out are statistics, metrics and traces, the peer's ids and properties (but
whether they are there), the messages waiting for the data channel, and with what reason the close handler is
called.
-/
namespace Avs

inductive VideoState
  | stopped | started | badConn | paused | screenshare
  deriving DecidableEq, Repr

inductive CallType
  | normal | video | forcedAudio
  deriving DecidableEq, Repr

inductive ConvType
  | oneOnOne | group | conference | conferenceMls
  deriving DecidableEq, Repr

inductive AsyncSdp
  | asyncNone | asyncOffer | asyncAnswer | asyncComplete
  deriving DecidableEq, Repr

/-- `props_local`, the properties set in `ecall_alloc`. -/
structure Props where
  videosend : String
  screensend : String
  audiocbr : String
  muted : String
  deriving DecidableEq, Repr

structure Ecall where
  convType : ConvType
  callType : CallType
  vstate : VideoState
  glareVstate : VideoState
  timeoutSetup : Nat
  useridSelf : Bytes
  clientidSelf : Bytes
  sessid : Bytes
  props : Props
  /-- The properties last handed to the send handler. -/
  announced : Option Props
  propsRemote : Bool
  maxRetries : Nat
  numRetries : Nat
  econn : Option Econn
  econnPending : Bool
  flow : Option Nat
  oldflow : Option Nat
  nextFlow : Nat
  async : AsyncSdp
  offer : Option Bytes
  answered : Bool
  established : Bool
  update : Bool
  updateGlare : Bool
  delayedRestart : Bool
  audioCbr : Bool
  closeh : Bool
  deriving DecidableEq, Repr

namespace Ecall

/-- What the world answers during one event: the flow in use, the microphone's mute state and the backend's send
    handler. -/
structure Env where
  hasVideo : Bool
  isGathered : Bool
  audioCbr : Bool
  sdp : Bytes
  muted : Bool
  tx : Option Errno

def boolProp (value : Bool) : String := if value then "true" else "false"

def alloc (convType : ConvType) (callType : CallType) (timeoutSetup : Nat) (useridSelf clientidSelf sessid : Bytes)
    (muted : Bool) : Ecall where
  convType := convType
  callType := callType
  vstate := if callType = .video then .started else .stopped
  glareVstate := .stopped
  timeoutSetup := timeoutSetup
  useridSelf := useridSelf
  clientidSelf := clientidSelf
  sessid := sessid
  props := ⟨boolProp (callType = .video), "false", "false", boolProp muted⟩
  announced := none
  propsRemote := false
  maxRetries := match convType with
    | .conference | .group => 2
    | _ => 0
  numRetries := 0
  econn := none
  econnPending := false
  flow := none
  oldflow := none
  nextFlow := 0
  async := .asyncNone
  offer := none
  answered := false
  established := false
  update := false
  updateGlare := false
  delayedRestart := false
  audioCbr := false
  closeh := true

def state (ec : Ecall) : EconnState := (ec.econn.map (·.state)).getD .idle

/-- What an econn call leaves of the ecall: a SETUP or an UPDATE it sent carried the local properties. -/
def sentBy (done : Econn.Done) (ec : Ecall) : Ecall :=
  { ec with
    econn := some done.conn
    announced := if done.sent.any (fun msg => msg.msgType = .setup ∨ msg.msgType = .update) then some ec.props
      else ec.announced }

def sendPropsync (ec : Ecall) : Ecall := { ec with announced := some ec.props }

def close (ec : Ecall) : Ecall := { ec with flow := none, oldflow := none, closeh := false }

/-- The error exit of a handler. -/
def closeOnErr (result : Ecall × Option Errno) : Ecall :=
  match result with
  | (ec, none) => ec
  | (ec, some _) => close ec

def allocFlow (ec : Ecall) (audioCbr : Bool) : Ecall :=
  { ec with
    oldflow := ec.flow
    flow := some ec.nextFlow
    nextFlow := ec.nextFlow + 1
    established := false
    audioCbr := audioCbr }

def createEconn (ec : Ecall) : Ecall × Option Errno :=
  match Econn.alloc ec.timeoutSetup ec.useridSelf ec.clientidSelf ec.sessid with
  | .error err => (ec, some err)
  | .ok conn => ({ ec with econn := some conn }, none)

def updateMuteProps (env : Env) (ec : Ecall) : Ecall :=
  { ec with props := { ec.props with muted := boolProp env.muted } }

def offerAndConnect (env : Env) (ec : Ecall) : Ecall × Option Errno :=
  match ec.econn with
  | none => (ec, some .EINVAL)
  | some conn =>
    let done := if ec.update then Econn.updateReq env.tx conn env.sdp else Econn.start env.tx conn env.sdp
    (sentBy done ec, done.err)

def generateOffer (env : Env) (ec : Ecall) : Ecall × Option Errno :=
  if env.isGathered then offerAndConnect env ec
  else if ec.async ≠ .asyncNone then (ec, some .EPROTO)
  else ({ ec with async := .asyncOffer }, none)

def generateAnswer (env : Env) (ec : Ecall) : Ecall × Option Errno :=
  match ec.econn with
  | none => (ec, some .EPROTO)
  | some conn =>
    if ec.update then
      let done := Econn.updateResp env.tx conn env.sdp
      (sentBy done { ec with numRetries := ec.numRetries + 1 }, done.err)
    else
      let done := Econn.answer env.tx conn env.sdp
      (sentBy done ec, done.err)

def generateOrGatherAnswer (env : Env) (ec : Ecall) : Ecall × Option Errno :=
  let ec := { ec with offer := none }
  if env.isGathered then generateAnswer env ec
  else if ec.async = .asyncNone then ({ ec with async := .asyncAnswer, econnPending := true }, none)
  else (ec, none)

def answer (env : Env) (callType : CallType) (audioCbr : Bool) (ec : Ecall) : Ecall × Option Errno :=
  if ec.econn = none then (ec, some .ENOENT)
  else if ec.state ≠ .pendingIncoming then (ec, some .EPROTO)
  else if ec.flow = none then (ec, some .EPROTO)
  else
    match generateOrGatherAnswer env (updateMuteProps env { ec with callType := callType, audioCbr := audioCbr }) with
    | (ec, some err) => (ec, some err)
    | (ec, none) => ({ ec with answered := true }, none)

def start (env : Env) (callType : CallType) (audioCbr : Bool) (ec : Ecall) : Ecall × Option Errno :=
  match ec.econn with
  | some conn => if conn.state = .pendingIncoming then answer env callType audioCbr ec else (ec, some .EALREADY)
  | none =>
    match createEconn { ec with callType := callType } with
    | (ec, some err) => (ec, some err)
    | (ec, none) =>
      let ec := { ec with econn := ec.econn.map (fun conn => { conn with state := .pendingOutgoing }) }
      let ec := updateMuteProps env (allocFlow ec audioCbr)
      let ec :=
        if callType = .video ∧ ec.vstate = .started then { ec with props := { ec.props with videosend := "true" } }
        else ec
      generateOffer env { ec with async := .asyncNone }

/-- `ecall_restart`. In a conference only the close handler is told. -/
def restart (env : Env) (callType : CallType) (ec : Ecall) : Ecall × Option Errno :=
  match ec.state with
  | .answered | .datachanEstablished | .updateSent | .updateRecv =>
    if ec.convType = .conference then (ec, none)
    else
      let ec := { ec with callType := callType, update := true }
      generateOffer env { allocFlow ec ec.audioCbr with async := .asyncNone }
  | _ => (ec, some .EPROTO)

/-- The values of `videosend` and `screensend` for a video state. -/
def vstateStrings : VideoState → String × String
  | .started => ("true", "false")
  | .screenshare => ("false", "true")
  | .paused => ("paused", "false")
  | .stopped | .badConn => ("false", "false")

/-- The states in which a request is postponed to the next data channel. -/
def Glare (ec : Ecall) : Prop :=
  ec.convType = .oneOnOne ∧
    (ec.state = .pendingOutgoing ∨ ec.state = .pendingIncoming ∨ ec.state = .updateRecv ∨ ec.update = true)

instance (ec : Ecall) : Decidable (Glare ec) := inferInstanceAs (Decidable (_ ∧ _))

/-- The properties and the video state of a request that is not postponed. -/
def takeVideoState (vstate : VideoState) (ec : Ecall) : Ecall :=
  { ec with
    props := { ec.props with videosend := (vstateStrings vstate).1, screensend := (vstateStrings vstate).2 }
    vstate := vstate }

/-- The end of `ecall_set_video_send_state`: a flow without video is replaced by one with video, otherwise the peer is
    told. -/
def followVideoState (env : Env) (ec : Ecall) : Ecall :=
  if ¬ (ec.flow.isSome ∧ env.hasVideo = true) ∧ (ec.vstate = .started ∨ ec.vstate = .screenshare) ∧
      (ec.state = .answered ∨ ec.state = .datachanEstablished) then (restart env .video ec).1
  else if ¬ ec.update ∧ ec.state = .datachanEstablished then sendPropsync ec
  else ec

/-- `ecall_set_video_send_state`; it returns 0. -/
def setVideoSendState (env : Env) (vstate : VideoState) (ec : Ecall) : Ecall :=
  if ec.vstate = vstate then ec
  else if Glare ec then { ec with updateGlare := true, glareVstate := vstate }
  else followVideoState env (takeVideoState vstate ec)

def end_ (env : Env) (ec : Ecall) : Ecall :=
  match ec.econn with
  | none => ec
  | some conn => sentBy (Econn.end_ env.tx conn) ec

def connHandler (env : Env) (sdp : Bytes) (reset : Bool) (ec : Ecall) : Ecall :=
  let ec := if reset ∨ ec.flow = none then allocFlow ec false else ec
  let ec := { ec with offer := some sdp }
  if ec.propsRemote ∧ ¬ reset then close ec
  else
    let ec := { ec with propsRemote := true }
    if reset then
      let ec := { ec with async := .asyncNone, update := false }
      closeOnErr (answer env ec.callType ec.audioCbr ec)
    else ec

def answerHandler (env : Env) (reset : Bool) (sdp : Bytes) (ec : Ecall) : Ecall :=
  if reset then
    match generateOrGatherAnswer env { allocFlow ec false with async := .asyncNone, offer := some sdp } with
    | (ec, some _) => close ec
    | (ec, none) => { ec with answered := true }
  else if ec.answered then ec
  else { ec with propsRemote := true, answered := true }

/-- `strstr(sdp, "x-streamchange")`. -/
def isStreamChange (sdp : Bytes) : Bool := sdp.tails.any (fun rest => (ascii "x-streamchange").isPrefixOf rest)

def updateReqHandler (env : Env) (sdp : Bytes) (ec : Ecall) : Ecall :=
  let ec := { ec with update := true }
  let ec := if ec.flow.isSome ∧ isStreamChange sdp then ec else allocFlow ec ec.audioCbr
  closeOnErr (generateOrGatherAnswer env { ec with propsRemote := true, async := .asyncNone, offer := some sdp })

def updateRespHandler (ec : Ecall) : Ecall := if ec.update then { ec with propsRemote := true } else ec

def handle (env : Env) (ec : Ecall) : EconnCall → Ecall
  | .conn sdp reset => connHandler env sdp reset ec
  | .answer reset sdp => answerHandler env reset sdp ec
  | .updateReq sdp _ => updateReqHandler env sdp ec
  | .updateResp _ => updateRespHandler ec
  | .close _ => close ec

/-- An econn call with the handlers it calls. -/
def dispatch (env : Env) (done : Econn.Done) (ec : Ecall) : Ecall := done.calls.foldl (handle env) (sentBy done ec)

def isCreator (ec : Ecall) (useridSender clientidSender : Bytes) (msg : EconnMessage) : Bool :=
  ec.useridSelf ≠ [] ∧ useridSender ≠ [] ∧
    (¬ strcaseeq (some ec.useridSelf) (some useridSender) ∨ ¬ strcaseeq (some ec.clientidSelf) (some clientidSender)) ∧
    ¬ msg.resp ∧ msg.msgType = .setup

/-- `ecall_msg_recv` for the messages of the econn. -/
def msgRecv (env : Env) (useridSender clientidSender : Bytes) (msg : EconnMessage) (ec : Ecall) : Ecall :=
  if strcaseeq (some ec.useridSelf) (some useridSender) ∧ ec.convType = .oneOnOne then
    -- Another client of this user has answered: the ringing stops.
    match ec.econn with
    | none => ec
    | some conn =>
      if conn.state = .pendingIncoming ∧ msg.msgType = .setup ∧ msg.resp then
        dispatch env (Econn.close env.tx conn (some .EALREADY)) ec
      else ec
  else
    match if ec.econn = none ∧ isCreator ec useridSender clientidSender msg then createEconn ec else (ec, none) with
    | (ec, some _) => ec
    | (ec, none) =>
      match ec.econn with
      | none => ec
      | some conn => dispatch env (Econn.recvMessage env.tx conn useridSender clientidSender msg) ec

def handlePropsync (resp : Bool) (ec : Ecall) : Ecall :=
  let ec := if ¬ resp ∧ ec.convType ≠ .conference ∧ ec.state = .datachanEstablished then sendPropsync ec else ec
  { ec with propsRemote := true }

def gatherHandler (env : Env) (flow : Nat) (ec : Ecall) : Ecall :=
  if ec.flow ≠ some flow then ec
  else if ec.state = .terminating ∨ ec.state = .hangupSent ∨ ec.state = .hangupRecv then ec
  else match ec.async with
    | .asyncNone | .asyncComplete => ec
    | .asyncOffer =>
      match offerAndConnect env ec with
      | (ec, some _) => close ec
      | (ec, none) => { ec with async := .asyncComplete }
    | .asyncAnswer =>
      match if ec.econnPending then generateAnswer env ec else (ec, some .EPROTO) with
      | (ec, some _) => close ec
      | (ec, none) => { ec with async := .asyncComplete }

/-- The middle of `channel_estab_handler`: the peer is told the properties, and the update is over. -/
def concludeUpdate (env : Env) (ec : Ecall) : Ecall :=
  let ec := if env.audioCbr then { ec with props := { ec.props with audiocbr := "true" } } else ec
  let ec := if ec.state = .datachanEstablished then sendPropsync ec else ec
  { ec with update := false, numRetries := 0 }

def replayGlare (env : Env) (ec : Ecall) : Ecall :=
  if ec.updateGlare then setVideoSendState env ec.glareVstate { ec with updateGlare := false } else ec

def channelEstabHandler (env : Env) (flow : Nat) (ec : Ecall) : Ecall :=
  if ec.flow ≠ some flow then ec
  else
    let econn := ec.econn.map (fun conn => (Econn.setDatachanEstablished conn).conn)
    let ec := { ec with oldflow := none, econn := econn }
    if ec.delayedRestart then (restart env ec.callType { ec with delayedRestart := false }).1
    else replayGlare env (concludeUpdate env ec)

def channelCloseHandler (env : Env) (flow : Nat) (ec : Ecall) : Ecall :=
  if ec.flow ≠ some flow then ec
  else if ec.state = .datachanEstablished then (restart env ec.callType ec).1
  else close ec

def restartHandler (env : Env) (flow : Nat) (forceCbr : Bool) (ec : Ecall) : Ecall :=
  if ec.flow ≠ some flow then ec
  else if ec.state = .answered ∧ forceCbr then { ec with audioCbr := true, delayedRestart := true }
  else if ec.state = .datachanEstablished then (restart env ec.callType ec).1
  else ec

/-- An error that ends the call, as in `mf_close_handler` and `media_start_timeout_handler`. -/
def failWith (env : Env) (err : Option Errno) (ec : Ecall) : Ecall :=
  if ec.econn.isSome then end_ env { ec with econn := ec.econn.map (fun conn => { conn with err := err }) }
  else close ec

def closeHandler (env : Env) (flow : Nat) (err : Option Errno) (ec : Ecall) : Ecall :=
  if ec.oldflow = some flow then { ec with oldflow := none }
  else if ec.flow ≠ some flow then ec
  else if ec.state = .answered ∧ err = some .ETIMEDOUT ∧ ec.numRetries < ec.maxRetries then
    (restart env ec.callType ec).1
  else failWith env err ec

def connectionTimeoutHandler (env : Env) (mediaEstabh : Bool) (ec : Ecall) : Ecall :=
  if ec.convType = .group then (restart env ec.callType ec).1
  else if mediaEstabh then ec
  else close ec

/-- The econn's timer fires, if it is set. -/
def econnTimeout (env : Env) (ec : Ecall) : Ecall :=
  match ec.econn with
  | none => ec
  | some conn =>
    match conn.tmrLocal with
    | none => ec
    | some timer => dispatch env (Econn.fire env.tx conn timer) ec

inductive Event
  | setVideoSendState (vstate : VideoState)
  | start (callType : CallType) (audioCbr : Bool)
  | answer (callType : CallType) (audioCbr : Bool)
  | restart (callType : CallType)
  | end_
  | msgRecv (useridSender clientidSender : Bytes) (msg : EconnMessage)
  | propsync (resp : Bool)
  | muted
  | gathered (flow : Nat)
  | channelEstab (flow : Nat)
  | channelClose (flow : Nat)
  | flowRestart (flow : Nat) (forceCbr : Bool)
  | flowClose (flow : Nat) (err : Option Errno)
  | connectionTimeout (mediaEstabh : Bool)
  | mediaStartTimeout
  | econnTimeout

def updateMuteState (env : Env) (ec : Ecall) : Ecall :=
  let ec := updateMuteProps env ec
  if ¬ ec.update ∧ ec.state = .datachanEstablished then sendPropsync ec else ec

def step (event : Event × Env) (ec : Ecall) : Option Ecall :=
  let env := event.2
  some <| match event.1 with
    | .setVideoSendState vstate => setVideoSendState env vstate ec
    | .start callType audioCbr => (start env callType audioCbr ec).1
    | .answer callType audioCbr => (answer env callType audioCbr ec).1
    | .restart callType => (restart env callType ec).1
    | .end_ => end_ env ec
    | .msgRecv useridSender clientidSender msg => msgRecv env useridSender clientidSender msg ec
    | .propsync resp => handlePropsync resp ec
    | .muted => updateMuteState env ec
    | .gathered flow => gatherHandler env flow ec
    | .channelEstab flow => channelEstabHandler env flow ec
    | .channelClose flow => channelCloseHandler env flow ec
    | .flowRestart flow forceCbr => restartHandler env flow forceCbr ec
    | .flowClose flow err => closeHandler env flow err ec
    | .connectionTimeout mediaEstabh => connectionTimeoutHandler env mediaEstabh ec
    | .mediaStartTimeout => failWith env (some .EIOERR) ec
    | .econnTimeout => econnTimeout env ec

end Ecall

end Avs
