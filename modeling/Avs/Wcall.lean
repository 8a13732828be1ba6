import Avs.Config
import Avs.Ecall

/-!
The calls of a user, `src/wcall/wcall.c`, and the queue of commands in front of them, `src/wcall/marshal.c`.

A call is a call object, of the kind its conversation needs, with the state the application is told. What a
call object does is a parameter: an operation takes its state to the next one, with an error and with the
handlers it calls on the way. Of the instance, `Calls` is what the handlers of a call object reach; the queues
that wait for a configuration and the log of missed calls stand around it.

All handlers of the application are set and none of them calls back; there is no media manager. Left out are
the handlers that only pass on what they are given, traces and metrics, and the other commands of the queue.
-/
namespace Avs

/-- The `WCALL_STATE_` codes that are set. -/
inductive WcallState
  | none | outgoing | incoming | answered | mediaEstab | termLocal | termRemote
  deriving DecidableEq, Repr

/-- The `WCALL_REASON_` codes, which are the `ICALL_REASON_` codes. -/
inductive WcallReason
  | normal | error | timeout | lostMedia | canceled | answeredElsewhere | ioError | stillOngoing | timeoutEconn
  | datachannel | rejected | outdatedClient | nooneJoined | everyoneLeft | authFailed | authFailedStart | duration
  deriving DecidableEq, Repr

/-- `struct incoming_event`, which has the arguments of the incoming handler. -/
structure IncomingEvent where
  convid : Bytes
  msgTime : UInt32
  userid : Bytes
  clientid : Bytes
  videoCall : Bool
  shouldRing : Bool
  convType : ConvType
  deriving DecidableEq, Repr

/-- What the application is told of its calls. -/
inductive WcallCallback
  | ready
  | incoming (event : IncomingEvent)
  | answered (convid : Bytes)
  | mediaEstab (convid userid clientid : Bytes)
  | closed (reason : WcallReason) (convid : Bytes) (msgTime : UInt32) (userid : Bytes) (clientid : Option Bytes)
  | state (convid : Bytes) (state : WcallState)
  deriving DecidableEq, Repr

/-- What a call object calls its handlers with. -/
inductive Upcall
  | start (msgTime : UInt32) (userid clientid : Bytes) (video shouldRing : Bool) (convType : ConvType)
  | answer
  | mediaEstab (userid clientid : Bytes)
  | leave (reason : WcallReason) (msgTime : UInt32)
  | close (err : Option Errno) (msgTime : UInt32) (userid clientid : Option Bytes)
  deriving DecidableEq, Repr

/-- What an operation of a call object leaves. -/
structure IcallReply (σ : Type) where
  icall : σ
  upcalls : List Upcall
  err : Option Errno

/-- The functions of `struct icall`. `alloc` is the allocation of the kind of call object asked for, with the servers of
    the configuration. -/
structure Icall (σ : Type) where
  alloc : Config.CallConfig → ConvType → (convid : Bytes) → (meeting : Bool) → Except Errno σ
  start : CallType → (audioCbr meeting : Bool) → σ → IcallReply σ
  answer : CallType → (audioCbr : Bool) → σ → IcallReply σ
  end_ : σ → IcallReply σ
  reject : σ → IcallReply σ
  setVideoSendState : VideoState → σ → IcallReply σ
  setDuration : Int → σ → IcallReply σ
  msgRecv : (currTime msgTime : UInt32) → (userid clientid : Bytes) → EconnFmt.Message → σ → IcallReply σ

/-- `wcall`. -/
structure Wcall (σ : Type) where
  convid : Bytes
  convType : ConvType
  duration : Int
  videoCall : Bool
  state : WcallState
  disableAudio : Bool
  icall : σ
  deriving DecidableEq, Repr

/-- The part of `struct calling_instance` that the handlers of a call object reach. Of `call_config`, a pointer into
    `cfg`, there is whether it is set. -/
structure Calls (σ : Type) where
  userid : Bytes
  clientid : Bytes
  cfg : Config
  callConfig : Bool
  processingNotifications : Bool
  pendingEventl : List IncomingEvent
  durationl : List (Bytes × Int)
  wcalls : List (Wcall σ)
  out : List WcallCallback

/-- A message with the arguments of `wcall_i_recv_msg`. -/
structure Received where
  msg : EconnFmt.Message
  currTime : UInt32
  msgTime : UInt32
  convid : Bytes
  userid : Bytes
  clientid : Bytes
  convType : ConvType
  meeting : Bool

/-- The commands of the queue that are modelled. -/
inductive Command
  | start (callType : CallType) (convType : ConvType) (audioCbr meeting : Bool)
  | answer (callType : CallType) (audioCbr : Bool)
  | reject
  | end_
  deriving DecidableEq, Repr

/-- The arguments of the missed-call handler. -/
structure MissedCall where
  convid : Bytes
  msgTime : UInt32
  userid : Bytes
  clientid : Bytes
  video : Bool
  deriving DecidableEq, Repr

/-- `struct calling_instance`, with its part of `g_ready_pendingl`. -/
structure CallingInstance (σ : Type) extends Calls σ where
  timeoutSetup : BitVec 32
  configUpdatel : List Received
  readyPendingl : List (Bytes × Command)
  missed : List MissedCall

namespace Calls

variable {σ : Type}

def lookup (calls : Calls σ) (convid : Bytes) : Option (Wcall σ) := calls.wcalls.find? (fun w => w.convid = convid)

def tell (calls : Calls σ) (callback : WcallCallback) : Calls σ := { calls with out := calls.out ++ [callback] }

def modify (calls : Calls σ) (convid : Bytes) (f : Wcall σ → Wcall σ) : Calls σ :=
  { calls with wcalls := calls.wcalls.map (fun w => if w.convid = convid then f w else w) }

def remove (calls : Calls σ) (convid : Bytes) : Calls σ :=
  { calls with wcalls := calls.wcalls.filter (fun w => w.convid ≠ convid) }

def setState (convid : Bytes) (state : WcallState) (calls : Calls σ) : Calls σ :=
  match calls.lookup convid with
  | none => calls
  | some w =>
    let calls := calls.modify convid (fun w => { w with state })
    if w.state = state then calls else calls.tell (.state convid state)

def findPendingEvent (eventl : List IncomingEvent) (convid : Bytes) : Option IncomingEvent :=
  eventl.find? (fun ie => ie.convid = convid)

def invokeIncomingHandler (ie : IncomingEvent) (calls : Calls σ) : Calls σ :=
  match calls.lookup ie.convid with
  | none => calls
  | some w => if w.state = .incoming then calls.tell (.incoming ie) else calls

/-- The list of pending events after one more. The previous event is looked up by the id of the sender; all of it stays
    but the conversation and the time. -/
def appendEvent (eventl : List IncomingEvent) (ie : IncomingEvent) : List IncomingEvent :=
  match findPendingEvent eventl ie.userid with
  | none => eventl ++ [ie]
  | some prev =>
    eventl.eraseP (fun e => e.convid = ie.userid) ++ [{ prev with convid := ie.convid, msgTime := ie.msgTime }]

/-- `icall_start_handler`, of the call of the event's conversation. -/
def startHandler (ie : IncomingEvent) (calls : Calls σ) : Calls σ :=
  let marked := (calls.setState ie.convid .incoming).modify ie.convid
    (fun w => { w with videoCall := ie.videoCall, disableAudio := !ie.shouldRing })
  if calls.processingNotifications then { marked with pendingEventl := appendEvent calls.pendingEventl ie }
  else marked.invokeIncomingHandler ie

def answerHandler (convid : Bytes) (calls : Calls σ) : Calls σ :=
  (calls.tell (.answered convid)).setState convid .answered

def mediaEstabHandler (convid userid clientid : Bytes) (calls : Calls σ) : Calls σ :=
  (calls.setState convid .mediaEstab).tell (.mediaEstab convid userid clientid)

def err2reason : Option Errno → WcallReason
  | none => .normal
  | some .ETIMEDOUT => .timeout
  | some .ETIMEDOUT_ECONN => .timeoutEconn
  | some .ECONNRESET => .lostMedia
  | some .ECANCELED => .canceled
  | some .EALREADY => .answeredElsewhere
  | some .EIOERR => .ioError
  | some .EDATACHANNEL => .datachannel
  | some .EREMOTE => .rejected
  | some .ENOONEJOINED => .nooneJoined
  | some .EEVERYONELEFT => .everyoneLeft
  | some .EDURATION => .duration
  | some _ => .error

/-- Whether a close is kept from the application, as its conversation has a pending event. -/
def ignoreClose (calls : Calls σ) (convid : Bytes) : Bool :=
  calls.processingNotifications && (findPendingEvent calls.pendingEventl convid).isSome

/-- The close handler is called, unless the close is ignored. -/
def tellClosed (convid : Bytes) (reason : WcallReason) (msgTime : UInt32) (userid : Bytes) (clientid : Option Bytes)
    (calls : Calls σ) : Calls σ :=
  if calls.ignoreClose convid then calls else calls.tell (.closed reason convid msgTime userid clientid)

/-- The states a call goes through as it is closed. -/
def setClosed (convid : Bytes) (w : Wcall σ) (calls : Calls σ) : Calls σ :=
  (if w.state = .termLocal then calls else calls.setState convid .termRemote).setState convid .none

/-- `icall_close_handler`. A pending event of the conversation stays. -/
def closeHandler (convid : Bytes) (err : Option Errno) (msgTime : UInt32) (userid clientid : Option Bytes)
    (calls : Calls σ) : Calls σ :=
  match calls.lookup convid with
  | none => calls
  | some w =>
    if w.state = .none then calls.remove convid
    else
      ((calls.setClosed convid w).tellClosed convid (err2reason err) msgTime (userid.getD calls.userid) clientid).remove
        convid

/-- The reasons of `icall_leave_handler` that are passed on; all others are normal. -/
def leaveReason : WcallReason → WcallReason
  | .stillOngoing => .stillOngoing
  | .answeredElsewhere => .answeredElsewhere
  | .rejected => .rejected
  | .outdatedClient => .outdatedClient
  | .timeout => .timeout
  | .nooneJoined => .nooneJoined
  | .everyoneLeft => .everyoneLeft
  | .authFailed => .authFailed
  | .authFailedStart => .authFailedStart
  | .duration => .duration
  | _ => .normal

/-- The pending event of a conversation no longer rings. -/
def silence (eventl : List IncomingEvent) (convid : Bytes) : List IncomingEvent :=
  match eventl with
  | [] => []
  | ie :: rest => if ie.convid = convid then { ie with shouldRing := false } :: rest else ie :: silence rest convid

def leaveHandler (convid : Bytes) (reason : WcallReason) (msgTime : UInt32) (calls : Calls σ) : Calls σ :=
  let left := calls.setState convid .incoming
  let told := left.tellClosed convid (leaveReason reason) msgTime calls.userid (some calls.clientid)
  let eventl := if left.ignoreClose convid then silence told.pendingEventl convid else told.pendingEventl
  modify { told with pendingEventl := eventl } convid (fun w => { w with disableAudio := true })

/-- The handlers look whether the call is still there, `WCALL_VALID`. -/
def upcall (convid : Bytes) (calls : Calls σ) (up : Upcall) : Calls σ :=
  match calls.lookup convid with
  | none => calls
  | some _ =>
    match up with
    | .start msgTime userid clientid videoCall shouldRing convType =>
      calls.startHandler { convid, msgTime, userid, clientid, videoCall, shouldRing, convType }
    | .answer => calls.answerHandler convid
    | .mediaEstab userid clientid => calls.mediaEstabHandler convid userid clientid
    | .leave reason msgTime => calls.leaveHandler convid reason msgTime
    | .close err msgTime userid clientid => calls.closeHandler convid err msgTime userid clientid

/-- An operation of the call object of a conversation, with what it calls. -/
def invoke (convid : Bytes) (op : σ → IcallReply σ) (calls : Calls σ) : Calls σ × Option Errno :=
  match calls.lookup convid with
  | none => (calls, none)
  | some w =>
    let reply := op w.icall
    (reply.upcalls.foldl (upcall convid) (calls.modify convid (fun w => { w with icall := reply.icall })), reply.err)

/-- `wcall_i_process_notifications`, whose end of a batch is `handle_pending_events`. -/
def processNotifications (processing : Bool) (calls : Calls σ) : Calls σ :=
  let was := calls.processingNotifications
  let calls := { calls with processingNotifications := processing }
  if was && !processing then
    { calls.pendingEventl.foldl (fun c ie => c.invokeIncomingHandler ie) calls with pendingEventl := [] }
  else calls

/-- Without SFTs a conference is a legacy group call. -/
def legacyType (config : Config.CallConfig) (convType : ConvType) : ConvType :=
  if (config.servers .sft).count = 0 ∧ (convType = .conference ∨ convType = .conferenceMls) then .group else convType

def place (convid : Bytes) (convType : ConvType) (icall : σ) (calls : Calls σ) : Calls σ :=
  { calls with
    wcalls := calls.wcalls ++
      [{ convid, convType, duration := 0, videoCall := false, state := .none, disableAudio := false, icall }] }

section
variable (icall : Icall σ)

def wcallAdd (convid : Bytes) (convType : ConvType) (meeting : Bool) (calls : Calls σ) : Except Errno (Calls σ) :=
  if (calls.lookup convid).isSome then .error .EALREADY
  else
    match icall.alloc calls.cfg.config (legacyType calls.cfg.config convType) convid meeting with
    | .error err => .error err
    | .ok object => .ok (calls.place convid convType object)

def isCreator (useridSelf useridRemote : Bytes) (msg : EconnFmt.Message) : Bool :=
  useridSelf ≠ [] ∧ useridRemote ≠ [] ∧ strcaseeq (some useridSelf) (some useridRemote) = false ∧ msg.resp = false ∧
    msg.payload.msgType = some .setup

/-- The type of the call that `add_wcall` makes for a message, if it makes one. -/
def addType (userid : Bytes) (m : Received) : Option ConvType :=
  let confType := if m.convType = .conferenceMls then m.convType else .conference
  if m.msg.payload.msgType = some .groupStart ∧ m.msg.resp = false then some .group
  else if m.msg.payload.msgType = some .groupCheck ∧ m.msg.resp = true then some .group
  else if m.msg.payload.msgType = some .confStart ∧ m.msg.resp = false then some confType
  else if m.msg.payload.msgType = some .confCheck ∧ m.msg.resp = true then some confType
  else if isCreator userid m.userid m.msg then some .oneOnOne
  else none

def addWcall (m : Received) (calls : Calls σ) : Except Errno (Calls σ) :=
  match addType calls.userid m with
  | none => .error .EPROTO
  | some convType => calls.wcallAdd icall m.convid convType m.meeting

def deliver (calls : Calls σ) (m : Received) : Calls σ :=
  (calls.invoke m.convid (icall.msgRecv m.currTime m.msgTime m.userid m.clientid m.msg)).1

/-- A message that finds no call, or is taken to find none. -/
def accept (calls : Calls σ) (m : Received) : Calls σ :=
  match calls.addWcall icall m with
  | .error _ => calls
  | .ok calls => calls.deliver icall m

/-- `WCALL_CALL_TYPE_FORCED_AUDIO` is a normal call. -/
def plainType : CallType → CallType
  | .forcedAudio => .normal
  | callType => callType

def sendState (callType : CallType) : VideoState := if callType = .video then .started else .stopped

def setDuration (convid : Bytes) (duration : Int) (calls : Calls σ) : Calls σ :=
  ((calls.modify convid (fun w => { w with duration })).invoke convid (icall.setDuration duration)).1

/-- `wcall_duration_lookup` with what is done with the entry. The loop looks at the first entry again and again, so it
    does not end where that is of another conversation. -/
def takeDuration (convid : Bytes) (calls : Calls σ) : Option (Calls σ) :=
  match calls.durationl with
  | [] => some calls
  | (owner, duration) :: rest =>
    if owner = convid then some { calls.setDuration icall convid duration with durationl := rest } else none

def passVideo (convid : Bytes) (callType : CallType) (calls : Calls σ) : Calls σ :=
  (calls.invoke convid (icall.setVideoSendState (sendState callType))).1

def passDuration (convid : Bytes) (calls : Calls σ) : Calls σ :=
  match calls.lookup convid with
  | none => calls
  | some w => if w.duration = 0 then calls else (calls.invoke convid (icall.setDuration w.duration)).1

/-- A call in no state is now an outgoing one. -/
def setOutgoing (convid : Bytes) (calls : Calls σ) : Calls σ :=
  if (calls.lookup convid).any (·.state = .none) then calls.setState convid .outgoing else calls

def iStart (convid : Bytes) (callType : CallType) (audioCbr meeting : Bool) (calls : Calls σ) :
    Calls σ × Option Errno :=
  let callType := plainType callType
  let marked := calls.modify convid (fun w => { w with disableAudio := false, videoCall := callType = .video })
  let told := ((marked.setOutgoing convid).passVideo icall convid callType).passDuration icall convid
  told.invoke convid (icall.start callType audioCbr meeting)

def iAnswer (convid : Bytes) (callType : CallType) (audioCbr : Bool) (calls : Calls σ) : Calls σ × Option Errno :=
  let callType := plainType callType
  let marked := calls.modify convid (fun w => { w with disableAudio := false })
  if (marked.lookup convid).any (fun w => w.state = .answered ∨ w.state = .mediaEstab) then (marked, none)
  else
    ((marked.setState convid .answered).passVideo icall convid callType).invoke convid (icall.answer callType audioCbr)

/-- A call the peer has not ended is ended from here. -/
def setTermLocal (convid : Bytes) (calls : Calls σ) : Calls σ :=
  if (calls.lookup convid).any (·.state = .termRemote) then calls else calls.setState convid .termLocal

def iEnd (convid : Bytes) (calls : Calls σ) : Calls σ :=
  ((calls.setTermLocal convid).invoke convid icall.end_).1.modify convid (fun w => { w with disableAudio := true })

/-- `wcall_i_reject`; the time is `ECONN_MESSAGE_TIME_UNKNOWN`. -/
def iReject (w : Wcall σ) (calls : Calls σ) : Calls σ :=
  let reason := if w.convType = .oneOnOne then .rejected else .stillOngoing
  let marked := calls.modify w.convid (fun w => { w with disableAudio := true })
  if w.state = .incoming then
    (marked.invoke w.convid icall.reject).1.tell (.closed reason w.convid 0 calls.userid (some calls.clientid))
  else marked

/-- A start or an answer that fails ends the call. -/
def endOnErr (convid : Bytes) (result : Calls σ × Option Errno) : Calls σ :=
  if result.2.isSome then result.1.iEnd icall convid else result.1

/-- What `mqueue_handler` does with a command that it does not queue, or nothing if it does not return. -/
def execute (convid : Bytes) (cmd : Command) (calls : Calls σ) : Option (Calls σ) :=
  match cmd with
  | .start callType convType audioCbr meeting =>
    match (if (calls.lookup convid).isSome then .ok calls else calls.wcallAdd icall convid convType meeting) with
    -- the error of a call that cannot be made is dropped with the command
    | .error _ => some calls
    | .ok calls =>
      (calls.takeDuration icall convid).map
        (fun calls => endOnErr icall convid (calls.iStart icall convid callType audioCbr meeting))
  | .answer callType audioCbr =>
    match calls.lookup convid with
    | none => some calls
    | some _ => some (endOnErr icall convid (calls.iAnswer icall convid callType audioCbr))
  | .reject =>
    match calls.lookup convid with
    | none => some calls
    | some w => some (calls.iReject icall w)
  | .end_ =>
    match calls.lookup convid with
    | none => some calls
    | some _ => some (calls.iEnd icall convid)

end
end Calls

/-- The conversation type a command is tested with. An answer is tested with the field a start has it in, and what
    stands there in an answer is its flag for CBR. -/
def Command.readyType : Command → Option ConvType
  | .start _ convType _ _ => some convType
  | .answer _ audioCbr => some (if audioCbr then .group else .oneOnOne)
  | .reject => none
  | .end_ => none

namespace CallingInstance

variable {σ : Type}

def isReady (inst : CallingInstance σ) (convType : ConvType) : Bool :=
  match convType with
  | .oneOnOne => inst.callConfig
  | _ => true

def expired (userid : Bytes) (timeoutSetup : BitVec 32) (m : Received) : Bool :=
  Calls.isCreator userid m.userid m.msg ∧ timeoutSetup < m.msg.age * 1000

/-- `econn_props_get`, of a property that is a text. -/
def propsGet (props : Odict) (key : String) : Option Bytes := (props.lookup key).bind Jzon.getString

/-- The call that is reported missed for an expired message, if it has properties. -/
def missedCall (m : Received) : Option MissedCall :=
  match m.msg.payload with
  | .setup setup => setup.props.map (fun props =>
      { convid := m.convid, msgTime := m.msgTime, userid := m.userid, clientid := m.clientid,
        video := propsGet props "videosend" = some (ascii "true") })
  | _ => none

section
variable (icall : Icall σ)

/-- `wcall_i_recv_msg`, at the time `now`. -/
def recvMsg (now : Nat) (m : Received) (inst : CallingInstance σ) : CallingInstance σ :=
  if expired inst.userid inst.timeoutSetup m then { inst with missed := inst.missed ++ (missedCall m).toList }
  else
    match inst.lookup m.convid with
    | some _ => { inst with toCalls := inst.toCalls.deliver icall m }
    | none =>
      if Config.configNeedsUpdate now inst.cfg then { inst with configUpdatel := inst.configUpdatel ++ [m] }
      else { inst with toCalls := inst.toCalls.accept icall m }

def mqueueHandler (cmd : Bytes × Command) (inst : CallingInstance σ) : Option (CallingInstance σ) :=
  if cmd.2.readyType.any (fun convType => inst.isReady convType = false) then
    some { inst with readyPendingl := inst.readyPendingl ++ [cmd] }
  else (inst.toCalls.execute icall cmd.1 cmd.2).map (fun calls => { inst with toCalls := calls })

def invokeReady (inst : CallingInstance σ) : Option (CallingInstance σ) :=
  Runs.run (mqueueHandler icall) { inst with readyPendingl := [] } inst.readyPendingl

/-- The part of `config_update_handler` that makes the instance ready. -/
def becomeReady (inst : CallingInstance σ) : Option (CallingInstance σ) :=
  if inst.callConfig then some inst
  else invokeReady icall { inst with toCalls := { inst.toCalls with callConfig := true }.tell .ready }

/-- `config_update_handler`. A message is replayed as if it found no call. -/
def configUpdateHandler (inst : CallingInstance σ) : Option (CallingInstance σ) :=
  (becomeReady icall inst).map (fun inst =>
    { inst with toCalls := inst.configUpdatel.foldl (Calls.accept icall) inst.toCalls, configUpdatel := [] })

def configUpdate (libre : Libre) (now : Nat) (r : Config.Response) (inst : CallingInstance σ) :
    Option (CallingInstance σ) :=
  let updated := Config.configUpdate libre now r inst.cfg
  let inst := { inst with cfg := updated.cfg }
  match updated.notified with
  | none => some inst
  | some _ => configUpdateHandler icall inst

end
end CallingInstance
end Avs
