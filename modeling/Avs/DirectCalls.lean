import Avs.Deferral
import Avs.PeerBinding

/-!
The calls of a user whose conversations are with one other user each: the calls of `Avs.Wcall` with the ecall
of `Avs.Ecall` as their call object, and what can happen to them, one action after the other.

The queues in front of the calls, group calls and conferences are left out. With what error and time an ecall
calls the close handler is left open, as `Avs.Ecall` does, and a flow may be established at any moment.
-/
namespace Avs

open Ecall (Peered)

/-- What is outside of the calls during an action. -/
structure Outside where
  env : Ecall.Env
  /-- What stops `ecall_alloc`, if anything. -/
  allocErr : Option Errno
  /-- The session id that is drawn. -/
  sessid : Bytes
  closeErr : Option Errno
  closeTime : UInt32

namespace DirectCalls

def peerMessage (msg : EconnFmt.Message) : PeerMessage :=
  let signal (msgType : EconnMsg) (sdp : Option Bytes) : PeerMessage :=
    .signal ⟨msgType, msg.sessidSender.val, msg.resp, sdp.getD []⟩
  match msg.payload with
  | .setup setup => signal .setup setup.sdpMsg
  | .update setup => signal .update setup.sdpMsg
  | .cancel => signal .cancel none
  | .hangup => signal .hangup none
  | .propsync _ => .propsync msg.resp
  | .reject => .reject
  | .alert _ _ | .confConn _ | .confPart _ | .confStreams _ _ | .ping => .passed
  | _ => .unsupported

def offersVideo (msg : EconnFmt.Message) : Bool :=
  match msg.payload with
  | .setup setup => setup.props.any (fun props => CallingInstance.propsGet props "videosend" = some (ascii "true"))
  | _ => false

/-- `ecall_close` calls the close handler the first time. -/
def closeUpcalls (o : Outside) (before after : Peered) : List Upcall :=
  if before.ecall.closeh ∧ after.ecall.closeh = false then
    [.close o.closeErr o.closeTime after.useridPeer after.clientidPeer]
  else []

/-- The handlers of `wcall` that the handler of an ecall calls, but the close handler. -/
def upcalls (ec : Ecall) (userid clientid : Bytes) (msg : EconnFmt.Message) : PeerCall → List Upcall
  | .econn (.conn _ false) =>
    if ec.propsRemote then []
    else [.start (.ofBitVec msg.time) userid clientid (offersVideo msg) true .oneOnOne]
  | .econn (.answer false _) => if ec.answered then [] else [.answer]
  | .leave => [.leave .rejected 0]
  | _ => []

/-- What a function of the ecall other than `ecall_msg_recv` leaves. -/
def replied (o : Outside) (p : Peered) (ec : Ecall) (err : Option Errno) : IcallReply Peered :=
  ⟨{ p with ecall := ec }, closeUpcalls o p { p with ecall := ec }, err⟩

def msgRecv (o : Outside) (userid clientid : Bytes) (msg : EconnFmt.Message) (p : Peered) : IcallReply Peered :=
  let received := Ecall.receive o.env userid clientid (peerMessage msg) p
  ⟨received.peered,
    received.calls.flatMap (upcalls p.ecall userid clientid msg) ++ closeUpcalls o p received.peered, none⟩

/-- `ecall_alloc`, as `wcall_add` calls it. -/
def allocate (o : Outside) (timeoutSetup : Nat) (userid clientid convid : Bytes) : Except Errno Peered :=
  if convid = [] then .error .EINVAL
  else
    match o.allocErr with
    | some err => .error err
    | none =>
      .ok ⟨Ecall.alloc .oneOnOne .normal timeoutSetup userid clientid o.sessid o.env.muted, none, none⟩

/-- An ecall as a call object. A rejection is only noted, for when the clients of the conversation are known, and there
    is no duration to set. -/
def object (o : Outside) (timeoutSetup : Nat) (userid clientid : Bytes) : Icall Peered where
  alloc _ convType convid _ :=
    match convType with
    | .oneOnOne => allocate o timeoutSetup userid clientid convid
    | .group | .conference | .conferenceMls => .error .ENOSYS
  start callType audioCbr _ p :=
    replied o p (Ecall.start o.env callType audioCbr p.ecall).1 (Ecall.start o.env callType audioCbr p.ecall).2
  answer callType audioCbr p :=
    replied o p (Ecall.answer o.env callType audioCbr p.ecall).1 (Ecall.answer o.env callType audioCbr p.ecall).2
  end_ p := replied o p (Ecall.end_ o.env p.ecall) none
  reject p := ⟨p, [], none⟩
  setVideoSendState vstate p := replied o p (Ecall.setVideoSendState o.env vstate p.ecall) none
  setDuration _ p := ⟨p, [], none⟩
  msgRecv _ _ userid clientid msg p := msgRecv o userid clientid msg p

inductive Action
  | command (convid : Bytes) (cmd : Command)
  | message (m : Received)
  | replay (m : Received)
  | notifications (processing : Bool)
  /-- A timer or the flow of an ecall, or a function that `wcall` calls in passing. -/
  | event (convid : Bytes) (event : Ecall.Event)
  /-- The flow of an ecall is established. -/
  | established (convid : Bytes) (flow : Nat)

/-- The events that do not go through the functions of the call object. `media_estabh` is set. -/
def outside : Ecall.Event → Bool
  | .start _ _ | .answer _ _ | .end_ | .msgRecv _ _ _ => false
  | .connectionTimeout mediaEstabh => mediaEstabh
  | _ => true

def eventReply (o : Outside) (event : Ecall.Event) (p : Peered) : IcallReply Peered :=
  if outside event then replied o p ((Ecall.step (event, o.env) p.ecall).getD p.ecall) none else ⟨p, [], none⟩

def establishedReply (flow : Nat) (p : Peered) : IcallReply Peered :=
  if p.ecall.flow = some flow then
    ⟨{ p with ecall := { p.ecall with established := true } },
      [.mediaEstab (p.useridPeer.getD []) (p.clientidPeer.getD [])], none⟩
  else ⟨p, [], none⟩

/-- What an action makes of the calls, or nothing if it does not return. -/
def act (timeoutSetup : Nat) (o : Outside) (action : Action) (calls : Calls Peered) : Option (Calls Peered) :=
  let icall := object o timeoutSetup calls.userid calls.clientid
  match action with
  | .command convid cmd => calls.execute icall convid cmd
  | .message m => some (CallingInstance.dispatch icall calls m)
  | .replay m => some (calls.accept icall m)
  | .notifications processing => some (calls.processNotifications processing)
  | .event convid event => some (calls.invoke convid (eventReply o event)).1
  | .established convid flow => some (calls.invoke convid (establishedReply flow)).1

/-- What a session is told by: the starts that reach `wcall_i_start`, and the callbacks. -/
inductive Mark
  | start (convid : Bytes)
  | told (callback : WcallCallback)
  deriving DecidableEq, Repr

/-- The calls and all that was told. The list `out` has the callbacks of the last action. -/
structure Session where
  calls : Calls Peered
  log : List Mark

/-- The mark of a start. The command is dropped before `wcall_i_start` if there is no call and none can be made. -/
def started (timeoutSetup : Nat) (o : Outside) (action : Action) (calls : Calls Peered) : List Mark :=
  match action with
  | .command convid (.start _ convType _ meeting) =>
    if (calls.lookup convid).isSome ∨
        (calls.wcallAdd (object o timeoutSetup calls.userid calls.clientid) convid convType meeting).isOk then
      [.start convid]
    else []
  | _ => []

def step (timeoutSetup : Nat) (a : Action × Outside) (s : Session) : Option Session :=
  let calls := { s.calls with out := [] }
  (act timeoutSetup a.2 a.1 calls).map (fun calls' =>
    ⟨calls', s.log ++ started timeoutSetup a.2 a.1 calls ++ calls'.out.map .told⟩)

def fresh (userid clientid : Bytes) (cfg : Config) : Session where
  calls := {
    userid, clientid, cfg, callConfig := true, processingNotifications := false, pendingEventl := [], durationl := [],
    wcalls := [], out := [] }
  log := []

end DirectCalls

end Avs
