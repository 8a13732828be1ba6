import Avs.Wcall

/-!
The group call of `src/egcall/egcall.c`, in which every client has an inner call with every other: its state
machine, its roster, its inner calls and its two timers, and what it hands to the send handler and to the
handlers of `wcall`, in one log.

The inner calls report through events, in any order; a timer that is set may fire at any moment, or never;
what the send handler and an inner call return comes from `GroupEnv`, by the position in the log. Allocation
succeeds, and the ids fit into the keys of the roster. Left out are the media of the inner calls, the order of
the participants and the properties of the messages that are sent.
-/
namespace Avs

/-- `enum egcall_state`, without the `NONE` that is never set. -/
inductive EgcallState
  | idle | outgoing | incoming | answered | active | terminating
  deriving DecidableEq, Repr

/-- What `call_timer` is set for. -/
inductive GroupCallTimer
  | start | ring | answer
  deriving DecidableEq, Repr

/-- What `roster_timer` is set for. -/
inductive RosterTimer
  | active | passive
  deriving DecidableEq, Repr

/-- An inner call, which is in the list or was removed from it. -/
structure InnerCall where
  userid : Bytes
  clientid : Bytes
  listed : Bool
  deriving DecidableEq, Repr

/-- The messages that a group call sends. -/
inductive GroupSent
  | start | leave | check | reject
  deriving DecidableEq, Repr

/-- What a group call does that is seen from outside, and the changes of its state. -/
inductive GroupOut
  | state (old new : EgcallState)
  | sent (msg : GroupSent) (resp : Bool) (err : Option Errno)
  | up (call : Upcall)
  deriving DecidableEq, Repr

/-- What the surroundings return, by the position in the log. -/
structure GroupEnv where
  sendh : Nat → Option Errno
  ecallStart : Nat → Option Errno
  /-- Whether an inner call is in one of the states of an update. -/
  updating : Nat → Bool

/-- `egcall`. -/
structure Egcall where
  useridSelf : Bytes
  clientidSelf : Bytes
  state : EgcallState
  shouldReject : Bool
  roster : List Bytes
  isCallAnswered : Bool
  ecalls : List InnerCall
  callTimer : Option GroupCallTimer
  rosterTimer : Option RosterTimer
  log : List GroupOut
  deriving DecidableEq, Repr

inductive GroupEvent
  | start
  | answer
  | end_
  | reject
  | setClients (clientl : List (Bytes × Bytes))
  | msgRecv (userid clientid : Bytes) (msg : EconnFmt.Message)
  | callTimer
  | rosterTimer
  /-- The inner call at a position calls its handler of an answer. -/
  | setupResp (index : Nat)
  | audioEstab (index : Nat)
  | closed (index : Nat) (err : Option Errno) (msgTime : UInt32)

namespace Egcall

def shouldRingTimeout : BitVec 32 := 30000

def alloc (useridSelf clientidSelf : Bytes) : Egcall where
  useridSelf := useridSelf
  clientidSelf := clientidSelf
  state := .idle
  shouldReject := false
  roster := []
  isCallAnswered := false
  ecalls := []
  callTimer := none
  rosterTimer := none
  log := []

def tell (eg : Egcall) (out : GroupOut) : Egcall := { eg with log := eg.log ++ [out] }

def userclient (userid clientid : Bytes) : Bytes := userid ++ ascii "." ++ clientid

def rosterAdd (eg : Egcall) (userid clientid : Bytes) : Egcall :=
  if userclient userid clientid ∈ eg.roster then eg
  else { eg with roster := eg.roster ++ [userclient userid clientid], isCallAnswered := false }

def rosterRemove (eg : Egcall) (userid clientid : Bytes) : Egcall :=
  { eg with roster := eg.roster.filter (· ≠ userclient userid clientid) }

/-- `dict_flush` of the roster. -/
def rosterFlush (eg : Egcall) : Egcall := { eg with roster := [] }

def findUserclient (eg : Egcall) (userid clientid : Bytes) : Option Nat :=
  eg.ecalls.findIdx? (fun ecall => ecall.listed ∧ strcaseeq (some userid) (some ecall.userid) ∧
    strcaseeq (some clientid) (some ecall.clientid))

def noEcalls (eg : Egcall) : Bool := eg.ecalls.all (fun ecall => ecall.listed = false)

/-- `ecall_end` and `ecall_remove`: the inner call is out of the list and still to close. -/
def ecallRemove (eg : Egcall) (index : Nat) : Egcall :=
  { eg with ecalls := eg.ecalls.modify index (fun ecall => { ecall with listed := false }) }

def destroyEcall (eg : Egcall) (index : Nat) : Egcall := { eg with ecalls := eg.ecalls.eraseIdx index }

/-- `add_ecall`, in the place of an inner call with the same client. -/
def addEcall (eg : Egcall) (userid clientid : Bytes) : Egcall :=
  let eg := match eg.findUserclient userid clientid with
    | some index => eg.destroyEcall index
    | none => eg
  { eg with ecalls := eg.ecalls ++ [⟨userid, clientid, true⟩] }

def setState (eg : Egcall) (state : EgcallState) : Egcall :=
  let eg := { eg with state }.tell (.state eg.state state)
  match state with
  | .idle | .terminating => { eg with callTimer := none, rosterTimer := none }
  | .outgoing => { eg with isCallAnswered := true, callTimer := some .start, rosterTimer := some .active }
  | .incoming => { eg with callTimer := none, rosterTimer := some .passive }
  | .answered => { eg with isCallAnswered := true, callTimer := some .answer, rosterTimer := some .active }
  | .active => { eg with isCallAnswered := true, callTimer := none, rosterTimer := some .active }

/-- `send_msg`, with its result. -/
def sendMsg (env : GroupEnv) (eg : Egcall) (msg : GroupSent) (resp : Bool) : Egcall × Option Errno :=
  let err := env.sendh eg.log.length
  (eg.tell (.sent msg resp err), err)

def sendLeave (env : GroupEnv) (eg : Egcall) (msgTime : UInt32) : Egcall :=
  let eg := (sendMsg env eg .leave false).1
  if eg.roster = [] then (eg.setState .idle).tell (.up (.close none 0 none none))
  else (eg.setState .incoming).tell (.up (.leave .stillOngoing msgTime))

/-- `egcall_end_with_err`; the error is not passed on. -/
def endWithErr (env : GroupEnv) (eg : Egcall) : Egcall :=
  match eg.state with
  | .idle | .incoming | .terminating => eg
  | .outgoing | .answered | .active => if eg.noEcalls then sendLeave env eg 0 else eg.setState .terminating

def start (env : GroupEnv) (eg : Egcall) : Egcall :=
  match eg.state with
  | .idle | .incoming =>
    match sendMsg env eg .start false with
    | (eg, none) => eg.setState .outgoing
    | (eg, some _) => eg
  | .outgoing | .answered | .active | .terminating => eg

def answer (env : GroupEnv) (eg : Egcall) : Egcall :=
  if eg.state = .incoming then
    match sendMsg env eg .start true with
    | (eg, none) => eg.setState .answered
    | (eg, some _) => eg
  else eg

/-- `egcall_set_clients`. A rejection goes to the other clients of this user. -/
def setClients (env : GroupEnv) (eg : Egcall) (clientl : List (Bytes × Bytes)) : Egcall :=
  if eg.shouldReject then
    let others := clientl.filter (fun client => strcaseeq (some client.1) (some eg.useridSelf) ∧
      strcaseeq (some client.2) (some eg.clientidSelf) = false)
    let eg := if others = [] then eg else (sendMsg env eg .reject false).1
    { eg with shouldReject := false }
  else eg

/-- `egcall_start_timeout` and `egcall_answer_timeout`. -/
def giveUp (env : GroupEnv) (eg : Egcall) : Egcall :=
  if eg.state = .active then eg else endWithErr env eg.rosterFlush

def ringTimeout (eg : Egcall) : Egcall :=
  if eg.state = .incoming then eg.tell (.up (.leave .stillOngoing 0)) else eg

/-- The call timer fires, if it is running. -/
def callTimeout (env : GroupEnv) (eg : Egcall) : Egcall :=
  match eg.callTimer with
  | none => eg
  | some .start | some .answer => giveUp env { eg with callTimer := none }
  | some .ring => ringTimeout { eg with callTimer := none }

def activeRosterTimeout (env : GroupEnv) (eg : Egcall) : Egcall :=
  if eg.state = .active then { (sendMsg env eg .check true).1 with rosterTimer := some .active } else eg

def passiveRosterTimeout (eg : Egcall) : Egcall :=
  (eg.rosterFlush.setState .idle).tell (.up (.close none 0 none none))

/-- The roster timer fires, if it is running. -/
def rosterTimeout (env : GroupEnv) (eg : Egcall) : Egcall :=
  match eg.rosterTimer with
  | none => eg
  | some .active => activeRosterTimeout env { eg with rosterTimer := none }
  | some .passive => passiveRosterTimeout { eg with rosterTimer := none }

def setupRespHandler (eg : Egcall) : Egcall := { eg with callTimer := none }

def audioEstabHandler (eg : Egcall) (ecall : InnerCall) : Egcall :=
  let eg := if eg.state = .answered then eg.setState .active else eg
  eg.rosterAdd ecall.userid ecall.clientid

def closeHandler (env : GroupEnv) (eg : Egcall) (index : Nat) (ecall : InnerCall) (err : Option Errno)
    (msgTime : UInt32) : Egcall :=
  let eg := if err ≠ none ∨ eg.state ≠ .terminating then eg.rosterRemove ecall.userid ecall.clientid else eg
  let eg := eg.destroyEcall index
  if eg.state ≠ .idle ∧ eg.noEcalls then sendLeave env eg msgTime else eg

/-- Whether a GROUPSTART rings. -/
def rings (eg : Egcall) (userid : Bytes) (msg : EconnFmt.Message) : Bool :=
  msg.resp = false ∧ msg.age * 1000 < shouldRingTimeout ∧ strcaseeq (some userid) (some eg.useridSelf) = false

def startsVideo (msg : EconnFmt.Message) : Bool :=
  match msg.payload with
  | .groupStart (some props) => CallingInstance.propsGet props "videosend" = some (ascii "true")
  | _ => false

def startEcall (env : GroupEnv) (eg : Egcall) (index : Nat) : Egcall :=
  match env.ecallStart eg.log.length with
  | none | some .EALREADY => if eg.state = .outgoing then (eg.setState .answered).tell (.up .answer) else eg
  | some _ => eg.destroyEcall index

/-- A GROUPSTART in a call that this client takes part in. An inner call in an update is made anew. -/
def joinedBy (env : GroupEnv) (eg : Egcall) (userid clientid : Bytes) : Egcall :=
  match eg.findUserclient userid clientid with
  | none =>
    let eg := eg.addEcall userid clientid
    startEcall env eg (eg.ecalls.length - 1)
  | some index =>
    if env.updating eg.log.length ∧ (eg.ecalls[index]?).any (fun ecall => ecall.clientid = clientid) then
      let eg := (eg.ecallRemove index).addEcall userid clientid
      startEcall env eg (eg.ecalls.length - 1)
    else startEcall env eg index

/-- The `switch` of `recv_start`. -/
def startState (env : GroupEnv) (eg : Egcall) (userid clientid : Bytes) (msg : EconnFmt.Message) : Egcall :=
  match eg.state with
  | .idle =>
    let come := (eg.setState .incoming).tell (.up (.start (.ofBitVec msg.time) userid clientid (startsVideo msg)
      (eg.rings userid msg) .group))
    if eg.rings userid msg then { come with callTimer := some .ring } else come
  | .incoming =>
    if msg.resp ∧ msg.age * 1000 < shouldRingTimeout ∧ strcaseeq (some userid) (some eg.useridSelf) then
      eg.tell (.up (.leave .stillOngoing (.ofBitVec msg.time)))
    else eg
  | .outgoing | .answered | .active => joinedBy env eg userid clientid
  | .terminating => eg

def recvStart (env : GroupEnv) (eg : Egcall) (userid clientid : Bytes) (msg : EconnFmt.Message) : Egcall :=
  let eg := eg.rosterAdd userid clientid
  startState env (if eg.state ≠ .idle ∨ msg.resp then { eg with isCallAnswered := true } else eg) userid clientid msg

def dropEcall (eg : Egcall) (userid clientid : Bytes) : Egcall :=
  match eg.findUserclient userid clientid with
  | some index => eg.ecallRemove index
  | none => eg

/-- A call of others, which nobody is in any more, is over. -/
def leftState (eg : Egcall) (userid clientid : Bytes) (msg : EconnFmt.Message) : Egcall :=
  if eg.state = .incoming ∧ eg.roster = [] then
    let err : Option Errno := if eg.isCallAnswered then none else some .ECANCELED
    (eg.setState .idle).tell (.up (.close err (.ofBitVec msg.time) (some userid) (some clientid)))
  else eg

def recvLeave (eg : Egcall) (userid clientid : Bytes) (msg : EconnFmt.Message) : Egcall :=
  leftState ((eg.rosterRemove userid clientid).dropEcall userid clientid) userid clientid msg

/-- The branches of `recv_check`. -/
def checkState (eg : Egcall) (userid clientid : Bytes) (msg : EconnFmt.Message) : Egcall :=
  match eg.state with
  | .idle =>
    (eg.setState .incoming).tell (.up (.start (.ofBitVec msg.time) userid clientid false false .group))
  | .active => { eg with rosterTimer := some .active }
  | .outgoing | .incoming | .answered | .terminating => { eg with rosterTimer := some .passive }

def recvCheck (eg : Egcall) (userid clientid : Bytes) (msg : EconnFmt.Message) : Egcall :=
  checkState { eg.rosterAdd userid clientid with isCallAnswered := true } userid clientid msg

def recvReject (eg : Egcall) (userid : Bytes) : Egcall :=
  if strcaseeq (some eg.useridSelf) (some userid) ∧ eg.state = .incoming then
    eg.tell (.up (.leave .stillOngoing 0))
  else eg

/-- A message for one client. What the inner call does with it is reported by events. -/
def recvDirect (eg : Egcall) (userid clientid : Bytes) (msg : EconnFmt.Message) : Egcall :=
  let own := strcaseeq (some msg.destUserid.val) (some eg.useridSelf) ∧
    strcaseeq (some msg.destClientid.val) (some eg.clientidSelf)
  let setup := msg.payload.msgType = some .setup ∨ msg.payload.msgType = some .groupSetup
  let part := eg.state = .outgoing ∨ eg.state = .answered ∨ eg.state = .active
  if own ∧ eg.findUserclient userid clientid = none ∧ setup ∧ msg.resp = false ∧ part then
    let eg := (eg.addEcall userid clientid).rosterAdd userid clientid
    if eg.state = .outgoing then eg.setState .answered else eg
  else eg

def msgRecv (env : GroupEnv) (eg : Egcall) (userid clientid : Bytes) (msg : EconnFmt.Message) : Egcall :=
  match msg.payload.msgType with
  | some .groupStart => recvStart env eg userid clientid msg
  | some .groupLeave => recvLeave eg userid clientid msg
  | some .groupCheck => recvCheck eg userid clientid msg
  | some .reject => recvReject eg userid
  | _ =>
    if msg.destUserid.val = [] ∨ msg.destClientid.val = [] then eg else recvDirect eg userid clientid msg

def withEcall (eg : Egcall) (index : Nat) (handler : InnerCall → Egcall) : Egcall :=
  match eg.ecalls[index]? with
  | some ecall => handler ecall
  | none => eg

def step (env : GroupEnv) (event : GroupEvent) (eg : Egcall) : Egcall :=
  match event with
  | .start => start env eg
  | .answer => answer env eg
  | .end_ => endWithErr env eg
  | .reject => { eg with shouldReject := true }
  | .setClients clientl => setClients env eg clientl
  | .msgRecv userid clientid msg => msgRecv env eg userid clientid msg
  | .callTimer => callTimeout env eg
  | .rosterTimer => rosterTimeout env eg
  | .setupResp index => eg.withEcall index (fun _ => setupRespHandler eg)
  | .audioEstab index => eg.withEcall index (fun ecall => audioEstabHandler eg ecall)
  | .closed index err msgTime => eg.withEcall index (fun ecall => closeHandler env eg index ecall err msgTime)

def run (env : GroupEnv) (eg : Egcall) (events : List GroupEvent) : Egcall :=
  events.foldl (fun eg event => step env event eg) eg

end Egcall

end Avs
