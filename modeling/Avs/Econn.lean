import Avs.Base

/-!
The call signalling state machine of `src/econn/econn.c`: one econn, what its functions and the messages it
receives do to it, what it sends and which handlers it calls.

A timer that is set may fire at any moment, or never. `tx` is what the transport's send handler returns; a
message it refuses is not sent. The SDP stands for itself and the properties that travel with it. The handlers
run after the function that calls them has changed the state.
-/
namespace Avs

inductive EconnState
  | idle | pendingOutgoing | pendingIncoming | conflictResolution | answered | datachanEstablished
  | hangupSent | hangupRecv | updateSent | updateRecv | terminating
  deriving DecidableEq, Repr

inductive EconnDir
  | unknown | outgoing | incoming
  deriving DecidableEq, Repr

/-- The handler `tmr_local` is set to. -/
inductive EconnTimer
  | setup | term | cancel
  deriving DecidableEq, Repr

structure Econn where
  timeoutSetup : Nat
  tmrLocal : Option EconnTimer
  state : EconnState
  dir : EconnDir
  useridSelf : Bytes
  clientid : Bytes
  sessidLocal : Bytes
  sessidRemote : Bytes
  useridRemote : Bytes
  clientidRemote : Bytes
  setupErr : Option Errno
  conflict : Int
  err : Option Errno
  closeh : Bool
  deriving DecidableEq, Repr

/-- The messages that move the state machine. -/
inductive EconnMsg
  | setup | update | cancel | hangup
  deriving DecidableEq, Repr

structure EconnMessage where
  msgType : EconnMsg
  sessidSender : Bytes
  resp : Bool
  sdp : Bytes
  deriving DecidableEq, Repr

inductive EconnCall
  | conn (sdp : Bytes) (reset : Bool)
  | answer (reset : Bool) (sdp : Bytes)
  | updateReq (sdp : Bytes) (shouldReset : Bool)
  | updateResp (sdp : Bytes)
  | close (err : Option Errno)
  deriving DecidableEq, Repr

namespace Econn

def idLen : Nat := 128

/-- `str_ncpy` into an id field: what does not fit is cut off. -/
def strNcpy (text : Bytes) : Bytes := text.take (idLen - 1)

def strcmp : Bytes → Bytes → Ordering
  | [], [] => .eq
  | [], _ :: _ => .lt
  | _ :: _, [] => .gt
  | a :: as, b :: bs => if a < b then .lt else if b < a then .gt else strcmp as bs

def isWinner (useridSelf clientid useridRemote clientidRemote : Bytes) : Bool :=
  match strcmp useridSelf useridRemote with
  | .eq => strcmp clientid clientidRemote = .gt
  | r => r = .gt

/-- What a call leaves: the econn, the error it returns, what it sent and the handlers it called. -/
structure Done where
  conn : Econn
  err : Option Errno
  sent : List EconnMessage
  calls : List EconnCall

/-- A call that sends nothing and calls no handler. -/
def quiet (conn : Econn) (err : Option Errno) : Done := ⟨conn, err, [], []⟩

/-- A new econn; the session id is the given or the random one. -/
def zalloc (timeoutSetup : Nat) (useridSelf clientid sessid : Bytes) : Econn where
  timeoutSetup := timeoutSetup
  tmrLocal := some .setup
  state := .idle
  dir := .unknown
  useridSelf := useridSelf
  clientid := clientid
  sessidLocal := strNcpy sessid
  sessidRemote := []
  useridRemote := []
  clientidRemote := []
  setupErr := none
  conflict := 0
  err := none
  closeh := true

def alloc (timeoutSetup : Nat) (useridSelf clientid sessid : Bytes) : Except Errno Econn :=
  if useridSelf = [] ∨ clientid = [] then .error .EINVAL
  else .ok (zalloc timeoutSetup useridSelf clientid sessid)

def transpSend (tx : Option Errno) (msg : EconnMessage) : List EconnMessage :=
  if tx = none then [msg] else []

/-- `econn_send_setup`, of a SETUP or an UPDATE. -/
def sendSetup (tx : Option Errno) (conn : Econn) (resp : Bool) (sdp : Bytes) (update : Bool) : Done :=
  let msg := ⟨if update then .update else .setup, conn.sessidLocal, resp, sdp⟩
  match tx with
  | none => ⟨conn, none, [msg], []⟩
  | some err => quiet { conn with setupErr := some err, state := .terminating } (some err)

/-- `econn_close`, also the timers' handlers: a second close calls no handler. -/
def close (tx : Option Errno) (conn : Econn) (err : Option Errno) : Done :=
  { conn := { conn with tmrLocal := none, setupErr := err, state := .terminating, closeh := false }
    err := none
    sent := if conn.state = .pendingOutgoing then transpSend tx ⟨.cancel, conn.sessidLocal, false, []⟩ else []
    calls := if conn.closeh then [.close err] else [] }

/-- `tmr_local_handler`, `tmr_term_handler` and `tmr_cancel_handler`. -/
def fire (tx : Option Errno) (conn : Econn) : EconnTimer → Done
  | .setup => close tx conn (conn.err.or (some .ETIMEDOUT_ECONN))
  | .term => close tx conn conn.err
  | .cancel => close tx conn conn.err

def start (tx : Option Errno) (conn : Econn) (sdp : Bytes) : Done :=
  match conn.state with
  | .idle | .pendingOutgoing =>
    let sent := sendSetup tx { conn with state := .pendingOutgoing, dir := .outgoing } false sdp false
    if sent.err ≠ none then sent
    else if conn.timeoutSetup = 0 then { sent with err := some .EPROTO }
    else { sent with conn := { sent.conn with tmrLocal := some .setup } }
  | _ => quiet conn (some .EPROTO)

def updateReq (tx : Option Errno) (conn : Econn) (sdp : Bytes) : Done :=
  match conn.state with
  | .answered | .datachanEstablished | .updateSent | .updateRecv =>
    let sent := sendSetup tx { conn with state := .updateSent } false sdp true
    if sent.err ≠ none then { sent with conn := { sent.conn with tmrLocal := some .setup } }
    else if conn.timeoutSetup = 0 then { sent with err := some .EPROTO }
    else { sent with conn := { sent.conn with tmrLocal := some .setup } }
  | _ => quiet conn (some .EPROTO)

def updateResp (tx : Option Errno) (conn : Econn) (sdp : Bytes) : Done :=
  if conn.state = .updateRecv then
    let sent := sendSetup tx { conn with tmrLocal := none } true sdp true
    if sent.err ≠ none then sent else { sent with conn := { sent.conn with state := .answered } }
  else quiet conn (some .EPROTO)

def answer (tx : Option Errno) (conn : Econn) (sdp : Bytes) : Done :=
  if conn.state = .pendingIncoming ∨ conn.state = .conflictResolution then
    let sent := sendSetup tx { conn with tmrLocal := none } true sdp false
    if sent.err ≠ none then sent else { sent with conn := { sent.conn with state := .answered } }
  else quiet conn (some .EPROTO)

def end_ (tx : Option Errno) (conn : Econn) : Done :=
  match conn.state with
  | .updateRecv | .pendingIncoming => quiet { conn with state := .terminating, tmrLocal := some .cancel } none
  | .updateSent | .pendingOutgoing | .answered | .conflictResolution =>
    ⟨{ conn with state := .terminating, tmrLocal := some .cancel }, none,
      transpSend tx ⟨.cancel, conn.sessidLocal, false, []⟩, []⟩
  | .datachanEstablished =>
    match tx with
    | none => ⟨{ conn with state := .hangupSent, tmrLocal := some .term }, none,
        [⟨.hangup, conn.sessidLocal, false, []⟩], []⟩
    | some err => quiet { conn with err := some err, tmrLocal := some .term } none
  | .terminating | .idle => quiet conn none
  | .hangupSent | .hangupRecv => quiet { conn with state := .terminating, tmrLocal := some .term } none

def setDatachanEstablished (conn : Econn) : Done :=
  if conn.state = .answered then quiet { conn with state := .datachanEstablished } none else quiet conn none

/-- The SETUP request of an incoming call, the first or one that replaces a call. -/
def incoming (conn : Econn) (msg : EconnMessage) (reset : Bool) : Done :=
  { conn := { conn with
      state := .pendingIncoming
      dir := .incoming
      sessidRemote := strNcpy msg.sessidSender
      tmrLocal := some .setup }
    err := none
    sent := []
    calls := [.conn msg.sdp reset] }

/-- `handle_setup_request`. Where both sides have sent an offer the winner drops the other's and the loser drops its
    own. -/
def handleSetupRequest (conn : Econn) (useridSender clientidSender : Bytes) (msg : EconnMessage) : Done :=
  match conn.state with
  | .idle => incoming conn msg false
  | .answered | .datachanEstablished | .updateSent => incoming conn msg true
  | .pendingOutgoing =>
    let conn' := { conn with sessidRemote := strNcpy msg.sessidSender }
    if isWinner conn.useridSelf conn.clientid useridSender clientidSender then
      quiet { conn' with conflict := 1 } none
    else ⟨{ conn' with conflict := -1, state := .conflictResolution }, none, [], [.answer true msg.sdp]⟩
  | _ => quiet conn none

def handleSetupResponse (conn : Econn) (msg : EconnMessage) : Done :=
  if conn.state = .pendingOutgoing ∨ conn.state = .conflictResolution then
    ⟨{ conn with tmrLocal := none, state := .answered, sessidRemote := strNcpy msg.sessidSender }, none, [],
      [.answer false msg.sdp]⟩
  else quiet conn none

/-- The check of one remote id in `recv_setup`: an id that is not set is set to the sender's; nothing where it is
    another one. -/
def checkRemote (remote sender : Bytes) : Option Bytes :=
  if remote = [] then some (strNcpy sender)
  else if strcaseeq (some remote) (some sender) then some remote
  else none

def recvSetup (conn : Econn) (useridSender clientidSender : Bytes) (msg : EconnMessage) : Done :=
  match checkRemote conn.useridRemote useridSender with
  | none => quiet conn none
  | some userid =>
    let conn := { conn with useridRemote := userid }
    match checkRemote conn.clientidRemote clientidSender with
    | none => quiet conn none
    | some clientid =>
      let conn := { conn with clientidRemote := clientid }
      if msg.resp then handleSetupResponse conn msg
      else handleSetupRequest conn useridSender clientidSender msg

def handleUpdateRequest (conn : Econn) (useridSender clientidSender : Bytes) (msg : EconnMessage) : Done :=
  let received (shouldReset : Bool) : Done :=
    ⟨{ conn with state := .updateRecv, tmrLocal := some .setup }, none, [], [.updateReq msg.sdp shouldReset]⟩
  if strcaseeq (some conn.clientidRemote) (some clientidSender) then
    match conn.state with
    | .answered | .datachanEstablished => received false
    | .updateSent =>
      if isWinner conn.useridSelf conn.clientid useridSender clientidSender then quiet conn none else received true
    | _ => quiet conn none
  else quiet conn none

def handleUpdateResponse (conn : Econn) (clientidSender : Bytes) (msg : EconnMessage) : Done :=
  if strcaseeq (some conn.clientidRemote) (some clientidSender) ∧ conn.state = .updateSent then
    ⟨{ conn with tmrLocal := none, state := .answered }, none, [], [.updateResp msg.sdp]⟩
  else quiet conn none

def sameSession (conn : Econn) (msg : EconnMessage) : Bool :=
  strcaseeq (some conn.sessidRemote) (some msg.sessidSender)

def recvUpdate (conn : Econn) (useridSender clientidSender : Bytes) (msg : EconnMessage) : Done :=
  if sameSession conn msg then
    if msg.resp then handleUpdateResponse conn clientidSender msg
    else handleUpdateRequest conn useridSender clientidSender msg
  else quiet conn none

def recvCancel (tx : Option Errno) (conn : Econn) (clientidSender : Bytes) (msg : EconnMessage) : Done :=
  let closed (err : Option Errno) : Done :=
    if sameSession conn msg then close tx { conn with state := .terminating } (conn.err.or err) else quiet conn none
  if strcaseeq (some clientidSender) (some conn.clientidRemote) then
    match conn.state with
    | .pendingIncoming => closed (some .ECANCELED)
    | .updateSent | .updateRecv | .answered | .datachanEstablished => closed none
    | _ => quiet conn none
  else quiet conn none

/-- `recv_hangup`; a hangup in the states of an update is ignored. -/
def recvHangup (tx : Option Errno) (conn : Econn) (msg : EconnMessage) : Done :=
  if sameSession conn msg then
    match conn.state with
    | .datachanEstablished | .hangupSent =>
      let closed := close tx { conn with state := .terminating } conn.err
      let resp := if msg.resp then [] else transpSend tx ⟨.hangup, conn.sessidLocal, true, []⟩
      { closed with sent := resp ++ closed.sent }
    | _ => quiet conn none
  else quiet conn none

def recvMessage (tx : Option Errno) (conn : Econn) (useridSender clientidSender : Bytes) (msg : EconnMessage) : Done :=
  match msg.msgType with
  | .setup => recvSetup conn useridSender clientidSender msg
  | .update => recvUpdate conn useridSender clientidSender msg
  | .cancel => recvCancel tx conn clientidSender msg
  | .hangup => recvHangup tx conn msg

end Econn

end Avs
