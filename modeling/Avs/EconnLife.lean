import Avs.Econn
import Avs.Runs

/-!
The life of one econn: any messages, calls of the application, results of the transport and firings of its
timer, in any order. Every handler is the last thing a function of the econn calls, and the transport only
queues, so what a handler calls back stands behind the event that called it (`happen`).
-/
namespace Avs
open List Option Runs

/-- The calls of the application. -/
inductive EconnApi
  | start (sdp : Bytes)
  | answer (sdp : Bytes)
  | updateReq (sdp : Bytes)
  | updateResp (sdp : Bytes)
  | end_
  | setDatachanEstablished
  deriving DecidableEq, Repr

/-- What happens to an econn. A message of a type that does not move the state machine has at most a handler of its own.
    -/
inductive EconnEvent
  | recv (useridSender clientidSender : Bytes) (msg : EconnMessage)
  | recvOther
  | call (api : EconnApi)
  | fire
  deriving DecidableEq, Repr

namespace Econn

def invoke (tx : Option Errno) (conn : Econn) : EconnApi → Done
  | .start sdp => start tx conn sdp
  | .answer sdp => answer tx conn sdp
  | .updateReq sdp => updateReq tx conn sdp
  | .updateResp sdp => updateResp tx conn sdp
  | .end_ => end_ tx conn
  | .setDatachanEstablished => setDatachanEstablished conn

/-- What an event does. The timer fires only while it runs. -/
def perform (tx : Option Errno) (conn : Econn) : EconnEvent → Option Done
  | .recv useridSender clientidSender msg => some (recvMessage tx conn useridSender clientidSender msg)
  | .recvOther => some (quiet conn none)
  | .call api => some (invoke tx conn api)
  | .fire => conn.tmrLocal.map (fire tx conn)

/-- An econn with the states it was in and the handlers called so far, whether `econn_end` was called in a state other
    than IDLE, and the handlers called since. -/
structure Life where
  conn : Econn
  states : List EconnState
  calls : List EconnCall
  ended : Bool
  late : List EconnCall
  deriving DecidableEq, Repr

def born (timeoutSetup : Nat) (useridSelf clientid sessid : Bytes) : Life :=
  ⟨zalloc timeoutSetup useridSelf clientid sessid, [.idle], [], false, []⟩

def ends (conn : Econn) (event : EconnEvent) : Bool := event = .call .end_ && conn.state ≠ .idle

/-- An event with the result of the transport. -/
abbrev Action := EconnEvent × Option Errno

def live (action : Action) (s : Life) : Option Life :=
  (perform action.2 s.conn action.1).map (fun d =>
    { conn := d.conn
      states := s.states ++ [d.conn.state]
      calls := s.calls ++ d.calls
      ended := s.ended || ends s.conn action.1
      late := if s.ended then s.late ++ d.calls else s.late })

/-- What the application's handlers call back, each time they are called. -/
abbrev Application := Life → EconnCall → List (EconnApi × Option Errno)

/-- The handlers of an event run in order, each with the calls it makes. -/
def react (app : Application) : List EconnCall → Life → Option Life
  | [], s => some s
  | call :: rest, s =>
    (run live s ((app s call).map (fun c => (.call c.1, c.2)))).bind (react app rest)

/-- An event with what the handlers it calls call back. -/
def happen (app : Application) (action : Action) (s : Life) : Option Life :=
  (live action s).bind (fun s' => react app (s'.calls.drop s.calls.length) s')

variable {actions : List Action} {d : Done} {taken : Bool} {api : EconnApi} {event : EconnEvent}

section
variable {app : Application} {s s' : Life}

theorem react_flat {calls : List EconnCall} :
    ∀ {s s' : Life}, react app calls s = some s' → ∃ actions, run live s actions = some s' := by
  induction calls with
  | nil => exact fun reacted => ⟨[], reacted⟩
  | cons call rest ih =>
    intro s s' reacted
    obtain ⟨mid, called, later⟩ := bind_eq_some_iff.mp reacted
    obtain ⟨actions, ran⟩ := ih later
    exact ⟨_ ++ actions, run_append.mpr ⟨mid, called, ran⟩⟩

/-- What handlers call back makes no other runs. -/
theorem happen_flat :
    ∀ {s s' : Life}, run (happen app) s actions = some s' → ∃ flat, run live s flat = some s' := by
  induction actions with
  | nil => exact fun ran => ⟨[], ran⟩
  | cons action rest ih =>
    intro s s' ran
    obtain ⟨next, happened, ran'⟩ := run_cons.mp ran
    obtain ⟨mid, lived, reacted⟩ := bind_eq_some_iff.mp happened
    obtain ⟨reaction, ran₁⟩ := react_flat reacted
    obtain ⟨flat, ran₂⟩ := ih ran'
    refine ⟨action :: (reaction ++ flat), run_cons.mpr ⟨mid, lived, ?_⟩⟩
    exact run_append.mpr ⟨next, ran₁, ran₂⟩

end

/-- Which handler an event calls: none, the close handler, once, of an econn that is then terminating, or another one,
    of an econn that was not. A terminating econn stays so. -/
structure Outcome (conn : Econn) (d : Done) : Prop where
  stays : conn.state = .terminating → d.conn.state = .terminating
  handlers : (d.calls = [] ∧ d.conn.closeh = conn.closeh) ∨
    (∃ err, d.calls = [.close err] ∧ conn.closeh = true ∧ d.conn.closeh = false ∧ d.conn.state = .terminating) ∨
    (∃ call, d.calls = [call] ∧ (∀ err, call ≠ .close err) ∧ d.conn.closeh = conn.closeh ∧
      conn.state ≠ .terminating)

section
variable {conn : Econn} {tx : Option Errno}

theorem outcome_silent (stays : conn.state = .terminating → d.conn.state = .terminating)
    (silent : d.calls = []) (closeh : d.conn.closeh = conn.closeh) : Outcome conn d :=
  ⟨stays, .inl ⟨silent, closeh⟩⟩

theorem outcome_handler {call : EconnCall} (calls : d.calls = [call]) (other : ∀ err, call ≠ .close err)
    (closeh : d.conn.closeh = conn.closeh) (state : conn.state ≠ .terminating) : Outcome conn d :=
  ⟨fun at_ => absurd at_ state, .inr (.inr ⟨call, calls, other, closeh, state⟩)⟩

theorem invoke_silent : (invoke tx conn api).calls = [] ∧ (invoke tx conn api).conn.closeh = conn.closeh ∧
      (invoke tx conn api).conn.timeoutSetup = conn.timeoutSetup := by
  cases api with
  | start sdp => cases tx <;> simp only [invoke, start] <;> split <;> simp [sendSetup, quiet] <;> split <;> simp
  | answer sdp => cases tx <;> simp only [invoke, answer] <;> split <;> simp [sendSetup, quiet]
  | updateReq sdp =>
    cases tx <;> simp only [invoke, updateReq] <;> split <;> simp [sendSetup, quiet] <;> split <;> simp
  | updateResp sdp => cases tx <;> simp only [invoke, updateResp] <;> split <;> simp [sendSetup, quiet]
  | end_ => cases tx <;> simp only [invoke, end_] <;> split <;> simp [quiet]
  | setDatachanEstablished => simp only [invoke, setDatachanEstablished]; split <;> simp [quiet]

theorem invoke_outcome : Outcome conn (invoke tx conn api) := by
  refine outcome_silent (fun at_ => ?_) invoke_silent.1 invoke_silent.2.1
  cases api <;> simp [invoke, start, answer, updateReq, updateResp, end_, setDatachanEstablished, at_, quiet]

end

/-- The econn, in a call, takes the message of its peer: a SETUP request, an UPDATE request or the response to its own
    UPDATE. -/
def takes (conn : Econn) (useridSender clientidSender : Bytes) (msg : EconnMessage) : Bool :=
  match msg.msgType with
  | .setup => !msg.resp && (checkRemote conn.useridRemote useridSender).isSome &&
      (checkRemote conn.clientidRemote clientidSender).isSome
  | .update => sameSession conn msg && strcaseeq (some conn.clientidRemote) (some clientidSender) &&
      (msg.resp == (conn.state == .updateSent) ||
        !msg.resp && !isWinner conn.useridSelf conn.clientid useridSender clientidSender)
  | _ => false

/-- What a received message does: it is ignored, up to the ids of the peer, it closes the econn, or it has one handler
    called. That is of no econn that ends, and of one in a call only if the message is `taken`; the timer then runs, or
    is stopped in a call, or was left alone. -/
inductive Received (conn : Econn) (taken : Bool) (d : Done) : Prop
  | ignored (calls : d.calls = []) (state : d.conn.state = conn.state) (timer : d.conn.tmrLocal = conn.tmrLocal)
      (closeh : d.conn.closeh = conn.closeh) (timeout : d.conn.timeoutSetup = conn.timeoutSetup)
  | closed (err : Option Errno) (calls : d.calls = if conn.closeh then [.close err] else [])
      (state : d.conn.state = .terminating) (closeh : d.conn.closeh = false)
      (timeout : d.conn.timeoutSetup = conn.timeoutSetup)
  | handled (call : EconnCall) (calls : d.calls = [call]) (other : ∀ err, call ≠ .close err)
      (running : conn.state ≠ .terminating ∧ conn.state ≠ .hangupSent)
      (taken : conn.state = .datachanEstablished ∨ conn.state = .updateSent → taken = true)
      (timer : d.conn.tmrLocal ≠ none ∨ d.conn.state = .answered ∨
        conn.state = .pendingOutgoing ∧ d.conn.tmrLocal = conn.tmrLocal)
      (closeh : d.conn.closeh = conn.closeh) (timeout : d.conn.timeoutSetup = conn.timeoutSetup)

section
variable {conn : Econn} {tx : Option Errno} {msg : EconnMessage} {useridSender clientidSender : Bytes}

theorem quiet_received {err : Option Errno} : Received conn taken (quiet conn err) :=
  .ignored rfl rfl rfl rfl rfl

theorem handleSetupResponse_received : Received conn taken (handleSetupResponse conn msg) := by
  rw [handleSetupResponse]
  split
  · next at_ =>
    refine .handled _ rfl (by simp) ?_ ?_ (.inr (.inl rfl)) rfl rfl
    · rcases at_ with at_ | at_ <;> simp [at_]
    · rcases at_ with at_ | at_ <;> simp [at_]
  · exact quiet_received

theorem handleSetupRequest_received : Received conn true (handleSetupRequest conn useridSender clientidSender msg) := by
  rw [handleSetupRequest]
  split
  · next at_ => exact .handled _ rfl (by simp) (by simp [at_]) (fun _ => rfl) (.inl (by simp [incoming])) rfl rfl
  · next at_ => exact .handled _ rfl (by simp) (by simp [at_]) (fun _ => rfl) (.inl (by simp [incoming])) rfl rfl
  · next at_ => exact .handled _ rfl (by simp) (by simp [at_]) (fun _ => rfl) (.inl (by simp [incoming])) rfl rfl
  · next at_ => exact .handled _ rfl (by simp) (by simp [at_]) (fun _ => rfl) (.inl (by simp [incoming])) rfl rfl
  · next at_ =>
    simp only
    split
    · exact .ignored rfl rfl rfl rfl rfl
    · exact .handled _ rfl (by simp) (by simp [at_]) (fun _ => rfl) (.inr (.inr ⟨at_, rfl⟩)) rfl rfl
  · exact quiet_received

theorem received_of_ids {named : Econn} (received : Received named taken d) (state : named.state = conn.state)
    (timer : named.tmrLocal = conn.tmrLocal) (closeh : named.closeh = conn.closeh)
    (timeout : named.timeoutSetup = conn.timeoutSetup) : Received conn taken d := by
  cases received with
  | ignored calls state' timer' closeh' timeout' =>
    exact .ignored calls (state'.trans state) (timer'.trans timer) (closeh'.trans closeh) (timeout'.trans timeout)
  | closed err calls at_ closeh' timeout' =>
    exact .closed err (closeh ▸ calls) at_ closeh' (timeout'.trans timeout)
  | handled call calls other running taken timer' closeh' timeout' =>
    rw [state] at running taken
    rw [state, timer] at timer'
    exact .handled call calls other running taken timer' (closeh'.trans closeh) (timeout'.trans timeout)

theorem recvSetup_received (setup : msg.msgType = .setup) :
    Received conn (conn.takes useridSender clientidSender msg) (recvSetup conn useridSender clientidSender msg) := by
  rw [recvSetup]
  split
  · exact quiet_received
  · next userid knownUser =>
    simp only
    split
    · exact .ignored rfl rfl rfl rfl rfl
    · next clientid knownClient =>
      split
      · exact received_of_ids handleSetupResponse_received rfl rfl rfl rfl
      · next request =>
        have taken : conn.takes useridSender clientidSender msg = true := by
          simp [takes, setup, request, knownUser, knownClient]
        rw [taken]
        exact received_of_ids handleSetupRequest_received rfl rfl rfl rfl

theorem recvUpdate_received (update : msg.msgType = .update) :
    Received conn (conn.takes useridSender clientidSender msg) (recvUpdate conn useridSender clientidSender msg) := by
  simp only [recvUpdate, handleUpdateRequest, handleUpdateResponse]
  split
  · next session =>
    split
    · next resp =>
      split
      · next known =>
        refine .handled _ rfl (by simp) (by simp [known.2]) (fun _ => ?_) (.inr (.inl rfl)) rfl rfl
        simp [takes, update, session, known.1, known.2, resp]
      · exact quiet_received
    · next request =>
      split
      · next known =>
        split
        · next at_ =>
          refine .handled _ rfl (by simp) (by simp [at_]) (fun _ => ?_) (.inl (by simp)) rfl rfl
          simp [takes, update, session, known, request, at_]
        · next at_ =>
          refine .handled _ rfl (by simp) (by simp [at_]) (fun _ => ?_) (.inl (by simp)) rfl rfl
          simp [takes, update, session, known, request, at_]
        · next at_ =>
          split
          · exact quiet_received
          · next loser =>
            refine .handled _ rfl (by simp) (by simp [at_]) (fun _ => ?_) (.inl (by simp)) rfl rfl
            simp [takes, update, session, known, request, loser]
        · exact quiet_received
      · exact quiet_received
  · exact quiet_received

theorem recvCancel_received : Received conn taken (recvCancel tx conn clientidSender msg) := by
  have closed : ∀ err, Received conn taken (if sameSession conn msg
      then close tx { conn with state := .terminating } (conn.err.or err) else quiet conn none) := by
    intro err
    split
    · exact .closed _ rfl rfl rfl rfl
    · exact quiet_received
  simp only [recvCancel]
  split
  · split
    · exact closed _
    · exact closed _
    · exact closed _
    · exact closed _
    · exact closed _
    · exact quiet_received
  · exact quiet_received

theorem recvHangup_received : Received conn taken (recvHangup tx conn msg) := by
  simp only [recvHangup]
  split
  · split
    · exact .closed _ rfl rfl rfl rfl
    · exact .closed _ rfl rfl rfl rfl
    · exact quiet_received
  · exact quiet_received

theorem recvMessage_received (useridSender clientidSender : Bytes) (msg : EconnMessage) :
    Received conn (conn.takes useridSender clientidSender msg)
      (recvMessage tx conn useridSender clientidSender msg) := by
  rw [recvMessage]
  split
  · next setup => exact recvSetup_received setup
  · next update => exact recvUpdate_received update
  · exact recvCancel_received
  · exact recvHangup_received

theorem fire_received {timer : EconnTimer} : Received conn false (fire tx conn timer) := by
  cases timer <;> exact .closed _ rfl rfl rfl rfl

theorem received_outcome (received : Received conn taken d) : Outcome conn d := by
  cases received with
  | ignored calls state _ closeh _ => exact outcome_silent (fun at_ => state.trans at_) calls closeh
  | closed err calls state closeh _ =>
    refine ⟨fun _ => state, ?_⟩
    cases open_ : conn.closeh with
    | true => exact .inr (.inl ⟨err, by simp [calls, open_], rfl, closeh, state⟩)
    | false => exact .inl ⟨by simp [calls, open_], closeh⟩
  | handled call calls other running _ _ closeh _ => exact outcome_handler calls other closeh running.1

theorem perform_cases (performed : perform tx conn event = some d) :
    (∃ api, event = .call api ∧ d = invoke tx conn api) ∨
      ∃ taken, Received conn taken d ∧ (taken = true → ∃ userid clientid msg,
        event = .recv userid clientid msg ∧ conn.takes userid clientid msg = true) := by
  cases event with
  | recv userid clientid msg =>
    obtain rfl := some.inj performed
    exact .inr ⟨_, recvMessage_received userid clientid msg, fun taken => ⟨userid, clientid, msg, rfl, taken⟩⟩
  | recvOther =>
    obtain rfl := some.inj performed
    exact .inr ⟨false, quiet_received, by simp⟩
  | call api => exact .inl ⟨api, rfl, (some.inj performed).symm⟩
  | fire =>
    obtain ⟨timer, -, rfl⟩ := map_eq_some_iff.mp performed
    exact .inr ⟨false, fire_received, by simp⟩

theorem perform_outcome (performed : perform tx conn event = some d) : Outcome conn d := by
  rcases perform_cases performed with ⟨api, -, rfl⟩ | ⟨_, received, -⟩
  · exact invoke_outcome
  · exact received_outcome received

end

/-- Where an econn is in the order of its states and handlers: until the close handler is called it is set, and nothing
    is called after it. -/
structure Ordered (s : Life) : Prop where
  past : .terminating ∈ s.states → s.conn.state = .terminating
  stays : s.states.Pairwise (fun earlier later => earlier = .terminating → later = .terminating)
  unclosed : s.conn.closeh = true → ∀ err, .close err ∉ s.calls
  closed : s.conn.closeh = false → s.conn.state = .terminating ∧ ∃ err, .close err ∈ s.calls
  order : s.calls.Pairwise (fun earlier _ => ∀ err, earlier ≠ .close err)

section
variable {s s' : Life} {action : Action}

theorem ordered_born {timeoutSetup : Nat} {useridSelf clientid sessid : Bytes} :
    Ordered (born timeoutSetup useridSelf clientid sessid) where
  past := by simp [born]
  stays := pairwise_singleton _ _
  unclosed := by simp [born]
  closed := by simp [born, zalloc]
  order := List.Pairwise.nil

theorem unclosed_of_calls (ordered : Ordered s) (outcome : Outcome s.conn d) (called : d.calls ≠ []) :
    s.conn.closeh = true := by
  rcases outcome.handlers with ⟨none_, -⟩ | ⟨-, -, set_, -, -⟩ | ⟨-, -, -, -, running⟩
  · exact absurd none_ called
  · exact set_
  · by_contra unset
    exact running (ordered.closed (by simpa using unset)).1

theorem live_ordered (ordered : Ordered s) (lived : live action s = some s') : Ordered s' := by
  obtain ⟨d, performed, rfl⟩ := map_eq_some_iff.mp lived
  have outcome := perform_outcome performed
  have before : d.calls ≠ [] → ∀ err, .close err ∉ s.calls := fun called =>
    ordered.unclosed (unclosed_of_calls ordered outcome called)
  constructor
  case past =>
    intro member
    rcases mem_append.mp member with member | member
    · exact outcome.stays (ordered.past member)
    · exact (mem_singleton.mp member).symm
  case stays =>
    refine pairwise_append.mpr ⟨ordered.stays, pairwise_singleton _ _, ?_⟩
    intro earlier member later last at_
    rw [mem_singleton.mp last]
    exact outcome.stays (ordered.past (at_ ▸ member))
  case unclosed =>
    intro set_ err member
    rcases outcome.handlers with ⟨none_, same⟩ | ⟨-, -, -, gone, -⟩ | ⟨call, one, other, same, -⟩
    · exact ordered.unclosed (same.symm.trans set_) err (by simpa [none_] using member)
    · exact absurd set_ (by simp [gone])
    · rcases mem_append.mp member with member | member
      · exact ordered.unclosed (same.symm.trans set_) err member
      · rw [one, mem_singleton] at member
        exact other err member.symm
  case closed =>
    intro gone
    rcases outcome.handlers with ⟨none_, same⟩ | ⟨err, one, -, -, at_⟩ | ⟨-, -, -, same, running⟩
    · obtain ⟨at_, err, member⟩ := ordered.closed (same.symm.trans gone)
      exact ⟨outcome.stays at_, err, mem_append_left _ member⟩
    · exact ⟨at_, err, by simp [one]⟩
    · exact absurd (ordered.closed (same.symm.trans gone)).1 running
  case order =>
    have one : d.calls.Pairwise (fun earlier _ => ∀ err, earlier ≠ .close err) := by
      rcases outcome.handlers with ⟨none_, -⟩ | ⟨err, one, -⟩ | ⟨call, one, -⟩
      · simp [none_]
      · simp [one]
      · simp [one]
    refine pairwise_append.mpr ⟨ordered.order, one, ?_⟩
    intro earlier member later called err same
    exact before (ne_nil_of_mem called) err (same ▸ member)

theorem run_ordered (ordered : Ordered s) (ran : run live s actions = some s') : Ordered s' := by
  have keeps : ∀ a s s', True → Ordered s → live a s = some s' → Ordered s' := by
    intro _ _ _ _ ordered lived
    exact live_ordered ordered lived
  exact run_invariant keeps (fun _ _ => trivial) ordered ran

end

/-- Whatever happens to an econn and whatever its handlers call back, a terminating econn stays so, and no handler is
    called after the close handler, itself included. -/
theorem close_is_last (app : Application) (timeoutSetup : Nat) (useridSelf clientid sessid : Bytes)
    (actions : List Action) (s : Life)
    (ran : run (happen app) (born timeoutSetup useridSelf clientid sessid) actions = some s) :
    s.states.Pairwise (fun earlier later => earlier = .terminating → later = .terminating) ∧
      s.calls.Pairwise (fun earlier _ => ∀ err, earlier ≠ .close err) := by
  obtain ⟨flat, ran'⟩ := happen_flat ran
  have ordered := run_ordered ordered_born ran'
  exact ⟨ordered.stays, ordered.order⟩

theorem close_is_last_refused :
    ∃ s, run (happen (fun _ _ => [(.answer [4], none), (.end_, none)])) (born 60000 [1] [2] [3])
        [(.recv [5] [6] ⟨.setup, [7], false, [8]⟩, none), (.fire, none), (.call (.start [9]), none)] = some s ∧
      s.calls = [.conn [8] false, .close none] ∧
      s.states.Pairwise (fun earlier later => earlier = .terminating → later = .terminating) ∧
      s.calls.Pairwise (fun earlier _ => ∀ err, earlier ≠ .close err) := by
  refine exists_shown (fun s => s.calls = [.conn [8] false, .close none]) (by decide +kernel) fun s ran calls => ?_
  exact ⟨calls, close_is_last _ _ _ _ _ _ _ ran⟩

/-- The states in which an econn waits for its peer, its user or its end. -/
def waiting : List EconnState :=
  [.pendingOutgoing, .pendingIncoming, .conflictResolution, .updateSent, .updateRecv, .hangupSent, .terminating]

/-- Until its close handler is called the timer of an econn runs, but for the states of a call. -/
def Guarded (conn : Econn) : Prop :=
  conn.closeh = true → conn.state = .idle ∨ conn.state ∈ waiting → conn.tmrLocal ≠ none

/-- An econn that was ended: the timer runs until the close handler is called. It is back in a call where the HANGUP was
    refused. -/
structure Final (conn : Econn) : Prop where
  timer : conn.closeh = true → conn.tmrLocal ≠ none
  state : conn.state ∈ [.terminating, .hangupSent, .datachanEstablished, .updateSent]

/-- No answer to a call or an update is refused by the transport, and once the econn was ended no message is taken in a
    call. -/
def heeds : Action → Life → Bool
  | (.call (.answer _), some _), s => s.conn.state ≠ .pendingIncoming && s.conn.state ≠ .conflictResolution
  | (.call (.updateResp _), some _), s => s.conn.state ≠ .updateRecv
  | (.recv useridSender clientidSender msg, _), s =>
    !(s.ended && (s.conn.state = .datachanEstablished || s.conn.state = .updateSent) &&
      s.conn.takes useridSender clientidSender msg)
  | _, _ => true

section
variable {conn : Econn} {tx : Option Errno} {s s' : Life} {action : Action}

theorem invoke_guarded (timeout : conn.timeoutSetup ≠ 0) (guarded : Guarded conn)
    (heeded : heeds (.call api, tx) s = true) (same : s.conn = conn) : Guarded (invoke tx conn api).conn := by
  cases api with
  | start sdp =>
    cases tx <;> simp only [invoke, start] <;> split <;> simp_all [Guarded, sendSetup, quiet, waiting]
  | answer sdp =>
    simp only [invoke, answer]
    split
    · cases tx with
      | none => simp [Guarded, sendSetup, waiting]
      | some err => simp_all [heeds]
    · exact guarded
  | updateReq sdp =>
    cases tx <;> simp only [invoke, updateReq] <;> split <;> simp_all [Guarded, sendSetup, quiet, waiting]
  | updateResp sdp =>
    simp only [invoke, updateResp]
    split
    · cases tx with
      | none => simp [Guarded, sendSetup, waiting]
      | some err => simp_all [heeds]
    · exact guarded
  | end_ => cases tx <;> simp only [invoke, end_] <;> split <;> simp_all [Guarded, quiet, waiting]
  | setDatachanEstablished =>
    simp only [invoke, setDatachanEstablished]
    split <;> simp_all [Guarded, quiet, waiting]

theorem received_guarded (guarded : Guarded conn) (received : Received conn taken d) : Guarded d.conn := by
  intro set_ waits
  cases received with
  | ignored _ state timer closeh _ =>
    rw [state] at waits
    rw [timer]
    exact guarded (closeh.symm.trans set_) waits
  | closed _ _ _ closeh _ => exact absurd set_ (by simp [closeh])
  | handled _ _ _ _ _ timer closeh _ =>
    rcases timer with running | answered | ⟨pending, same⟩
    · exact running
    · simp [answered, waiting] at waits
    · rw [same]
      exact guarded (closeh.symm.trans set_) (.inr (by simp [pending, waiting]))

theorem perform_timeout (performed : perform tx conn event = some d) : d.conn.timeoutSetup = conn.timeoutSetup := by
  rcases perform_cases performed with ⟨api, -, rfl⟩ | ⟨_, received, -⟩
  · exact invoke_silent.2.2
  · cases received <;> assumption

theorem end_final (guarded : Guarded conn) (busy : conn.state ≠ .idle) : Final (end_ tx conn).conn := by
  have keeps : conn.closeh = true → conn.state = .terminating → conn.tmrLocal ≠ none := fun set_ at_ =>
    guarded set_ (.inr (by simp [at_, waiting]))
  cases tx <;> simp only [end_] <;> split <;> constructor <;> simp_all [quiet]

theorem invoke_final (timeout : conn.timeoutSetup ≠ 0) (final : Final conn) : Final (invoke tx conn api).conn := by
  obtain ⟨timer, state⟩ := final
  simp only [mem_cons, not_mem_nil, or_false] at state
  rcases state with at_ | at_ | at_ | at_ <;> cases api <;> cases tx <;> constructor <;>
    simp_all [invoke, start, answer, updateReq, updateResp, end_, setDatachanEstablished, sendSetup, quiet]

theorem received_final (final : Final conn)
    (untaken : conn.state = .datachanEstablished ∨ conn.state = .updateSent → taken = false)
    (received : Received conn taken d) : Final d.conn ∧ ∀ call ∈ d.calls, ∃ err, call = .close err := by
  cases received with
  | ignored calls state timer closeh _ =>
    refine ⟨⟨fun set_ => ?_, state ▸ final.state⟩, by simp [calls]⟩
    rw [timer]
    exact final.timer (closeh.symm.trans set_)
  | closed err calls state closeh _ =>
    refine ⟨⟨by simp [closeh], by simp [state]⟩, fun call member => ?_⟩
    rw [calls] at member
    split at member
    · exact ⟨err, mem_singleton.mp member⟩
    · simp at member
  | handled _ _ _ running taken _ _ _ =>
    have state := final.state
    simp only [mem_cons, not_mem_nil, or_false] at state
    rcases state with at_ | at_ | at_ | at_
    · exact absurd at_ running.1
    · exact absurd at_ running.2
    · exact absurd (taken (.inl at_)) (by simp [untaken (.inl at_)])
    · exact absurd (taken (.inr at_)) (by simp [untaken (.inr at_)])

end

/-- What the timer of an econn is for. -/
structure Timed (s : Life) : Prop where
  timeout : s.conn.timeoutSetup ≠ 0
  guarded : Guarded s.conn
  ended : s.ended = true → Final s.conn
  late : ∀ call ∈ s.late, ∃ err, call = .close err

section
variable {s s' : Life} {action : Action}

theorem perform_guarded (timed : Timed s) (heeded : heeds action s = true)
    (performed : perform action.2 s.conn action.1 = some d) : Guarded d.conn := by
  obtain ⟨event, tx⟩ := action
  rcases perform_cases performed with ⟨api, rfl, rfl⟩ | ⟨_, received, -⟩
  · exact invoke_guarded timed.timeout timed.guarded heeded rfl
  · exact received_guarded timed.guarded received

theorem perform_final (timed : Timed s) (ended : s.ended = true) (heeded : heeds action s = true)
    (performed : perform action.2 s.conn action.1 = some d) :
    Final d.conn ∧ ∀ call ∈ d.calls, ∃ err, call = .close err := by
  have final := timed.ended ended
  obtain ⟨event, tx⟩ := action
  rcases perform_cases performed with ⟨api, rfl, rfl⟩ | ⟨taken, received, known⟩
  · exact ⟨invoke_final timed.timeout final, by simp [invoke_silent.1]⟩
  · refine received_final final (fun busy => ?_) received
    by_contra took
    obtain ⟨userid, clientid, msg, rfl, takes⟩ := known (by simpa using took)
    rcases busy with at_ | at_ <;> simp [heeds, ended, at_, takes] at heeded

theorem live_timed (timed : Timed s) (heeded : heeds action s = true) (lived : live action s = some s') : Timed s' := by
  obtain ⟨d, performed, rfl⟩ := map_eq_some_iff.mp lived
  refine ⟨(perform_timeout performed).symm ▸ timed.timeout, perform_guarded timed heeded performed, ?_, ?_⟩
  · intro ended
    by_cases before : s.ended = true
    · exact (perform_final timed before heeded performed).1
    · have now : ends s.conn action.1 = true := by simpa [before] using ended
      simp only [ends, Bool.and_eq_true, decide_eq_true_eq] at now
      rw [now.1] at performed
      obtain rfl := some.inj performed
      exact end_final timed.guarded (by simpa using now.2)
  · intro call member
    split at member
    · next before =>
      rcases mem_append.mp member with member | member
      · exact timed.late call member
      · exact (perform_final timed before heeded performed).2 call member
    · exact timed.late call member

end

/-- Where no answer to a call or an update is refused by the transport, the timer of an econn runs wherever it waits. If
    also no message is taken in a call that `econn_end` left as it was, the timer of an ended econn runs until its close
    handler is called, and that is the one handler called. -/
theorem timer_guards (timeoutSetup : Nat) (nonzero : timeoutSetup ≠ 0) (useridSelf clientid sessid : Bytes)
    (actions : List Action) (s : Life)
    (heeded : Throughout live (born timeoutSetup useridSelf clientid sessid) actions
      (fun action s => heeds action s = true))
    (ran : run live (born timeoutSetup useridSelf clientid sessid) actions = some s) :
    ((∀ err, .close err ∉ s.calls) → s.conn.state ∈ waiting → s.conn.tmrLocal ≠ none) ∧
      (s.ended = true → (∀ err, .close err ∉ s.calls) → s.conn.tmrLocal ≠ none) ∧
      ∀ call ∈ s.late, ∃ err, call = .close err := by
  have start : Timed (born timeoutSetup useridSelf clientid sessid) :=
    ⟨nonzero, by simp [Guarded, born, zalloc], by simp [born], by simp [born]⟩
  have timed : Timed s :=
    run_throughout (fun _ _ _ heeded timed lived => live_timed timed heeded lived) heeded start ran
  have ordered := run_ordered ordered_born ran
  have unclosed : (∀ err, .close err ∉ s.calls) → s.conn.closeh = true := by
    intro none_
    by_contra unset
    obtain ⟨-, err, member⟩ := ordered.closed (by simpa using unset)
    exact none_ err member
  refine ⟨fun none_ waits => timed.guarded (unclosed none_) (.inr waits), fun ended none_ => ?_, timed.late⟩
  exact (timed.ended ended).timer (unclosed none_)

theorem timer_guards_refused_hangup : ∃ s, run live (born 60000 [1] [2] [3])
        [(.recv [5] [6] ⟨.setup, [7], false, [8]⟩, none), (.call (.answer [4]), none),
          (.call .setDatachanEstablished, none), (.call .end_, some .EPROTO),
          (.recv [5] [6] ⟨.hangup, [7], false, []⟩, none)] = some s ∧ s.late = [.close (some .EPROTO)] ∧
      ((∀ err, .close err ∉ s.calls) → s.conn.state ∈ waiting → s.conn.tmrLocal ≠ none) ∧
      (s.ended = true → (∀ err, .close err ∉ s.calls) → s.conn.tmrLocal ≠ none) ∧
      ∀ call ∈ s.late, ∃ err, call = .close err := by
  refine exists_guarded (fun action s => heeds action s = true) (fun s => s.late = [.close (some .EPROTO)])
    (by decide +kernel) fun s heeded ran late => ?_
  exact ⟨late, timer_guards 60000 (by decide) _ _ _ _ s heeded ran⟩

/-- An answer that the transport refuses leaves an econn that ends with no timer to end it. -/
theorem refused_answer_hangs : ∃ s, run live (born 60000 [1] [2] [3])
        [(.recv [5] [6] ⟨.setup, [7], false, [8]⟩, none), (.call (.answer [4]), some .EPROTO)] = some s ∧
      (∀ err, .close err ∉ s.calls) ∧ s.conn.state ∈ waiting ∧ s.conn.tmrLocal = none := by
  refine exists_shown (fun s => s.calls = [.conn [8] false] ∧ s.conn.state = .terminating ∧ s.conn.tmrLocal = none)
    (by decide +kernel) fun s _ shown => ?_
  obtain ⟨calls, state, timer⟩ := shown
  exact ⟨by simp [calls], by simp [state, waiting], timer⟩

-- A HANGUP that is refused leaves the call open to the peer's next SETUP.
example :
    (run live (born 60000 [1] [2] [3])
      [(.recv [5] [6] ⟨.setup, [7], false, [8]⟩, none), (.call (.answer [4]), none),
        (.call .setDatachanEstablished, none), (.call .end_, some .EPROTO),
        (.recv [5] [6] ⟨.setup, [7], false, [9]⟩, none)]).map Life.late = some [.conn [9] true] := by
  decide +kernel

end Econn
end Avs
