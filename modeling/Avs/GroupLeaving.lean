import Avs.Egcall

/-!
Whether a client that leaves a group call says so: when it goes back to idle or incoming, it should have sent
a GROUPLEAVE since it last became outgoing, answered or active (`Announced`). All ways out go through
`send_leave`, but `egcall_passive_roster_timeout` takes any call to idle, and a GROUPCHECK sets its timer in
an outgoing or answered call as well.
-/
namespace Avs
open List

/-- The states in which the client takes part. -/
def EgcallState.joined : EgcallState → Bool
  | .outgoing | .answered | .active => true
  | .idle | .incoming | .terminating => false

def GroupOut.joins : GroupOut → Bool
  | .state _ new => new.joined
  | _ => false

def GroupOut.isLeave : GroupOut → Bool
  | .sent .leave _ _ => true
  | _ => false

namespace Egcall

/-- What was done since the client last began to take part, latest first. -/
def sinceJoined (log : List GroupOut) : List GroupOut := log.reverse.takeWhile (fun out => !out.joins)

/-- Every change from taking part to idle or incoming comes after a GROUPLEAVE. -/
def Announced (log : List GroupOut) : Prop :=
  ∀ front old new back, log = front ++ .state old new :: back → old.joined = true → new = .idle ∨ new = .incoming →
    ∃ out ∈ sinceJoined front, out.isLeave = true

/-- The timer of a call of others fires in a call that the client takes part in. -/
def Unheard (event : GroupEvent) (eg : Egcall) : Prop :=
  event = .rosterTimer ∧ eg.rosterTimer = some .passive ∧ eg.state.joined = true

variable {eg : Egcall} {out : GroupOut} {state : EgcallState} {resp : Bool} {err : Option Errno} {env : GroupEnv}

theorem sinceJoined_append {log : List GroupOut} :
    sinceJoined (log ++ [out]) = if out.joins then [] else out :: sinceJoined log := by
  rw [sinceJoined, reverse_append, reverse_singleton, singleton_append, takeWhile_cons]
  cases out.joins <;> rfl

/-- Only a change of the state can leave unheard. -/
theorem announced_append (log : List GroupOut) (out : GroupOut) : Announced (log ++ [out]) ↔ Announced log ∧
      ∀ old new, out = .state old new → old.joined = true → new = .idle ∨ new = .incoming →
        ∃ out ∈ sinceJoined log, out.isLeave = true := by
  constructor
  · intro announced
    refine ⟨?_, ?_⟩
    · intro front old new back split joined leaves
      exact announced front old new (back ++ [out]) (by simp [split]) joined leaves
    · rintro old new rfl joined leaves
      exact announced log old new [] rfl joined leaves
  · rintro ⟨announced, last⟩ front old new back split joined leaves
    rcases eq_nil_or_concat back with rfl | ⟨back, final, rfl⟩
    · obtain ⟨rfl, ends⟩ := append_inj' split rfl
      exact last old new (singleton_inj.mp ends) joined leaves
    · rw [concat_eq_append, ← cons_append, ← append_assoc] at split
      obtain ⟨split, _⟩ := append_inj' split rfl
      exact announced front old new back split joined leaves

/-- No GROUPLEAVE has been sent since the client began to take part, if it does. -/
def Silent (eg : Egcall) : Prop := eg.state.joined = true → ∀ out ∈ sinceJoined eg.log, out.isLeave = false

/-- What is done without leaving unheard. -/
structure Moved (eg eg' : Egcall) : Prop where
  silent : Silent eg → Silent eg'
  announced : Announced eg'.log ↔ Announced eg.log

section
variable {eg' eg'' : Egcall}

theorem Moved.refl (eg : Egcall) : Moved eg eg := ⟨id, Iff.rfl⟩

theorem Moved.then (first : Moved eg eg') (second : Moved eg' eg'') : Moved eg eg'' :=
  ⟨fun silent => second.silent (first.silent silent), second.announced.trans first.announced⟩

theorem Moved.ite {p : Prop} [Decidable p] {yes no : Egcall} (pos : p → Moved eg yes) (neg : ¬ p → Moved eg no) :
    Moved eg (if p then yes else no) := by
  by_cases holds : p
  · rw [if_pos holds]
    exact pos holds
  · rw [if_neg holds]
    exact neg holds

theorem moved_of_eq (state : eg'.state = eg.state) (log : eg'.log = eg.log) : Moved eg eg' := by
  refine ⟨?_, by rw [log]⟩
  intro silent
  rw [Silent, state, log]
  exact silent

theorem tell_moved (quiet : out.isLeave = false)
    (still : ∀ old new, out ≠ .state old new) : Moved eg (eg.tell out) := by
  constructor
  · intro silent joined
    rw [tell, sinceJoined_append]
    split
    · simp
    · intro other member
      rcases mem_cons.mp member with rfl | member
      · exact quiet
      · exact silent joined other member
  · rw [tell, announced_append]
    exact and_iff_left (fun old new change => absurd change (still old new))

theorem setState_state : (eg.setState state).state = state := by
  cases state <;> rfl

theorem setState_log : (eg.setState state).log = eg.log ++ [.state eg.state state] := by
  cases state <;> rfl

theorem setState_silent : Silent (eg.setState state) := by
  intro joined
  rw [setState_state] at joined
  rw [setState_log, sinceJoined_append, if_pos (by exact joined)]
  simp

theorem setState_moved (stays : eg.state.joined = true → state ≠ .idle ∧ state ≠ .incoming) :
    Moved eg (eg.setState state) := by
  refine ⟨fun _ => setState_silent, ?_⟩
  rw [setState_log, announced_append]
  refine and_iff_left ?_
  intro old new change joined leaves
  obtain ⟨rfl, rfl⟩ := GroupOut.state.inj change
  rcases leaves with rfl | rfl
  · exact absurd rfl (stays joined).1
  · exact absurd rfl (stays joined).2

/-- A GROUPLEAVE allows any change of the state. -/
theorem leave_moved : Moved eg ((eg.tell (.sent .leave resp err)).setState state) := by
  refine ⟨fun _ => setState_silent, ?_⟩
  rw [setState_log, announced_append, tell, announced_append, and_assoc]
  refine and_iff_left ⟨?_, ?_⟩
  · intro old new change
    cases change
  · intro old new _ _ _
    refine ⟨.sent .leave resp err, ?_, rfl⟩
    rw [sinceJoined_append, if_neg (by simp [GroupOut.joins])]
    exact mem_cons_self

end

section
variable {call : Upcall} {msgTime : UInt32} {index : Nat} {userid clientid : Bytes} {msg : EconnFmt.Message}
  {event : GroupEvent}

theorem up_moved : Moved eg (eg.tell (.up call)) :=
  tell_moved rfl (fun _ _ change => nomatch change)

theorem sendMsg_moved {msg : GroupSent} (other : msg ≠ .leave) : Moved eg (sendMsg env eg msg resp).1 := by
  refine tell_moved ?_ (fun _ _ change => nomatch change)
  cases msg with
  | leave => exact absurd rfl other
  | start | check | reject => rfl

theorem sendLeave_moved : Moved eg (sendLeave env eg msgTime) :=
  .ite (fun _ => leave_moved.then up_moved) (fun _ => leave_moved.then up_moved)

theorem endWithErr_moved : Moved eg (endWithErr env eg) := by
  have ended : Moved eg (if eg.noEcalls then sendLeave env eg 0 else eg.setState .terminating) :=
    .ite (fun _ => sendLeave_moved) (fun _ => setState_moved (fun _ => by decide))
  unfold endWithErr
  cases eg.state with
  | idle | incoming | terminating => exact .refl eg
  | outgoing | answered | active => exact ended

theorem sentStart_moved (joins : state.joined = true) : Moved eg (match sendMsg env eg .start resp with
      | (eg, none) => eg.setState state
      | (eg, some _) => eg) := by
  have sent : Moved eg (sendMsg env eg .start resp).1 := sendMsg_moved (by decide)
  have stays : state ≠ .idle ∧ state ≠ .incoming := by
    constructor <;> rintro rfl <;> cases joins
  rcases result : sendMsg env eg .start resp with ⟨eg', _ | err⟩
  · rw [result] at sent
    exact sent.then (setState_moved (fun _ => stays))
  · rw [result] at sent
    exact sent

theorem start_moved : Moved eg (start env eg) := by
  unfold start
  cases eg.state with
  | idle | incoming => exact sentStart_moved rfl
  | outgoing | answered | active | terminating => exact .refl eg

theorem answer_moved : Moved eg (answer env eg) :=
  .ite (fun _ => sentStart_moved rfl) (fun _ => .refl eg)

theorem setClients_moved {clientl : List (Bytes × Bytes)} : Moved eg (setClients env eg clientl) := by
  have sent : ∀ others : List (Bytes × Bytes),
      Moved eg (if others = [] then eg else (sendMsg env eg .reject false).1) := fun others =>
    .ite (fun _ => .refl eg) (fun _ => sendMsg_moved (by decide))
  exact .ite (fun _ => (sent _).then (moved_of_eq rfl rfl)) (fun _ => .refl eg)

theorem giveUp_moved : Moved eg (giveUp env eg) := by
  have flushed : Moved eg eg.rosterFlush := moved_of_eq rfl rfl
  exact .ite (fun _ => .refl eg) (fun _ => flushed.then endWithErr_moved)

theorem ringTimeout_moved : Moved eg (ringTimeout eg) :=
  .ite (fun _ => up_moved) (fun _ => .refl eg)

theorem callTimeout_moved : Moved eg (callTimeout env eg) := by
  have stopped : Moved eg { eg with callTimer := none } := moved_of_eq rfl rfl
  unfold callTimeout
  cases eg.callTimer with
  | none => exact .refl eg
  | some timer =>
    cases timer with
    | start | answer => exact stopped.then giveUp_moved
    | ring => exact stopped.then ringTimeout_moved

theorem activeRosterTimeout_moved : Moved eg (activeRosterTimeout env eg) :=
  .ite (fun _ => (sendMsg_moved (by decide)).then (moved_of_eq rfl rfl)) (fun _ => .refl eg)

theorem rosterAdd_moved (userid clientid : Bytes) : Moved eg (eg.rosterAdd userid clientid) :=
  .ite (fun _ => .refl eg) (fun _ => moved_of_eq rfl rfl)

theorem destroyEcall_moved (index : Nat) : Moved eg (eg.destroyEcall index) := moved_of_eq rfl rfl

theorem ecallRemove_moved : Moved eg (eg.ecallRemove index) := moved_of_eq rfl rfl

theorem addEcall_moved (userid clientid : Bytes) : Moved eg (eg.addEcall userid clientid) := by
  unfold addEcall
  cases eg.findUserclient userid clientid with
  | none => exact moved_of_eq rfl rfl
  | some index => exact moved_of_eq rfl rfl

theorem audioEstabHandler_moved (ecall : InnerCall) : Moved eg (audioEstabHandler eg ecall) := by
  refine Moved.then ?_ (rosterAdd_moved _ _)
  exact .ite (fun _ => setState_moved (fun _ => by decide)) (fun _ => .refl eg)

theorem closeHandler_moved {ecall : InnerCall} : Moved eg (closeHandler env eg index ecall err msgTime) := by
  have removed : Moved eg
      (if err ≠ none ∨ eg.state ≠ .terminating then eg.rosterRemove ecall.userid ecall.clientid else eg) :=
    .ite (fun _ => moved_of_eq rfl rfl) (fun _ => .refl eg)
  refine (removed.then (destroyEcall_moved index)).then ?_
  exact .ite (fun _ => sendLeave_moved) (fun _ => .refl _)

theorem startEcall_moved : Moved eg (startEcall env eg index) := by
  have begun : Moved eg (if eg.state = .outgoing then (eg.setState .answered).tell (.up .answer) else eg) :=
    .ite (fun _ => (setState_moved (fun _ => by decide)).then up_moved) (fun _ => .refl eg)
  unfold startEcall
  split
  · exact begun
  · exact begun
  · exact destroyEcall_moved index

theorem joinedBy_moved : Moved eg (joinedBy env eg userid clientid) := by
  unfold joinedBy
  cases eg.findUserclient userid clientid with
  | none => exact (addEcall_moved _ _).then startEcall_moved
  | some index =>
    exact .ite (fun _ => ecallRemove_moved.then ((addEcall_moved _ _).then startEcall_moved))
      (fun _ => startEcall_moved)

theorem comes_moved (out : eg.state = .idle) : Moved eg ((eg.setState .incoming).tell (.up call)) := by
  refine Moved.then (setState_moved ?_) up_moved
  rw [out]
  intro joined
  cases joined

theorem startState_moved (userid clientid : Bytes) (msg : EconnFmt.Message) :
    Moved eg (startState env eg userid clientid msg) := by
  unfold startState
  cases state : eg.state with
  | idle => exact .ite (fun _ => (comes_moved state).then (moved_of_eq rfl rfl)) (fun _ => comes_moved state)
  | incoming => exact .ite (fun _ => up_moved) (fun _ => .refl _)
  | outgoing | answered | active => exact joinedBy_moved
  | terminating => exact .refl _

theorem recvStart_moved : Moved eg (recvStart env eg userid clientid msg) := by
  refine ((rosterAdd_moved userid clientid).then ?_).then (startState_moved _ _ _)
  exact .ite (fun _ => moved_of_eq rfl rfl) (fun _ => .refl _)

theorem leftState_moved : Moved eg (leftState eg userid clientid msg) := by
  refine .ite (fun left => ?_) (fun _ => .refl eg)
  refine Moved.then (setState_moved ?_) up_moved
  rw [left.1]
  intro joined
  cases joined

theorem dropEcall_moved : Moved eg (eg.dropEcall userid clientid) := by
  unfold dropEcall
  cases eg.findUserclient userid clientid with
  | some index => exact ecallRemove_moved
  | none => exact .refl eg

theorem recvLeave_moved : Moved eg (recvLeave eg userid clientid msg) := by
  have removed : Moved eg (eg.rosterRemove userid clientid) := moved_of_eq rfl rfl
  exact (removed.then dropEcall_moved).then leftState_moved

theorem checkState_moved : Moved eg (checkState eg userid clientid msg) := by
  unfold checkState
  split
  · next state => exact comes_moved state
  all_goals exact moved_of_eq rfl rfl

theorem recvCheck_moved : Moved eg (recvCheck eg userid clientid msg) := by
  have marked : Moved eg { eg.rosterAdd userid clientid with isCallAnswered := true } :=
    (rosterAdd_moved userid clientid).then (moved_of_eq rfl rfl)
  exact marked.then checkState_moved

theorem recvReject_moved : Moved eg (recvReject eg userid) :=
  .ite (fun _ => up_moved) (fun _ => .refl eg)

theorem recvDirect_moved : Moved eg (recvDirect eg userid clientid msg) := by
  refine .ite (fun _ => ?_) (fun _ => .refl eg)
  refine ((addEcall_moved userid clientid).then (rosterAdd_moved userid clientid)).then ?_
  exact .ite (fun _ => setState_moved (fun _ => by decide)) (fun _ => .refl _)

theorem msgRecv_moved : Moved eg (msgRecv env eg userid clientid msg) := by
  unfold msgRecv
  split
  · exact recvStart_moved
  · exact recvLeave_moved
  · exact recvCheck_moved
  · exact recvReject_moved
  · exact .ite (fun _ => .refl eg) (fun _ => recvDirect_moved)

/-- The timer of a call of others takes a call to idle, whatever its state. -/
theorem passiveRosterTimeout_announced (silent : Silent eg) :
    Announced (passiveRosterTimeout eg).log ↔ Announced eg.log ∧ eg.state.joined = false := by
  have log : (passiveRosterTimeout eg).log =
      eg.log ++ [.state eg.state .idle] ++ [.up (.close none 0 none none)] := rfl
  rw [log, announced_append, and_iff_left (fun _ _ change => nomatch change), announced_append]
  refine and_congr_right (fun _ => ?_)
  constructor
  · intro heard
    rw [← Bool.not_eq_true]
    intro joined
    obtain ⟨out, member, leave⟩ := heard _ _ rfl joined (.inl rfl)
    rw [silent joined out member] at leave
    cases leave
  · intro apart old new change joined
    obtain ⟨rfl, rfl⟩ := GroupOut.state.inj change
    rw [apart] at joined
    cases joined

theorem withEcall_moved {handler : InnerCall → Egcall} (moves : ∀ ecall, Moved eg (handler ecall)) :
    Moved eg (eg.withEcall index handler) := by
  unfold withEcall
  cases eg.ecalls[index]? with
  | some ecall => exact moves ecall
  | none => exact .refl eg

/-- An event does not leave unheard, but for the timer of a call of others. -/
theorem step_moved (other : event = .rosterTimer → eg.rosterTimer ≠ some .passive) : Moved eg (step env event eg) := by
  cases event with
  | start => exact start_moved
  | answer => exact answer_moved
  | end_ => exact endWithErr_moved
  | reject => exact moved_of_eq rfl rfl
  | setClients clientl => exact setClients_moved
  | msgRecv userid clientid msg => exact msgRecv_moved
  | callTimer => exact callTimeout_moved
  | rosterTimer =>
    have stopped : Moved eg { eg with rosterTimer := none } := moved_of_eq rfl rfl
    unfold step rosterTimeout
    cases running : eg.rosterTimer with
    | none => exact .refl eg
    | some timer =>
      cases timer with
      | active => exact stopped.then activeRosterTimeout_moved
      | passive => exact absurd running (other rfl)
  | setupResp index => exact withEcall_moved (fun _ => moved_of_eq rfl rfl)
  | audioEstab index => exact withEcall_moved audioEstabHandler_moved
  | closed index err msgTime =>
    exact withEcall_moved (fun ecall => closeHandler_moved)

theorem rosterTimer_passive (running : eg.rosterTimer = some .passive) :
    step env .rosterTimer eg = passiveRosterTimeout { eg with rosterTimer := none } := by
  rw [step, rosterTimeout, running]

theorem step_silent (silent : Silent eg) : Silent (step env event eg) := by
  by_cases fires : event = .rosterTimer ∧ eg.rosterTimer = some .passive
  · obtain ⟨rfl, running⟩ := fires
    rw [rosterTimer_passive running]
    intro joined
    cases joined
  · exact (step_moved (fun timer running => fires ⟨timer, running⟩)).silent silent

/-- The departures stay announced as long as no such timer fires. -/
theorem step_announced_iff (silent : Silent eg) :
    Announced (step env event eg).log ↔ Announced eg.log ∧ ¬ Unheard event eg := by
  by_cases fires : event = .rosterTimer ∧ eg.rosterTimer = some .passive
  · obtain ⟨rfl, running⟩ := fires
    rw [rosterTimer_passive running, passiveRosterTimeout_announced (by exact silent)]
    simp [Unheard, running]
  · rw [(step_moved (fun timer running => fires ⟨timer, running⟩)).announced]
    refine (and_iff_left ?_).symm
    rintro ⟨timer, running, _⟩
    exact fires ⟨timer, running⟩

end

theorem run_append (env : GroupEnv) (eg : Egcall) (front : List GroupEvent) (event : GroupEvent) :
    run env eg (front ++ [event]) = step env event (run env eg front) := by
  rw [run, foldl_append]
  rfl

theorem run_silent (silent : Silent eg) {events : List GroupEvent} : Silent (run env eg events) := by
  induction events using List.reverseRecOn with
  | nil => exact silent
  | append_singleton front event ih =>
    rw [run_append]
    exact step_silent ih

/-- The departures of a run are announced if and only if the timer of a call of others never fires while the client
    takes part. -/
theorem departures_announced_iff (env : GroupEnv) (useridSelf clientidSelf : Bytes) (events : List GroupEvent) :
    Announced (run env (alloc useridSelf clientidSelf) events).log ↔
      ∀ front event back, events = front ++ event :: back →
        ¬ Unheard event (run env (alloc useridSelf clientidSelf) front) := by
  have begins : Silent (alloc useridSelf clientidSelf) := fun joined => nomatch joined
  induction events using List.reverseRecOn with
  | nil =>
    refine iff_of_true ?_ ?_
    · intro front old new back split
      exact absurd split (by simp [run, alloc])
    · intro front event back split
      exact absurd split (by simp)
  | append_singleton events event ih =>
    rw [run_append, step_announced_iff (run_silent begins)]
    refine (and_congr_left (fun _ => ih)).trans ?_
    constructor
    · rintro ⟨heard, last⟩ front event' back split
      rcases eq_nil_or_concat back with rfl | ⟨back, final, rfl⟩
      · obtain ⟨rfl, ends⟩ := append_inj' split rfl
        exact singleton_inj.mp ends ▸ last
      · rw [concat_eq_append, ← cons_append, ← append_assoc] at split
        exact heard front event' back (append_inj' split rfl).1
    · intro heard
      refine ⟨?_, heard events event [] rfl⟩
      intro front event' back split
      exact heard front event' (back ++ [event]) (by simp [split])

def groupMessage (payload : EconnFmt.Payload) (resp : Bool) : EconnFmt.Message :=
  { EconnFmt.messageAlloc with payload := payload, resp := resp }

/-- Every message is sent, every inner call starts and none is being updated. -/
def smooth : GroupEnv := ⟨fun _ => none, fun _ => none, fun _ => false⟩

/-- Alice answers a call of Bob's. Carol joins it and answers Alice's SETUP, which stops the timer of the answer; no
    media come up. Bob sends a GROUPCHECK, Dave joins, Carol's inner call is given up, and the timer that the GROUPCHECK
    has set fires. -/
def unheardRun : List GroupEvent :=
  [.msgRecv (ascii "bob") (ascii "1") (groupMessage (.groupStart none) false), .answer,
    .msgRecv (ascii "carol") (ascii "1") (groupMessage (.groupStart none) true), .setupResp 0,
    .msgRecv (ascii "bob") (ascii "1") (groupMessage .groupCheck true),
    .msgRecv (ascii "dave") (ascii "1") (groupMessage (.groupStart none) true), .closed 0 (some .ETIMEDOUT) 0,
    .rosterTimer]

/-- Alice leaves the call she answered and sends no GROUPLEAVE. -/
theorem answered_call_left_unheard : (run smooth (alloc (ascii "alice") (ascii "1")) unheardRun).state = .idle ∧
      .state .answered .idle ∈ (run smooth (alloc (ascii "alice") (ascii "1")) unheardRun).log ∧
      ∀ out ∈ (run smooth (alloc (ascii "alice") (ascii "1")) unheardRun).log, out.isLeave = false := by
  decide

end Egcall

end Avs
