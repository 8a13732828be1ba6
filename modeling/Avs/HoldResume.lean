import Avs.MediaCall

/-!
Hold and resume. The state of a call on hold is kept in one variable, and a resumed call takes it back: at
once, or when the platform has entered the call again. It is lost when a hold is handled before the call is
resumed (`Lost`), and a call that is not yet answered never asks the platform to enter it again.
-/
namespace Avs.MediaManager
open List Option Runs

def CallState.inCall : CallState → Bool
  | .outgoingAudioCall | .outgoingVideoCall | .incomingAudioCall | .incomingVideoCall | .incall | .invideocall => true
  | .normal | .roaming | .hold | .resume | .error | .unknown => false

def CallState.talking (state : CallState) : Bool := state = .incall || state = .invideocall

variable {old : CallState} {c : Call} {p : Platform} {msg : Message} {a : Action} {s s' : Mm} {front : List Action}

namespace Call

/-- The state of the call is there to be restored, and is when the platform has entered the call. -/
inductive Restorable (old : CallState) (c : Call) : Prop
  | current (call : c.callState = old)
  | held (call : c.callState = .hold) (hold : c.holdState = old)
  | resuming (call : c.callState = .resume) (hold : c.holdState = old) (sys : c.sysState = .enteringCall)

/-- The state of the call is not restored any more. -/
inductive Lost (old : CallState) (c : Call) : Prop
  | held (call : c.callState = .hold) (hold : c.holdState = .resume)
  | resuming (call : c.callState = .resume) (hold : c.holdState = .resume)
  | waiting (call : c.callState = .resume) (hold : c.holdState = old) (unanswered : old.talking = false)
      (sys : c.sysState ≠ .enteringCall)

variable {c' : Call}

theorem Restorable.congr (kept : c.Restorable old) (call' : c'.callState = c.callState)
    (hold' : c'.holdState = c.holdState) (sys' : c'.sysState = c.sysState) : c'.Restorable old := by
  cases kept with
  | current call => exact .current (call'.trans call)
  | held call hold => exact .held (call'.trans call) (hold'.trans hold)
  | resuming call hold sys => exact .resuming (call'.trans call) (hold'.trans hold) (sys'.trans sys)

theorem Lost.congr (lost : c.Lost old) (call' : c'.callState = c.callState)
    (hold' : c'.holdState = c.holdState) (sys' : c'.sysState = c.sysState) : c'.Lost old := by
  cases lost with
  | held call hold => exact .held (call'.trans call) (hold'.trans hold)
  | resuming call hold => exact .resuming (call'.trans call) (hold'.trans hold)
  | waiting call hold unanswered sys => exact .waiting (call'.trans call) (hold'.trans hold) unanswered (sys' ▸ sys)

/-- What has to hold for a message that is handled in a call. -/
def Resumes (old : CallState) (msg : Message) (c : Call) : Prop :=
  match msg with
  | .callState .hold => c.callState ≠ .resume
  | .callState .resume => c.callState = .hold → old.talking = true ∨ c.sysState = .enteringCall
  | _ => True

theorem entered_resuming (call : c.callState = .resume) (sys : c.sysState = .enteringCall) :
    (c.entered p).callState = c.holdState := by
  simp [entered, call, sys, confirmed]

theorem entered_waiting (call : c.callState = .resume) (sys : c.sysState ≠ .enteringCall) : c.entered p = c := by
  simp [entered, call, sys]

theorem entered_holdState : (c.entered p).holdState = c.holdState := by
  unfold entered
  split
  · split <;> simp
  · split
    · cases c.callState with
      | resume => by_cases held : c.aio.isSome <;> simp [confirmed, held]
      | _ => simp [confirmed, exit]
    · rfl

theorem entered_other (call : c.callState ≠ .resume) : (c.entered p).callState = c.callState := by
  unfold entered
  split
  · split <;> simp
  · split
    · cases state : c.callState with
      | resume => exact absurd state call
      | _ => simp [confirmed, exit]
    · rfl

theorem hold_restorable (kept : c.Restorable old) (p : Platform) (ready : c.callState ≠ .resume) :
    (c.change p .hold).Restorable old := by
  by_cases same : c.callState = .hold
  · simpa [change, same] using kept
  · simp only [change, Ne.symm same, if_false]
    cases kept with
    | current call => exact .held rfl call
    | held call hold => exact absurd call same
    | resuming call => exact absurd call ready

theorem hold_lost (p : Platform) (resuming : c.callState = .resume) : (c.change p .hold).Lost old := by
  simp only [change, resuming, reduceCtorEq, if_false]
  exact .held rfl resuming

section
variable (inCall : old.inCall = true)
include inCall

theorem Restorable.holdState (kept : c.Restorable old) (hold : c.callState = .hold) : c.holdState = old := by
  cases kept with
  | current call =>
    rw [hold] at call
    subst call
    cases inCall
  | held _ kept => exact kept
  | resuming call => simp [hold] at call

theorem resume_restorable (known : c.sysState ≠ .unknown) (kept : c.Restorable old)
    (p : Platform) (ready : c.callState = .hold → old.talking = true ∨ c.sysState = .enteringCall) :
    (c.change p .resume).Restorable old := by
  by_cases hold : c.callState = .hold
  · have state : c.holdState = old := kept.holdState inCall hold
    simp only [change, resume, hold, reduceCtorEq, if_false, if_true]
    by_cases answered : c.holdState = .incall ∨ c.holdState = .invideocall
    · by_cases sys : c.sysState = .incall
      · simpa [answered, sys] using .current state
      · rw [if_pos answered, if_neg sys]
        refine .resuming rfl state ?_
        cases entering : c.sysState <;> simp_all [enter, SysState.entering]
    · rw [if_neg answered]
      refine .resuming rfl state ((ready hold).resolve_left ?_)
      simpa [CallState.talking, ← state] using answered
  · by_cases same : c.callState = .resume
    · simpa [change, same] using kept
    · simpa [change, Ne.symm same, resume, hold] using kept

theorem resume_lost (kept : c.Restorable old) (p : Platform) (hold : c.callState = .hold)
    (unanswered : old.talking = false) (sys : c.sysState ≠ .enteringCall) : (c.change p .resume).Lost old := by
  have state : c.holdState = old := kept.holdState inCall hold
  have other : ¬ (c.holdState = .incall ∨ c.holdState = .invideocall) := by
    simpa [CallState.talking, ← state] using unanswered
  simp only [change, resume, hold, reduceCtorEq, if_false, if_true]
  rw [if_neg other]
  exact .waiting rfl state unanswered sys

theorem entered_restorable (kept : c.Restorable old) : (c.entered p).Restorable old := by
  cases kept with
  | current call =>
    refine .current ((entered_other ?_).trans call)
    rintro resuming
    rw [resuming] at call
    subst call
    cases inCall
  | held call hold =>
    exact .held ((entered_other (by simp [call])).trans call) (entered_holdState.trans hold)
  | resuming call hold sys => exact .current ((entered_resuming call sys).trans hold)

end

theorem left_restorable (kept : c.Restorable old) : c.left.Restorable old := by
  unfold left
  split
  · exact kept
  · next away =>
    cases kept with
    | current call => exact .current call
    | held call hold => exact .held call hold
    | resuming call hold sys => exact absurd sys away

theorem change_hold_lost (lost : c.Lost old) (p : Platform) : (c.change p .hold).Lost old := by
  cases lost with
  | held call hold => simpa [change, call] using .held call hold
  | resuming call => exact hold_lost p call
  | waiting call => exact hold_lost p call

theorem change_resume_lost (lost : c.Lost old) (p : Platform) : (c.change p .resume).Lost old := by
  cases lost with
  | held call hold =>
    refine .resuming ?_ ?_
    · simp [change, resume, call, hold]
    · simp [change, resume, call, hold]
  | resuming call hold => simpa [change, call] using .resuming call hold
  | waiting call hold unanswered sys => simpa [change, call] using .waiting call hold unanswered sys

theorem entered_lost (lost : c.Lost old) : (c.entered p).Lost old := by
  cases lost with
  | held call hold =>
    exact .held ((entered_other (by simp [call])).trans call) (entered_holdState.trans hold)
  | resuming call hold =>
    by_cases sys : c.sysState = .enteringCall
    · exact .resuming ((entered_resuming call sys).trans hold) (entered_holdState.trans hold)
    · rw [entered_waiting call sys]
      exact .resuming call hold
  | waiting call hold unanswered sys =>
    rw [entered_waiting call sys]
    exact .waiting call hold unanswered sys

theorem left_lost (lost : c.Lost old) : c.left.Lost old := by
  unfold left
  split
  · exact lost
  · cases lost with
    | held call hold => exact .held call hold
    | resuming call hold => exact .resuming call hold
    | waiting call hold unanswered => exact .waiting call hold unanswered (by simp)

theorem Lost.callState (inCall : old.inCall = true) (lost : c.Lost old) : c.callState ≠ old := by
  rintro rfl
  cases lost with
  | held call => simp [call, CallState.inCall] at inCall
  | resuming call => simp [call, CallState.inCall] at inCall
  | waiting call => simp [call, CallState.inCall] at inCall

end Call

def Message.command : Message → Option CallState
  | .callState state => some state
  | _ => none

/-- The messages that leave the states of the call alone. -/
def Message.calm : Message → Bool
  | .callState _ | .enterCall | .exitCall | .audioReset | .sysIncoming | .sysEnteredCall | .sysLeftCall => false
  | _ => true

/-- The messages of a call that is only held and resumed, while the platform enters and leaves its own. -/
inductive Message.Holding : Message → Prop
  | calm {msg : Message} (calm : msg.calm = true) : Holding msg
  | hold : Holding (.callState .hold)
  | resume : Holding (.callState .resume)
  | entered : Holding .sysEnteredCall
  | left : Holding .sysLeftCall

namespace Call

theorem handle_calm (calm : msg.calm = true) :
    (c.handle p msg).callState = c.callState ∧ (c.handle p msg).holdState = c.holdState ∧
      (c.handle p msg).sysState = c.sysState := by
  cases msg with
  | audioAlloc =>
    simp only [handle, alloc]
    split
    · simp
    · cases p.audioIoAlloc <;> simp
  | callState | enterCall | exitCall | audioReset | sysIncoming | sysEnteredCall | sysLeftCall => cases calm
  | _ => exact ⟨rfl, rfl, rfl⟩

theorem handle_restorable (holding : msg.Holding) (inCall : old.inCall = true) (kept : c.Restorable old)
    (known : c.sysState ≠ .unknown) (ready : c.Resumes old msg) : (c.handle p msg).Restorable old := by
  cases holding with
  | calm calm =>
    obtain ⟨call, hold, sys⟩ := handle_calm calm
    exact kept.congr call hold sys
  | hold => exact hold_restorable kept p ready
  | resume => exact resume_restorable inCall known kept p ready
  | entered => exact entered_restorable inCall kept
  | left => exact left_restorable kept

theorem handle_loses (holding : msg.Holding) (inCall : old.inCall = true) (kept : c.Restorable old)
    (unready : ¬ c.Resumes old msg) : (c.handle p msg).Lost old := by
  cases holding with
  | @calm msg calm =>
    cases msg with
    | callState => cases calm
    | _ => exact absurd trivial unready
  | hold => exact hold_lost p (not_not.mp unready)
  | resume =>
    simp only [Resumes, Classical.not_imp, not_or, Bool.not_eq_true] at unready
    exact resume_lost inCall kept p unready.1 unready.2.1 unready.2.2
  | entered => exact absurd trivial unready
  | left => exact absurd trivial unready

theorem handle_lost (holding : msg.Holding) (lost : c.Lost old) : (c.handle p msg).Lost old := by
  cases holding with
  | calm calm =>
    obtain ⟨call, hold, sys⟩ := handle_calm calm
    exact lost.congr call hold sys
  | hold => exact change_hold_lost lost p
  | resume => exact change_resume_lost lost p
  | entered => exact entered_lost lost
  | left => exact left_lost lost

section
variable (known : c.sysState ≠ .unknown)
include known

theorem enter_known : c.enter.sysState ≠ .unknown := by
  cases sys : c.sysState <;> simp_all [enter, SysState.entering]

theorem exit_known : c.exit.sysState ≠ .unknown := by
  cases sys : c.sysState <;> simp_all [exit, SysState.exiting]

theorem changed_known {c' : Call} (changed : Changed p c c') : c'.sysState ≠ .unknown := by
  cases changed with
  | stays | moves => exact known
  | ends => exact exit_known known
  | enters => exact enter_known known
  | acts =>
    rw [act_sysState]
    exact known

theorem entered_known : (c.entered p).sysState ≠ .unknown := by
  unfold entered
  split
  · split
    · exact known
    · simpa using known
  · split
    · cases c.callState with
      | resume => by_cases held : c.aio.isSome <;> simp [confirmed, held]
      | _ => simp [confirmed, exit, SysState.exiting]
    · exact known

end

theorem handle_known (c : Call) (known : c.sysState ≠ .unknown) (p : Platform) (msg : Message) :
    (c.handle p msg).sysState ≠ .unknown := by
  by_cases calm : msg.calm
  · rw [(handle_calm calm).2.2]
    exact known
  · cases msg with
    | callState new => exact changed_known known change_changed
    | enterCall => exact enter_known known
    | exitCall => exact exit_known known
    | audioReset =>
      simp only [handle, reset]
      split
      · exact known
      · exact enter_known known
    | sysIncoming => simp [handle]
    | sysEnteredCall => exact entered_known known
    | sysLeftCall =>
      simp only [handle, left]
      split
      · exact known
      · simp
    | _ => exact absurd rfl calm

end Call

def Action.command : Action → Option CallState
  | .setCallState state => some state
  | _ => none

/-- Hold and resume, the events of the platform and the handling of messages. -/
inductive Action.Holding : Action → Prop
  | hold : Holding (.setCallState .hold)
  | resume : Holding (.setCallState .resume)
  | entered : Holding .sysEnteredCall
  | left : Holding .sysLeftCall
  | handle (p : Platform) : Holding (.handle p)

/-- No hold is handled while the call is being resumed; and a call that is not answered yet is resumed only while the
    platform enters its call. -/
def Resumable (old : CallState) (a : Action) (s : Mm) : Prop :=
  match a with
  | .handle _ => ∀ msg ∈ s.mq.head?, s.toCall.Resumes old msg
  | _ => True

theorem step_known (known : s.sysState ≠ .unknown) (stepped : step a s = some s') : s'.sysState ≠ .unknown := by
  rcases step_cases stepped with ⟨p, msg, rest, rfl, _, after⟩ | ⟨other, new, posted⟩
  · rw [after]
    exact Call.handle_known { s.toCall with mq := rest } known p msg
  · rw [posted.same]
    exact known

structure Steady (s : Mm) : Prop where
  known : s.sysState ≠ .unknown
  queue : ∀ msg ∈ s.mq, msg.Holding

theorem step_steady (holding : a.Holding) (steady : Steady s) (stepped : step a s = some s') : Steady s' := by
  refine ⟨step_known steady.known stepped, ?_⟩
  have posts {msg : Message} (allowed : msg.Holding) : ∀ m ∈ s.mq ++ [msg], m.Holding := by
    intro m member
    rcases mem_append.mp member with present | posted
    · exact steady.queue m present
    · exact mem_singleton.mp posted ▸ allowed
  cases holding with
  | hold => exact some.inj stepped ▸ posts .hold
  | resume => exact some.inj stepped ▸ posts .resume
  | entered => exact some.inj stepped ▸ posts .entered
  | left => exact some.inj stepped ▸ posts .left
  | handle p =>
    obtain ⟨msg, rest, queue, after⟩ := step_handle stepped
    have remain : ∀ m ∈ rest, m.Holding := fun m member => steady.queue m (by simp [queue, member])
    rw [after]
    rcases (Call.handle_posts msg { s.toCall with mq := rest }).1 with mq | mq
    · exact mq ▸ remain
    · rw [mq]
      intro m member
      rcases mem_append.mp member with present | posted
      · exact remain m present
      · exact mem_singleton.mp posted ▸ .calm rfl

theorem step_callState (other : ∀ p, a ≠ .handle p) (stepped : step a s = some s') :
    s'.callState = s.callState ∧ s'.holdState = s.holdState ∧ s'.sysState = s.sysState := by
  obtain ⟨new, posted⟩ := step_posted other stepped
  rw [posted.same]
  exact ⟨rfl, rfl, rfl⟩

theorem step_restorable (inCall : old.inCall = true) (steady : Steady s) (kept : s.toCall.Restorable old)
    (ready : Resumable old a s) (stepped : step a s = some s') : s'.toCall.Restorable old := by
  rcases step_cases stepped with ⟨p, msg, rest, rfl, queue, after⟩ | ⟨other, new, posted⟩
  · have kept' : Call.Restorable old { s.toCall with mq := rest } := kept.congr rfl rfl rfl
    rw [after]
    exact Call.handle_restorable (steady.queue msg (by simp [queue])) inCall kept' steady.known
      (ready msg (by simp [queue]))
  · obtain ⟨call, hold, sys⟩ := step_callState other stepped
    exact kept.congr call hold sys

theorem step_loses (inCall : old.inCall = true) (steady : Steady s) (kept : s.toCall.Restorable old)
    (unready : ¬ Resumable old a s) (stepped : step a s = some s') : s'.toCall.Lost old := by
  rcases step_cases stepped with ⟨p, msg, rest, rfl, queue, after⟩ | ⟨other, new, posted⟩
  · have kept' : Call.Restorable old { s.toCall with mq := rest } := kept.congr rfl rfl rfl
    rw [after]
    refine Call.handle_loses (steady.queue msg (by simp [queue])) inCall kept' (fun resumes => unready ?_)
    intro head member
    obtain rfl : msg = head := by simpa [queue] using member
    exact resumes
  · refine absurd ?_ unready
    cases a <;> first | trivial | exact absurd rfl (other _)

theorem step_lost (steady : Steady s) (lost : s.toCall.Lost old) (stepped : step a s = some s') :
    s'.toCall.Lost old := by
  rcases step_cases stepped with ⟨p, msg, rest, rfl, queue, after⟩ | ⟨other, new, posted⟩
  · have lost' : Call.Lost old { s.toCall with mq := rest } := lost.congr rfl rfl rfl
    rw [after]
    exact Call.handle_lost (steady.queue msg (by simp [queue])) lost'
  · obtain ⟨call, hold, sys⟩ := step_callState other stepped
    exact lost.congr call hold sys

/-- The state of the call can be restored as long as the condition is met, and is lost from then on. -/
theorem run_restorable (inCall : old.inCall = true) {actions : List Action} :
    ∀ {s t : Mm}, (∀ a ∈ actions, a.Holding) → Steady s → run step s actions = some t →
      (s.toCall.Lost old → t.toCall.Lost old) ∧
      (s.toCall.Restorable old →
        (Throughout step s actions (Resumable old) → t.toCall.Restorable old) ∧
        (¬ Throughout step s actions (Resumable old) → t.toCall.Lost old)) := by
  induction actions with
  | nil =>
    intro s t _ _ ran
    obtain rfl := some.inj ran
    refine ⟨id, fun kept => ⟨fun _ => kept, fun fails => absurd ?_ fails⟩⟩
    intro front a back mid split
    simp at split
  | cons a rest ih =>
    intro s t holding steady ran
    obtain ⟨s', stepped, ran'⟩ := run_cons.mp ran
    have steady' : Steady s' := step_steady (holding a (by simp)) steady stepped
    obtain ⟨lost, kept⟩ := ih (fun b member => holding b (by simp [member])) steady' ran'
    refine ⟨fun lost' => lost (step_lost steady lost' stepped), fun kept' => ?_⟩
    rw [throughout_cons stepped]
    by_cases ready : Resumable old a s
    · have next := kept (step_restorable inCall steady kept' ready stepped)
      exact ⟨fun throughout => next.1 throughout.2, fun fails => next.2 (fun later => fails ⟨ready, later⟩)⟩
    · have next := lost (step_loses inCall steady kept' ready stepped)
      exact ⟨fun throughout => absurd throughout.1 ready, fun _ => next⟩

def lastCommand (actions : List Action) : Option CallState := (actions.filterMap Action.command).getLast?

def Mm.commands (s : Mm) : List CallState := s.mq.filterMap Message.command

namespace Call

theorem change_resume_callState (p : Platform) (c : Call) : (c.change p .resume).callState ≠ .hold := by
  unfold change
  split
  · next same => simp [← same]
  · simp only [resume]
    split
    · split
      · next answered =>
        split
        · rcases answered with answered | answered <;> simp [answered]
        · simp [enter]
      · simp
    · next other => exact other

theorem handle_uncommanded (holding : msg.Holding) (uncommanded : msg.command = none)
    (inCall : old.inCall = true) (phase : c.Restorable old ∨ c.Lost old) (p : Platform) (away : c.callState ≠ .hold) :
    (c.handle p msg).callState ≠ .hold := by
  cases holding with
  | calm calm => rw [(handle_calm calm).1]; exact away
  | hold => cases uncommanded
  | resume => cases uncommanded
  | left =>
    simp only [handle, left]
    split
    · exact away
    · exact away
  | entered =>
    by_cases call : c.callState = .resume
    · by_cases sys : c.sysState = .enteringCall
      · have other : old ≠ .hold := by
          rintro rfl
          cases inCall
        rw [handle, entered_resuming call sys]
        rcases phase with kept | lost
        · cases kept with
          | current state =>
            rw [call] at state
            subst state
            cases inCall
          | held held => exact absurd held away
          | resuming _ hold => rw [hold]; exact other
        · cases lost with
          | held held => exact absurd held away
          | resuming _ hold => simp [hold]
          | waiting _ hold => rw [hold]; exact other
      · rw [handle, entered_waiting call sys]
        exact away
    · rw [handle, entered_other call]
      exact away

end Call

/-- How the last command is found: in the queue, or handled. -/
structure Followed (old : CallState) (front : List Action) (s : Mm) : Prop where
  steady : Steady s
  phase : s.toCall.Restorable old ∨ s.toCall.Lost old
  last : lastCommand front = some .resume →
    s.commands.getLast? = some .resume ∨ s.commands = [] ∧ s.callState ≠ .hold

theorem step_phase (inCall : old.inCall = true) (steady : Steady s)
    (phase : s.toCall.Restorable old ∨ s.toCall.Lost old) (stepped : step a s = some s') :
    s'.toCall.Restorable old ∨ s'.toCall.Lost old := by
  rcases phase with kept | lost
  · by_cases ready : Resumable old a s
    · exact .inl (step_restorable inCall steady kept ready stepped)
    · exact .inr (step_loses inCall steady kept ready stepped)
  · exact .inr (step_lost steady lost stepped)

theorem lastCommand_snoc : lastCommand (front ++ [a]) = a.command.or (lastCommand front) := by
  cases command : a.command <;> simp [lastCommand, command]

/-- Handling a message: the last command is still in the queue, or was that message. -/
theorem handle_followed (inCall : old.inCall = true) (steady : Steady s)
    (phase : s.toCall.Restorable old ∨ s.toCall.Lost old) (stepped : step (.handle p) s = some s')
    (last : s.commands.getLast? = some .resume ∨ s.commands = [] ∧ s.callState ≠ .hold) :
    s'.commands.getLast? = some .resume ∨ s'.commands = [] ∧ s'.callState ≠ .hold := by
  obtain ⟨msg, rest, queue, after⟩ := step_handle stepped
  have allowed : msg.Holding := steady.queue msg (by simp [queue])
  have remain : s'.commands = rest.filterMap Message.command := by
    unfold Mm.commands
    rw [after]
    rcases (Call.handle_posts msg { s.toCall with mq := rest }).1 with mq | mq
    · rw [mq]
    · simp [mq, Message.command]
  rw [remain]
  cases command : msg.command with
  | none =>
    have before : s.commands = rest.filterMap Message.command := by simp [Mm.commands, queue, command]
    rw [← before]
    rcases last with queued | ⟨empty, away⟩
    · exact .inl queued
    · refine .inr ⟨empty, ?_⟩
      rw [after]
      refine Call.handle_uncommanded allowed command inCall ?_ p away
      exact phase.imp (fun kept => kept.congr rfl rfl rfl) (fun lost => lost.congr rfl rfl rfl)
  | some state =>
    have before : s.commands = state :: rest.filterMap Message.command := by simp [Mm.commands, queue, command]
    rw [before] at last
    rcases last with queued | ⟨empty, _⟩
    · cases others : rest.filterMap Message.command with
      | nil =>
        obtain rfl : state = .resume := by simpa [others] using queued
        refine .inr ⟨rfl, ?_⟩
        cases msg with
        | callState new =>
          obtain rfl : new = .resume := by simpa [Message.command] using command
          rw [after]
          exact Call.change_resume_callState p _
        | _ => cases command
      | cons next others' =>
        rw [others, List.getLast?_cons_cons] at queued
        exact .inl queued
    · cases empty

theorem step_followed (inCall : old.inCall = true) (holding : a.Holding) (followed : Followed old front s)
    (stepped : step a s = some s') : Followed old (front ++ [a]) s' := by
  obtain ⟨steady, phase, last⟩ := followed
  refine ⟨step_steady holding steady stepped, step_phase inCall steady phase stepped, ?_⟩
  rw [lastCommand_snoc]
  cases holding with
  | hold => simp [Action.command]
  | resume =>
    obtain rfl := some.inj stepped
    simp [Mm.commands, Mm.post, Message.command]
  | entered | left =>
    obtain rfl := some.inj stepped
    simpa [Action.command, Mm.commands, Mm.postMediaCmd, Mm.post, Message.command] using last
  | handle p => exact fun resumed => handle_followed inCall steady phase stepped (last resumed)

/-- Once everything is handled and the platform has entered the call it was asked to enter, the call has the state it
    had before, if and only if no hold was handled during a resumption and a call that was not answered was only resumed
    while the platform was entering its call. -/
theorem hold_resume_restores (user : User) (earlier actions : List Action) (s t : Mm)
    (reached : run step (start user) earlier = some s) (inCall : s.callState.inCall = true)
    (queue : ∀ msg ∈ s.mq, msg.Holding ∧ msg.command = none) (holding : ∀ a ∈ actions, a.Holding)
    (resumed : lastCommand actions = some .resume) (ran : run step s actions = some t) (done : t.mq = [])
    (confirmed : t.sysState ≠ .enteringCall) :
    t.callState = s.callState ↔ Throughout step s actions (Resumable s.callState) := by
  have keeps : ∀ a (s s' : Mm), True → s.sysState ≠ .unknown → step a s = some s' → s'.sysState ≠ .unknown :=
    fun _ _ _ _ known stepped => step_known known stepped
  have steady : Steady s :=
    ⟨run_invariant keeps (by simp) (by simp [start]) reached, fun msg member => (queue msg member).1⟩
  have current : s.toCall.Restorable s.callState := .current rfl
  obtain ⟨restores, loses⟩ := (run_restorable inCall holding steady ran).2 current
  constructor
  · intro same
    by_contra fails
    exact (loses fails).callState inCall same
  · intro throughout
    -- What is left besides the state itself: a call on hold, or one the platform has not entered.
    have begun : Followed s.callState [] s := ⟨steady, .inl current, by simp [lastCommand]⟩
    have step' : ∀ front a mid mid', run step s front = some mid → a.Holding → Followed s.callState front mid →
        step a mid = some mid' → Followed s.callState (front ++ [a]) mid' :=
      fun _ _ _ _ _ holding followed stepped => step_followed inCall holding followed stepped
    have followed : Followed s.callState actions t :=
      run_history begun step' (fun front a back _ split _ => holding a (by simp [split])) ran
    cases restores throughout with
    | current call => exact call
    | held call =>
      rcases followed.last resumed with queued | ⟨_, away⟩
      · simp [Mm.commands, done] at queued
      · exact absurd call away
    | resuming _ _ sys => exact absurd sys confirmed

instance (old : CallState) (msg : Message) (c : Call) : Decidable (Call.Resumes old msg c) := by
  unfold Call.Resumes
  split <;> infer_instance

instance (old : CallState) (a : Action) (s : Mm) : Decidable (Resumable old a s) :=
  decidable_of_iff ((a matches .handle _) → ∀ msg ∈ s.mq.head?, s.toCall.Resumes old msg)
    (by cases a <;> simp [Resumable])

def takenCall : List Action :=
  [.setCallState .incall, .handle (granting 7), .sysEnteredCall, .handle (granting 7), .handle (granting 7)]

/-- Hold and resume while the platform leaves the call and enters it again. -/
def heldOnce : List Action :=
  [.setCallState .hold, .handle (granting 7), .sysLeftCall, .handle (granting 7), .setCallState .resume,
    .handle (granting 7), .sysEnteredCall, .handle (granting 7)]

/-- The same with a second hold before the platform has entered the call. -/
def heldTwice : List Action :=
  [.setCallState .hold, .handle (granting 7), .sysLeftCall, .handle (granting 7), .setCallState .resume,
    .handle (granting 7), .setCallState .hold, .handle (granting 7), .setCallState .resume, .handle (granting 7),
    .sysEnteredCall, .handle (granting 7)]

theorem hold_resume_restores_once : ∃ s t, run step (start ⟨0, false⟩) takenCall = some s ∧ s.callState = .incall ∧
      run step s heldOnce = some t ∧ t.callState = s.callState := by
  simp only [exists_and_left]
  refine exists_shown (fun s => s.callState = .incall ∧ s.mq = [] ∧
    Throughout step s heldOnce (Resumable .incall) ∧
      ∃ t, run step s heldOnce = some t ∧ t.mq = [] ∧ t.sysState = .incall) (by decide +kernel) ?_
  rintro s reached ⟨call, queue, resumable, t, ran, done, sys⟩
  have holding : ∀ a ∈ heldOnce, a.Holding := by
    simp only [heldOnce, mem_cons, not_mem_nil, or_false, forall_eq_or_imp, forall_eq]
    exact ⟨.hold, .handle _, .left, .handle _, .resume, .handle _, .entered, .handle _⟩
  exact ⟨call, t, ran, (hold_resume_restores ⟨0, false⟩ takenCall heldOnce s t reached
    (by simp [call, CallState.inCall])
    (by simp [queue]) holding rfl ran done (by simp [sys])).mpr (call ▸ resumable)⟩

/-- After the second hold the call is never in its state again; and a call that rings is not when it is resumed once. -/
theorem hold_resume_loses :
    (run step (start ⟨0, false⟩) takenCall).map (fun s => (s.mq, s.callState)) = some ([], .incall) ∧
    (run step (start ⟨0, false⟩) (takenCall ++ heldTwice)).map (fun t => (t.mq, t.callState, t.sysState)) =
      some ([], .resume, .incall) ∧
    (run step (start ⟨0, false⟩) [.setCallState .outgoingAudioCall, .handle (granting 7), .sysEnteredCall,
      .handle (granting 7), .setCallState .hold, .handle (granting 7), .setCallState .resume,
      .handle (granting 7)]).map (fun t => (t.mq, t.callState, t.sysState)) = some ([], .resume, .incall) := by
  decide +kernel

end Avs.MediaManager
