import Avs.MediaCall

/-!
Whether the microphone is held outside of calls. The call an allocation was posted for may have ended before
it is handled; and a hold in the normal state is resumed like a call.
-/
namespace Avs.MediaManager
open Runs

def Platform.grantsAudio (p : Platform) : Bool :=
  match p.audioIoAlloc with
  | .ok (some _) => true
  | _ => false

namespace Call

variable {p : Platform} {c : Call} {new : CallState}

theorem alloc_aio (free : c.aio = none) (refused : p.grantsAudio = false) : (c.alloc p).aio = none := by
  unfold alloc
  rw [free]
  cases allocated : p.audioIoAlloc with
  | error err => rfl
  | ok aio =>
    cases aio with
    | none => rfl
    | some object => simp [Platform.grantsAudio, allocated] at refused

theorem entered_aio : (c.entered p).aio = c.aio := by
  unfold entered
  split
  · split <;> simp
  · split
    · cases c.callState with
      | resume => by_cases held : c.aio.isSome <;> simp [confirmed, held]
      | _ => simp [confirmed, exit]
    · rfl

theorem entered_callState : (c.entered p).callState = c.callState ∨
      (c.entered p).callState = c.holdState ∧ c.sysState = .enteringCall ∧ c.callState = .resume := by
  unfold entered
  split
  · split <;> simp
  · split
    · next sys =>
      cases c.callState with
      | resume => simp [confirmed, sys]
      | _ => simp [confirmed, exit]
    · simp

/-- No microphone without a call. -/
def Released (c : Call) : Prop := c.callState = .normal → c.aio = none

def Kept (p : Platform) (msg : Message) (c : Call) : Prop :=
  match msg with
  | .audioAlloc => c.callState = .normal → p.grantsAudio = false
  | .sysEnteredCall => c.sysState = .enteringCall → c.callState = .resume → c.holdState = .normal → c.aio = none
  | _ => True

theorem Changed.released {c' : Call} (changed : Changed p c c') (released : c.Released) : c'.Released := by
  intro after
  cases changed with
  | stays => exact released after
  | ends => rfl
  | moves call hold reset other => exact released (other after)
  | enters call hold other => exact released (other after)
  | acts call other => exact absurd (act_callState.symm.trans after) other

theorem entered_released (released : c.Released) (kept : Kept p .sysEnteredCall c) : (c.entered p).Released := by
  intro after
  rw [entered_aio]
  rcases entered_callState with same | ⟨restored, sys, call⟩
  · exact released (same ▸ after)
  · exact kept sys call (restored ▸ after)

theorem alloc_released (released : c.Released) (kept : Kept p .audioAlloc c) : (c.alloc p).Released := by
  intro after
  have call : c.callState = .normal := by
    rw [← after]
    unfold alloc
    split
    · rfl
    · cases p.audioIoAlloc <;> rfl
  exact alloc_aio (released call) (kept call)

theorem handle_released {msg : Message} (released : c.Released) (kept : Kept p msg c) : (c.handle p msg).Released := by
  cases msg with
  | callState new => exact change_changed.released released
  | audioAlloc => exact alloc_released released kept
  | audioRelease => exact fun _ => rfl
  | audioReset =>
    simp only [handle, reset]
    split
    · exact released
    · exact released
  | sysEnteredCall => exact entered_released released kept
  | sysLeftCall =>
    simp only [handle, left]
    split
    · exact released
    · exact released
  | _ => exact released

end Call

/-- Each allocation is handled while there is a call, or not granted, and no entry into a call resumes the normal state
    with the microphone held. -/
def HeldInCall (a : Action) (s : Mm) : Prop :=
  match a with
  | .handle p => ∀ msg ∈ s.mq.head?, Call.Kept p msg s.toCall
  | _ => True

theorem step_released {a : Action} {s s' : Mm} (condition : HeldInCall a s) (released : s.toCall.Released)
    (stepped : step a s = some s') : s'.toCall.Released := by
  rcases step_cases stepped with ⟨p, msg, rest, rfl, queue, after⟩ | ⟨other, new, posted⟩
  · have kept : Call.Kept p msg s.toCall := condition msg (by simp [queue])
    rw [after]
    refine Call.handle_released released ?_
    cases msg <;> exact kept
  · intro call
    rw [posted.same] at call ⊢
    exact released call

/-- In a run whose allocations are handled in a call, the microphone is not held in any normal state. -/
theorem microphone_released (user : User) (actions : List Action) (t : Mm)
    (inCall : Throughout step (start user) actions HeldInCall)
    (ran : run step (start user) actions = some t) : t.callState = .normal → t.aio = none := by
  have released : t.toCall.Released :=
    run_throughout (fun _ _ _ condition released stepped => step_released condition released stepped) inCall
      (fun _ => rfl) ran
  exact released

instance (p : Platform) (msg : Message) (c : Call) : Decidable (Call.Kept p msg c) := by
  unfold Call.Kept
  split <;> infer_instance

instance (a : Action) (s : Mm) : Decidable (HeldInCall a s) := by
  unfold HeldInCall
  split <;> infer_instance

/-- A call that is entered and ended by the user. -/
theorem microphone_released_call :
    ∃ t, run step (start ⟨0, false⟩) [.setCallState .incall, .handle (granting 7), .sysEnteredCall,
        .handle (granting 7), .handle (granting 7), .setCallState .normal, .handle (granting 7)] = some t ∧
      t.callState = .normal ∧ t.aio = none := by
  refine exists_guarded HeldInCall (fun t => t.callState = .normal) (by decide +kernel) fun t inCall ran call => ?_
  exact ⟨call, microphone_released _ _ t inCall ran call⟩

/-- The call ends while its allocation is still to be posted: the entry into the call is handled before the end, and the
    allocation it posts after it. -/
theorem microphone_held :
    (run step (start ⟨0, false⟩) [.setCallState .incall, .handle (granting 7), .sysEnteredCall,
        .setCallState .normal, .handle (granting 7), .handle (granting 7), .handle (granting 7)]).map
      (fun t => (t.mq, t.callState, t.aio)) = some ([], .normal, some 7) := by
  decide +kernel

end Avs.MediaManager
