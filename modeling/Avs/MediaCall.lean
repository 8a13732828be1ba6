import Avs.MediaManager

/-!
The call machine inside the media manager: its queue, the states of the call and of the platform's call, and
the audio object, without sounds, routes and users. None of those is read by the call, so every message does
to the machine what it does to the manager (`mqueueHandler_toCall`).
-/
namespace Avs.MediaManager

/-- The state of the platform's call once it is asked to enter one. -/
def SysState.entering : SysState → SysState
  | .normal | .incoming | .exitingCall => .enteringCall
  | state => state

/-- The state of the platform's call once it is asked to leave it. -/
def SysState.exiting : SysState → SysState
  | .incall | .incoming | .enteringCall => .exitingCall
  | state => state

variable {p : Platform} {new : CallState} {s s' : Mm} {msg : Message}

namespace Call

def enter (c : Call) : Call := { c with playReady := true, sysState := c.sysState.entering }

def exit (c : Call) : Call := { c with sysState := c.sysState.exiting }

/-- An allocation is posted, unless one is pending. -/
def postAlloc (c : Call) : Call :=
  if c.allocPending then c else { c with allocPending := true, mq := c.mq ++ [.audioAlloc] }

def act (p : Platform) (c : Call) : Call :=
  if p.audioIsActivated || c.audioStarted then postAlloc { c with playReady := false, asked := c.asked + 1 } else c

def release (c : Call) : Call := { c with aio := none, allocPending := false }

def normal (c : Call) : Call := exit { c.release with callState := .normal, audioStarted := false }

/-- An outgoing call begins, or waits for the one on hold. -/
def outgoing (new : CallState) (c : Call) : Call :=
  match c.callState with
  | .normal => enter { c with callState := new }
  | .resume => enter { c with holdState := new }
  | _ => c

def incoming (new : CallState) (c : Call) : Call :=
  match c.callState with
  | .normal => { c with callState := new }
  | .resume => { c with holdState := new }
  | _ => c

/-- The call is taken up, from whatever state it is in. -/
def join (p : Platform) (new : CallState) (c : Call) : Call :=
  let c' := { c with callState := new }
  match c.callState with
  | .incall | .invideocall => c'
  | .hold => c'.enter
  | _ =>
    match c.sysState with
    | .incall => c'.act p
    | .enteringCall => c'
    | .unknown | .normal | .incoming | .exitingCall => c'.enter

def hold (c : Call) : Call := { c with holdState := c.callState, shouldReset := true, callState := .hold }

def resume (c : Call) : Call :=
  if c.callState = .hold then
    if c.holdState = .incall ∨ c.holdState = .invideocall then
      if c.sysState = .incall then { c with callState := c.holdState } else enter { c with callState := .resume }
    else { c with callState := .resume }
  else c

def change (p : Platform) (new : CallState) (c : Call) : Call :=
  if new = c.callState then c
  else
    match new with
    | .normal => c.normal
    | .outgoingAudioCall | .outgoingVideoCall => c.outgoing new
    | .incomingAudioCall | .incomingVideoCall => c.incoming new
    | .incall | .invideocall => c.join p new
    | .hold => c.hold
    | .resume => c.resume
    | .roaming | .error | .unknown => c

/-- The platform is in the call it was asked to enter. -/
def confirmed (p : Platform) (c : Call) : Call :=
  match c.callState with
  | .incall | .invideocall => c.act p
  | .resume => { (if c.aio.isSome then c else c.postAlloc) with callState := c.holdState }
  | .normal => c.exit
  | _ => c

def entered (p : Platform) (c : Call) : Call :=
  if c.sysState = .incall ∧ (c.callState = .incall ∨ c.callState = .invideocall) then
    if c.aio.isSome then c else c.act p
  else if c.sysState = .enteringCall then confirmed p { c with sysState := .incall }
  else c

def left (c : Call) : Call := if c.sysState = .enteringCall then c else { c with sysState := .normal }

def alloc (p : Platform) (c : Call) : Call :=
  if c.aio.isSome then c
  else
    match p.audioIoAlloc with
    | .error _ => { c with allocPending := false }
    | .ok aio => { c with aio := aio, allocPending := false }

def reset (c : Call) : Call := if c.aio.isSome then c else c.enter

/-- The handling of a message; the messages about sounds, routes and recordings do nothing here. -/
def handle (p : Platform) (msg : Message) (c : Call) : Call :=
  match msg with
  | .callState new => c.change p new
  | .enterCall => c.enter
  | .exitCall => c.exit
  | .audioAlloc => c.alloc p
  | .audioRelease => c.release
  | .audioReset => c.reset
  | .sysIncoming => { c with sysState := .incoming }
  | .sysEnteredCall => c.entered p
  | .sysLeftCall => c.left
  | _ => c

theorem postAlloc_eq (c : Call) : ∃ mq pending, c.postAlloc = { c with mq := mq, allocPending := pending } := by
  unfold postAlloc
  split
  · exact ⟨c.mq, c.allocPending, rfl⟩
  · exact ⟨_, _, rfl⟩

variable {c : Call}

@[simp] theorem postAlloc_callState : c.postAlloc.callState = c.callState := by
  obtain ⟨_, _, posted⟩ := c.postAlloc_eq
  rw [posted]

@[simp] theorem postAlloc_holdState : c.postAlloc.holdState = c.holdState := by
  obtain ⟨_, _, posted⟩ := c.postAlloc_eq
  rw [posted]

@[simp] theorem postAlloc_sysState : c.postAlloc.sysState = c.sysState := by
  obtain ⟨_, _, posted⟩ := c.postAlloc_eq
  rw [posted]

@[simp] theorem postAlloc_aio : c.postAlloc.aio = c.aio := by
  obtain ⟨_, _, posted⟩ := c.postAlloc_eq
  rw [posted]

@[simp] theorem act_callState : (c.act p).callState = c.callState := by
  unfold act
  split <;> simp

@[simp] theorem act_holdState : (c.act p).holdState = c.holdState := by
  unfold act
  split <;> simp

@[simp] theorem act_sysState : (c.act p).sysState = c.sysState := by
  unfold act
  split <;> simp

@[simp] theorem act_aio : (c.act p).aio = c.aio := by
  unfold act
  split <;> simp

/-- A handler posts nothing, or an allocation, and one is pending after it if it has asked for audio. -/
def Posts (c c' : Call) : Prop :=
  (c'.mq = c.mq ∨ c'.mq = c.mq ++ [.audioAlloc]) ∧
  (c'.allocPending = true → c.allocPending = true ∨ c'.mq = c.mq ++ [.audioAlloc]) ∧
  (c'.asked ≠ c.asked → c'.allocPending = true) ∧ c'.mml = c.mml

theorem Posts.refl (c : Call) : Posts c c := ⟨.inl rfl, .inl, by simp, rfl⟩

theorem Posts.cleared (c : Call) : Posts c { c with allocPending := false } := ⟨.inl rfl, by simp, by simp, rfl⟩

theorem postAlloc_posts (c : Call) (asked : Nat) : Posts c (postAlloc { c with asked := asked }) := by
  unfold postAlloc
  split
  · next set => exact ⟨.inl rfl, fun _ => .inl set, fun _ => set, rfl⟩
  · exact ⟨.inr rfl, fun _ => .inr rfl, fun _ => rfl, rfl⟩

theorem act_posts (c : Call) : Posts c (c.act p) := by
  unfold act
  split
  · exact postAlloc_posts { c with playReady := false } _
  · exact .refl c

/-- What a change of the state comes to. A call becomes normal by a change to it only. -/
inductive Changed (p : Platform) (c : Call) : Call → Prop
  | stays : Changed p c c
  | ends (call : c.callState ≠ .normal) : Changed p c c.normal
  | moves (call hold : CallState) (reset : Bool) (other : call = .normal → c.callState = .normal) :
      Changed p c { c with callState := call, holdState := hold, shouldReset := reset }
  | enters (call hold : CallState) (other : call = .normal → c.callState = .normal) :
      Changed p c (enter { c with callState := call, holdState := hold })
  | acts (call : CallState) (other : call ≠ .normal) : Changed p c (act p { c with callState := call })

theorem join_changed (other : new ≠ .normal) : Changed p c (c.join p new) := by
  have moves : Changed p c { c with callState := new } := .moves new _ _ (absurd · other)
  have enters : Changed p c (enter { c with callState := new }) := .enters new _ (absurd · other)
  unfold join
  split
  · exact moves
  · exact moves
  · exact enters
  · split
    · exact .acts new other
    · exact moves
    all_goals exact enters

theorem resume_changed : Changed p c c.resume := by
  unfold resume
  split
  · split
    · next held =>
      split
      · refine .moves _ _ _ (fun normal => ?_)
        rcases held with held | held <;> simp [held] at normal
      · exact .enters .resume _ (by simp)
    · exact .moves .resume _ _ (by simp)
  · exact .stays

theorem outgoing_changed (other : new ≠ .normal) : Changed p c (c.outgoing new) := by
  unfold outgoing
  split
  · exact .enters new _ (absurd · other)
  · exact .enters _ new id
  · exact .stays

theorem incoming_changed (other : new ≠ .normal) : Changed p c (c.incoming new) := by
  unfold incoming
  split
  · exact .moves new _ _ (absurd · other)
  · exact .moves _ new _ id
  · exact .stays

theorem change_changed : Changed p c (c.change p new) := by
  unfold change
  split
  · exact .stays
  · next differ =>
    cases new with
    | normal => exact .ends (Ne.symm differ)
    | outgoingAudioCall | outgoingVideoCall => exact outgoing_changed (by simp)
    | incomingAudioCall | incomingVideoCall => exact incoming_changed (by simp)
    | incall | invideocall => exact join_changed (by simp)
    | hold => exact .moves .hold _ _ (by simp)
    | resume => exact resume_changed
    | roaming | error | unknown => exact .stays

theorem Changed.posts {c' : Call} (changed : Changed p c c') : Posts c c' := by
  cases changed with
  | stays | moves | enters => exact .refl c
  | ends => exact .cleared c
  | acts call => exact act_posts { c with callState := call }

theorem confirmed_posts (c : Call) : Posts c (c.confirmed p) := by
  unfold confirmed
  cases c.callState with
  | incall | invideocall => exact act_posts c
  | resume =>
    by_cases held : c.aio.isSome
    · simp only [held, if_true]
      exact .refl c
    · simp only [held, if_false, Bool.false_eq_true]
      exact postAlloc_posts c c.asked
  | _ => exact .refl c

theorem entered_posts : Posts c (c.entered p) := by
  unfold entered
  split
  · split
    · exact .refl c
    · exact act_posts c
  · split
    · exact confirmed_posts { c with sysState := .incall }
    · exact .refl c

theorem handle_posts (msg : Message) (c : Call) : Posts c (c.handle p msg) := by
  cases msg with
  | callState new => exact change_changed.posts
  | audioAlloc =>
    simp only [handle, alloc]
    split
    · exact .refl c
    · cases p.audioIoAlloc <;> exact .cleared c
  | audioRelease => exact .cleared c
  | audioReset => simp only [handle, reset]; split <;> exact .refl c
  | sysEnteredCall => exact entered_posts
  | sysLeftCall => simp only [handle, left]; split <;> exact .refl c
  | _ => exact .refl c

end Call

namespace Mm

@[simp] theorem enterCall_toCall : s.enterCall.toCall = s.toCall.enter := by
  obtain ⟨⟨_, _, _, sys, _, _, _, _, _, _, _⟩, _, _, _, _, _⟩ := s
  cases sys <;> rfl

@[simp] theorem exitCall_toCall : s.exitCall.toCall = s.toCall.exit := by
  obtain ⟨⟨_, _, _, sys, _, _, _, _, _, _, _⟩, _, _, _, _, _⟩ := s
  cases sys <;> rfl

@[simp] theorem postMediaCmd_audioAlloc_toCall : (s.postMediaCmd .audioAlloc).toCall = s.toCall.postAlloc := by
  simp only [postMediaCmd, Call.postAlloc]
  split <;> simp [post]

@[simp] theorem readyMedia_toCall : (s.readyMedia p).toCall = s.toCall := by
  unfold readyMedia
  split <;> simp

@[simp] theorem readyToTalk_toCall : (s.readyToTalk p).toCall = { s.toCall with playReady := false } := by
  unfold readyToTalk
  split
  · simp
  · next ready => simp [← eq_false_of_ne_true ready]

@[simp] theorem incallAction_toCall : (s.incallAction p).toCall = s.toCall.act p := by
  unfold incallAction Call.act
  split <;> simp

@[simp] theorem audioRelease_toCall : s.audioRelease.toCall = s.toCall.release := rfl

@[simp] theorem leaveCall_toCall {old : CallState} : (s.leaveCall p old).toCall = s.toCall.exit := by
  cases sys : s.sysState with
  | normal =>
    simp only [leaveCall, sys]
    simp [Call.exit, sys, SysState.exiting]
    simp [← sys]
  | incall =>
    simp only [leaveCall, sys]
    split <;> simp
  | unknown | incoming | enteringCall | exitingCall => simp [leaveCall, sys]

@[simp] theorem toNormal_toCall : (s.toNormal p).toCall = s.toCall.normal := by
  simp [toNormal, Call.normal, Call.release]

@[simp] theorem toOutgoingAudio_toCall : (s.toOutgoingAudio p).toCall = s.toCall.outgoing .outgoingAudioCall := by
  unfold toOutgoingAudio Call.outgoing
  cases s.callState with
  | hold => by_cases sys : s.sysState = .incall <;> simp [sys]
  | _ => simp

@[simp] theorem toOutgoingVideo_toCall : (s.toOutgoingVideo p).toCall = s.toCall.outgoing .outgoingVideoCall := by
  simp only [toOutgoingVideo, Call.outgoing, preferLoudspeaker_toCall]
  cases s.callState with
  | hold => by_cases sys : s.sysState = .incall <;> simp [sys]
  | _ => simp

@[simp] theorem toIncomingAudio_toCall : s.toIncomingAudio.toCall = s.toCall.incoming .incomingAudioCall := by
  unfold toIncomingAudio Call.incoming
  cases s.callState <;> simp

@[simp] theorem toIncomingVideo_toCall : s.toIncomingVideo.toCall = s.toCall.incoming .incomingVideoCall := by
  unfold toIncomingVideo Call.incoming
  cases s.callState <;> simp

theorem handleIncall_toCall : (s.handleIncall p false).toCall =
      match s.sysState with
      | .incall => s.toCall.act p
      | .enteringCall => s.toCall
      | .unknown | .normal | .incoming | .exitingCall => s.toCall.enter := by
  have preferred : (if s.callState = .invideocall then s.preferLoudspeaker true else s).toCall = s.toCall := by
    split <;> simp
  simp only [handleIncall, Bool.false_eq_true, if_false, preferred]
  cases s.sysState <;> simp [preferred]

theorem handleIncall_hold_toCall : (s.handleIncall p true).toCall = s.toCall.enter := by
  simp only [handleIncall, if_true, enterCall_toCall]
  split <;> simp

@[simp] theorem toIncall_toCall : (s.toIncall p new).toCall = s.toCall.join p new := by
  simp only [toIncall, Call.join]
  cases s.callState with
  | incall => by_cases video : new = .invideocall <;> simp [video]
  | invideocall => simp
  | hold => simp [handleIncall_hold_toCall]
  | _ => simp [handleIncall_toCall]

@[simp] theorem toHold_toCall : s.toHold.toCall = s.toCall.hold := rfl

@[simp] theorem toResume_toCall : s.toResume.toCall = s.toCall.resume := by
  by_cases held : s.callState = .hold
  · by_cases call : s.holdState = .incall ∨ s.holdState = .invideocall
    · by_cases sys : s.sysState = .incall <;> simp [toResume, Call.resume, held, call, sys]
    · simp [toResume, Call.resume, held, call]
  · simp [toResume, Call.resume, held]

@[simp] theorem callStateHandler_toCall : (s.callStateHandler p new).toCall = s.toCall.change p new := by
  unfold callStateHandler Call.change
  by_cases same : new = s.callState
  · simp only [same, if_true]
    split <;> simp
  · simp only [same, if_false]
    cases new <;> simp

@[simp] theorem enteredCall_toCall : (s.enteredCall p).toCall = s.toCall.confirmed p := by
  unfold enteredCall Call.confirmed
  cases s.callState with
  | resume => by_cases held : s.aio.isSome <;> simp [held]
  | _ => simp

@[simp] theorem sysEnteredCallHandler_toCall : (s.sysEnteredCallHandler p).toCall = s.toCall.entered p := by
  by_cases call : s.sysState = .incall ∧ (s.callState = .incall ∨ s.callState = .invideocall)
  · by_cases held : s.aio.isSome <;> simp [sysEnteredCallHandler, Call.entered, call, held]
  · simp only [sysEnteredCallHandler, Call.entered, if_neg call]
    by_cases sys : s.sysState = .enteringCall
    · simp [sys]
    · split <;> simp

@[simp] theorem sysLeftCallHandler_toCall : (s.sysLeftCallHandler p).toCall = s.toCall.left := by
  by_cases entering : s.sysState = .enteringCall
  · simp [sysLeftCallHandler, Call.left, entering]
  · by_cases idle : s.callState = .normal <;> simp [sysLeftCallHandler, Call.left, entering, idle]

@[simp] theorem audioAlloc_toCall : (s.audioAlloc p).toCall = s.toCall.alloc p := by
  by_cases held : s.aio.isSome
  · simp [audioAlloc, Call.alloc, held]
  · cases allocated : p.audioIoAlloc <;> simp [audioAlloc, Call.alloc, held, allocated]

@[simp] theorem audioReset_toCall : (s.audioReset p).toCall = s.toCall.reset := by
  unfold audioReset Call.reset
  split
  · split <;> simp
  · simp

/-- Every message does to the call what it does to the machine. -/
@[simp] theorem mqueueHandler_toCall : (s.mqueueHandler p msg).toCall = s.toCall.handle p msg := by
  cases msg with
  | pauseMedia name | stopMedia name => cases found : p.sound name <;> simp [mqueueHandler, Call.handle, found]
  | invokeIncomingh call => cases call <;> rfl
  | _ => simp [mqueueHandler, Call.handle, sysIncomingHandler]

end Mm

/-- What the functions of the interface do to the call: they put messages into the queue, none of them an allocation. -/
structure Posted (c c' : Call) (new : List Message) : Prop where
  fresh : .audioAlloc ∉ new
  same : c' = { c with
    mq := c.mq ++ new, shouldReset := c'.shouldReset, audioStarted := c'.audioStarted, mml := c'.mml }

theorem Posted.none (s : Mm) {mml : List User} (same : s'.toCall = { s.toCall with mml := mml }) :
    Posted s.toCall s'.toCall [] := by
  rw [same]
  exact ⟨by simp, by simp⟩

theorem Posted.one (s : Mm) (other : msg ≠ .audioAlloc) : Posted s.toCall (s.post msg).toCall [msg] :=
  ⟨by simpa using Ne.symm other, rfl⟩

theorem step_posted {a : Action} (other : ∀ p, a ≠ .handle p) (stepped : step a s = some s') :
    ∃ new, Posted s.toCall s'.toCall new := by
  cases a with
  | handle p => exact absurd rfl (other p)
  | dealloc id =>
    simp only [step] at stepped
    split at stepped
    · cases stepped
    · cases stepped
      exact ⟨[], .none s rfl⟩
  | alloc | registerRouteChangeH | overrideSpeaker =>
    cases stepped
    exact ⟨[], .none s rfl⟩
  | updateRoute p =>
    cases stepped
    exact ⟨[], .none s Mm.updateRoute_toCall⟩
  | playMedia name | pauseMedia name | stopMedia name =>
    cases stepped
    split
    · exact ⟨[], .none s rfl⟩
    · exact ⟨_, .one s (by simp)⟩
  | holdAndResume =>
    cases stepped
    split
    · exact ⟨[.callState .hold, .callState .resume], by simp, by simp [Mm.post]⟩
    · exact ⟨[], .none s rfl⟩
  | audioStart =>
    cases stepped
    exact ⟨[], by simp, by simp⟩
  | audioReset =>
    cases stepped
    exact ⟨[.audioReset], by simp, rfl⟩
  | _ =>
    cases stepped
    exact ⟨_, .one s (by simp)⟩

theorem step_handle (stepped : step (.handle p) s = some s') :
    ∃ msg rest, s.mq = msg :: rest ∧ s'.toCall = Call.handle p msg { s.toCall with mq := rest } := by
  cases queue : s.mq with
  | nil => simp [step, queue] at stepped
  | cons msg rest =>
    simp only [step, queue, Option.some.injEq] at stepped
    exact ⟨msg, rest, rfl, by rw [← stepped, Mm.mqueueHandler_toCall]⟩

/-- A step handles the first message of the queue, or puts messages at its end. -/
theorem step_cases {a : Action} (stepped : step a s = some s') :
    (∃ p msg rest, a = .handle p ∧ s.mq = msg :: rest ∧ s'.toCall = Call.handle p msg { s.toCall with mq := rest }) ∨
      (∀ p, a ≠ .handle p) ∧ ∃ new, Posted s.toCall s'.toCall new := by
  by_cases handles : ∃ p, a = .handle p
  · obtain ⟨p, rfl⟩ := handles
    obtain ⟨msg, rest, handled⟩ := step_handle stepped
    exact .inl ⟨p, msg, rest, rfl, handled⟩
  · have other : ∀ p, a ≠ .handle p := by simpa using handles
    exact .inr ⟨other, step_posted other stepped⟩

end Avs.MediaManager
