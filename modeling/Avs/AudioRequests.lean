import Avs.MediaCall

/-!
Whether a request for audio is answered. An allocation that is handled while audio is held does not clear
`alloc_pending`, and the next request is swallowed. In runs without such a step the flag stands for a message
of the queue (`Queued`).
-/
namespace Avs.MediaManager
open List Runs

variable {p : Platform} {a : Action} {s s' : Mm} {users : List Nat}

namespace Call

variable {c : Call}

theorem alloc_pending (free : c.aio = none) : (c.alloc p).allocPending = false := by
  simp only [alloc, free]
  cases p.audioIoAlloc <;> rfl

/-- A pending allocation is in the queue. -/
def Queued (c : Call) : Prop := c.allocPending = true → .audioAlloc ∈ c.mq

theorem handle_queued {msg : Message} {rest : List Message} (queue : c.mq = msg :: rest)
    (free : msg = .audioAlloc → c.aio = none) (queued : c.Queued) : (handle p msg { c with mq := rest }).Queued := by
  intro set
  by_cases alloc : msg = .audioAlloc
  · subst alloc
    have cleared : (handle p .audioAlloc { c with mq := rest }).allocPending = false := alloc_pending (free rfl)
    rw [cleared] at set
    cases set
  · obtain ⟨mq, pending, _⟩ := handle_posts msg { c with mq := rest }
    rcases pending set with before | posted
    · have waits : .audioAlloc ∈ c.mq := queued before
      rw [queue] at waits
      have remains : .audioAlloc ∈ rest := mem_of_ne_of_mem (Ne.symm alloc) waits
      rcases mq with same | posted
      · exact same ▸ remains
      · exact posted ▸ mem_append_left _ remains
    · exact posted ▸ mem_append_right _ (mem_singleton_self _)

end Call

/-- No allocation is handled while audio is held. -/
def AllocatesFree (a : Action) (s : Mm) : Prop :=
  match a with
  | .handle _ => s.mq.head? = some .audioAlloc → s.aio = none
  | _ => True

theorem step_queued (free : AllocatesFree a s) (queued : s.toCall.Queued)
    (stepped : step a s = some s') : s'.toCall.Queued := by
  rcases step_cases stepped with ⟨p, msg, rest, rfl, queue, after⟩ | ⟨other, new, posted⟩
  · rw [after]
    exact Call.handle_queued queue (fun alloc => free (by simp [queue, alloc])) queued
  · intro pending
    rw [posted.same] at pending ⊢
    exact mem_append_left _ (queued pending)

theorem step_asked (stepped : step a s = some s') (asked : s'.asked ≠ s.asked) : s'.allocPending = true := by
  rcases step_cases stepped with ⟨p, msg, rest, rfl, _, after⟩ | ⟨other, new, posted⟩
  · obtain ⟨_, _, pending, _⟩ := Call.handle_posts msg { s.toCall with mq := rest }
    rw [after] at asked ⊢
    exact pending asked
  · rw [posted.same] at asked
    exact absurd rfl asked

theorem step_users {id : Nat} (stepped : step a s = some s') (stays : a ≠ .dealloc id)
    (member : id ∈ s.mml.map User.id) : id ∈ s'.mml.map User.id := by
  have unchanged (same : s'.mml = s.mml) : id ∈ s'.mml.map User.id := same ▸ member
  cases a with
  | handle p =>
    obtain ⟨msg, rest, _, after⟩ := step_handle stepped
    exact unchanged (after ▸ (Call.handle_posts msg { s.toCall with mq := rest }).2.2.2)
  | alloc user =>
    cases stepped
    simpa using .inl (by simpa using member)
  | dealloc other =>
    simp only [step] at stepped
    split at stepped
    · cases stepped
    · cases stepped
      obtain ⟨user, present, rfl⟩ := mem_map.mp member
      refine mem_map.mpr ⟨user, mem_filter.mpr ⟨present, ?_⟩, rfl⟩
      simpa using fun same => stays (by rw [same])
  | registerRouteChangeH other =>
    cases stepped
    obtain ⟨user, present, rfl⟩ := mem_map.mp member
    refine mem_map.mpr ⟨_, mem_map_of_mem present, ?_⟩
    split <;> rfl
  | updateRoute p =>
    cases stepped
    exact unchanged (by simp)
  | playMedia name | pauseMedia name | stopMedia name | holdAndResume =>
    cases stepped
    refine unchanged ?_
    split <;> rfl
  | _ =>
    cases stepped
    exact unchanged rfl

def Action.handles : Action → Bool
  | .handle _ => true
  | _ => false

/-- In one step of a run the users are called with a state, those given among them. -/
def Answered (users : List Nat) (s : Mm) (actions : List Action) : Prop :=
  ∃ front a back mid mid' told state, actions = front ++ a :: back ∧ run step s front = some mid ∧
    step a mid = some mid' ∧ mid'.log = mid.log ++ [.mcatChanged told state] ∧ ∀ id ∈ users, id ∈ told

theorem Answered.cons {rest : List Action} (stepped : step a s = some s')
    (answered : Answered users s' rest) : Answered users s (a :: rest) := by
  obtain ⟨front, b, back, mid, mid', told, state, split, reached, next, log, all⟩ := answered
  exact ⟨a :: front, b, back, mid, mid', told, state, by simp [split], run_cons.mpr ⟨s', stepped, reached⟩, next,
    log, all⟩

theorem audioAlloc_log (s : Mm) :
    ∃ state, (s.audioAlloc p).log = s.log ++ [.mcatChanged (s.mml.map User.id) state] := by
  unfold Mm.audioAlloc
  split
  · exact ⟨_, rfl⟩
  · cases p.audioIoAlloc <;> exact ⟨_, rfl⟩

theorem alloc_answered {back : List Action} {t : Mm} {ahead behind : List Message}
    (queue : s.mq = ahead ++ .audioAlloc :: behind) (registered : ∀ id ∈ users, id ∈ s.mml.map User.id)
    (stay : ∀ id ∈ users, .dealloc id ∉ back) (enough : ahead.length < back.countP Action.handles)
    (ran : run step s back = some t) : Answered users s back := by
  induction back generalizing s ahead behind with
  | nil => simp at enough
  | cons a rest ih =>
    obtain ⟨s', stepped, ran'⟩ := run_cons.mp ran
    have stay' : ∀ id ∈ users, .dealloc id ∉ rest := fun id member removed => stay id member (by simp [removed])
    have registered' : ∀ id ∈ users, id ∈ s'.mml.map User.id := by
      intro id member
      exact step_users stepped (fun same => stay id member (by simp [same])) (registered id member)
    by_cases handles : ∃ p, a = .handle p
    · obtain ⟨p, rfl⟩ := handles
      cases ahead with
      | nil =>
        have fired : Mm.audioAlloc p { s with mq := behind } = s' := by
          simpa [step, queue, Mm.mqueueHandler] using stepped
        obtain ⟨state, log⟩ := audioAlloc_log { s with mq := behind }
        exact ⟨[], _, rest, s, s', _, state, rfl, rfl, stepped, fired ▸ log, registered⟩
      | cons msg ahead =>
        obtain ⟨msg', rest', queue', after⟩ := step_handle stepped
        obtain ⟨mq, _⟩ := Call.handle_posts msg' { s.toCall with mq := rest' }
        rw [← after] at mq
        rw [queue] at queue'
        obtain ⟨rfl, rfl⟩ := List.cons.inj queue'
        have shorter : ahead.length < rest.countP Action.handles := by
          rw [countP_cons_of_pos rfl, length_cons] at enough
          omega
        rcases mq with same | posted
        · exact (ih same registered' stay' shorter ran').cons stepped
        · have queue' : s'.mq = ahead ++ .audioAlloc :: (behind ++ [.audioAlloc]) :=
            posted.trans (append_assoc _ _ _)
          exact (ih queue' registered' stay' shorter ran').cons stepped
    · obtain ⟨new, posted⟩ := step_posted (by simpa using handles) stepped
      have unhandled : Action.handles a = false := by
        cases a <;> first | rfl | exact absurd ⟨_, rfl⟩ handles
      have same : ahead.length < rest.countP Action.handles := by simpa [unhandled] using enough
      have mq : s'.mq = s.mq ++ new := by rw [posted.same]
      have queue' : s'.mq = ahead ++ .audioAlloc :: (behind ++ new) := by simp [mq, queue]
      exact (ih queue' registered' stay' same ran').cons stepped

/-- In a run without an allocation that finds audio held, a pending allocation is in the queue; and whenever the in-call
    action asks for audio, the users who stay are told of a state once as many messages are handled as are in the queue
    then. -/
theorem audio_requests_answered (user : User) (actions : List Action) (t : Mm)
    (free : Throughout step (start user) actions AllocatesFree)
    (ran : run step (start user) actions = some t) :
    (t.allocPending = true → .audioAlloc ∈ t.mq) ∧
    ∀ front a back mid mid' users, actions = front ++ a :: back → run step (start user) front = some mid →
      step a mid = some mid' → mid'.asked ≠ mid.asked → (∀ id ∈ users, id ∈ mid'.mml.map User.id) →
      (∀ id ∈ users, .dealloc id ∉ back) → mid'.mq.length ≤ back.countP Action.handles → Answered users mid' back := by
  have keeps : ∀ a s s', AllocatesFree a s → s.toCall.Queued → step a s = some s' → s'.toCall.Queued :=
    fun _ _ _ free queued stepped => step_queued free queued stepped
  have begun : (start user).toCall.Queued := by simp [Call.Queued, start]
  refine ⟨run_throughout keeps free begun ran, ?_⟩
  intro front a back mid mid' users split before stepped asked registered stay enough
  subst split
  obtain ⟨mid₁, before₁, rest⟩ := run_append.mp ran
  obtain rfl := Option.some.inj (before.symm.trans before₁)
  obtain ⟨mid₂, stepped₂, after⟩ := run_cons.mp rest
  obtain rfl := Option.some.inj (stepped.symm.trans stepped₂)
  have queued : mid.toCall.Queued := run_throughout keeps (throughout_front free) begun before
  have queued' : mid'.toCall.Queued := step_queued (free front a back mid rfl before) queued stepped
  -- The request leaves an allocation pending, so there is one in the queue to answer it.
  obtain ⟨ahead, behind, queue⟩ := append_of_mem (queued' (step_asked stepped asked))
  have first : ahead.length < back.countP Action.handles := by
    rw [queue, length_append, length_cons] at enough
    omega
  exact alloc_answered queue registered stay first after

instance (a : Action) (s : Mm) : Decidable (AllocatesFree a s) :=
  decidable_of_iff (a.handles → s.mq.head? = some .audioAlloc → s.aio = none)
    (by cases a <;> simp [AllocatesFree, Action.handles])

/-- A call that is entered; its request for audio is answered with the next message. -/
theorem audio_requests_answered_call :
    ∃ mid', run step (start ⟨0, false⟩) [.setCallState .incall, .handle (granting 7), .sysEnteredCall,
        .handle (granting 7)] = some mid' ∧ Answered [0] mid' [.handle (granting 7)] := by
  let front : List Action := [.setCallState .incall, .handle (granting 7), .sysEnteredCall]
  have shown : ∃ mid, run step (start ⟨0, false⟩) front = some mid ∧ mid.asked = 0 ∧
      ∃ mid', step (.handle (granting 7)) mid = some mid' ∧ mid'.asked = 1 ∧ mid'.mq = [.audioAlloc] ∧
        mid'.mml = [⟨0, false⟩] ∧ ∃ t, step (.handle (granting 7)) mid' = some t ∧ t.callState = .incall := by
    decide +kernel
  obtain ⟨mid, before, none, mid', stepped, one, queue, mml, t, last, -⟩ := shown
  have ran : run step (start ⟨0, false⟩) (front ++ .handle (granting 7) :: [.handle (granting 7)]) = some t :=
    run_append.mpr ⟨mid, before, run_cons.mpr ⟨mid', stepped, run_cons.mpr ⟨t, last, rfl⟩⟩⟩
  refine ⟨mid', run_append.mpr ⟨mid, before, run_cons.mpr ⟨mid', stepped, rfl⟩⟩, ?_⟩
  exact (audio_requests_answered _ _ t (by decide +kernel) ran).2 front _ _ mid mid' [0] rfl before stepped
    (by simp [none, one]) (by simp [mml]) (by simp) (by simp [queue, Action.handles])

/-- The platform leaves the call twice while audio is held, and enters it again. -/
def enteredThrice : List Action :=
  [.setCallState .incall, .handle (granting 7), .sysEnteredCall, .handle (granting 7), .handle (granting 7),
    .sysLeftCall, .handle (granting 7), .enterCall, .handle (granting 7), .sysEnteredCall, .handle (granting 7),
    .handle (granting 7),
    .sysLeftCall, .handle (granting 7), .enterCall, .handle (granting 7), .sysEnteredCall, .handle (granting 7)]

/-- The allocation for the second entry leaves its flag set; the request of the third entry, the last action, posts
    nothing and calls no user. -/
theorem audio_request_swallowed :
    (run step (start ⟨0, false⟩) enteredThrice.dropLast).map (fun t => (t.mq, t.allocPending, t.asked)) =
      some ([.sysEnteredCall], true, 2) ∧
    (run step (start ⟨0, false⟩) enteredThrice).map (fun t => (t.mq, t.allocPending, t.asked, t.log.getLast?)) =
      some ([], true, 3, some .stopDelayedPlay) := by
  decide +kernel

end Avs.MediaManager
