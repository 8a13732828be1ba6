import Mathlib.Data.List.Induction

/-!
Runs of a machine whose steps may fail to complete. A step function takes an action and a state to the next
state, or to nothing when the step does not complete; `run` applies a list of actions in order.
-/
namespace Avs.Runs
open List Option

variable {State Action : Type*} {step : Action → State → Option State} {P : Action → State → Prop} {Inv : State → Prop}
  {s t : State}

/-- The state after the actions, in order; nothing once a step does not complete. -/
def run (step : Action → State → Option State) : State → List Action → Option State
  | s, [] => some s
  | s, a :: rest => (step a s).bind (fun s' => run step s' rest)

theorem run_nil {step : Action → State → Option State} {s : State} : run step s [] = some s := rfl

theorem run_cons {a : Action} {rest : List Action} :
    run step s (a :: rest) = some t ↔ ∃ s', step a s = some s' ∧ run step s' rest = some t := by
  simp [run, bind_eq_some_iff]

theorem run_bind {step : Action → State → Option State} (s : State) (first second : List Action) :
    run step s (first ++ second) = (run step s first).bind (fun t => run step t second) := by
  induction first generalizing s with
  | nil => rfl
  | cons a rest ih =>
    rw [cons_append, run, run, bind_assoc]
    exact congrArg _ (funext ih)

theorem run_append {first second : List Action} : run step s (first ++ second) = some t ↔
      ∃ s', run step s first = some s' ∧ run step s' second = some t := by
  rw [run_bind, bind_eq_some_iff]

/-- What holds at the start and survives every completed step of an allowed action holds after every completed run of
    allowed actions. -/
theorem run_invariant {Allowed : Action → Prop} (keeps : ∀ a s s', Allowed a → Inv s → step a s = some s' → Inv s') :
    ∀ {actions : List Action} {s t : State}, (∀ a ∈ actions, Allowed a) → Inv s →
      run step s actions = some t → Inv t := by
  intro actions
  induction actions with
  | nil =>
    intro s t _ holds ran
    simp only [run_nil, some.injEq] at ran
    exact ran ▸ holds
  | cons a rest ih =>
    intro s t allowed holds ran
    obtain ⟨s', stepped, ran'⟩ := run_cons.mp ran
    exact ih (fun b member => allowed b (by simp [member]))
      (keeps a s s' (allowed a (by simp)) holds stepped) ran'

/-- A condition on every action of a run and the state it is taken in. -/
def Throughout (step : Action → State → Option State) (s : State) (actions : List Action)
    (P : Action → State → Prop) : Prop :=
  ∀ front a back mid, actions = front ++ a :: back → run step s front = some mid → P a mid

theorem throughout_front {first second : List Action}
    (throughout : Throughout step s (first ++ second) P) : Throughout step s first P := by
  intro front a back mid split reached
  exact throughout front a (back ++ second) mid (by simp [split]) reached

theorem throughout_cons {s' : State} {a : Action} {rest : List Action} (stepped : step a s = some s') :
    Throughout step s (a :: rest) P ↔ P a s ∧ Throughout step s' rest P := by
  constructor
  · intro throughout
    refine ⟨throughout [] a rest s rfl rfl, ?_⟩
    intro front b back mid split reached
    exact throughout (a :: front) b back mid (by rw [split]; rfl) (run_cons.mpr ⟨s', stepped, reached⟩)
  · rintro ⟨first, later⟩ front b back mid split reached
    cases front with
    | nil =>
      obtain ⟨rfl, rfl⟩ := List.cons.inj split
      obtain rfl := some.inj reached
      exact first
    | cons c front =>
      obtain ⟨rfl, split'⟩ := List.cons.inj split
      obtain ⟨s'', stepped', reached'⟩ := run_cons.mp reached
      obtain rfl := some.inj (stepped.symm.trans stepped')
      exact later front b back mid split' reached'

theorem throughout_stuck {a : Action} {rest : List Action} (stuck : step a s = none) :
    Throughout step s (a :: rest) P ↔ P a s := by
  refine ⟨fun throughout => throughout [] a rest s rfl rfl, fun first front b back mid split reached => ?_⟩
  cases front with
  | nil =>
    obtain ⟨rfl, rfl⟩ := List.cons.inj split
    exact some.inj reached ▸ first
  | cons c front =>
    obtain ⟨rfl, -⟩ := List.cons.inj split
    simp [run, stuck] at reached

/-- What holds at the start and survives every completed step that meets a condition holds after every completed run
    that meets it throughout. -/
theorem run_throughout (keeps : ∀ a s s', P a s → Inv s → step a s = some s' → Inv s') :
    ∀ {actions : List Action} {s t : State}, Throughout step s actions P → Inv s →
      run step s actions = some t → Inv t := by
  intro actions
  induction actions with
  | nil =>
    intro s t _ holds ran
    simp only [run_nil, some.injEq] at ran
    exact ran ▸ holds
  | cons a rest ih =>
    intro s t throughout holds ran
    obtain ⟨s', stepped, ran'⟩ := run_cons.mp ran
    obtain ⟨first, later⟩ := (throughout_cons stepped).mp throughout
    exact ih later (keeps a s s' first holds stepped) ran'

/-- Two conditions that agree where an invariant holds are met throughout by the same runs, if the steps that meet the
    first keep the invariant. -/
theorem throughout_congr {Q : Action → State → Prop} (agree : ∀ a s, Inv s → (P a s ↔ Q a s))
    (keeps : ∀ a s s', P a s → Inv s → step a s = some s' → Inv s') (start : Inv s) (actions : List Action) :
    Throughout step s actions P ↔ Throughout step s actions Q := by
  have keepsQ : ∀ a s s', Q a s → Inv s → step a s = some s' → Inv s' := by
    intro a s s' met holds stepped
    exact keeps a s s' ((agree a s holds).mpr met) holds stepped
  constructor
  · intro throughout front a back mid split reached
    have holds : Inv mid := run_throughout keeps (throughout_front (split ▸ throughout)) start reached
    exact (agree a mid holds).mp (throughout front a back mid split reached)
  · intro throughout front a back mid split reached
    have holds : Inv mid := run_throughout keepsQ (throughout_front (split ▸ throughout)) start reached
    exact (agree a mid holds).mpr (throughout front a back mid split reached)

/-- A run completes exactly when each of its steps does. -/
theorem run_isSome_iff {actions : List Action} :
    (run step s actions).isSome ↔ Throughout step s actions (fun a s => (step a s).isSome) := by
  induction actions generalizing s with
  | nil =>
    refine iff_of_true rfl fun front a back mid split _ => ?_
    exact absurd split (by simp)
  | cons a rest ih =>
    cases stepped : step a s with
    | none =>
      refine iff_of_false (by simp [run, stepped]) fun throughout => ?_
      simpa [stepped] using throughout [] a rest s rfl rfl
    | some s' =>
      rw [throughout_cons stepped, ← ih, run, stepped]
      simp

theorem run_history {Inv : List Action → State → Prop} (start : Inv [] s)
    (keeps : ∀ front a mid mid', run step s front = some mid → P a mid → Inv front mid → step a mid = some mid' →
      Inv (front ++ [a]) mid') {actions : List Action} :
    ∀ {t : State}, Throughout step s actions P → run step s actions = some t → Inv actions t := by
  induction actions using List.reverseRecOn with
  | nil =>
    intro t _ ran
    simp only [run_nil, some.injEq] at ran
    exact ran ▸ start
  | append_singleton front a ih =>
    intro t throughout ran
    obtain ⟨mid, reached, last⟩ := run_append.mp ran
    obtain ⟨t', stepped, ended⟩ := run_cons.mp last
    obtain rfl := some.inj ended
    refine keeps front a mid t' reached (throughout front a [] mid rfl reached) (ih ?_ reached) stepped
    intro front' b back mid' split reached'
    exact throughout front' b (back ++ [a]) mid' (by rw [split]; simp) reached'

/-- The steps that meet a condition. -/
def guarded (step : Action → State → Option State) (P : Action → State → Prop) [∀ a s, Decidable (P a s)]
    (a : Action) (s : State) : Option State :=
  if P a s then step a s else none

/-- A run of the steps that meet a condition is a run that meets it throughout. -/
theorem run_guarded [∀ a s, Decidable (P a s)] {actions : List Action} (ran : run (guarded step P) s actions = some t) :
    Throughout step s actions P ∧ run step s actions = some t := by
  induction actions generalizing s with
  | nil =>
    refine ⟨fun front a back mid split _ => ?_, ran⟩
    exact absurd split (by simp)
  | cons a rest ih =>
    obtain ⟨s', stepped, ran'⟩ := run_cons.mp ran
    simp only [guarded] at stepped
    split at stepped
    · next holds =>
      obtain ⟨throughout, ran''⟩ := ih ran'
      exact ⟨(throughout_cons stepped).mpr ⟨holds, throughout⟩, run_cons.mpr ⟨s', stepped, ran''⟩⟩
    · exact absurd stepped (by simp)

/-- A condition is tested along the run. -/
instance decidableThroughout [∀ a s, Decidable (P a s)] :
    (s : State) → (actions : List Action) → Decidable (Throughout step s actions P)
  | _, [] => .isTrue (by simp [Throughout])
  | s, a :: rest =>
    match stepped : step a s with
    | none => decidable_of_iff (P a s) (throughout_stuck stepped).symm
    | some s' =>
      have := decidableThroughout s' rest
      decidable_of_iff _ (throughout_cons stepped).symm

/-- Whether there is a result with a property is seen by evaluating it. -/
instance decidableExistsSome {Result : Type*} (found : Option Result) (Q : Result → Prop) [DecidablePred Q] :
    Decidable (∃ r, found = some r ∧ Q r) :=
  inferInstanceAs (Decidable (∃ r ∈ found, Q r))

instance decidableExistsSomeSome {Result : Type*} (found : Option (Option Result)) (Q : Result → Prop)
    [DecidablePred Q] : Decidable (∃ r, found = some (some r) ∧ Q r) :=
  decidable_of_iff (∃ r ∈ found.join, Q r) (by simp [join_eq_some_iff])

/-- What is evaluated of a result holds of it. -/
theorem exists_shown {Result : Type*} {found : Option Result} {Q : Result → Prop} (D : Result → Prop)
    (shown : ∃ r, found = some r ∧ D r) (rest : ∀ r, found = some r → D r → Q r) : ∃ r, found = some r ∧ Q r := by
  obtain ⟨r, same, holds⟩ := shown
  exact ⟨r, same, rest r same holds⟩

theorem exists_guarded {Q : State → Prop} (P : Action → State → Prop) [∀ a s, Decidable (P a s)] (D : State → Prop)
    {actions : List Action} (shown : ∃ t, run (guarded step P) s actions = some t ∧ D t)
    (rest : ∀ t, Throughout step s actions P → run step s actions = some t → D t → Q t) :
    ∃ t, run step s actions = some t ∧ Q t := by
  obtain ⟨t, ran, holds⟩ := shown
  obtain ⟨throughout, ran⟩ := run_guarded ran
  exact ⟨t, ran, rest t throughout ran holds⟩

/-- What holds before a loop over a list and survives each of its steps, together with what the loop has done so far,
    holds after it of the whole list. -/
theorem foldl_taken {α β : Type*} {f : β → α → β} {whole : List α} (P : List α → β → Prop) {s : β}
    (step : ∀ done a rest s, whole = done ++ a :: rest → P done s → P (done ++ [a]) (f s a)) (start : P [] s) :
    P whole (whole.foldl f s) := by
  have taken : ∀ rest done s, whole = done ++ rest → P done s → P whole (rest.foldl f s) := by
    intro rest
    induction rest with
    | nil =>
      intro done s split holds
      rwa [split, append_nil]
    | cons a rest ih =>
      intro done s split holds
      exact ih (done ++ [a]) (f s a) (by simp [split]) (step done a rest s split holds)
  exact taken whole [] s rfl start

end Avs.Runs
