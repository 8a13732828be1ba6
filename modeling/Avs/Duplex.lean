import Avs.Runs

/-!
Two parties joined by a lossless first-in first-out queue in each direction. A machine says what a party does
on an action of its own and on a message; `step` performs one action or delivers one message. Once one party
only listens, deliveries in any order leave the other as if it had read its inbox at once
(`deliveries_silent`).
-/
namespace Avs.Duplex
open List Option Runs

inductive Side
  | left | right
  deriving DecidableEq, Repr

def Side.other : Side → Side
  | .left => .right
  | .right => .left

theorem Side.other_ne (s : Side) : s.other ≠ s := by cases s <;> decide

theorem Side.other_other (s : Side) : s.other.other = s := by cases s <;> rfl

theorem Side.eq_or_other (s t : Side) : t = s ∨ t = s.other := by cases s <;> cases t <;> decide

instance (P : Side → Prop) [DecidablePred P] : Decidable (∀ s, P s) :=
  decidable_of_iff (P .left ∧ P .right) ⟨fun both s => by cases s <;> simp [both], fun all => ⟨all _, all _⟩⟩

variable {σ μ α : Type}

/-- A party's own actions, which may be out of order, and its reaction to a message. -/
structure Machine (σ μ α : Type) where
  act : Side → α → σ → Option (σ × List μ)
  recv : Side → μ → σ → σ × List μ

/-- The two parties and the messages on their way to each. -/
structure Link (σ μ : Type) where
  node : Side → σ
  inbox : Side → List μ

inductive Event (α : Type)
  | act (side : Side) (action : α)
  | deliver (side : Side)

/-- A party moves on to a state and sends messages; `rest` stays in its inbox. -/
def put (link : Link σ μ) (s : Side) (n : σ) (rest sent : List μ) : Link σ μ where
  node := fun t => if t = s then n else link.node t
  inbox := fun t => if t = s then rest else link.inbox t ++ sent

section
variable (link : Link σ μ) (s : Side) (n : σ) (rest sent : List μ)

@[simp] theorem put_node : (put link s n rest sent).node s = n := by simp [put]

@[simp] theorem put_node_other : (put link s n rest sent).node s.other = link.node s.other := by
  simp [put, s.other_ne]

@[simp] theorem put_inbox : (put link s n rest sent).inbox s = rest := by simp [put]

@[simp] theorem put_inbox_other : (put link s n rest sent).inbox s.other = link.inbox s.other ++ sent := by
  simp [put, s.other_ne]

@[simp] theorem put_other_node : (put link s.other n rest sent).node s = link.node s := by
  simp [put, s.other_ne.symm]

@[simp] theorem put_other_inbox : (put link s.other n rest sent).inbox s = link.inbox s ++ sent := by
  simp [put, s.other_ne.symm]

end

/-- One action of a party, or the delivery of the first message in its inbox. -/
def step (machine : Machine σ μ α) : Event α → Link σ μ → Option (Link σ μ)
  | .act s action, link => (machine.act s action (link.node s)).map (fun r => put link s r.1 (link.inbox s) r.2)
  | .deliver s, link =>
    match link.inbox s with
    | [] => none
    | msg :: rest =>
      let r := machine.recv s msg (link.node s)
      some (put link s r.1 rest r.2)

variable {machine : Machine σ μ α} {link link' : Link σ μ}

theorem step_act {s : Side} {action : α} (stepped : step machine (.act s action) link = some link') :
    ∃ n sent, machine.act s action (link.node s) = some (n, sent) ∧ link' = put link s n (link.inbox s) sent := by
  obtain ⟨⟨n, sent⟩, acted, rfl⟩ := map_eq_some_iff.mp stepped
  exact ⟨n, sent, acted, rfl⟩

theorem step_deliver {s : Side} (stepped : step machine (.deliver s) link = some link') :
    ∃ msg rest, link.inbox s = msg :: rest ∧
      link' = put link s (machine.recv s msg (link.node s)).1 rest (machine.recv s msg (link.node s)).2 := by
  simp only [step] at stepped
  split at stepped
  · exact absurd stepped (by simp)
  · next msg rest at_ => exact ⟨msg, rest, at_, (some.inj stepped).symm⟩

def Delivery : Event α → Prop
  | .deliver _ => True
  | .act _ _ => False

/-- A party once it has received some messages. -/
def received (machine : Machine σ μ α) (s : Side) (n : σ) (msgs : List μ) : σ :=
  msgs.foldl (fun n msg => (machine.recv s msg n).1) n

/-- A party that listens to mild messages says nothing, and the other's replies are mild. -/
structure Listening (machine : Machine σ μ α) (s : Side) (Silent : σ → Prop) (Mild : μ → Prop) : Prop where
  stays : ∀ n msg, Silent n → Mild msg → Silent (machine.recv s msg n).1
  quiet : ∀ n msg, Silent n → Mild msg → (machine.recv s msg n).2 = []
  replies : ∀ n msg, ∀ sent ∈ (machine.recv s.other msg n).2, Mild sent

section
variable {s : Side} {Silent : σ → Prop} {Mild : μ → Prop}

/-- One party listens to what is on its way to it, and the other will have received `n`. -/
structure Awaits (machine : Machine σ μ α) (s : Side) (Silent : σ → Prop) (Mild : μ → Prop) (n : σ) (link : Link σ μ) :
    Prop where
  silent : Silent (link.node s)
  mild : ∀ msg ∈ link.inbox s, Mild msg
  other : received machine s.other (link.node s.other) (link.inbox s.other) = n

theorem step_awaits (listening : Listening machine s Silent Mild) {n : σ} (event : Event α) (link link' : Link σ μ)
    (delivery : Delivery event) (awaits : Awaits machine s Silent Mild n link)
    (stepped : step machine event link = some link') : Awaits machine s Silent Mild n link' := by
  cases event with
  | act x action => exact absurd delivery id
  | deliver x =>
    obtain ⟨msg, rest, at_, rfl⟩ := step_deliver stepped
    rcases Side.eq_or_other s x with rfl | rfl
    · have mild : Mild msg := awaits.mild msg (by simp [at_])
      have nothing := listening.quiet _ msg awaits.silent mild
      refine ⟨?_, ?_, ?_⟩
      · simpa using listening.stays _ msg awaits.silent mild
      · intro later member
        exact awaits.mild later (by simp_all)
      · simpa [nothing] using awaits.other
    · refine ⟨?_, ?_, ?_⟩
      · simpa using awaits.silent
      · intro later member
        simp only [put_other_inbox, mem_append] at member
        rcases member with old | new
        · exact awaits.mild later old
        · exact listening.replies _ msg later new
      · simpa [received, at_] using awaits.other

theorem deliveries_silent (listening : Listening machine s Silent Mild) {events : List (Event α)}
    (deliveries : ∀ event ∈ events, Delivery event) (ran : run (step machine) link events = some link')
    (silent : Silent (link.node s)) (mild : ∀ msg ∈ link.inbox s, Mild msg) (empty : link'.inbox s.other = []) :
    Silent (link'.node s) ∧ link'.node s.other = received machine s.other (link.node s.other) (link.inbox s.other) := by
  have awaits := run_invariant (step_awaits listening) deliveries ⟨silent, mild, rfl⟩ ran
  refine ⟨awaits.silent, ?_⟩
  have other := awaits.other
  rwa [empty] at other

theorem exists_read {machine : Machine σ μ α} {x : Side} {msgs : List μ} : ∀ {link : Link σ μ}, link.inbox x = msgs →
    ∃ link', run (step machine) link (List.replicate msgs.length (.deliver x)) = some link' ∧
      link'.inbox x = [] := by
  induction msgs with
  | nil => exact fun {link} empty => ⟨link, rfl, empty⟩
  | cons msg rest ih =>
    intro link at_
    have next : ∃ link₁, step machine (.deliver x) link = some link₁ ∧ link₁.inbox x = rest := by
      simp only [step, at_, some.injEq, exists_eq_left', put_inbox]
    obtain ⟨link₁, stepped, left⟩ := next
    obtain ⟨link', ran, empty⟩ := ih left
    exact ⟨link', run_cons.mpr ⟨link₁, stepped, ran⟩, empty⟩

theorem step_read (listening : Listening machine s Silent Mild) {n : σ} (event : Event α) (link link' : Link σ μ)
    (own : event = .deliver s) (quiet : Awaits machine s Silent Mild n link ∧ link.inbox s.other = [])
    (stepped : step machine event link = some link') :
    Awaits machine s Silent Mild n link' ∧ link'.inbox s.other = [] := by
  subst own
  obtain ⟨awaits, empty⟩ := quiet
  refine ⟨step_awaits listening (.deliver s) link link' trivial awaits stepped, ?_⟩
  obtain ⟨msg, rest, at_, rfl⟩ := step_deliver stepped
  have nothing := listening.quiet _ msg awaits.silent (awaits.mild msg (by simp [at_]))
  simp [nothing, empty]

/-- Where one party listens, all messages can be delivered. -/
theorem exists_drained (listening : Listening machine s Silent Mild) (silent : Silent (link.node s))
    (mild : ∀ msg ∈ link.inbox s, Mild msg) :
    ∃ events link', (∀ event ∈ events, Delivery event) ∧ run (step machine) link events = some link' ∧
      ∀ x, link'.inbox x = [] := by
  -- The other party reads first, since its replies come to the one that listens.
  obtain ⟨mid, ranOther, emptyOther⟩ := exists_read rfl
  have awaits := run_invariant (step_awaits listening)
    (fun event member => by rw [eq_of_mem_replicate member]; trivial) ⟨silent, mild, rfl⟩ ranOther
  obtain ⟨last, ranSelf, emptySelf⟩ := exists_read rfl
  have kept := run_invariant (step_read listening) (fun event member => eq_of_mem_replicate member)
    ⟨awaits, emptyOther⟩ ranSelf
  refine ⟨_, last, ?_, run_append.mpr ⟨mid, ranOther, ranSelf⟩, ?_⟩
  · intro event member
    rcases mem_append.mp member with first | second
    · rw [eq_of_mem_replicate first]
      trivial
    · rw [eq_of_mem_replicate second]
      trivial
  · intro x
    rcases Side.eq_or_other s x with rfl | rfl
    · exact emptySelf
    · exact kept.2

end

end Avs.Duplex
