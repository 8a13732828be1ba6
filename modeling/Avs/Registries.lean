import Avs.EventQueue

/-!
The registries of `src/wcall`: the instances that `wcall_event_create` makes for the users and clients of a
device, and the durations that wait for a call. Both are looked up by a loop that never moves its cursor
(`walk`). Allocations succeed.
-/
namespace Avs.Registry
open List Option

open EventQueue

variable {fuel : Nat} {creates : List (Bytes × Bytes)} {registered : List (Bytes × Int)} {convid : Bytes}

section
variable {α : Type} {isIt : α → Bool}

/-- `while (le && !found)`, with a body that looks at the entry and leaves `le` alone. -/
def walk (isIt : α → Bool) : (fuel : Nat) → (le : List α) → (found : Option α) → Option (Option α)
  | _, [], found => some found
  | _, _ :: _, some found => some (some found)
  | 0, _ :: _, none => none
  | fuel + 1, entry :: rest, none => walk isIt fuel (entry :: rest) (if isIt entry then some entry else none)

theorem walk_stuck {entry : α} (other : isIt entry = false) {rest : List α} :
    walk isIt fuel (entry :: rest) none = none := by
  induction fuel with
  | zero => rfl
  | succ fuel ih => rw [walk, other, if_neg (by simp), ih]

theorem walk_first {entry : α} (sought : isIt entry = true) {rest : List α} :
    walk isIt (fuel + 1) (entry :: rest) none = some (some entry) := by
  rw [walk, if_pos sought, walk]

/-- The loop ends on an empty list and at a first entry that is sought. -/
theorem walk_ends_iff {le : List α} {found : Option α} : (∃ fuel, walk isIt fuel le none = some found) ↔
      le.head? = found ∧ ∀ entry, le.head? = some entry → isIt entry = true := by
  cases le with
  | nil => simp [walk]
  | cons entry rest =>
    simp only [List.head?_cons, some.injEq, forall_eq']
    constructor
    · rintro ⟨fuel, ended⟩
      cases sought : isIt entry with
      | false => simp [walk_stuck sought] at ended
      | true =>
        cases fuel with
        | zero => cases ended
        | succ fuel =>
          rw [walk_first sought] at ended
          exact ⟨some.inj ended, rfl⟩
    · rintro ⟨rfl, sought⟩
      exact ⟨1, walk_first sought⟩

end

structure CallingEvent where
  wuserIndex : UInt32
  instances : List Instance
  deriving DecidableEq, Repr

def wuMagic : UInt32 := 0x57550000

/-- `wcall_create_wuser`, with the next index. -/
def createWuser (idx : UInt32) : UInt32 × UInt32 := (wuMagic + idx, (idx + 1) &&& 0xFFFF)

def eventCreate (fuel : Nat) (ids : Bytes × Bytes) (calling : CallingEvent) : Option (UInt32 × CallingEvent) :=
  (walk (fun inst : Instance => inst.userid = ids.1 ∧ inst.clientid = ids.2) fuel calling.instances none).map
    (fun found =>
      match found with
      | some inst => (inst.wuser, calling)
      | none =>
        let (wuser, index) := createWuser calling.wuserIndex
        (wuser, ⟨index, calling.instances ++ [⟨wuser, ids.1, ids.2, false, []⟩]⟩))

def createAll (fuel : Nat) : List (Bytes × Bytes) → CallingEvent → Option (List UInt32)
  | [], _ => some []
  | ids :: rest, calling =>
    (eventCreate fuel ids calling).bind (fun created => (createAll fuel rest created.2).map (created.1 :: ·))

/-- All calls end, and two of them return one handle exactly where they name one user and client. -/
def CreatesExactly (creates : List (Bytes × Bytes)) : Prop :=
  ∃ fuel handles, createAll fuel creates ⟨0, []⟩ = some handles ∧ handles.length = creates.length ∧
    ∀ m n, m < n → n < creates.length → (handles[m]? = handles[n]? ↔ creates[m]? = creates[n]?)

section
variable {ids : Bytes × Bytes} {calling : CallingEvent} {inst : Instance} {others : List Instance}

theorem eventCreate_named {created : UInt32 × CallingEvent}
    (first : calling.instances = inst :: others) (ended : eventCreate fuel ids calling = some created) :
    ids = (inst.userid, inst.clientid) ∧ created = (inst.wuser, calling) := by
  rw [eventCreate, first, map_eq_some_iff] at ended
  obtain ⟨found, ended, made⟩ := ended
  obtain ⟨head, sought⟩ := walk_ends_iff.mp ⟨fuel, ended⟩
  have same := of_decide_eq_true (sought inst rfl)
  obtain rfl : some inst = found := head
  exact ⟨Prod.ext same.1.symm same.2.symm, made.symm⟩

theorem createAll_named (first : calling.instances = inst :: others) {handles : List UInt32}
    (ended : createAll fuel creates calling = some handles) : ∀ ids ∈ creates, ids = (inst.userid, inst.clientid) := by
  induction creates generalizing handles with
  | nil => simp
  | cons ids rest ih =>
    obtain ⟨created, now, later⟩ := bind_eq_some_iff.mp ended
    obtain ⟨named, rfl⟩ := eventCreate_named first now
    obtain ⟨handles', ended', _⟩ := map_eq_some_iff.mp later
    intro ids' member
    rcases mem_cons.mp member with rfl | member
    · exact named
    · exact ih ended' ids' member

theorem createAll_found {index : UInt32} (inst : Instance) (others : List Instance) (n : Nat) :
    createAll 1 (List.replicate n (inst.userid, inst.clientid)) ⟨index, inst :: others⟩ =
      some (List.replicate n inst.wuser) := by
  induction n with
  | zero => rfl
  | succ n ih =>
    have found : eventCreate 1 (inst.userid, inst.clientid) ⟨index, inst :: others⟩ =
        some (inst.wuser, ⟨index, inst :: others⟩) := by
      rw [eventCreate, walk_first (by simp)]
      rfl
    rw [replicate_succ, createAll, found, bind_some, ih]
    rfl

theorem eventCreate_first : eventCreate fuel ids ⟨0, []⟩ = some (wuMagic, ⟨1, [resting wuMagic ids.1 ids.2]⟩) := by
  simp only [eventCreate, walk, map_some]
  rfl

end

theorem createsExactly_iff : CreatesExactly creates ↔ ∀ ids ∈ creates, creates.head? = some ids := by
  cases creates with
  | nil => exact iff_of_true ⟨0, [], rfl, rfl, by simp⟩ (by simp)
  | cons ids rest =>
    simp only [List.head?_cons, some.injEq]
    constructor
    · rintro ⟨fuel, handles, ended, _, _⟩
      obtain ⟨created, now, later⟩ := bind_eq_some_iff.mp ended
      rw [eventCreate_first] at now
      obtain rfl := some.inj now
      obtain ⟨handles', ended', _⟩ := map_eq_some_iff.mp later
      intro ids' member
      rcases mem_cons.mp member with rfl | member
      · rfl
      · exact (createAll_named rfl ended' ids' member).symm
    · intro same
      have all : rest = List.replicate rest.length (ids.1, ids.2) :=
        eq_replicate_iff.mpr ⟨rfl, fun ids' member => (same ids' (mem_cons_of_mem _ member)).symm⟩
      have ended : createAll 1 (ids :: rest) ⟨0, []⟩ = some (List.replicate (rest.length + 1) wuMagic) := by
        have found : createAll 1 (List.replicate rest.length (ids.1, ids.2)) ⟨1, [resting wuMagic ids.1 ids.2]⟩ =
            some (List.replicate rest.length wuMagic) :=
          createAll_found (resting wuMagic ids.1 ids.2) [] rest.length
        rw [createAll, eventCreate_first, bind_some, all, length_replicate, found]
        rfl
      refine ⟨1, _, ended, by simp, ?_⟩
      intro m n before inside
      have whole : ids :: rest = List.replicate (rest.length + 1) (ids.1, ids.2) := by
        rw [replicate_succ, ← all]
      rw [length_cons] at inside
      rw [whole]
      simp [inside, Nat.lt_trans before inside]

def durationLookup (fuel : Nat) (convid : Bytes) (durationl : List (Bytes × Int)) : Option (Option (Bytes × Int)) :=
  walk (fun dent => dent.1 = convid) fuel durationl none

def durationAddAll (registered : List (Bytes × Int)) : List (Bytes × Int) :=
  registered.foldl (fun durationl dent => durationl ++ [dent]) []

/-- The lookup ends, with an entry of the conversation exactly where one is registered. -/
def LooksUpExactly (registered : List (Bytes × Int)) (convid : Bytes) : Prop :=
  ∃ fuel found, durationLookup fuel convid (durationAddAll registered) = some found ∧
    (∀ dent, found = some dent → dent ∈ registered ∧ dent.1 = convid) ∧
    (found = none → ∀ dent ∈ registered, dent.1 ≠ convid)

theorem durationAddAll_eq : durationAddAll registered = registered := by
  have all : ∀ front : List (Bytes × Int),
      registered.foldl (fun durationl dent => durationl ++ [dent]) front = front ++ registered := by
    induction registered with
    | nil => simp
    | cons dent rest ih =>
      intro front
      rw [foldl_cons, ih, append_assoc, singleton_append]
  exact all []

theorem looksUpExactly_iff :
    LooksUpExactly registered convid ↔ ∀ dent, registered.head? = some dent → dent.1 = convid := by
  rw [LooksUpExactly, durationAddAll_eq]
  constructor
  · rintro ⟨fuel, found, ended, _⟩ dent head
    exact of_decide_eq_true ((walk_ends_iff.mp ⟨fuel, ended⟩).2 dent head)
  · intro first
    obtain ⟨fuel, ended⟩ := walk_ends_iff.mpr (And.intro (rfl : registered.head? = registered.head?)
      (fun dent head => decide_eq_true (first dent head)))
    refine ⟨fuel, registered.head?, ended, ?_, ?_⟩
    · intro dent head
      exact ⟨mem_of_mem_head? head, first dent head⟩
    · intro empty
      simp [List.head?_eq_none_iff.mp empty]

theorem takeDuration_isSome_iff {σ : Type} {icall : Icall σ} {calls : Calls σ} :
    (calls.takeDuration icall convid).isSome ↔
      ∃ fuel found, durationLookup fuel convid calls.durationl = some found := by
  rw [exists_comm]
  simp only [durationLookup, walk_ends_iff, decide_eq_true_eq, exists_and_right, exists_eq', true_and]
  unfold Calls.takeDuration
  split
  · next empty => simp [empty]
  · next owner duration rest first =>
    split
    · next same => simp [first, same]
    · next other => simp [first, other]

/-- Instances are found or made exactly if and only if all calls name one user and client, and a duration is looked up
    exactly if and only if the first one registered is of the conversation. -/
theorem registries_exact_iff (creates : List (Bytes × Bytes)) (registered : List (Bytes × Int)) (convid : Bytes) :
    (CreatesExactly creates ↔ ∀ ids ∈ creates, creates.head? = some ids) ∧
      (LooksUpExactly registered convid ↔ ∀ dent, registered.head? = some dent → dent.1 = convid) :=
  ⟨createsExactly_iff, looksUpExactly_iff⟩

/-- A second client of Alice's is never registered, and a duration behind another is never found. -/
theorem second_lookup_stuck : ¬ CreatesExactly [(ascii "alice", ascii "1"), (ascii "alice", ascii "2")] ∧
      ¬ LooksUpExactly [(ascii "one", 60), (ascii "two", 30)] (ascii "two") := by
  constructor
  · rw [createsExactly_iff]
    decide
  · rw [looksUpExactly_iff]
    intro first
    exact absurd (first _ rfl) (by decide)

end Avs.Registry
