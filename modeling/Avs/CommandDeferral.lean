import Avs.Deferral

/-!
Commands for a one-to-one call that are given before the library is ready. Only a start and an answer wait,
and an answer for a CBR call does not: it is dropped like an end or a reject, though the start before it is
carried out later.
-/
namespace Avs
open List Option Runs Calls

variable {σ : Type} {cmd : Command}

def Command.isStart : Command → Bool
  | .start _ _ _ _ => true
  | _ => false

/-- A start is for a one-to-one call. -/
def Command.OneOnOne : Command → Prop
  | .start _ convType _ _ => convType = .oneOnOne
  | _ => True

instance (cmd : Command) : Decidable cmd.OneOnOne := by
  unfold Command.OneOnOne
  split <;> infer_instance

/-- The command waits until the library is ready for one-to-one calls. -/
def Command.waits (cmd : Command) : Bool := cmd.readyType = some .oneOnOne

theorem Command.waits_of_isStart (typed : cmd.OneOnOne) (start : cmd.isStart = true) : cmd.waits = true := by
  cases cmd with
  | start callType convType audioCbr meeting =>
    obtain rfl : convType = .oneOnOne := typed
    rfl
  | answer callType audioCbr => cases start
  | reject => cases start
  | end_ => cases start

/-- What follows a start waits as well. -/
def Ordered (cmds : List Command) : Prop := cmds.Pairwise (fun first later => first.isStart = true → later.waits = true)

instance (cmds : List Command) : Decidable (Ordered cmds) := inferInstanceAs (Decidable (List.Pairwise _ _))

namespace CallingInstance

def handleAll (icall : Icall σ) (convid : Bytes) (cmds : List Command) (inst : CallingInstance σ) :
    Option (CallingInstance σ) :=
  run (mqueueHandler icall) inst (cmds.map (fun cmd => (convid, cmd)))

/-- The commands before the library is ready leave the conversation as they do afterwards. -/
def KeepsMeaning (icall : Icall σ) (convid : Bytes) (cmds : List Command) (inst : CallingInstance σ) : Prop :=
  ((handleAll icall convid cmds inst).bind (becomeReady icall)).map (fun inst => inst.lookup convid) =
    ((becomeReady icall inst).bind (handleAll icall convid cmds)).map (fun inst => inst.lookup convid)

/-- The library is not ready, and the conversation has no call and no command that waits. -/
structure Unready (convid : Bytes) (inst : CallingInstance σ) : Prop where
  callConfig : inst.callConfig = false
  noCall : inst.lookup convid = none
  pending : ∀ cmd ∈ inst.readyPendingl, cmd.1 ≠ convid

variable {cmds : List Command} {calls' : Calls Nat}

section
variable {icall : Icall σ} {convid : Bytes}

theorem execute_absent {calls : Calls σ} (absent : calls.lookup convid = none)
    (other : cmd.isStart = false) : calls.execute icall convid cmd = some calls := by
  cases cmd with
  | start callType convType audioCbr meeting => cases other
  | answer callType audioCbr => simp [execute, absent]
  | reject => simp [execute, absent]
  | end_ => simp [execute, absent]

theorem mqueueHandler_unready {inst : CallingInstance σ} (unready : inst.callConfig = false)
    (absent : inst.lookup convid = none) (typed : cmd.OneOnOne) :
    mqueueHandler icall (convid, cmd) inst =
      some { inst with readyPendingl := inst.readyPendingl ++ if cmd.waits then [(convid, cmd)] else [] } := by
  by_cases waits : cmd.waits = true
  · have awaits : cmd.readyType = some .oneOnOne := by simpa [Command.waits] using waits
    rw [mqueueHandler, if_pos, if_pos waits]
    simp [awaits, isReady, unready]
  · have other : cmd.isStart = false := by
      simpa using fun start => waits (Command.waits_of_isStart typed start)
    have atOnce : ¬ cmd.readyType.any (fun convType => inst.isReady convType = false) = true := by
      rw [Command.waits, decide_eq_true_iff] at waits
      cases readyType : cmd.readyType with
      | none => simp
      | some convType =>
        cases convType with
        | oneOnOne => exact absurd readyType waits
        | group => simp [isReady]
        | conference => simp [isReady]
        | conferenceMls => simp [isReady]
    rw [mqueueHandler, if_neg atOnce, execute_absent absent other, if_neg waits]
    simp

def queued (convid : Bytes) (cmds : List Command) : List (Bytes × Command) :=
  (cmds.filter (·.waits)).map (fun cmd => (convid, cmd))

section
variable (typed : ∀ cmd ∈ cmds, cmd.OneOnOne)
include typed

theorem handleAll_unready : ∀ {inst : CallingInstance σ}, inst.callConfig = false → inst.lookup convid = none →
    handleAll icall convid cmds inst =
      some { inst with readyPendingl := inst.readyPendingl ++ queued convid cmds } := by
  induction cmds with
  | nil =>
    intro inst _ _
    simp [handleAll, queued, run]
  | cons cmd rest ih =>
    intro inst unready absent
    rw [handleAll, map_cons, run, mqueueHandler_unready unready absent (typed cmd (by simp))]
    refine Eq.trans (ih (fun c member => typed c (by simp [member])) unready absent) ?_
    by_cases waits : cmd.waits = true
    · simp [queued, waits]
    · simp [queued, waits]

theorem executeAll_queued {calls : Calls σ} (absent : calls.lookup convid = none) (ordered : Ordered cmds) :
    executeAll icall calls (queued convid cmds) = executeAll icall calls (cmds.map (fun cmd => (convid, cmd))) := by
  induction cmds with
  | nil => rfl
  | cons cmd rest ih =>
    obtain ⟨first, ordered'⟩ := pairwise_cons.mp ordered
    have ih' := ih (fun c member => typed c (by simp [member])) ordered'
    by_cases start : cmd.isStart = true
    · have all : (cmd :: rest).filter (·.waits) = cmd :: rest := by
        refine filter_eq_self.mpr (fun c member => ?_)
        rcases mem_cons.mp member with rfl | later
        · exact Command.waits_of_isStart (typed c (by simp)) start
        · exact first c later start
      rw [queued, all]
    · have skips : ∀ more, executeAll icall calls ((convid, cmd) :: more) = executeAll icall calls more := by
        intro more
        rw [executeAll, run, execute_absent absent (by simpa using start)]
        rfl
      rw [map_cons, skips, ← ih']
      by_cases waits : cmd.waits = true
      · rw [queued, filter_cons_of_pos waits, map_cons, skips, queued]
      · rw [queued, filter_cons_of_neg waits, queued]

/-- Both ways carry out what waited for other conversations first. -/
theorem keepsMeaning_iff {inst : CallingInstance σ} (unready : Unready convid inst) :
    KeepsMeaning icall convid cmds inst ↔
      ∀ calls, readied icall inst.toCalls inst.readyPendingl = some calls →
        (executeAll icall calls (queued convid cmds)).map (fun calls => calls.lookup convid) =
          (executeAll icall calls (cmds.map (fun cmd => (convid, cmd)))).map (fun calls => calls.lookup convid) := by
  -- What the queue did not take had no call to act on and is lost.
  have before : (handleAll icall convid cmds inst).bind (becomeReady icall) =
      (readied icall inst.toCalls inst.readyPendingl).bind (fun calls =>
        (executeAll icall calls (queued convid cmds)).map (fun calls =>
          { inst with toCalls := calls, readyPendingl := [] })) := by
    rw [handleAll_unready typed unready.callConfig unready.noCall, bind_some, becomeReady_eq]
    simp only [readied, unready.callConfig, Bool.false_eq_true, if_false, executeAll, run_bind]
    rw [Option.map_bind]
    rfl
  rw [KeepsMeaning, before, becomeReady_eq]
  cases done : readied icall inst.toCalls inst.readyPendingl with
  | none => simp
  | some calls =>
    obtain ⟨-, -, ready, -, -⟩ := readied_frame icall.within_true done
    have after : handleAll icall convid cmds { inst with toCalls := calls, readyPendingl := [] } =
        (executeAll icall calls (cmds.map (fun cmd => (convid, cmd)))).map (fun calls =>
          { inst with toCalls := calls, readyPendingl := [] }) := run_ready ready
    simp only [map_some, bind_some, unready.callConfig, Bool.false_eq_true, if_false, after,
      Option.map_map, some.injEq, forall_eq']
    rfl

theorem keepsMeaning_of_ordered {inst : CallingInstance σ}
    (unready : Unready convid inst) (ordered : Ordered cmds) : KeepsMeaning icall convid cmds inst := by
  refine (keepsMeaning_iff typed unready).mpr (fun calls done => ?_)
  obtain ⟨-, -, -, -, fewer⟩ := readied_frame icall.within_true done
  have absent : calls.lookup convid = none := by
    refine lookup_eq_none_iff.mpr (fun member => ?_)
    rcases fewer convid member with earlier | started
    · exact lookup_eq_none_iff.mp unready.noCall earlier
    · rw [pendingStarts, unready.callConfig, if_neg Bool.false_ne_true, mem_flatMap] at started
      obtain ⟨cmd, waiting, opened⟩ := started
      refine unready.pending cmd waiting ?_
      cases isCmd : cmd.2 <;> simp_all [Calls.opened]
  rw [executeAll_queued typed absent ordered]

end

end
/-- The call rings and its object has counted to `n`. -/
def Rings (n : Nat) (w : Wcall Nat) : Prop := w.icall = n ∧ w.state = .incoming

section
variable {convid : Bytes} {calls : Calls Nat} {n : Nat} {op : Nat → IcallReply Nat}

theorem counts_prepares (has : Has (fun w => w.icall = n) convid calls)
    (prepares : Prepares counter convid calls calls') : Has (fun w => w.icall = n) convid calls' :=
  prepares.has (P := fun k => k = n) (fun _ _ same => ⟨same, by simp [counter]⟩)
    (fun _ _ same => ⟨same, by simp [counter]⟩) has

theorem invoke_rings (rings : ∀ s, op s = ⟨s + 1, [.start 0 [] [] false false .oneOnOne], none⟩)
    (has : Has (fun w => w.icall = n) convid calls) :
    Has (Rings (n + 1)) convid (calls.invoke convid op).1 := by
  refine has.invoke fun w counted => ?_
  rw [rings]
  exact ⟨_, rfl, congrArg (· + 1) counted, rfl⟩

theorem invoke_counter_err (fine : ∀ s, (op s).err = none) : (calls.invoke convid op).2 = none := by
  rw [invoke]
  split
  · rfl
  · exact fine _

theorem endOnErr_fine {result : Calls Nat × Option Errno} (fine : result.2 = none) :
    endOnErr counter convid result = result.1 := by
  rw [endOnErr, fine]
  rfl

theorem iStart_rings (has : Has (fun w => w.icall = n) convid calls) (callType : CallType)
    (audioCbr meeting : Bool) : Has (Rings (n + 1)) convid
      (endOnErr counter convid (calls.iStart counter convid callType audioCbr meeting)) := by
  obtain ⟨ready, told, outgoing, -, passed, asked⟩ :=
    @iStart_prepares convid _ counter calls callType audioCbr meeting
  rw [asked, endOnErr_fine (invoke_counter_err (fun _ => rfl))]
  exact invoke_rings (fun _ => rfl) (counts_prepares (counts_prepares has outgoing) passed)

theorem execute_rings (has : Has (Rings n) convid calls)
    (executed : calls.execute counter convid cmd = some calls') : Has (Rings (n + 1)) convid calls' := by
  have ⟨w, found, counted, state⟩ := has
  cases execute_execution executed with
  | absent _ _ absent => cases absent.symm.trans found
  | refused _ _ _ _ _ absent => cases absent.symm.trans found
  | start callType convType audioCbr meeting mid timed made taken =>
    rcases made with ⟨-, rfl⟩ | added
    · exact iStart_rings (counts_prepares ⟨w, found, counted⟩ (takeDuration_prepares taken)) _ _ _
    · obtain ⟨-, absent, -⟩ := wcallAdd_placed added
      cases absent.symm.trans found
  | answer callType audioCbr =>
    have marked : Has (Rings n) convid (calls.modify convid (fun w => { w with disableAudio := false })) :=
      has.modify (fun _ => rfl) (fun _ => id)
    have ⟨v, found', counted', state'⟩ := marked
    rw [iAnswer, if_neg (by simp [found', state']), endOnErr_fine (invoke_counter_err (fun _ => rfl))]
    refine invoke_rings (fun _ => rfl) (counts_prepares ⟨v, found', counted'⟩ ?_)
    exact .video _ (.state .answered (by decide) .refl)
  | reject w' found' =>
    obtain rfl := some.inj (found.symm.trans found')
    obtain rfl := lookup_convid found
    have marked : Has (Rings n) w.convid (calls.modify w.convid (fun w => { w with disableAudio := true })) :=
      has.modify (fun _ => rfl) (fun _ => id)
    rw [iReject, if_pos state]
    exact marked.invoke fun v both => ⟨_, rfl, congrArg (· + 1) both.1, both.2⟩
  | end_ =>
    exact (invoke_rings (fun _ => rfl) (counts_prepares ⟨w, found, counted⟩ setTermLocal_prepares)).modify
      (fun _ => rfl) (fun _ => id)

theorem execute_start_rings (absent : calls.lookup convid = none) (start : cmd.isStart = true)
    (executed : calls.execute counter convid cmd = some calls') : Has (Rings 1) convid calls' := by
  cases execute_execution executed with
  | absent cmd none_ =>
    cases cmd with
    | start => cases none_
    | _ => cases start
  | refused _ _ _ _ _ _ refused =>
    rw [wcallAdd_counter absent] at refused
    cases refused
  | start callType convType audioCbr meeting mid timed made taken =>
    rcases made with ⟨present, -⟩ | added
    · simp [absent] at present
    · rw [wcallAdd_counter absent] at added
      obtain rfl := Except.ok.inj added
      have placed := (calls.lookup_place convid convid convType 0 absent).trans (if_pos rfl)
      exact iStart_rings (counts_prepares ⟨_, placed, rfl⟩ (takeDuration_prepares taken)) _ _ _
  | _ => cases start

end

/-- The number of commands from the first start on. -/
def counted : List Command → Nat
  | [] => 0
  | cmd :: rest => if cmd.isStart then rest.length + 1 else counted rest

section
variable {convid : Bytes}

theorem executeAll_rings : ∀ {n : Nat} {calls calls' : Calls Nat}, Has (Rings n) convid calls →
    executeAll counter calls (cmds.map (fun cmd => (convid, cmd))) = some calls' →
    Has (Rings (n + cmds.length)) convid calls' := by
  induction cmds with
  | nil =>
    intro n calls calls' has ran
    obtain rfl := some.inj ran
    exact has
  | cons cmd rest ih =>
    intro n calls calls' has ran
    obtain ⟨mid, executed, ran'⟩ := run_cons.mp ran
    have ended := ih (execute_rings has executed) ran'
    rwa [show n + 1 + rest.length = n + (cmd :: rest).length by simp; omega] at ended

theorem executeAll_counted {calls : Calls Nat} (absent : calls.lookup convid = none)
    (ran : executeAll counter calls (cmds.map (fun cmd => (convid, cmd))) = some calls') :
    ((calls'.lookup convid).map (·.icall)).getD 0 = counted cmds := by
  induction cmds with
  | nil =>
    obtain rfl := some.inj ran
    simp [absent, counted]
  | cons cmd rest ih =>
    obtain ⟨mid, executed, ran'⟩ := run_cons.mp ran
    rw [counted]
    split
    · next start =>
      obtain ⟨w, found, count, -⟩ := executeAll_rings (execute_start_rings absent start executed) ran'
      simp only [found, map_some, getD_some, count]
      omega
    · next other =>
      rw [execute_absent absent (by simpa using other)] at executed
      obtain rfl := some.inj executed
      exact ih ran'

theorem ordered_iff_counted (typed : ∀ cmd ∈ cmds, cmd.OneOnOne) :
    Ordered cmds ↔ counted (cmds.filter (·.waits)) = counted cmds := by
  induction cmds with
  | nil => simp [Ordered, counted]
  | cons cmd rest ih =>
    have ih' := ih (fun c member => typed c (by simp [member]))
    rw [Ordered, pairwise_cons]
    by_cases start : cmd.isStart = true
    · have waits := Command.waits_of_isStart (typed cmd (by simp)) start
      rw [filter_cons_of_pos waits, counted, counted, if_pos start, if_pos start, Nat.add_right_cancel_iff,
        length_filter_eq_length_iff]
      constructor
      · intro both c member
        exact both.1 c member start
      · intro all
        exact ⟨fun c member _ => all c member,
          pairwise_of_forall_mem_list (fun _ _ later member _ => all later member)⟩
    · have skips : ∀ more, counted (cmd :: more) = counted more := fun more => by rw [counted, if_neg start]
      have same : counted ((cmd :: rest).filter (·.waits)) = counted (rest.filter (·.waits)) := by
        by_cases waits : cmd.waits = true
        · rw [filter_cons_of_pos waits, skips]
        · rw [filter_cons_of_neg waits]
      rw [same, skips, ← ih']
      exact ⟨fun both => both.2, fun ordered => ⟨fun _ _ starts => absurd starts start, ordered⟩⟩

end

theorem commands_keep_meaning_iff (convid : Bytes) (cmds : List Command) (typed : ∀ cmd ∈ cmds, cmd.OneOnOne) :
    (∀ (σ : Type) (icall : Icall σ) (inst : CallingInstance σ), Unready convid inst →
      KeepsMeaning icall convid cmds inst) ↔ Ordered cmds := by
  constructor
  · intro keeps
    let inst : CallingInstance Nat := idle [] 0 false []
    have unready : Unready convid inst := ⟨rfl, rfl, fun _ member => absurd member not_mem_nil⟩
    let calls : Calls Nat := { inst.toCalls with callConfig := true }.tell .ready
    have same := (keepsMeaning_iff typed unready).mp (keeps Nat counter inst unready) calls rfl
    obtain ⟨late, ranLate⟩ := isSome_iff_exists.mp
      (executeAll_returns (show calls.durationl = [] from rfl))
    obtain ⟨atOnce, ranAtOnce⟩ := isSome_iff_exists.mp
      (executeAll_returns (show calls.durationl = [] from rfl))
    rw [ranLate, ranAtOnce, map_some, map_some, some.injEq] at same
    rw [ordered_iff_counted typed, ← executeAll_counted rfl ranAtOnce, ← executeAll_counted rfl ranLate,
      same]
  · intro ordered σ icall inst unready
    exact keepsMeaning_of_ordered typed unready ordered

/-- A start and an answer keep their meaning. -/
theorem start_answer_keeps_meaning :
    let cmds : List Command := [.start .normal .oneOnOne false false, .answer .normal false]
    let inst : CallingInstance Nat := idle (ascii "me") 60000 false []
    Unready (ascii "c") inst ∧ KeepsMeaning counter (ascii "c") cmds inst := by
  intro cmds inst
  have unready : Unready (ascii "c") inst := ⟨rfl, rfl, fun _ member => absurd member not_mem_nil⟩
  exact ⟨unready, (commands_keep_meaning_iff (ascii "c") cmds (by decide)).mpr (by decide) Nat counter inst unready⟩

/-- A call object that is closed when it is asked to end. -/
def hangsUp : Icall Unit where
  alloc _ _ _ _ := .ok ()
  start _ _ _ _ := ⟨(), [], none⟩
  answer _ _ _ := ⟨(), [], none⟩
  end_ _ := ⟨(), [.close none 0 none none], none⟩
  reject _ := ⟨(), [], none⟩
  setVideoSendState _ _ := ⟨(), [], none⟩
  setDuration _ _ := ⟨(), [], none⟩
  msgRecv _ _ _ _ _ _ := ⟨(), [], none⟩

/-- A start and an end before the library is ready leave a call that is started once it is. Given afterwards they leave
    none. -/
theorem end_before_ready_lost : let cmds : List Command := [.start .normal .oneOnOne false false, .end_]
    let inst : CallingInstance Unit := idle (ascii "me") 60000 false []
    Unready (ascii "c") inst ∧
      ((handleAll hangsUp (ascii "c") cmds inst).bind (becomeReady hangsUp)).map
        (fun inst => (inst.lookup (ascii "c")).map (·.state)) = some (some .outgoing) ∧
      ((becomeReady hangsUp inst).bind (handleAll hangsUp (ascii "c") cmds)).map
        (fun inst => (inst.lookup (ascii "c")).map (·.state)) = some none ∧
      ¬ KeepsMeaning hangsUp (ascii "c") cmds inst := by
  intro cmds inst
  have before : ((handleAll hangsUp (ascii "c") cmds inst).bind (becomeReady hangsUp)).map
      (fun inst => (inst.lookup (ascii "c")).map (·.state)) = some (some .outgoing) := by decide +kernel
  refine ⟨⟨rfl, rfl, fun _ member => absurd member not_mem_nil⟩, before, by decide +kernel, fun keeps => ?_⟩
  have states := congrArg (Option.map (Option.map Wcall.state)) keeps
  rw [Option.map_map, Option.map_map] at states
  exact absurd (before.symm.trans states) (by decide +kernel)

end CallingInstance
end Avs
