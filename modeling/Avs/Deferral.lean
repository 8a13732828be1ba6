import Avs.WcallFrame

/-!
Messages that wait for the configuration. One that has waited is replayed as if its conversation had no call,
where one that arrives after the update is handed to the call it finds. Only the call object could tell the
difference, so the one direction is about all of them and the other about one that counts what it is asked
(`counter`).
-/
namespace Avs
open List Option Runs Calls Config

variable {σ : Type}

namespace CallingInstance

variable {closing : Prop} {cmd : Bytes × Command} {cmds pending : List (Bytes × Command)} {m : Received}
  {arrivals : List (Nat × Received)} {calls a b calls' : Calls Nat} {convid : Bytes} {convType : ConvType}
  {taken : List Bytes}

section
variable {icall : Icall σ} {inst : CallingInstance σ}

def executeAll (icall : Icall σ) (calls : Calls σ) (cmds : List (Bytes × Command)) : Option (Calls σ) :=
  run (fun cmd calls => calls.execute icall cmd.1 cmd.2) calls cmds

theorem mqueueHandler_ready (ready : inst.callConfig = true) : mqueueHandler icall cmd inst =
      (inst.toCalls.execute icall cmd.1 cmd.2).map (fun calls => { inst with toCalls := calls }) := by
  have all : ∀ convType, inst.isReady convType = true := by
    intro convType
    cases convType <;> first | exact ready | rfl
  rw [mqueueHandler, if_neg]
  simp [all]

theorem run_ready : ∀ {inst : CallingInstance σ}, inst.callConfig = true → run (mqueueHandler icall) inst cmds =
      (executeAll icall inst.toCalls cmds).map (fun calls => { inst with toCalls := calls }) := by
  induction cmds with
  | nil => exact fun _ => rfl
  | cons cmd rest ih =>
    intro inst ready
    rw [run, executeAll, run, mqueueHandler_ready ready]
    cases executed : inst.toCalls.execute icall cmd.1 cmd.2 with
    | none => rfl
    | some calls =>
      have frame := execute_frame icall.within_true executed
      exact ih (frame.callConfig.trans ready)

/-- The calls once the instance is ready, where `pending` is what waits for that. -/
def readied (icall : Icall σ) (calls : Calls σ) (pending : List (Bytes × Command)) : Option (Calls σ) :=
  if calls.callConfig then some calls else executeAll icall ({ calls with callConfig := true }.tell .ready) pending

/-- Once ready, the commands that waited are carried out in their order. -/
theorem becomeReady_eq :
    becomeReady icall inst = (readied icall inst.toCalls inst.readyPendingl).map (fun calls =>
      { inst with toCalls := calls, readyPendingl := if inst.callConfig then inst.readyPendingl else [] }) := by
  rw [becomeReady, readied]
  split
  · rfl
  · rw [invokeReady, run_ready rfl]

def pendingStarts (callConfig : Bool) (pending : List (Bytes × Command)) : List Bytes :=
  if callConfig then [] else pending.flatMap opened

theorem readied_frame (within : icall.Within closing) {calls calls' : Calls σ}
    (done : readied icall calls pending = some calls') :
    calls'.userid = calls.userid ∧ calls'.cfg = calls.cfg ∧ calls'.callConfig = true ∧
      (calls.durationl = [] → calls'.durationl = []) ∧
      ∀ c ∈ calls'.convids, c ∈ calls.convids ∨ c ∈ pendingStarts calls.callConfig pending := by
  rw [readied] at done
  split at done
  · next ready =>
    obtain rfl := some.inj done
    exact ⟨rfl, rfl, ready, id, fun _ member => .inl member⟩
  · next unready =>
    have frame := run_frame within done
    rw [pendingStarts, if_neg unready]
    exact ⟨frame.userid, frame.cfg, frame.callConfig, frame.durations, frame.fewer⟩

end

/-- What is seen of an instance: its calls with their objects, and what the application was told. A missed call is told
    as it is received, so it stands apart. -/
def seen (inst : CallingInstance σ) : List (Wcall σ) × List WcallCallback × List MissedCall :=
  (inst.wcalls, inst.out, inst.missed)

def receive (icall : Icall σ) (arrivals : List (Nat × Received)) (inst : CallingInstance σ) : CallingInstance σ :=
  arrivals.foldl (fun inst arrival => inst.recvMsg icall arrival.1 arrival.2) inst

/-- There is no call, nothing waits, and each message finds the configuration in need of an update, which then succeeds.
    -/
structure Awaiting (libre : Libre) (now : Nat) (r : Response) (arrivals : List (Nat × Received))
    (inst : CallingInstance σ) : Prop where
  noCall : inst.wcalls = []
  queue : inst.configUpdatel = []
  needsUpdate : ∀ arrival ∈ arrivals, configNeedsUpdate arrival.1 inst.cfg = true
  succeeds : (Config.configUpdate libre now r inst.cfg).notified.isSome

/-- Messages before the update come to the same as messages right after it. -/
def Transparent (icall : Icall σ) (libre : Libre) (now : Nat) (r : Response) (arrivals : List (Nat × Received))
    (inst : CallingInstance σ) : Prop :=
  ((receive icall arrivals inst).configUpdate icall libre now r).map seen =
    ((inst.configUpdate icall libre now r).map (receive icall (arrivals.map (fun a => (now, a.2))))).map seen

def made (userid : Bytes) (m : Received) : List Bytes := if (addType userid m).isSome then [m.convid] else []

/-- No message is for a conversation that has been made a call for, be it by a command or by an earlier message. -/
def Fresh (userid : Bytes) : List Bytes → List Received → Prop
  | _, [] => True
  | taken, m :: rest => m.convid ∉ taken ∧ Fresh userid (made userid m ++ taken) rest

/-- The messages that have not expired. -/
def current (userid : Bytes) (timeoutSetup : BitVec 32) (msgs : List Received) : List Received :=
  msgs.filter (fun m => expired userid timeoutSetup m = false)

/-- The calls reported missed for the others. -/
def missedCalls (userid : Bytes) (timeoutSetup : BitVec 32) (msgs : List Received) : List MissedCall :=
  (msgs.filter (fun m => expired userid timeoutSetup m)).flatMap (fun m => (missedCall m).toList)

section
variable {icall : Icall σ} {now : Nat} {msgs : List Received} {libre : Libre} {r : Response}

theorem receive_cons {arrival : Nat × Received} {rest : List (Nat × Received)} {inst : CallingInstance σ} :
    receive icall (arrival :: rest) inst = receive icall rest (inst.recvMsg icall arrival.1 arrival.2) := rfl

theorem recvMsg_expired {inst : CallingInstance σ} (old : expired inst.userid inst.timeoutSetup m = true) :
    recvMsg icall now m inst = { inst with missed := inst.missed ++ (missedCall m).toList } := by
  rw [recvMsg, if_pos old]

theorem receive_waits : ∀ {inst : CallingInstance σ}, inst.wcalls = [] →
    (∀ arrival ∈ arrivals, configNeedsUpdate arrival.1 inst.cfg = true) →
    receive icall arrivals inst =
      { inst with
        configUpdatel := inst.configUpdatel ++ current inst.userid inst.timeoutSetup (arrivals.map Prod.snd)
        missed := inst.missed ++ missedCalls inst.userid inst.timeoutSetup (arrivals.map Prod.snd) } := by
  induction arrivals with
  | nil =>
    intro inst _ _
    simp [receive, current, missedCalls]
  | cons arrival rest ih =>
    intro inst noCall needs
    have needsRest : ∀ a ∈ rest, configNeedsUpdate a.1 inst.cfg = true := by
      intro a member
      exact needs a (by simp [member])
    rw [receive_cons]
    by_cases old : expired inst.userid inst.timeoutSetup arrival.2 = true
    · rw [recvMsg_expired old]
      refine Eq.trans (ih noCall needsRest) ?_
      simp [current, missedCalls, old]
    · have waits : recvMsg icall arrival.1 arrival.2 inst =
          { inst with configUpdatel := inst.configUpdatel ++ [arrival.2] } := by
        rw [recvMsg, if_neg old]
        simp [Calls.lookup, noCall, needs arrival (by simp)]
      rw [waits]
      refine Eq.trans (ih noCall needsRest) ?_
      simp [current, missedCalls, old]

theorem accept_frame (within : icall.Within closing) (a : Calls σ) (m : Received) :
    Frame closing (made a.userid m) a (a.accept icall m) := by
  rw [accept, addWcall, made]
  cases addType a.userid m with
  | none => exact .refl a
  | some convType =>
    simp only [isSome_some, if_true]
    cases added : a.wcallAdd icall m.convid convType m.meeting with
    | error err => exact (Frame.refl a).widen _
    | ok b => exact (wcallAdd_frame added).then (invoke_frame (within.msgRecv _ _ _ _ _))

/-- A message that finds the configuration up to date. -/
def dispatch (icall : Icall σ) (calls : Calls σ) (m : Received) : Calls σ :=
  if (calls.lookup m.convid).isSome then calls.deliver icall m else calls.accept icall m

theorem dispatch_frame (within : icall.Within closing) (a : Calls σ) (m : Received) :
    Frame closing (made a.userid m) a (dispatch icall a m) := by
  rw [dispatch]
  split
  · exact (invoke_frame (within.msgRecv _ _ _ _ _)).widen _
  · exact accept_frame within a m

theorem receive_updated : ∀ {inst : CallingInstance σ}, configNeedsUpdate now inst.cfg = false →
    receive icall (msgs.map (fun m => (now, m))) inst =
      { inst with
        toCalls := (current inst.userid inst.timeoutSetup msgs).foldl (dispatch icall) inst.toCalls
        missed := inst.missed ++ missedCalls inst.userid inst.timeoutSetup msgs } := by
  induction msgs with
  | nil =>
    intro inst _
    simp [receive, current, missedCalls]
  | cons m rest ih =>
    intro inst updated
    rw [map_cons, receive_cons]
    by_cases old : expired inst.userid inst.timeoutSetup m = true
    · rw [recvMsg_expired old]
      refine Eq.trans (ih updated) ?_
      simp [current, missedCalls, old]
    · have dispatched : recvMsg icall now m inst = { inst with toCalls := dispatch icall inst.toCalls m } := by
        rw [recvMsg, if_neg old, dispatch]
        cases inst.lookup m.convid <;> simp [updated]
      have frame := dispatch_frame icall.within_true inst.toCalls m
      rw [dispatched]
      refine Eq.trans (ih (by rw [frame.cfg]; exact updated)) ?_
      simp [current, missedCalls, old, frame.userid]

theorem dispatch_fresh : ∀ {taken : List Bytes} {calls : Calls σ},
    (∀ c ∈ calls.convids, c ∈ taken) → Fresh calls.userid taken msgs →
    msgs.foldl (dispatch icall) calls = msgs.foldl (accept icall) calls := by
  induction msgs with
  | nil => exact fun _ _ => rfl
  | cons m rest ih =>
    intro taken calls within fresh
    obtain ⟨untaken, fresh⟩ := fresh
    have absent : ¬ (calls.lookup m.convid).isSome := fun found =>
      untaken (within _ (lookup_isSome_iff.mp found))
    have frame := accept_frame icall.within_true calls m
    rw [foldl_cons, foldl_cons, dispatch, if_neg absent]
    refine @ih (made calls.userid m ++ taken) _ ?_ ?_
    · intro c member
      rcases frame.fewer c member with earlier | new
      · exact mem_append_right _ (within c earlier)
      · exact mem_append_left _ new
    · rw [frame.userid]
      exact fresh

def configured (libre : Libre) (now : Nat) (r : Response) (inst : CallingInstance σ) : Calls σ :=
  { inst.toCalls with cfg := (Config.configUpdate libre now r inst.cfg).cfg }

def settled (inst : CallingInstance σ) (calls : Calls σ) : CallingInstance σ :=
  { inst with
    toCalls := calls
    configUpdatel := []
    readyPendingl := if inst.callConfig then inst.readyPendingl else [] }

theorem configUpdate_succeeds {inst : CallingInstance σ}
    (succeeds : (Config.configUpdate libre now r inst.cfg).notified.isSome) :
    configUpdate icall libre now r inst =
      (readied icall (configured libre now r inst) inst.readyPendingl).map (fun calls =>
        settled inst (inst.configUpdatel.foldl (accept icall) calls)) := by
  obtain ⟨config, notified⟩ := isSome_iff_exists.mp succeeds
  simp only [configUpdate, notified, configUpdateHandler, becomeReady_eq, Option.map_map]
  rfl

theorem configUpdate_current {cfg : Config} (succeeds : (Config.configUpdate libre now r cfg).notified.isSome) :
    configNeedsUpdate now (Config.configUpdate libre now r cfg).cfg = false := by
  have lasts : ∀ jobj, 0 < readTtl jobj := by
    intro jobj
    rw [readTtl]
    split
    · exact Nat.lt_of_lt_of_le (by decide) (Nat.le_max_right _ _)
    · decide
  revert succeeds
  rw [Config.configUpdate]
  split
  · exact fun no => absurd no (by simp)
  · split
    · exact fun no => absurd no (by simp)
    · split
      · exact fun no => absurd no (by simp)
      · next jobj _ =>
        dsimp only
        split
        · exact fun no => absurd no (by simp)
        · intro _
          have later := lasts jobj
          simp only [configNeedsUpdate, Bool.false_or, decide_eq_false_iff_not]
          omega

section
variable {inst : CallingInstance σ}

/-- What is seen of an instance that was made ready, got these messages to handle and reported these calls missed. -/
def seenAfter (handle : Calls σ → Received → Calls σ) (arrivals : List (Nat × Received)) (inst : CallingInstance σ)
    (calls : Calls σ) : List (Wcall σ) × List WcallCallback × List MissedCall :=
  let handled := (current inst.userid inst.timeoutSetup (arrivals.map Prod.snd)).foldl handle calls
  (handled.wcalls, handled.out, inst.missed ++ missedCalls inst.userid inst.timeoutSetup (arrivals.map Prod.snd))

theorem transparent_iff (awaiting : Awaiting libre now r arrivals inst) : Transparent icall libre now r arrivals inst ↔
      ∀ calls, readied icall (configured libre now r inst) inst.readyPendingl = some calls →
        seenAfter (accept icall) arrivals inst calls = seenAfter (dispatch icall) arrivals inst calls := by
  have before : (receive icall arrivals inst).configUpdate icall libre now r =
      (readied icall (configured libre now r inst) inst.readyPendingl).map (fun calls =>
        { settled inst
            ((current inst.userid inst.timeoutSetup (arrivals.map Prod.snd)).foldl (accept icall) calls)
          with missed := inst.missed ++ missedCalls inst.userid inst.timeoutSetup (arrivals.map Prod.snd) }) := by
    rw [receive_waits awaiting.noCall awaiting.needsUpdate, awaiting.queue]
    exact configUpdate_succeeds awaiting.succeeds
  rw [Transparent, before, configUpdate_succeeds awaiting.succeeds, awaiting.queue]
  cases done : readied icall (configured libre now r inst) inst.readyPendingl with
  | none => simp
  | some calls =>
    obtain ⟨userid, cfg, -, -, -⟩ := readied_frame icall.within_true done
    have updated : configNeedsUpdate now (settled inst calls).cfg = false := by
      show configNeedsUpdate now calls.cfg = false
      rw [cfg]
      exact configUpdate_current awaiting.succeeds
    have later : arrivals.map (fun a => (now, a.2)) = (arrivals.map Prod.snd).map (fun m => (now, m)) := by
      rw [List.map_map]
      rfl
    have same : (settled inst calls).userid = inst.userid := userid
    simp only [map_some, some.injEq, foldl_nil, forall_eq', later, receive_updated updated, same]
    rfl

theorem transparent_of_fresh (awaiting : Awaiting libre now r arrivals inst)
    (fresh : Fresh inst.userid (pendingStarts inst.callConfig inst.readyPendingl)
      (current inst.userid inst.timeoutSetup (arrivals.map Prod.snd))) :
    Transparent icall libre now r arrivals inst := by
  refine (transparent_iff awaiting).mpr (fun calls done => ?_)
  obtain ⟨userid, -, -, -, fewer⟩ := readied_frame icall.within_true done
  have untouched : ∀ c ∈ calls.convids, c ∈ pendingStarts inst.callConfig inst.readyPendingl := by
    intro c member
    refine (fewer c member).resolve_left ?_
    simp [configured, convids, awaiting.noCall]
  have same : calls.userid = inst.userid := userid
  rw [seenAfter, seenAfter, dispatch_fresh untouched (by rw [same]; exact fresh)]

end
end

/-- A call object that counts what is asked of it, and that rings whenever it is asked to start, to answer or to end. -/
def counter : Icall Nat where
  alloc _ _ _ _ := .ok 0
  start _ _ _ n := ⟨n + 1, [.start 0 [] [] false false .oneOnOne], none⟩
  answer _ _ n := ⟨n + 1, [.start 0 [] [] false false .oneOnOne], none⟩
  end_ n := ⟨n + 1, [.start 0 [] [] false false .oneOnOne], none⟩
  reject n := ⟨n + 1, [], none⟩
  setVideoSendState _ n := ⟨n, [], none⟩
  setDuration _ n := ⟨n, [], none⟩
  msgRecv _ _ _ _ _ n := ⟨n + 1, [], none⟩

theorem counter_within : counter.Within False := by
  constructor <;> simp [counter, Upcall.closes]

def tally (calls : Calls Nat) (convid : Bytes) : Option Nat := (calls.lookup convid).map (·.icall)

theorem tally_deliver : tally (calls.deliver counter m) convid =
      if convid = m.convid then (tally calls convid).map (· + 1) else tally calls convid := by
  rw [deliver, invoke, tally, tally]
  cases found : calls.lookup m.convid with
  | none =>
    by_cases same : convid = m.convid
    · simp [same, found]
    · simp [same]
  | some w =>
    simp only [counter, foldl_nil]
    rw [calls.lookup_modify m.convid convid (f := fun v => { v with icall := w.icall + 1 }) (fun _ => rfl)]
    by_cases same : convid = m.convid
    · simp [same, found]
    · simp [same]

theorem accept_present {icall : Icall σ} {calls : Calls σ} (present : (calls.lookup m.convid).isSome) :
    calls.accept icall m = calls := by
  rw [accept, addWcall]
  cases addType calls.userid m with
  | none => rfl
  | some convType =>
    dsimp only
    rw [wcallAdd, if_pos present]

theorem wcallAdd_counter (absent : calls.lookup convid = none) {meeting : Bool} :
    calls.wcallAdd counter convid convType meeting = .ok (calls.place convid convType 0) := by
  rw [wcallAdd, absent]
  rfl

theorem tally_place {opened : Bytes} (absent : calls.lookup opened = none) :
    tally (calls.place opened convType 0) convid = if convid = opened then some 0 else tally calls convid := by
  rw [tally, calls.lookup_place opened convid convType 0 absent, tally]
  split <;> rfl

theorem tally_accept : tally (calls.accept counter m) convid =
      if convid ∈ made calls.userid m ∧ tally calls convid = none then some 1 else tally calls convid := by
  cases found : calls.lookup m.convid with
  | some w =>
    rw [accept_present (by simp [found]), if_neg]
    rintro ⟨member, absent⟩
    have same : convid = m.convid := by
      rw [made] at member
      split at member
      · exact mem_singleton.mp member
      · cases member
    simp [tally, same, found] at absent
  | none =>
    have untallied : tally calls m.convid = none := by simp [tally, found]
    rw [accept, addWcall, made]
    cases addType calls.userid m with
    | none => simp
    | some convType =>
      dsimp only
      rw [wcallAdd_counter found]
      dsimp only
      rw [tally_deliver, tally_place found]
      by_cases same : convid = m.convid
      · simp [same, untallied]
      · simp [same]

theorem tally_dispatch : tally (dispatch counter calls m) convid =
      if convid = m.convid ∧ tally calls convid ≠ none then (tally calls convid).map (· + 1)
      else tally (calls.accept counter m) convid := by
  rw [dispatch]
  by_cases present : (calls.lookup m.convid).isSome
  · rw [if_pos present, tally_deliver, accept_present present]
    by_cases same : convid = m.convid
    · have tallied : tally calls m.convid ≠ none := by
        rw [tally, Ne, map_eq_none_iff, ← not_isSome_iff_eq_none]
        exact not_not_intro present
      simp [same, tallied]
    · simp [same]
  · rw [if_neg present, if_neg]
    rintro ⟨rfl, tallied⟩
    simp [tally, not_isSome_iff_eq_none.mp present] at tallied

/-- Two counts of the same conversations, of which the second is nowhere behind. -/
structure Paired (taken : List Bytes) (a b : Calls Nat) : Prop where
  userid : b.userid = a.userid
  none_iff : ∀ c, tally a c = none ↔ tally b c = none
  le : ∀ c n k, tally a c = some n → tally b c = some k → n ≤ k
  taken : ∀ c ∈ taken, tally a c ≠ none

/-- The second count is ahead somewhere. -/
def Apart (a b : Calls Nat) : Prop := ∃ c n k, tally a c = some n ∧ tally b c = some k ∧ n < k

theorem Paired.both (paired : Paired taken a b) (c : Bytes) :
    (tally a c = none ∧ tally b c = none) ∨ ∃ n k, tally a c = some n ∧ tally b c = some k ∧ n ≤ k := by
  cases left : tally a c with
  | none => exact .inl ⟨rfl, (paired.none_iff c).mp left⟩
  | some n =>
    obtain ⟨k, right⟩ := ne_none_iff_exists'.mp
      (fun none_ => absurd (left.symm.trans ((paired.none_iff c).mpr none_)) (by simp))
    exact .inr ⟨n, k, rfl, right, paired.le c n k left right⟩

theorem Paired.step (paired : Paired taken a b) (m : Received) :
    Paired (made a.userid m ++ taken) (a.accept counter m) (dispatch counter b m) := by
  have left := accept_frame counter_within a m
  have right := dispatch_frame counter_within b m
  have same := paired.userid
  refine ⟨by rw [right.userid, left.userid, same], fun c => ?_, fun c => ?_, fun c member => ?_⟩
  · rw [tally_dispatch, tally_accept, tally_accept, same]
    rcases paired.both c with ⟨noneA, noneB⟩ | ⟨n, k, someA, someB, -⟩
    · simp [noneA, noneB]
    · simp only [someA, someB, reduceCtorEq, and_false, if_false]
      split <;> simp
  · rw [tally_dispatch, tally_accept, tally_accept, same]
    rcases paired.both c with ⟨noneA, noneB⟩ | ⟨n, k, someA, someB, le⟩
    · simp only [noneA, noneB, ne_eq, not_true_eq_false, and_false, if_false]
      intro i j first second
      exact Nat.le_of_eq (some.inj (first.symm.trans second))
    · simp only [someA, someB, reduceCtorEq, and_false, if_false]
      intro i j first second
      obtain rfl := some.inj first
      split at second
      · obtain rfl := some.inj second
        exact Nat.le_succ_of_le le
      · obtain rfl := some.inj second
        exact le
  · rw [tally_accept]
    by_cases absent : tally a c = none
    · have new : c ∈ made a.userid m := (mem_append.mp member).resolve_right (fun old => paired.taken c old absent)
      simp [new, absent]
    · simp [absent]

theorem Apart.step (apart : Apart a b) (m : Received) : Apart (a.accept counter m) (dispatch counter b m) := by
  obtain ⟨c, n, k, left, right, lt⟩ := apart
  have left' : tally (a.accept counter m) c = some n := by
    rw [tally_accept, if_neg, left]
    simp [left]
  by_cases same : c = m.convid
  · refine ⟨c, n, k + 1, left', ?_, by omega⟩
    rw [tally_dispatch, if_pos ⟨same, by simp [right]⟩, right]
    rfl
  · refine ⟨c, n, k, left', ?_, lt⟩
    rw [tally_dispatch, if_neg (fun both => same both.1), tally_accept, if_neg, right]
    simp [right]

theorem Paired.apart (paired : Paired taken a b)
    (member : m.convid ∈ taken) : Apart (a.accept counter m) (dispatch counter b m) := by
  obtain ⟨n, left⟩ := ne_none_iff_exists'.mp (paired.taken _ member)
  obtain ⟨k, right⟩ := ne_none_iff_exists'.mp
    (fun none_ => paired.taken _ member ((paired.none_iff _).mpr none_))
  have le := paired.le _ n k left right
  refine ⟨m.convid, n, k + 1, ?_, ?_, by omega⟩
  · rw [tally_accept, if_neg, left]
    simp [left]
  · rw [tally_dispatch, if_pos ⟨rfl, by simp [right]⟩, right]
    rfl

theorem Paired.run_apart (msgs : List Received) : ∀ {taken : List Bytes} {a b : Calls Nat}, Paired taken a b →
    Apart a b ∨ ¬ Fresh a.userid taken msgs →
    Apart (msgs.foldl (accept counter) a) (msgs.foldl (dispatch counter) b) := by
  induction msgs with
  | nil =>
    intro taken a b _ either
    exact either.resolve_right (not_not_intro trivial)
  | cons m rest ih =>
    intro taken a b paired either
    have frame := accept_frame counter_within a m
    refine ih (paired.step m) ?_
    rcases either with apart | stale
    · exact .inl (apart.step m)
    · by_cases member : m.convid ∈ taken
      · exact .inl (paired.apart member)
      · refine .inr (fun fresh => stale ⟨member, ?_⟩)
        rw [frame.userid] at fresh
        exact fresh

theorem execute_returns {icall : Icall σ} {calls : Calls σ} (none_ : calls.durationl = [])
    {cmd : Command} : (calls.execute icall convid cmd).isSome := by
  have untimed : ∀ {mid : Calls σ}, mid.durationl = [] → mid.takeDuration icall convid = some mid := by
    intro mid none_
    rw [takeDuration, none_]
  cases cmd with
  | start callType convType audioCbr meeting =>
    simp only [execute]
    by_cases present : (calls.lookup convid).isSome
    · simp [if_pos present, untimed none_]
    · rw [if_neg present]
      cases added : calls.wcallAdd icall convid convType meeting with
      | error err => rfl
      | ok mid =>
        have frame : Frame True [convid] calls mid := wcallAdd_frame added
        simp [untimed (frame.durations none_)]
  | answer callType audioCbr => cases found : calls.lookup convid <;> simp [execute, found]
  | reject => cases found : calls.lookup convid <;> simp [execute, found]
  | end_ => cases found : calls.lookup convid <;> simp [execute, found]

theorem executeAll_returns {icall : Icall σ} : ∀ {calls : Calls σ},
    calls.durationl = [] → (executeAll icall calls cmds).isSome := by
  induction cmds with
  | nil => exact fun _ => rfl
  | cons cmd rest ih =>
    intro calls none_
    obtain ⟨calls', executed⟩ := isSome_iff_exists.mp (execute_returns none_)
    have frame := execute_frame icall.within_true executed
    rw [executeAll, run, executed]
    exact ih (frame.durations none_)

theorem counter_opens
    (executed : calls.execute counter cmd.1 cmd.2 = some calls') : ∀ c ∈ opened cmd, c ∈ calls'.convids := by
  obtain ⟨convid, cmd⟩ := cmd
  intro c member
  cases execute_execution executed with
  | absent _ none_ => cases none_ ▸ member
  | refused _ _ _ _ _ absent refused =>
    rw [wcallAdd_counter absent] at refused
    cases refused
  | start callType convType audioCbr meeting mid timed made taken =>
    rw [mem_singleton.mp member]
    refine ((start_frame counter_within taken).lasting.resolve_left id) convid ?_
    rcases made with ⟨present, rfl⟩ | added
    · exact lookup_isSome_iff.mp present
    · obtain ⟨object, -, -, rfl⟩ := wcallAdd_placed added
      simp [place, convids]
  | _ => cases member

theorem counter_opens_all : ∀ {calls calls' : Calls Nat},
    executeAll counter calls cmds = some calls' → ∀ c ∈ cmds.flatMap opened, c ∈ calls'.convids := by
  induction cmds with
  | nil =>
    intro calls calls' _ c member
    cases member
  | cons cmd rest ih =>
    intro calls calls' ran c member
    obtain ⟨mid, executed, ran'⟩ := run_cons.mp ran
    rw [flatMap_cons, mem_append] at member
    rcases member with first | later
    · have frame := run_frame counter_within ran'
      exact (frame.lasting.resolve_left id) c (counter_opens executed c first)
    · exact ih ran' c later

theorem readied_returns (icall : Icall σ) {calls : Calls σ} (none_ : calls.durationl = [])
    (pending : List (Bytes × Command)) : (readied icall calls pending).isSome := by
  rw [readied]
  split
  · rfl
  · exact executeAll_returns none_

theorem readied_opens (done : readied counter calls pending = some calls') :
    ∀ c ∈ pendingStarts calls.callConfig pending, tally calls' c ≠ none := by
  intro c member
  rw [pendingStarts] at member
  split at member
  · cases member
  · next unready =>
    rw [readied, if_neg unready] at done
    have present := counter_opens_all done c member
    rw [tally, Ne, map_eq_none_iff, lookup_eq_none_iff]
    exact not_not_intro present

/-- An instance that waits for its configuration, with nothing else going on. -/
def idle (userid : Bytes) (timeoutSetup : BitVec 32) (callConfig : Bool) (pending : List (Bytes × Command)) :
    CallingInstance σ where
  userid := userid
  clientid := []
  cfg := { configAlloc true with isUpdating := true }
  callConfig := callConfig
  processingNotifications := false
  pendingEventl := []
  durationl := []
  wcalls := []
  out := []
  timeoutSetup := timeoutSetup
  configUpdatel := []
  readyPendingl := pending
  missed := []

/-- A response that changes no server. -/
def emptyResponse : Response := ⟨none, some (ascii "\x7b\x7d")⟩

theorem idle_awaiting {userid : Bytes} {timeoutSetup : BitVec 32} {callConfig : Bool} :
    Awaiting (Jzon.knowing []) 0 emptyResponse arrivals (@idle σ userid timeoutSetup callConfig pending) :=
  ⟨rfl, rfl, fun _ _ => rfl, rfl⟩

theorem deferral_transparent_iff (userid : Bytes) (timeoutSetup : BitVec 32) (callConfig : Bool)
    (pending : List (Bytes × Command)) (msgs : List Received) :
    (∀ (σ : Type) (icall : Icall σ) (inst : CallingInstance σ) (libre : Libre) (now : Nat) (r : Response)
        (arrivals : List (Nat × Received)),
      inst.userid = userid → inst.timeoutSetup = timeoutSetup → inst.callConfig = callConfig →
      inst.readyPendingl = pending → arrivals.map Prod.snd = msgs → Awaiting libre now r arrivals inst →
      Transparent icall libre now r arrivals inst) ↔
    Fresh userid (pendingStarts callConfig pending) (current userid timeoutSetup msgs) := by
  constructor
  · intro transparent
    by_contra stale
    let inst : CallingInstance Nat := idle userid timeoutSetup callConfig pending
    let arrivals := msgs.map (fun m => (0, m))
    have isMsgs : arrivals.map Prod.snd = msgs := by simp [arrivals]
    have awaiting : Awaiting (Jzon.knowing []) 0 emptyResponse arrivals inst :=
      idle_awaiting
    obtain ⟨calls, done⟩ := isSome_iff_exists.mp
      (@readied_returns _ counter (configured (Jzon.knowing []) 0 emptyResponse inst) rfl pending)
    obtain ⟨isUserid, -, -, -, -⟩ := readied_frame counter_within done
    -- Both ways start from the same calls, and a stale message sets their counts apart.
    have paired : Paired (pendingStarts callConfig pending) calls calls :=
      ⟨rfl, fun _ => Iff.rfl, fun _ _ _ left right => Nat.le_of_eq (some.inj (left.symm.trans right)),
        readied_opens done⟩
    obtain ⟨c, n, k, left, right, lt⟩ := paired.run_apart (current userid timeoutSetup msgs)
      (.inr (by rw [show calls.userid = userid from isUserid]; exact stale))
    have transparent' :=
      transparent Nat counter inst (Jzon.knowing []) 0 emptyResponse arrivals rfl rfl rfl rfl isMsgs awaiting
    have same := (transparent_iff awaiting).mp transparent' calls done
    have wcalls : ((current userid timeoutSetup msgs).foldl (accept counter) calls).wcalls =
        ((current userid timeoutSetup msgs).foldl (dispatch counter) calls).wcalls := by
      have first := congrArg Prod.fst same
      simp only [seenAfter, isMsgs] at first
      exact first
    have equal : n = k := by
      rw [tally, Calls.lookup] at left right
      rw [wcalls] at left
      exact some.inj (left.symm.trans right)
    omega
  · intro fresh σ icall inst libre now r arrivals isUserid isTimeout isConfig isPending isMsgs awaiting
    subst isUserid isTimeout isConfig isPending isMsgs
    exact transparent_of_fresh awaiting fresh

/-- A call object that rings for a SETUP and is closed by a CANCEL. -/
def ringer : Icall Unit where
  alloc _ _ _ _ := .ok ()
  start _ _ _ _ := ⟨(), [], none⟩
  answer _ _ _ := ⟨(), [], none⟩
  end_ _ := ⟨(), [], none⟩
  reject _ := ⟨(), [], none⟩
  setVideoSendState _ _ := ⟨(), [], none⟩
  setDuration _ _ := ⟨(), [], none⟩
  msgRecv _ msgTime userid clientid msg _ :=
    match msg.payload with
    | .setup _ => ⟨(), [.start msgTime userid clientid false true .oneOnOne], none⟩
    | .cancel => ⟨(), [.close (some .ECANCELED) msgTime (some userid) (some clientid)], none⟩
    | _ => ⟨(), [], none⟩

def fromPeer (payload : EconnFmt.Payload) : Received where
  msg := { EconnFmt.messageAlloc with payload }
  currTime := 0
  msgTime := 0
  convid := ascii "c"
  userid := ascii "peer"
  clientid := ascii "1"
  convType := .oneOnOne
  meeting := false

/-- A SETUP and a CANCEL while the configuration needs an update leave a call that rings. After the update they leave
    none. -/
theorem cancel_lost : let arrivals := [(0, fromPeer (.setup ⟨none, none, none, none⟩)), (0, fromPeer .cancel)]
    let inst : CallingInstance Unit := idle (ascii "me") 60000 true []
    Awaiting (Jzon.knowing []) 0 emptyResponse arrivals inst ∧
      ((receive ringer arrivals inst).configUpdate ringer (Jzon.knowing []) 0 emptyResponse).map
        (fun inst => inst.wcalls.map (·.state)) = some [.incoming] ∧
      ((inst.configUpdate ringer (Jzon.knowing []) 0 emptyResponse).map (receive ringer arrivals)).map
        (fun inst => inst.wcalls.map (·.state)) = some [] ∧
      ¬ Transparent ringer (Jzon.knowing []) 0 emptyResponse arrivals inst := by
  intro arrivals inst
  have before : ((receive ringer arrivals inst).configUpdate ringer (Jzon.knowing []) 0 emptyResponse).map
      (fun inst => inst.wcalls.map (·.state)) = some [.incoming] := by decide +kernel
  refine ⟨idle_awaiting, before, by decide +kernel, fun transparent => ?_⟩
  have states := congrArg (Option.map (fun seen => seen.1.map (·.state))) transparent
  rw [Option.map_map, Option.map_map] at states
  exact absurd (before.symm.trans states) (by decide +kernel)

end CallingInstance
end Avs
