import Avs.KeyProvenance
import Mathlib.Data.List.MinMax
import Mathlib.Data.Prod.Lex

/-!
Which conference a call adopts: the earliest by time and then by sequence number (`earliest`), whatever the
order in which the messages arrive. The code compares sequence numbers by their signed difference, which is
wrong for two of them that lie 2^31 or more apart.
-/
namespace Avs.Ccall
open List Option Runs

/-- The description of a conference that a call has adopted. -/
structure Conference where
  timestamp : UInt64
  seqno : UInt32
  primarySftUrl : Option Bytes
  sftTuple : Option Bytes
  secret : Bytes
  deriving DecidableEq, Repr

/-- What is adopted; there is nothing as long as the time is 0. -/
def conference (cc : Ccall) : Conference :=
  ⟨cc.sftTimestamp, cc.sftSeqno, cc.primarySftUrl, cc.sftTuple, cc.secret⟩

def described (info : ConfInfo) : Conference :=
  ⟨info.timestamp, info.seqno, some (copySft info.sftUrl), info.sftTuple, info.secret⟩

def Conference.key (c : Conference) : ℕ ×ₗ ℕ := toLex (c.timestamp.toNat, c.seqno.toNat)

variable {c initial : Conference} {cc cc' : Ccall} {env : Env} {event : CcallEvent} {heard later : List Conference}

theorem key_lt {d : Conference} :
    c.key < d.key ↔ c.timestamp < d.timestamp ∨ c.timestamp = d.timestamp ∧ c.seqno < d.seqno := by
  rw [Conference.key, Conference.key, Prod.Lex.lt_iff]
  simp [UInt64.lt_iff_toNat_lt, UInt32.lt_iff_toNat_lt, UInt64.toNat_inj]

def candidates (initial : Conference) (heard : List Conference) : List Conference :=
  if initial.timestamp = 0 then heard else initial :: heard

/-- The earliest conference, the first one of those with its time and number. -/
def earliest (initial : Conference) (heard : List Conference) : Conference :=
  ((candidates initial heard).argmin Conference.key).getD initial

/-- The conference of a valid CONFSTART or CONFCHECK: the message is young enough, and a CONFCHECK is a response. -/
def notice : CcallEvent → Option Conference
  | .msgRecv _ _ age (.confStart _ info) => if age < confstartTimeoutS then some (described info) else none
  | .msgRecv _ _ age (.confCheck resp info) =>
    if age < confstartTimeoutS ∧ resp then some (described info) else none
  | _ => none

def Comparable (confs : List Conference) : Prop :=
  ∀ c ∈ confs, ∀ d ∈ confs, c.timestamp = d.timestamp → c.seqno.toNat < d.seqno.toNat + 2 ^ 31

/-- An event of a kind that leaves what is adopted alone, in any state. -/
def aloof : CcallEvent → Bool
  | .setDuration _ | .setBackground _ | .datachanEstab | .mediaEstab _ | .ping | .lookup _ | .decryptAttempted
  | .decryptSuccessful | .tick _ => true
  | _ => false

/-- Between the messages come events that are aloof, and others where they change nothing of what is adopted: a reset or
    a CONFPART can, depending on the state. -/
def Steady (env : Env) (event : CcallEvent) (cc : Ccall) : Prop :=
  notice event = none → aloof event = true ∨ ∀ cc' ∈ step env event cc, conference cc' = conference cc

instance (env : Env) (event : CcallEvent) (cc : Ccall) : Decidable (Steady env event cc) := by
  unfold Steady
  infer_instance

instance : DecidablePred Comparable := fun confs =>
  inferInstanceAs (Decidable (∀ c ∈ confs, ∀ d ∈ confs,
    c.timestamp = d.timestamp → c.seqno.toNat < d.seqno.toNat + 2 ^ 31))

section
variable {info : ConfInfo} {state : CcallState} {order : Int32} {userid clientid : Bytes}

@[simp] theorem tmrStart_conference {t : CcallTimer} : conference (cc.tmrStart t) = conference cc := rfl

@[simp] theorem tmrCancel_conference {ts : List CcallTimer} : conference (cc.tmrCancel ts) = conference cc := rfl

@[simp] theorem tell_conference {o : Output} : conference (cc.tell o) = conference cc := rfl

theorem enter_conference (notIdle : state ≠ .idle) : conference (enter cc state) = conference cc := by
  cases state with
  | idle => exact absurd rfl notIdle
  | connsent =>
    by_cases fresh : (!cc.isMlsCall && decide (cc.reconnectAttempts = 0)) = true
    · simp [enter, fresh, conference, tmrStart, tmrCancel]
    · simp [enter, fresh, conference, tmrStart, tmrCancel]
  | active =>
    unfold enter
    simp only
    split
    · rw [tmrStart_conference]
      rfl
    · rfl
  | connected | terminating => exact tmrCancel_conference
  | _ => rfl

theorem setState_conference (notIdle : state ≠ .idle) : conference (setState cc state) = conference cc := by
  have entered : conference (enter { cc with state := state } state) = conference cc := enter_conference notIdle
  unfold setState
  simp only
  split
  · exact entered
  · exact entered

theorem aloof_conference (isAloof : aloof event = true) (stepped : step env event cc = some cc') :
    conference cc' = conference cc := by
  cases event with
  | setDuration | decryptAttempted | decryptSuccessful | tick => exact some.inj stepped ▸ rfl
  | setBackground background =>
    obtain rfl := some.inj stepped
    unfold setBackground
    split
    · split <;> rfl
    · rfl
  | datachanEstab =>
    simp only [step] at stepped
    split at stepped
    · cases stepped
    · obtain rfl := some.inj stepped
      split
      · exact setState_conference (by simp)
      · rfl
  | mediaEstab ecall =>
    simp only [step] at stepped
    split at stepped
    · obtain rfl := some.inj stepped
      have told : conference (if cc.isMlsCall then cc.tell .reqNewEpochh else cc) = conference cc := by
        split <;> rfl
      unfold mediaEstabHandler
      split
      · rfl
      · simp only
        generalize (if cc.isMlsCall then cc.tell .reqNewEpochh else cc) = mid at told ⊢
        split
        · exact told
        · show conference (setState _ .active) = _
          rw [setState_conference (by simp), told]
    · cases stepped
  | ping =>
    simp only [step] at stepped
    split at stepped
    · cases stepped
    · exact some.inj stepped ▸ rfl
  | lookup index =>
    obtain ⟨_, -, rfl⟩ := map_eq_some_iff.mp stepped
    rfl
  | _ => cases isAloof

theorem rejoin_conference : conference (rejoin env cc info) = conference cc := by
  unfold rejoin reqCfgJoin ecallEnd
  rw [tell_conference]
  refine (setState_conference (by simp)).trans ?_
  split <;> rfl

theorem takeSftl_conference : conference (takeSftl cc order info) = conference cc := by
  unfold takeSftl
  split <;> rfl

theorem comeIn_conference {shouldRing : Bool} : conference (comeIn cc userid clientid shouldRing) = conference cc := by
  have came : conference (setState { cc with isRinging := shouldRing } .incoming) = conference cc :=
    setState_conference (by simp)
  unfold comeIn
  simp only
  split
  · rw [tmrStart_conference, tell_conference, came]
  · rw [tell_conference, came]

theorem confstartState_conference {rings : Bool}
    (handled : confstartState env cc userid clientid rings order info = some cc') : conference cc' = conference cc := by
  have rejoins : conference (if order > 0 then rejoin env cc info else cc) = conference cc := by
    split
    · exact rejoin_conference
    · rfl
  unfold confstartState at handled
  cases at_ : cc.state with
  | idle =>
    simp only [at_, some.injEq] at handled
    rw [← handled, takeSftl_conference, comeIn_conference]
  | incoming =>
    simp only [at_, some.injEq] at handled
    rw [← handled, takeSftl_conference, tmrStart_conference]
    split <;> rfl
  | active =>
    simp only [at_] at handled
    by_cases earlier : order > 0
    · rw [if_pos earlier, some.injEq] at handled
      rw [← handled, rejoin_conference]
    · rw [if_neg earlier] at handled
      split at handled
      · rw [sendMsg, sendMsgI] at handled
        obtain ⟨made, -, rfl⟩ := map_eq_some_iff.mp handled
        cases made <;> rfl
      · exact some.inj handled ▸ rfl
  | terminating =>
    simp only [at_, some.injEq] at handled
    exact handled ▸ rfl
  | _ =>
    simp only [at_, some.injEq] at handled
    exact handled ▸ rejoins

theorem signed_difference {a b : UInt32} (near : a.toNat < b.toNat + 2 ^ 31) (near' : b.toNat < a.toNat + 2 ^ 31) :
    (a - b).toInt32 > 0 ↔ b < a := by
  have signed : (a - b).toInt32.toInt = ((a - b).toNat : Int).bmod (2 ^ 32) := BitVec.toInt_eq_toNat_bmod _
  have small := UInt32.toNat_lt a
  have small' := UInt32.toNat_lt b
  rw [gt_iff_lt, Int32.lt_iff_toInt_lt, UInt32.lt_iff_toNat_lt, signed, UInt32.toNat_sub, Int32.toInt_zero, Int.bmod]
  split <;> omega

/-- The comparison of the code is the lexicographic one for numbers that lie less than 2^31 apart. -/
theorem tsCmp_pos (near : cc.sftTimestamp = info.timestamp →
      cc.sftSeqno.toNat < info.seqno.toNat + 2 ^ 31 ∧ info.seqno.toNat < cc.sftSeqno.toNat + 2 ^ 31) :
    tsCmp cc info > 0 ↔ cc.sftTimestamp = 0 ∨ (described info).key < (conference cc).key := by
  rw [key_lt]
  simp only [tsCmp, described, conference]
  by_cases unset : cc.sftTimestamp = 0
  · simp [unset]
  · by_cases less : info.timestamp < cc.sftTimestamp
    · simp [less]
    · by_cases more : info.timestamp > cc.sftTimestamp
      · have differ : info.timestamp ≠ cc.sftTimestamp := (UInt64.ne_of_lt more).symm
        simp [unset, less, more, differ]
      · have same : cc.sftTimestamp = info.timestamp :=
          UInt64.le_antisymm (UInt64.not_lt.mp less) (UInt64.not_lt.mp more)
        rw [if_neg (by simp [unset, less]), if_neg more, signed_difference (near same).1 (near same).2]
        simp [unset, same.symm]

theorem adopt_conference : conference (adopt env cc info) = described info :=
  rfl

theorem notice_conference (brings : notice event = some c) (stepped : step env event cc = some cc') :
    ∃ info, c = described info ∧
      conference cc' = if tsCmp cc info > 0 then described info else conference cc := by
  have handles : ∀ {userid clientid : Bytes} {age : UInt32} {isStart resp : Bool} {info : ConfInfo},
      age < confstartTimeoutS ∧ (isStart ∨ resp) →
      handleConfstartCheck env cc userid clientid age isStart resp info = some cc' →
        conference cc' = if tsCmp cc info > 0 then described info else conference cc := by
    intro userid clientid age isStart resp info valid handled
    rw [handleConfstartCheck, if_pos valid] at handled
    rw [confstartState_conference handled]
    split
    · exact adopt_conference
    · rfl
  match event, brings with
  | .msgRecv _ _ age (.confStart _ info), brings =>
    rw [notice, ite_none_right_eq_some] at brings
    obtain ⟨young, same⟩ := brings
    exact ⟨info, (some.inj same).symm, handles ⟨young, .inl rfl⟩ stepped⟩
  | .msgRecv _ _ age (.confCheck resp info), brings =>
    rw [notice, ite_none_right_eq_some] at brings
    obtain ⟨⟨young, response⟩, same⟩ := brings
    exact ⟨info, (some.inj same).symm, handles ⟨young, .inr response⟩ stepped⟩

end

section
variable {heard' : List Conference}

theorem candidates_append : candidates initial (heard ++ later) = candidates initial heard ++ later := by
  unfold candidates
  split <;> rfl

theorem candidates_set (set : ∀ d ∈ heard, d.timestamp ≠ 0) : ∀ d ∈ candidates initial heard, d.timestamp ≠ 0 := by
  intro d member
  unfold candidates at member
  split at member
  · exact set d member
  · rcases mem_cons.mp member with rfl | later
    · assumption
    · exact set d later

theorem earliest_cases (initial : Conference) (heard : List Conference) :
    candidates initial heard = [] ∧ earliest initial heard = initial ∧ initial.timestamp = 0 ∨
      earliest initial heard ∈ (candidates initial heard).argmin Conference.key := by
  unfold earliest
  cases chosen : (candidates initial heard).argmin Conference.key with
  | none =>
    have empty := argmin_eq_none.mp chosen
    refine .inl ⟨empty, rfl, ?_⟩
    by_contra set
    simp [candidates, set] at empty
  | some c => exact .inr rfl

theorem earliest_append (set : ∀ d ∈ heard, d.timestamp ≠ 0) : earliest initial (heard ++ [c]) =
      if (earliest initial heard).timestamp = 0 ∨ c.key < (earliest initial heard).key then c
      else earliest initial heard := by
  rcases earliest_cases initial heard with ⟨empty, same, unset⟩ | chosen
  · rw [earliest, candidates_append, empty, same, if_pos (.inl unset)]
    rfl
  · have isSet := candidates_set set _ (argmin_mem chosen)
    generalize earliest initial heard = best at chosen isSet
    have best_ : (candidates initial heard).argmin Conference.key = some best := chosen
    rw [earliest, candidates_append, argmin_concat, best_]
    by_cases less : c.key < best.key
    · simp [less]
    · simp [less, isSet]

/-- The earliest of conferences with distinct keys does not depend on their order. -/
theorem argmin_perm (distinct : (heard.map Conference.key).Nodup) (same : heard.Perm heard') :
    heard.argmin Conference.key = heard'.argmin Conference.key := by
  cases chosen : heard.argmin Conference.key with
  | none =>
    have empty := argmin_eq_none.mp chosen
    rw [empty, nil_perm] at same
    rw [same]
    rfl
  | some a =>
    cases chosen' : heard'.argmin Conference.key with
    | none =>
      rw [argmin_eq_none.mp chosen', perm_nil] at same
      simp [same] at chosen
    | some b =>
      have memberA := argmin_mem chosen
      have memberB := same.mem_iff.mpr (argmin_mem chosen')
      have keys : a.key = b.key := le_antisymm (le_of_mem_argmin memberB chosen)
        (le_of_mem_argmin (same.mem_iff.mp memberA) chosen')
      rw [inj_on_of_nodup_map distinct memberA memberB keys]

theorem earliest_perm (distinct : (heard.map Conference.key).Nodup) (same : heard.Perm heard') :
    earliest initial heard = earliest initial heard' := by
  unfold earliest candidates
  by_cases unset : initial.timestamp = 0
  · rw [if_pos unset, if_pos unset, argmin_perm distinct same]
  · rw [if_neg unset, if_neg unset, argmin_cons, argmin_cons, argmin_perm distinct same]

end

theorem comparable_front
    (comparable : Comparable (candidates initial (heard ++ later))) : Comparable (candidates initial heard) := by
  rw [candidates_append] at comparable
  intro c memberC d memberD
  exact comparable c (mem_append_left _ memberC) d (mem_append_left _ memberD)

theorem step_earliest (steady : Steady env event cc) (set : ∀ c ∈ heard, c.timestamp ≠ 0)
    (comparable : Comparable (candidates initial (heard ++ (notice event).toList)))
    (before : conference cc = earliest initial heard) (stepped : step env event cc = some cc') :
    conference cc' = earliest initial (heard ++ (notice event).toList) := by
  cases brings : notice event with
  | none =>
    rw [toList_none, append_nil, ← before]
    exact (steady brings).elim (fun isAloof => aloof_conference isAloof stepped) (fun same => same cc' stepped)
  | some c =>
    obtain ⟨info, rfl, adopted⟩ := notice_conference brings stepped
    rw [brings, toList_some, candidates_append] at comparable
    have near : cc.sftTimestamp ≠ 0 → cc.sftTimestamp = info.timestamp →
        cc.sftSeqno.toNat < info.seqno.toNat + 2 ^ 31 ∧ info.seqno.toNat < cc.sftSeqno.toNat + 2 ^ 31 := by
      intro isSet same
      have member : conference cc ∈ candidates initial heard := by
        rcases earliest_cases initial heard with ⟨-, unchanged, unset⟩ | chosen
        · exact absurd ((congrArg Conference.timestamp (before.trans unchanged)).trans unset) isSet
        · exact before ▸ argmin_mem chosen
      have new : described info ∈ candidates initial heard ++ [described info] := by simp
      exact ⟨comparable _ (mem_append_left _ member) _ new same,
        comparable _ new _ (mem_append_left _ member) same.symm⟩
    rw [toList_some, earliest_append set, ← before, adopted]
    by_cases unset : cc.sftTimestamp = 0
    · have first : tsCmp cc info > 0 := by simp [tsCmp, unset]
      rw [if_pos first, if_pos (.inl unset)]
    · simp only [tsCmp_pos (near unset)]
      rfl

/-- The call has adopted the earliest conference so far, if all of them can be compared. -/
def Adopted (initial : Conference) (events : List CcallEvent) (cc : Ccall) : Prop :=
  (∀ c ∈ events.filterMap notice, c.timestamp ≠ 0) →
    Comparable (candidates initial (events.filterMap notice)) →
      conference cc = earliest initial (events.filterMap notice)

theorem run_earliest {events : List CcallEvent} (ran : run (step env) cc events = some cc')
    (steady : Throughout (step env) cc events (Steady env)) : Adopted (conference cc) events cc' := by
  have start : Adopted (conference cc) [] cc := by
    intro _ _
    unfold earliest candidates
    split <;> rfl
  refine run_history start ?_ steady ran
  intro front event mid mid' _ steady before stepped set comparable
  have split : (front ++ [event]).filterMap notice = front.filterMap notice ++ (notice event).toList := by
    rw [filterMap_append]
    cases brings : notice event with
    | none => simp [brings]
    | some c => simp [brings]
  rw [split] at set comparable ⊢
  have set' : ∀ c ∈ front.filterMap notice, c.timestamp ≠ 0 := fun c member => set c (mem_append_left _ member)
  exact step_earliest steady set' comparable (before set' (comparable_front comparable)) stepped

/-- In every run in which nothing but valid CONFSTART and CONFCHECK messages changes the adopted conference, and no two
    conferences of one time have numbers that lie 2^31 or more apart, the earliest conference is adopted whatever the
    order of the messages, and no later one on the way. -/
theorem arbitration_earliest (env : Env) (cc cc' : Ccall) (events : List CcallEvent)
    (ran : run (step env) cc events = some cc') (steady : Throughout (step env) cc events (Steady env))
    (set : ∀ c ∈ events.filterMap notice, c.timestamp ≠ 0)
    (distinct : ((events.filterMap notice).map Conference.key).Nodup)
    (comparable : Comparable (candidates (conference cc) (events.filterMap notice))) :
    conference cc' = earliest (conference cc) (events.filterMap notice) ∧
      (∀ heard, heard.Perm (events.filterMap notice) → conference cc' = earliest (conference cc) heard) ∧
      ∀ front back mid, events = front ++ back → run (step env) cc front = some mid → mid.sftTimestamp ≠ 0 →
        (conference cc').key ≤ (conference mid).key := by
  have adopted := run_earliest ran steady set comparable
  refine ⟨adopted, ?_, ?_⟩
  · intro heard same
    rw [adopted]
    exact earliest_perm distinct same.symm
  · rintro front back mid rfl reached isSet
    rw [filterMap_append] at set comparable adopted
    have early := run_earliest reached (throughout_front steady)
      (fun c member => set c (mem_append_left _ member)) (comparable_front comparable)
    rcases earliest_cases (conference cc) (front.filterMap notice) with ⟨-, unchanged, unset⟩ | chosen
    · exact absurd ((congrArg Conference.timestamp (early.trans unchanged)).trans unset) isSet
    · have member : conference mid ∈ candidates (conference cc) (front.filterMap notice ++ back.filterMap notice) := by
        rw [candidates_append, early]
        exact mem_append_left _ (argmin_mem chosen)
      rcases earliest_cases (conference cc) (front.filterMap notice ++ back.filterMap notice) with ⟨empty, -⟩ | best
      · simp [empty] at member
      · rw [adopted]
        exact le_of_mem_argmin member best

def bobStarts (timestamp : UInt64) (seqno : UInt32) : CcallEvent :=
  .msgRecv (ascii "bob") (ascii "1") 0
    (.confStart false ⟨timestamp, seqno, [seqno.toUInt8], ascii "sft.bob", none, [ascii "sft.bob"]⟩)

/-- The numbers 0 and 2^31 + 1 of one time: the second is adopted, though it is later. -/
theorem arbitration_wraps : let events := [bobStarts 5 0, bobStarts 5 0x80000001]
    ∃ cc', run (step plainEnv) (aliceCall false) events = some cc' ∧
      Throughout (step plainEnv) (aliceCall false) events (Steady plainEnv) ∧
      (∀ c ∈ events.filterMap notice, c.timestamp ≠ 0) ∧ ((events.filterMap notice).map Conference.key).Nodup ∧
      (conference cc').seqno = 0x80000001 ∧
      (earliest (conference (aliceCall false)) (events.filterMap notice)).seqno = 0 := by
  intro events
  refine exists_guarded (Steady plainEnv) (fun cc => (conference cc).seqno = 0x80000001) (by decide +kernel)
    fun cc' steady ran adopted => ?_
  exact ⟨steady, by decide +kernel, by decide +kernel, adopted, by decide +kernel⟩

/-- The later conference comes first, then the clock moves and the call rings; the earliest one is adopted. -/
theorem arbitration_earliest_second :
    let events := [bobStarts 9 3, .tick 7, bobStarts 9 1, .setBackground true, bobStarts 12 0]
    ∃ cc', run (step plainEnv) (aliceCall false) events = some cc' ∧
      conference cc' = earliest (conference (aliceCall false)) (events.filterMap notice) ∧ cc'.sftSeqno = 1 := by
  intro events
  refine exists_guarded (Steady plainEnv) (fun cc => cc.sftSeqno = 1) (by decide +kernel)
    fun cc' steady ran adopted => ⟨?_, adopted⟩
  exact (arbitration_earliest plainEnv _ cc' events ran steady (by decide +kernel) (by decide +kernel)
    (by decide +kernel)).1

end Avs.Ccall
