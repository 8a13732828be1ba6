import Avs.CourseTurns
import Avs.Distribution

/-!
How often the application hears that a call is over. From the moment it is started or answered until it is
down again and its inner call is gone, the leave and the close handler are to be called once between them. The
close of the inner call is what reports; whatever ends the call earlier reports only where there is no inner
call to close, or, for a meeting that ran out of time, in its place.
-/
namespace Avs.Ccall
open List Option Runs

def isReport : Output → Bool
  | .leaveh _ | .closeh _ => true
  | _ => false

/-- The call is down and has no inner call. -/
def AtHome (cc : Ccall) : Prop := (cc.state = .idle ∨ cc.state = .incoming) ∧ cc.ecall = none

/-- Where `ccall_end_with_err` leaves one report: a call that waits has no inner call, any other has one. A call that
    ran out of time was reported already. -/
def EndsOnce (c : Course) (err : Errno) : Prop :=
  match c.state with
  | .connsent | .waitconfig | .waitconfigOutgoing | .waitnetwork => c.ecall = none
  | .setuprecv | .connecting | .connected | .active => c.ecall ≠ none ∧ c.error ≠ some .EDURATION
  | .terminating => c.ecall ≠ none ∧ (err = .EDURATION ↔ c.error = some .EDURATION)
  | .idle | .incoming => True

/-- What ends the call leaves one report, no reconnect is one too many, an awaited configuration has SFTs, and a call
    that ran out of time is not taken up again before its inner call has closed, with nobody in the call. -/
def Tidy (event : CcallEvent) (cc : Ccall) : Prop :=
  match event with
  | .start _ | .answer => cc.error ≠ some .EDURATION
  | .config cfg =>
    match cc.je with
    | none => True
    | some je => cfg.sftservers ≠ [] ∧ (cc.state = .waitconfig → je.retryAttempt = true → cc.ecall = none)
  | .msgRecv _ _ age (.confStart _ info) => Earlier cc age true info → Down cc ∨ cc.error ≠ some .EDURATION
  | .msgRecv _ _ age (.confCheck resp info) => Earlier cc age resp info → Down cc ∨ cc.error ≠ some .EDURATION
  | .sftNetworkError => EndsOnce cc.course .ENOSYS
  | .confpart ecall msg => cc.ecall = some ecall → RunsOut cc msg → EndsOnce cc.course .EDURATION
  | .closed ecall err => cc.ecall = some ecall → err ≠ some .EAGAIN → err ≠ some .ENOTCONN →
      cc.error = some .EDURATION → cc.userl.incallCount = 0
  | .timer .connect => cc.state ≠ .active → EndsOnce cc.course .ETIMEDOUT
  | .timer .duration => EndsOnce cc.course .EDURATION
  | .timer .alone => cc.state = .active → cc.error ≠ some .EDURATION
  | .timer .sftReject => cc.state = .connsent → cc.ecall = none
  | .timer .keepalive => cc.state = .active → cc.ecall ≠ none → cc.expectedPing + 1 > maxMissingPings →
      cc.reconnectAttempts < maxReconnectAttempts
  | .timer .decryptCheck => cc.state = .active → cc.receivedConfpart = false →
      cc.reconnectAttempts < maxReconnectAttempts
  | .timer .term => cc.ecall = none
  | _ => True

instance (cc : Ccall) : Decidable (AtHome cc) := by
  unfold AtHome
  infer_instance

instance (c : Course) (err : Errno) : Decidable (EndsOnce c err) := by
  unfold EndsOnce
  split <;> infer_instance

instance (cc : Ccall) (age : UInt32) (valid : Bool) (info : ConfInfo) : Decidable (Earlier cc age valid info) :=
  inferInstanceAs (Decidable (_ ∧ _ ∧ _))

instance (cc : Ccall) : Decidable (Down cc) := inferInstanceAs (Decidable (_ ∨ _ ∨ _))

instance (cc : Ccall) (msg : Confpart) : Decidable (RunsOut cc msg) := inferInstanceAs (Decidable (_ ∧ _ ∧ _))

instance (cfg : CallConfig) (cc : Ccall) : Decidable (Tidy (.config cfg) cc) := by
  unfold Tidy
  dsimp only
  split <;> infer_instance

instance (event : CcallEvent) (cc : Ccall) : Decidable (Tidy event cc) :=
  match event with
  | .start _ | .answer => inferInstanceAs (Decidable (_ ≠ _))
  | .config _ => inferInstance
  | .msgRecv _ _ _ (.confStart ..) | .msgRecv _ _ _ (.confCheck ..) => inferInstanceAs (Decidable (_ → _ ∨ _))
  | .sftNetworkError | .timer .duration => inferInstanceAs (Decidable (EndsOnce _ _))
  | .confpart _ _ | .timer .decryptCheck => inferInstanceAs (Decidable (_ → _ → _))
  | .closed _ _ => inferInstanceAs (Decidable (_ → _ → _ → _ → _))
  | .timer .connect | .timer .alone | .timer .sftReject => inferInstanceAs (Decidable (_ → _))
  | .timer .keepalive => inferInstanceAs (Decidable (_ → _ → _ → _))
  | .timer .term => inferInstanceAs (Decidable (_ = _))
  | .timer .sendCheck | .timer .ongoing | .timer .rotateKey | .timer .rotateMls | .timer .ring
  | .msgRecv _ _ _ (.confKey ..) | .msgRecv _ _ _ (.confEnd ..) | .msgRecv _ _ _ (.reject _)
  | .end_ | .reject | .setClients .. | .setMediaKey .. | .setDuration _ | .setBackground _ | .sftMsgRecv _
  | .transpSend _ | .datachanEstab | .mediaEstab _ | .ping | .propsync .. | .lookup _ | .decryptAttempted
  | .decryptSuccessful | .tick _ => instDecidableTrue

/-- Between the start and the return: not down, and reported, once, only where it ran out of time and its inner call is
    closing. -/
structure Away (before : Nat) (c : Course) : Prop where
  up : c.state ≠ .idle ∧ c.state ≠ .incoming
  reported : c.told.countP isReport = before ∧ c.error ≠ some .EDURATION ∨
    c.told.countP isReport = before + 1 ∧ c.error = some .EDURATION ∧ c.ecall ≠ none

structure Back (before : Nat) (c : Course) : Prop where
  down : c.state = .idle ∨ c.state = .incoming
  ecall : c.ecall = none
  reported : c.told.countP isReport = before + 1

section
variable {c : Course} {cc : Ccall} {env : Env} {cc' : Ccall} {event : CcallEvent} {before : Nat} {c' : Course}
  {o : Output} {err : Errno} {msg : Confpart} {events : List CcallEvent}

theorem Away.unreported (away : Away before c) (without : c.ecall = none ∨ c.error ≠ some .EDURATION) :
    c.told.countP isReport = before ∧ c.error ≠ some .EDURATION := by
  rcases away.reported with none_ | ⟨-, overtime, present⟩
  · exact none_
  · rcases without with absent | other
    · exact absurd absent present
    · exact absurd overtime other

theorem countP_tell (report : isReport o = true) : (c.tell o).told.countP isReport = c.told.countP isReport + 1 := by
  simp [Course.tell, countP_append, report]

theorem endWithErr_once (away : Away before c) (once : EndsOnce c err) :
    Away before (c.endWithErr true err) ∨ Back before (c.endWithErr true err) := by
  unfold EndsOnce at once
  split at once
  case h_1 | h_2 | h_3 | h_4 =>
    -- The call waits: the leave handler reports, and there is nothing left to close.
    next known =>
    right
    have reported := (away.unreported (.inl once)).1
    constructor <;> simp [Course.endWithErr, Course.leave, known, once, Course.enter, Course.tell, countP_append,
      isReport, reported]
  case h_5 | h_6 | h_7 | h_8 =>
    next known =>
    left
    obtain ⟨present, other⟩ := once
    have reported := (away.unreported (.inr other)).1
    have kept : c.ecall.isSome = true := isSome_iff_ne_none.mpr present
    by_cases overtime : err = .EDURATION
    · constructor <;> simp [Course.endWithErr, Course.leave, known, Course.enter, Course.tell, countP_append,
        isReport, overtime, kept, present, reported]
    · constructor <;> simp [Course.endWithErr, Course.leave, known, Course.enter, overtime, kept, reported]
  case h_9 =>
    next known =>
    left
    obtain ⟨present, same⟩ := once
    have kept : c.ecall.isSome = true := isSome_iff_ne_none.mpr present
    refine ⟨by simp [Course.endWithErr, Course.leave, known, kept], ?_⟩
    rcases away.reported with ⟨none_, other⟩ | ⟨one, overtime, -⟩
    · left
      simpa [Course.endWithErr, Course.leave, known, kept, none_] using fun err => other (same.mp err)
    · right
      simpa [Course.endWithErr, Course.leave, known, kept, one, present] using same.mpr overtime
  · next idle => exact absurd idle away.up.1
  · next incoming => exact absurd incoming away.up.2

theorem closeCall_back {shouldEnd : Bool} (reported : c.told.countP isReport = before ∧ c.error ≠ some .EDURATION ∨
      c.told.countP isReport = before + 1 ∧ c.error = some .EDURATION ∧ shouldEnd = true) :
    Back before (c.closeCall shouldEnd) := by
  rcases reported with ⟨none_, other⟩ | ⟨one, overtime, rfl⟩
  · cases shouldEnd with
    | true | false =>
      constructor <;> simp [Course.closeCall, other, Course.enter, Course.tell, countP_append, isReport, none_]
  · constructor <;> simp [Course.closeCall, overtime, Course.enter, one]

theorem not_report_of_confEnd (confEnd : isConfEnd o = true) : isReport o = false := by
  unfold isConfEnd at confEnd
  split at confEnd
  · rfl
  · simp at confEnd

theorem rejectReason_some {status : ConfconnStatus} (refused : status ≠ .ok) :
    ∃ reason, rejectReason status = some reason := by
  cases status with
  | ok => exact absurd rfl refused
  | rejectedBlacklist | rejectedAuthInvalid | rejectedAuthExpired | rejectedAuthLimit | rejectedAuthCantstart =>
    exact ⟨_, rfl⟩

theorem turn_once (econn : ∀ n, env.hasEconn n = true) (tidy : Tidy event cc)
    (marked : cc.course.sftReject = true → cc.course.confconnStatus ≠ .ok) (away : Away before cc.course)
    (turn : Turn env cc event c') : Away before c' ∨ Back before c' := by
  have idle : cc.state ≠ .idle := away.up.1
  have incoming : cc.state ≠ .incoming := away.up.2
  have still : ∀ {d : Course}, d.told = cc.course.told → d.error = cc.course.error → d.ecall = cc.course.ecall →
      d.state ≠ .idle ∧ d.state ≠ .incoming → Away before d ∨ Back before d := by
    intro d told error ecall up
    refine .inl ⟨up, ?_⟩
    rw [told, error, ecall]
    exact away.reported
  have reaches : ∀ {d : Course} {ecall : Nat}, d.told = cc.course.told → d.error = cc.course.error →
      d.state ≠ .idle ∧ d.state ≠ .incoming →
      Away before { d with ecall := some ecall } ∨ Back before { d with ecall := some ecall } := by
    intro d ecall told error up
    refine .inl ⟨up, ?_⟩
    simp only [told, error]
    exact away.reported.imp_right fun one => ⟨one.1, one.2.1, by simp⟩
  have onward : ∀ {state : CcallState}, goesOn state = true → state ≠ .idle ∧ state ≠ .incoming := by
    rintro state goes
    constructor
    · rintro rfl
      simp [goesOn] at goes
    · rintro rfl
      simp [goesOn] at goes
  cases turn with
  | stays _ je => exact still rfl rfl rfl away.up
  | clears _ command later =>
    have other : cc.course.error ≠ some .EDURATION := by
      cases event with
      | start _ | answer => exact tidy
      | _ => simp [isCommand] at command
    exact .inl ⟨away.up, .inl ⟨(away.unreported (.inr other)).1, by simp⟩⟩
  | takes _ state command rests waits => exact absurd rests (not_or.mpr away.up)
  | moves _ state je goes => exact still rfl rfl rfl (onward goes)
  | reaches msg ecall found => exact reaches rfl rfl away.up
  | setsUp msg ecall found => exact reaches rfl rfl (onward rfl)
  | refuses msg status refused => exact still rfl rfl rfl away.up
  | lapses _ alone sftReject aloneLess rejectLess => exact still rfl rfl rfl away.up
  | comesIn _ known => exact absurd known idle
  | ringsOff _ known => exact absurd known incoming
  | passes _ known => exact absurd known incoming
  | rejoins _ earlier =>
    have other : cc.course.error ≠ some .EDURATION := by
      unfold Rejoins at earlier
      split at earlier
      · exact (tidy earlier.1).resolve_left earlier.2
      · exact (tidy earlier.1).resolve_left earlier.2
      · exact absurd earlier id
    exact .inl ⟨onward rfl, .inl (away.unreported (.inr other))⟩
  | fails _ n err cause =>
    rw [econn n]
    refine endWithErr_once away ?_
    cases cause with
    | network => exact tidy
    | connect inactive => exact tidy inactive
    | duration => exact tidy
    | alone err left set active present =>
      rw [EndsOnce, show cc.course.state = .active from active]
      exact ⟨present, tidy active⟩
  | denied cfg n waiting again =>
    rw [econn n]
    simp only [Tidy, again] at tidy
    have once : EndsOnce cc.course .EACCES := by
      rw [EndsOnce, show cc.course.state = .waitconfig from waiting]
      exact tidy.2 waiting trivial
    rcases endWithErr_once away once with ended | ended
    · exact .inl ⟨ended.up, ended.reported⟩
    · exact .inr ⟨ended.down, ended.ecall, ended.reported⟩
  | unserved cfg n je awaited empty =>
    simp only [Tidy, awaited] at tidy
    exact absurd empty tidy.1
  | rejected known sent =>
    have without : cc.course.ecall = none := tidy sent
    have reported := (away.unreported (.inl without)).1
    obtain ⟨reason, given⟩ := rejectReason_some (marked known)
    rw [show rejectReason cc.confconnStatus = some reason from given]
    refine .inr ⟨.inl rfl, without, ?_⟩
    exact (countP_tell rfl).trans (congrArg (· + 1) reported)
  | closes ecall err ends current gone confEnd declared =>
    refine .inr (closeCall_back ?_)
    have silent : ends.countP isReport = 0 := by
      rw [countP_eq_zero]
      intro o member
      simp [not_report_of_confEnd (confEnd o member)]
    simp only [countP_append, silent, Nat.add_zero]
    refine away.reported.imp_right fun one => ⟨one.1, one.2.1, ?_⟩
    have nobody := Userlist.incallCount_eq_zero.mp (tidy current gone.1 gone.2 one.2.1)
    simp [nobody]
  | givesUp _ n cause =>
    cases cause with
    | keepalive active present missing spent => exact absurd spent (UInt32.not_le.mpr (tidy active present missing))
    | decryptCheck active unheard spent => exact absurd spent (UInt32.not_le.mpr (tidy active unheard))
  | terminates =>
    have without : cc.course.ecall = none := tidy
    have reported := (away.unreported (.inl without)).1
    exact .inr ⟨.inl rfl, without, (countP_tell rfl).trans (congrArg (· + 1) reported)⟩

theorem confpart_once {ecall : Nat} (econn : ∀ n, env.hasEconn n = true)
    (tidy : Tidy (.confpart ecall msg) cc) (current : cc.ecall = some ecall) (away : Away before cc.course)
    (turn : ConfpartTurn env cc msg c') : Away before c' ∨ Back before c' := by
  cases turn with
  | lists alone few => exact .inl ⟨away.up, away.reported⟩
  | runsOut alone n few spent =>
    rw [econn n]
    have heard : Away before { cc.course with receivedConfpart := true, alone := alone } := ⟨away.up, away.reported⟩
    rcases endWithErr_once heard (tidy current spent) with ended | ended
    · exact .inl ⟨ended.up, ended.reported⟩
    · exact .inr ⟨ended.down, ended.ecall, ended.reported⟩

theorem step_once (econn : ∀ n, env.hasEconn n = true) (tidy : Tidy event cc)
    (marked : cc.course.sftReject = true → cc.course.confconnStatus ≠ .ok) (away : Away before cc.course)
    (stepped : step env event cc = some cc') : Away before cc'.course ∨ Back before cc'.course := by
  rcases step_course stepped with ⟨-, turn⟩ | ⟨ecall, msg, rfl, current, -, turn⟩
  · exact turn_once econn tidy marked away turn
  · exact confpart_once econn tidy current away turn

/-- The timer of a rejection is set by the rejection. -/
def Marked (c : Course) : Prop := c.sftReject = true → c.confconnStatus ≠ .ok

theorem endWithErr_marked (marked : Marked c) {econn : Bool} : Marked (c.endWithErr econn err) := by
  have left : ∀ {d : Course}, Marked d → Marked (d.leave err) := by
    intro d kept
    unfold Course.leave
    split <;> try split
    all_goals exact kept
  have ended := left (d := { c with error := some err }) marked
  unfold Course.endWithErr
  simp only
  split <;> exact ended

theorem turn_marked (marked : Marked cc.course) (turn : Turn env cc event c') : Marked c' := by
  cases turn with
  | stays | clears | takes | moves | reaches | setsUp | comesIn | ringsOff | passes | rejoins | terminates =>
    exact marked
  | refuses msg status refused => exact fun _ => refused
  | lapses _ alone sftReject aloneLess rejectLess => exact fun set => marked (rejectLess set)
  | fails | givesUp => exact endWithErr_marked marked
  | denied cfg n => exact endWithErr_marked marked
  | unserved cfg n => exact endWithErr_marked marked
  | rejected =>
    split
    · exact fun set => absurd set (by simp [Course.enter])
    · exact fun set => absurd set (by simp [Course.enter, Course.tell])
  | closes =>
    unfold Course.closeCall
    simp only
    split <;> split <;> exact marked

theorem confpart_marked (marked : Marked cc.course) (turn : ConfpartTurn env cc msg c') : Marked c' := by
  cases turn with
  | lists => exact marked
  | runsOut alone n =>
    have heard : Marked { cc.course with receivedConfpart := true, alone := alone } := marked
    exact endWithErr_marked heard

theorem step_marked (marked : Marked cc.course) (stepped : step env event cc = some cc') : Marked cc'.course := by
  rcases step_course stepped with ⟨-, turn⟩ | ⟨_, _, -, -, -, turn⟩
  · exact turn_marked marked turn
  · exact confpart_marked marked turn

theorem run_marked {convid useridSelf clientid secret : Bytes} {isMlsCall meeting : Bool} {now : UInt64} (reached :
      run (step env) (alloc env convid useridSelf clientid secret isMlsCall meeting now) events = some cc) :
    Marked cc.course := by
  have keeps : ∀ event mid mid', True → Marked mid.course → step env event mid = some mid' → Marked mid'.course :=
    fun _ _ _ _ marked stepped => step_marked marked stepped
  refine run_invariant keeps (fun _ _ => trivial) ?_ reached
  simp [Marked, course, alloc, setSecret]

theorem run_out (ran : run (step env) cc events = some cc') : ∃ extra, cc'.out = cc.out ++ extra := by
  have keeps : ∀ event mid mid', True → (∃ extra, mid.out = cc.out ++ extra) → step env event mid = some mid' →
      ∃ extra, mid'.out = cc.out ++ extra := by
    rintro event mid mid' - ⟨extra, out⟩ stepped
    obtain ⟨more, out'⟩ := moves_out (step_moves stepped)
    exact ⟨extra ++ more, by rw [out', out, append_assoc]⟩
  exact run_invariant keeps (fun _ _ => trivial) ⟨[], by simp⟩ ran

theorem countP_told : cc.course.told.countP isReport = cc.out.countP isReport := by
  simp only [course, countP_filter]
  refine countP_congr fun o _ => ?_
  cases o <;> simp [isReport, notable]

theorem command_away (command : isCommand event = true) (rests : cc.state = .idle ∨ cc.state = .incoming)
    (taken : step env event cc = some cc') : Away (cc.course.told.countP isReport) cc'.course := by
  rcases command_course command taken with ⟨-, state, waits, course⟩ | ⟨later, -⟩
  · rw [course]
    refine ⟨?_, .inl ⟨rfl, by simp [Course.enter]⟩⟩
    rcases waits with rfl | rfl <;> simp [Course.enter]
  · exact absurd rests (not_or.mpr later)

end

/-- In every run in which the call ends in an orderly way, and each inner call it ends has an econn, the leave and the
    close handler are called once between them from the moment the call is started or answered until it is down again.
    -/
theorem reports_leaving_once (env : Env) (econn : ∀ n, env.hasEconn n = true)
    (convid useridSelf clientid secret : Bytes) (isMlsCall meeting : Bool) (now : UInt64)
    (before : List CcallEvent) (command : CcallEvent) (within : List CcallEvent) (cc away back : Ccall)
    (reached : run (step env) (alloc env convid useridSelf clientid secret isMlsCall meeting now) before = some cc)
    (isStart : isCommand command = true) (rests : cc.state = .idle ∨ cc.state = .incoming)
    (taken : step env command cc = some away)
    (tidy : Throughout (step env) away within (fun event mid => ¬ AtHome mid ∧ Tidy event mid))
    (ran : run (step env) away within = some back) (home : AtHome back) :
    (back.out.drop cc.out.length).countP isReport = 1 := by
  have keeps : ∀ event mid mid', ¬ AtHome mid ∧ Tidy event mid →
      Marked mid.course ∧ (Away (cc.out.countP isReport) mid.course ∨ Back (cc.out.countP isReport) mid.course) →
      step env event mid = some mid' →
      Marked mid'.course ∧ (Away (cc.out.countP isReport) mid'.course ∨ Back (cc.out.countP isReport) mid'.course) := by
    rintro event mid mid' ⟨apart, tidy⟩ ⟨marked, away | back⟩ stepped
    · exact ⟨step_marked marked stepped, step_once econn tidy marked away stepped⟩
    · exact absurd ⟨back.down, back.ecall⟩ apart
  have start : Away (cc.out.countP isReport) away.course := countP_told ▸ command_away isStart rests taken
  obtain ⟨-, ended⟩ := run_throughout keeps tidy ⟨step_marked (run_marked reached) taken, .inl start⟩ ran
  have reported : back.out.countP isReport = cc.out.countP isReport + 1 := by
    rcases ended with still | ended
    · exact absurd home.1 (not_or.mpr still.up)
    · exact countP_told ▸ ended.reported
  obtain ⟨extra, out⟩ := run_out (run_cons.mpr ⟨away, taken, ran⟩)
  rw [out, countP_append] at reported
  rw [out, drop_left]
  omega

/-- Alice starts a call, is connected and hangs up. -/
theorem reports_leaving_once_hangup : let within := connects.tail ++ [.end_, .closed 0 none]
    ∃ away back, step plainEnv (.start false) (aliceCall false) = some away ∧
      run (step plainEnv) away within = some back ∧ AtHome back ∧
      (back.out.drop (aliceCall false).out.length).countP isReport = 1 := by
  intro within
  simp only [exists_and_left]
  refine exists_shown (fun away => Throughout (step plainEnv) away within
    (fun event mid => ¬ AtHome mid ∧ Tidy event mid) ∧ ∃ back, run (step plainEnv) away within = some back ∧
      AtHome back) (by decide +kernel) ?_
  rintro away taken ⟨tidy, back, ran, home⟩
  exact ⟨back, ran, home, reports_leaving_once plainEnv (fun _ => rfl) _ _ _ _ false false 0 [] _ within _ away back rfl
    rfl (.inl rfl) taken tidy ran home⟩

/-- Five pings stay out and Alice's call reconnects. The SFT does not answer: the connect timer reports the end, and so
    does the close of the inner call. -/
theorem leaving_reported_twice :
    let within := connects.tail ++ List.replicate 5 (.timer .keepalive) ++ [.timer .connect, .closed 0 none]
    ∃ away back, step plainEnv (.start false) (aliceCall false) = some away ∧
      Throughout (step plainEnv) away within (fun _ mid => ¬ AtHome mid) ∧
      run (step plainEnv) away within = some back ∧ AtHome back ∧
      (back.out.drop (aliceCall false).out.length).filter isReport = [.leaveh .timeout, .closeh (some .ETIMEDOUT)] := by
  intro within
  simp only [exists_and_left]
  decide +kernel

end Avs.Ccall
