import Avs.CourseTurns
import Avs.Distribution

/-!
When a conference is declared over. The last one to leave sends a CONFEND, and the call knows that it is the
last from the users in the call when its inner call closes. An error has taken them out by then, and only the
error that is kept says so; a call that is started or answered while it goes down forgets it, a list with one
participant passes for a list with this client alone, and a new inner call takes over what an earlier one
heard.
-/
namespace Avs.Ccall
open List Option Runs

open Userlist (listsOthers isSelf bobThenAlice spellPart)

/-- The most recent CONFPART of a run: its participants, and the user list it found. -/
def latestConfpart (env : Env) : Ccall → List CcallEvent → Option (Userlist × List Part)
  | _, [] => none
  | cc, event :: rest => ((step env event cc).bind (latestConfpart env · rest)).or (takenConfpart cc event)

/-- A call that goes down with an error is not started or answered, a list with at most one participant lists this
    client alone, and a message of the SFT finds the inner call that heard the CONFPART. -/
def Candid (event : CcallEvent) (cc : Ccall) : Prop :=
  match event with
  | .start _ | .answer => cc.state = .idle ∨ cc.state = .incoming ∨ finished cc.error = true
  | .confpart ecall msg => cc.ecall = some ecall → msg.partl.length ≤ 1 → listsOthers cc.userl msg.partl = false
  | .sftMsgRecv (some _) => cc.ecall ≠ none ∨ cc.receivedConfpart = false
  | _ => True

instance (event : CcallEvent) (cc : Ccall) : Decidable (Candid event cc) :=
  match event with
  | .start _ | .answer => inferInstanceAs (Decidable (_ ∨ _ ∨ _))
  | .confpart _ _ => inferInstanceAs (Decidable (_ → _ → _))
  | .sftMsgRecv (some _) => inferInstanceAs (Decidable (_ ∨ _))
  | .sftMsgRecv none | .end_ | .reject | .setClients .. | .setMediaKey .. | .setDuration _ | .setBackground _
  | .config _ | .msgRecv .. | .sftNetworkError | .transpSend _ | .datachanEstab | .mediaEstab _ | .ping
  | .propsync .. | .closed .. | .lookup _ | .decryptAttempted | .decryptSuccessful | .timer _ | .tick _ =>
    instDecidableTrue

def others (latest : Option (Userlist × List Part)) : Bool := latest.any (fun l => listsOthers l.1 l.2)

/-- What the call knows of the others. It takes nobody to be in the call that the most recent CONFPART lists only where
    an error or the lack of an inner call keeps it from a CONFEND. -/
structure Informed (c : Course) (latest : Option (Userlist × List Part)) : Prop where
  heard : c.receivedConfpart = true → latest.isSome
  hidden : c.receivedConfpart = true → c.incall = false → others latest = true →
    finished c.error = false ∨ c.ecall = none
  alone : c.alone = true → others latest = false

section
variable {c : Course} {env : Env} {cc cc' : Ccall} {event : CcallEvent} {c' : Course}
  {latest : Option (Userlist × List Part)} {econn : Bool} {err : Errno} {msg : Confpart} {o : Output}

theorem latestConfpart_append {front : List CcallEvent} {mid : Ccall}
    (reached : run (step env) cc front = some mid) :
    latestConfpart env cc (front ++ [event]) = (takenConfpart mid event).or (latestConfpart env cc front) := by
  induction front generalizing cc with
  | nil =>
    obtain rfl := some.inj reached
    simp [latestConfpart]
  | cons a rest ih =>
    obtain ⟨next, stepped, ran⟩ := run_cons.mp reached
    simp only [cons_append, latestConfpart, stepped, bind_some, ih ran, Option.or_assoc]

theorem enter_informed {state : CcallState} (resets : Course.resets state = true) : Informed (c.enter state) latest :=
  ⟨by simp [Course.enter, resets], by simp [Course.enter, resets], by simp [Course.enter, resets]⟩

theorem Informed.enter (informed : Informed c latest) (state : CcallState) : Informed (c.enter state) latest := by
  obtain ⟨heard, hidden, alone⟩ := informed
  refine ⟨fun received => ?_, fun received => ?_, fun lonely => ?_⟩
  · simp only [Course.enter, Bool.and_eq_true] at received
    exact heard received.1
  · simp only [Course.enter, Bool.and_eq_true] at received
    exact hidden received.1
  · simp only [Course.enter, Bool.and_eq_true] at lonely
    exact alone lonely.1

theorem endWithErr_spec : (c.endWithErr econn err).error = some err ∧ (c.endWithErr econn err).ecall = c.ecall ∧
      ((c.endWithErr econn err).receivedConfpart = true → c.receivedConfpart = true) ∧
      ((c.endWithErr econn err).alone = true → c.alone = true) := by
  have left : ∀ d : Course, (d.leave err).error = d.error ∧ (d.leave err).ecall = d.ecall ∧
      ((d.leave err).receivedConfpart = true → d.receivedConfpart = true) ∧
      ((d.leave err).alone = true → d.alone = true) := by
    intro d
    unfold Course.leave
    split <;> try split
    all_goals simp [Course.enter, Course.tell, Course.resets]
  obtain ⟨error, ecall, received, alone⟩ := left { c with error := some err }
  unfold Course.endWithErr
  simp only
  split
  · exact ⟨error, ecall, received, alone⟩
  · refine ⟨error, ecall, fun kept => ?_, fun kept => ?_⟩
    · simp [Course.enter, Course.resets] at kept
    · simp [Course.enter, Course.resets] at kept

/-- The others may be hidden where the error does not let a CONFEND out. -/
theorem Informed.endWithErr (informed : Informed c latest) (econn : Bool)
    (kept : finished (some err) = false ∨ others latest = false) : Informed (c.endWithErr econn err) latest := by
  obtain ⟨error, ecall, received, alone⟩ := endWithErr_spec
  refine ⟨informed.heard ∘ received, fun _ _ other => ?_, informed.alone ∘ alone⟩
  rw [error]
  rcases kept with unfinished | nobody
  · exact .inl unfinished
  · simp [nobody] at other

theorem Informed.tell (informed : Informed c latest) (o : Output) : Informed (c.tell o) latest :=
  ⟨informed.heard, informed.hidden, informed.alone⟩

theorem closeCall_informed (heard : c.receivedConfpart = true → latest.isSome)
    (alone : c.alone = true → others latest = false) (shouldEnd : Bool) : Informed (c.closeCall shouldEnd) latest := by
  have emptied : ∀ {d : Course}, Informed d latest → Informed { d with ecall := none, error := none } latest :=
    fun kept => ⟨kept.heard, fun _ _ _ => .inr rfl, kept.alone⟩
  unfold Course.closeCall
  simp only
  split
  · split
    · exact emptied (enter_informed rfl)
    · exact emptied ((enter_informed rfl).tell _)
  · split
    · exact ⟨heard, fun _ _ _ => .inr rfl, alone⟩
    · exact emptied ((enter_informed rfl).tell _)

theorem Informed.reach (informed : Informed c latest) (found : c.ecall ≠ none ∨ c.receivedConfpart = false)
    (ecall : Nat) : Informed { c with ecall := some ecall } latest := by
  refine ⟨informed.heard, fun received nobody other => ?_, informed.alone⟩
  rcases informed.hidden received nobody other with error | without
  · exact .inl error
  · exact absurd (found.resolve_left (not_not.mpr without)) (by simp [show c.receivedConfpart = true from received])

theorem turn_informed (candid : Candid event cc) (informed : Informed cc.course latest) (turn : Turn env cc event c') :
    Informed c' latest := by
  cases turn with
  | stays _ je => exact ⟨informed.heard, informed.hidden, informed.alone⟩
  | clears _ command later =>
    refine ⟨informed.heard, fun received nobody other => .inr ?_, informed.alone⟩
    -- The error that is forgotten let a CONFEND out already.
    have known : finished cc.error = true := by
      cases event with
      | start _ | answer => exact (candid.resolve_left later.1).resolve_left later.2
      | _ => simp [isCommand] at command
    have hidden := informed.hidden received nobody other
    rw [show cc.course.error = cc.error from rfl, known] at hidden
    exact hidden.resolve_left (by simp)
  | takes _ state command rests waits =>
    have entered : Informed (({ cc.course with error := none } : Course).enter state) latest :=
      enter_informed (by rcases waits with rfl | rfl <;> rfl)
    exact ⟨entered.heard, entered.hidden, entered.alone⟩
  | moves _ state je goes =>
    have entered := informed.enter state
    exact ⟨entered.heard, entered.hidden, entered.alone⟩
  | reaches msg ecall found => exact informed.reach candid ecall
  | setsUp msg ecall found =>
    refine (informed.enter .setuprecv).reach (candid.imp_right fun unheard => ?_) ecall
    simp [Course.enter, course, unheard]
  | refuses msg status refused => exact ⟨informed.heard, informed.hidden, informed.alone⟩
  | lapses _ alone sftReject aloneLess rejectLess =>
    exact ⟨informed.heard, informed.hidden, informed.alone ∘ aloneLess⟩
  | comesIn _ idle => exact enter_informed rfl
  | ringsOff _ incoming => exact informed.tell _
  | passes _ incoming => exact (enter_informed rfl).tell _
  | rejoins _ earlier =>
    have entered : Informed (({ cc.course with ecall := none } : Course).enter .waitconfig) latest := enter_informed rfl
    exact ⟨entered.heard, entered.hidden, entered.alone⟩
  | fails _ n err cause =>
    refine informed.endWithErr _ ?_
    cases cause with
    | network | connect | duration => exact .inl rfl
    | alone err left set active present => exact .inr (informed.alone (by simpa [course] using set))
  | denied cfg n waiting again =>
    have ended : Informed (cc.course.endWithErr (env.hasEconn n) .EACCES) latest := informed.endWithErr _ (.inl rfl)
    exact ⟨ended.heard, ended.hidden, ended.alone⟩
  | unserved cfg n je awaited empty =>
    have entered : Informed ((cc.course.endWithErr (env.hasEconn n) .ENOTSUP).enter .connsent) latest :=
      enter_informed rfl
    exact ⟨entered.heard, entered.hidden, entered.alone⟩
  | rejected marked sent =>
    split
    · exact enter_informed rfl
    · exact (enter_informed rfl).tell _
  | closes ecall err ends current gone confEnd declared =>
    refine closeCall_informed ?_ ?_ _
    · exact informed.heard
    · exact informed.alone
  | givesUp _ n cause => exact (informed.endWithErr _ (.inl rfl)).tell _
  | terminates => exact (enter_informed rfl).tell _

theorem confpart_informed {ecall : Nat} (candid : Candid (.confpart ecall msg) cc) (current : cc.ecall = some ecall)
    (turn : ConfpartTurn env cc msg c') : Informed c' (some (cc.userl, msg.partl)) := by
  have listed : others (some (cc.userl, msg.partl)) = listsOthers cc.userl msg.partl := rfl
  have seen : ∀ {incall : Bool}, incall = listsOthers cc.userl msg.partl → incall = false →
      others (some (cc.userl, msg.partl)) ≠ true := by
    rintro incall same nobody
    rw [listed, ← same, nobody]
    exact Bool.false_ne_true
  cases turn with
  | lists alone few =>
    refine ⟨fun _ => rfl, fun _ nobody other => absurd other (seen rfl nobody), fun lonely => ?_⟩
    exact candid current (few lonely)
  | runsOut alone n few spent =>
    refine ⟨fun _ => rfl, fun _ nobody other => absurd other (seen rfl nobody), fun lonely => ?_⟩
    exact candid current (few (endWithErr_spec.2.2.2 lonely))

theorem step_informed (candid : Candid event cc) (informed : Informed cc.course latest)
    (stepped : step env event cc = some cc') : Informed cc'.course ((takenConfpart cc event).or latest) := by
  rcases step_course stepped with ⟨other, turn⟩ | ⟨ecall, msg, rfl, current, taken, turn⟩
  · rw [other]
    exact turn_informed candid informed turn
  · rw [taken]
    exact confpart_informed candid current turn

def confEnds (c : Course) : List Output := c.told.filter isConfEnd

theorem confEnds_tell (other : isConfEnd o = false) : confEnds (c.tell o) = confEnds c := by
  simp [confEnds, Course.tell, filter_append, other]

theorem confEnds_leave (c : Course) (err : Errno) : confEnds (c.leave err) = confEnds c := by
  unfold Course.leave
  split
  all_goals try
    exact confEnds_tell rfl
  · rfl
  · rfl
  all_goals
    simp only
    split
    · exact confEnds_tell rfl
    · rfl

theorem confEnds_endWithErr : confEnds (c.endWithErr econn err) = confEnds c := by
  have left := confEnds_leave { c with error := some err } err
  unfold Course.endWithErr
  simp only
  split <;> exact left

theorem confEnds_closeCall {shouldEnd : Bool} : confEnds (c.closeCall shouldEnd) = confEnds c := by
  unfold Course.closeCall
  simp only
  split
  · split
    · rfl
    · exact confEnds_tell rfl
  · split
    · rfl
    · exact confEnds_tell rfl

/-- A CONFEND is sent where the inner call closes and nobody is taken to be in the call. -/
structure Declares (cc : Ccall) : Prop where
  present : cc.ecall ≠ none
  finished : finished cc.error = true
  nobody : cc.userl.someoneIn = false
  received : cc.receivedConfpart = true

theorem turn_declares (turn : Turn env cc event c') : confEnds c' = confEnds cc.course ∨ Declares cc := by
  cases turn with
  | stays | clears | takes | moves | reaches | setsUp | refuses | lapses | comesIn | rejoins => exact .inl rfl
  | ringsOff => exact .inl (confEnds_tell rfl)
  | passes => exact .inl (confEnds_tell rfl)
  | fails => exact .inl confEnds_endWithErr
  | denied => exact .inl confEnds_endWithErr
  | unserved => exact .inl confEnds_endWithErr
  | rejected =>
    left
    split
    · rfl
    · exact confEnds_tell rfl
  | closes ecall err ends current gone confEnd declared =>
    rw [confEnds_closeCall]
    by_cases silent : ends = []
    · left
      simp [confEnds, silent]
    · obtain ⟨done, nobody, received⟩ := declared silent
      exact .inr ⟨by simp [current], done, nobody, received⟩
  | givesUp => exact .inl ((confEnds_tell rfl).trans confEnds_endWithErr)
  | terminates => exact .inl (confEnds_tell rfl)

theorem confpart_declares (turn : ConfpartTurn env cc msg c') : confEnds c' = confEnds cc.course := by
  cases turn with
  | lists => rfl
  | runsOut alone n few spent =>
    exact confEnds_endWithErr

theorem step_declares (stepped : step env event cc = some cc') (sent : o ∈ cc'.out.drop cc.out.length)
    (confEnd : isConfEnd o = true) : Declares cc := by
  obtain ⟨extra, out⟩ := moves_out (step_moves stepped)
  rw [out, drop_left] at sent
  have marked : ∀ {l : List Output}, (l.filter notable).filter isConfEnd = l.filter isConfEnd := by
    intro l
    rw [List.filter_filter]
    refine filter_congr fun o _ => ?_
    cases known : isConfEnd o with
    | false => rfl
    | true =>
      unfold isConfEnd at known
      split at known
      · rfl
      · simp at known
  have more : confEnds cc'.course ≠ confEnds cc.course := by
    simp only [confEnds, course, marked, out, filter_append]
    intro same
    have none_ := append_right_eq_self.mp same
    simpa [confEnd] using filter_eq_nil_iff.mp none_ o sent
  rcases step_course stepped with ⟨-, turn⟩ | ⟨_, _, -, -, -, turn⟩
  · exact (turn_declares turn).resolve_left more
  · exact absurd (confpart_declares turn) more

theorem run_informed {convid useridSelf clientid secret : Bytes} {isMlsCall meeting : Bool} {now : UInt64}
    {events : List CcallEvent}
    (candid : Throughout (step env) (alloc env convid useridSelf clientid secret isMlsCall meeting now) events
      Candid)
    (reached :
      run (step env) (alloc env convid useridSelf clientid secret isMlsCall meeting now) events = some cc) :
    Informed cc.course
      (latestConfpart env (alloc env convid useridSelf clientid secret isMlsCall meeting now) events) := by
  generalize allocated : alloc env convid useridSelf clientid secret isMlsCall meeting now = start at candid reached
  have fresh : Informed start.course none := by
    rw [← allocated]
    exact ⟨by simp [course, alloc, setSecret], by simp [course, alloc, setSecret], by simp [course, alloc, setSecret]⟩
  refine @run_history _ _ (step env) Candid start
    (fun events cc => Informed cc.course (latestConfpart env start events)) fresh ?_ events cc candid reached
  intro front event mid mid' ran candid informed stepped
  rw [latestConfpart_append ran]
  exact step_informed candid informed stepped

end

/-- In every run in which nothing hides the others, a CONFEND is sent only after a CONFPART since the last reset, and if
    the most recent one lists this client alone. -/
theorem confEnd_when_alone (env : Env) (convid useridSelf clientid secret : Bytes) (isMlsCall meeting : Bool)
    (now : UInt64) (events : List CcallEvent) (event : CcallEvent) (cc cc' : Ccall) (o : Output)
    (candid : Throughout (step env) (alloc env convid useridSelf clientid secret isMlsCall meeting now) events
      Candid)
    (reached : run (step env) (alloc env convid useridSelf clientid secret isMlsCall meeting now) events = some cc)
    (stepped : step env event cc = some cc') (sent : o ∈ cc'.out.drop cc.out.length) (confEnd : isConfEnd o = true) :
    cc.receivedConfpart = true ∧ ∃ list partl,
      latestConfpart env (alloc env convid useridSelf clientid secret isMlsCall meeting now) events =
        some (list, partl) ∧ ∀ p ∈ partl, isSelf list p = true := by
  have informed := run_informed candid reached
  have declares := step_declares stepped sent confEnd
  obtain ⟨⟨list, partl⟩, latest⟩ := isSome_iff_exists.mp (informed.heard declares.received)
  refine ⟨declares.received, list, partl, latest, ?_⟩
  rw [latest] at informed
  have nobody : others (some (list, partl)) ≠ true := by
    intro other
    rcases informed.hidden declares.received declares.nobody other with error | without
    · rw [show cc.course.error = cc.error from rfl, declares.finished] at error
      exact absurd error (by simp)
    · exact declares.present without
  intro p member
  have unlisted := List.any_eq_false.mp (Bool.eq_false_iff.mpr nobody) p member
  simpa using unlisted

/-- Alice is alone and hangs up. -/
theorem confEnd_when_alone_alice : let events := connects ++ [lists [spellPart "alice" "1" 20 21], .end_]
    ∃ cc cc' o, run (step plainEnv) (aliceCall false) events = some cc ∧
      step plainEnv (.closed 0 none) cc = some cc' ∧ o ∈ cc'.out.drop cc.out.length ∧ isConfEnd o = true ∧
      cc.receivedConfpart = true ∧ ∃ list partl,
        latestConfpart plainEnv (aliceCall false) events = some (list, partl) ∧ ∀ p ∈ partl, isSelf list p = true := by
  intro events
  simp only [exists_and_left]
  refine exists_guarded Candid (fun cc => ∃ cc', step plainEnv (.closed 0 none) cc = some cc' ∧
    ∃ o ∈ cc'.out.drop cc.out.length, isConfEnd o = true) (by decide +kernel) ?_
  rintro cc candid ran ⟨cc', stepped, o, member, confEnd⟩
  exact ⟨cc', stepped, o, member, confEnd,
    confEnd_when_alone plainEnv _ _ _ _ false false 0 events _ cc cc' o candid ran stepped member confEnd⟩

/-- Bob is in the call when the network fails; Alice answers before the inner call has closed, and a CONFEND is sent. -/
theorem confEnd_with_bob : let events := bobLeads ++ [.sftNetworkError, .answer]
    ∃ cc cc' o, run (step plainEnv) (aliceCall false) events = some cc ∧
      step plainEnv (.closed 0 none) cc = some cc' ∧ o ∈ cc'.out.drop cc.out.length ∧ isConfEnd o = true ∧
      ∃ list partl, latestConfpart plainEnv (aliceCall false) events = some (list, partl) ∧
        partl = bobThenAlice ∧ ∃ p ∈ partl, isSelf list p = false := by
  intro events
  have latest : ∃ l, latestConfpart plainEnv (aliceCall false) events = some l ∧ l.2 = bobThenAlice ∧
      ∃ p ∈ l.2, isSelf l.1 p = false := by decide +kernel
  obtain ⟨⟨list, partl⟩, latest⟩ := latest
  simp only [exists_and_left]
  refine exists_shown (fun cc => ∃ cc', step plainEnv (.closed 0 none) cc = some cc' ∧
    ∃ o ∈ cc'.out.drop cc.out.length, isConfEnd o = true) (by decide +kernel) ?_
  rintro cc - ⟨cc', stepped, o, member, confEnd⟩
  exact ⟨cc', stepped, o, member, confEnd, list, partl, latest⟩

end Avs.Ccall
