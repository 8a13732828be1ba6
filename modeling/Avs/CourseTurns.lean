import Avs.Hangup

/-!
What an event does to the course of a call. The functions that change it are followed on the course alone, and
`step_turn` says of every event which of these turns the course takes, and when.
-/
namespace Avs.Ccall
open List Option Userlist

namespace Course

def tell (c : Course) (o : Output) : Course := { c with told := c.told ++ [o] }

/-- The states in which no CONFPART was received yet. -/
def resets : CcallState → Bool
  | .idle | .incoming | .waitconfig | .waitconfigOutgoing | .connsent => true
  | _ => false

def enter (c : Course) (state : CcallState) : Course :=
  { c with
    state := state
    receivedConfpart := c.receivedConfpart && !resets state
    alone := c.alone && !(resets state || state = .terminating) }

/-- The `switch` over the states of `ccall_end_with_err`. -/
def leave (c : Course) (err : Errno) : Course :=
  match c.state with
  | .idle => c.enter .idle
  | .connsent | .incoming | .waitconfig | .waitconfigOutgoing | .waitnetwork =>
    (c.enter .idle).tell (.leaveh (endReason err))
  | .terminating => c
  | .setuprecv | .connecting | .connected | .active =>
    let c := c.enter .terminating
    if err = Errno.EDURATION then c.tell (.leaveh .duration) else c

/-- `ccall_end_with_err`; `econn` says that the inner call has an econn. -/
def endWithErr (c : Course) (econn : Bool) (err : Errno) : Course :=
  let c := { leave { c with error := some err } err with incall := false }
  if c.ecall.isSome ∧ econn then c else c.enter .idle

def closeCall (c : Course) (shouldEnd : Bool) : Course :=
  let overtime := c.error = some .EDURATION
  let c := if shouldEnd then
      let c := c.enter .idle
      if overtime then c else c.tell (.closeh c.error)
    else if overtime then c
    else (c.enter .incoming).tell (.leaveh .stillOngoing)
  { c with ecall := none, error := none }

end Course

variable {env : Env} {c : Course} {cc : Ccall} {state : CcallState} {je : JoinElem} {err : Option Errno}

section
variable {cc' : Ccall}

theorem told_course {o : Output} (same : cc.course = c) (marked : notable o = true) :
    (cc.tell o).course = c.tell o := by
  rw [tell_course, marked, ← same]
  rfl

theorem enter_course : (enter { cc with state := state } state).course = cc.course.enter state := by
  cases state with
  | connsent =>
    by_cases fresh : (!cc.isMlsCall && decide (cc.reconnectAttempts = 0)) = true
    · simp [course, enter, Course.enter, Course.resets, tmrCancel, tmrStart, fresh]
    · simp [course, enter, Course.enter, Course.resets, tmrCancel, tmrStart, fresh]
  | active =>
    unfold enter
    simp only
    split <;> simp [course, Course.enter, Course.resets, tmrCancel, tmrStart]
  | setuprecv | connecting | waitnetwork =>
    simp only [Course.enter, Course.resets, reduceCtorEq, decide_false, Bool.or_false, Bool.not_false, Bool.and_true]
    rfl
  | idle | incoming | waitconfig | waitconfigOutgoing | connected | terminating =>
    simp [course, enter, Course.enter, Course.resets, tmrCancel, tmrStart, Userlist.resetKeygenerator,
      Userlist.someoneIn]

/-- `set_state` on the course alone. -/
theorem setState_course (cc : Ccall) (state : CcallState) : (setState cc state).course = cc.course.enter state := by
  unfold setState
  simp only
  split
  · exact (tell_beside rfl rfl).course.trans enter_course
  · exact enter_course

theorem leave_course (cc : Ccall) (err : Errno) : (match cc.state with
      | .idle => setState cc .idle
      | .connsent | .incoming | .waitconfig | .waitconfigOutgoing | .waitnetwork =>
        (setState cc .idle).tell (.leaveh (endReason err))
      | .terminating => cc
      | .setuprecv | .connecting | .connected | .active =>
        let cc := setState cc .terminating
        if err = Errno.EDURATION then cc.tell (.leaveh .duration) else cc).course = cc.course.leave err := by
  have idle := setState_course cc .idle
  have terminating := setState_course cc .terminating
  simp only [Course.leave, show cc.course.state = cc.state from rfl]
  cases cc.state with
  | idle => exact idle
  | connsent | incoming | waitconfig | waitconfigOutgoing | waitnetwork => exact told_course idle rfl
  | terminating => rfl
  | setuprecv | connecting | connected | active =>
    simp only
    split
    · exact told_course terminating rfl
    · exact terminating

theorem endWithErr_course (cc : Ccall) (err : Errno) :
    ∃ n, (endWithErr env cc err).course = cc.course.endWithErr (env.hasEconn n) err := by
  have ended : ∀ {mid : Ccall} {c : Course}, mid.course = c →
      (if mid.ecall.isSome ∧ env.hasEconn mid.out.length then ecallEnd mid else setState mid .idle).course =
        if c.ecall.isSome ∧ env.hasEconn mid.out.length then c else c.enter .idle := by
    rintro mid _ rfl
    split
    · next present => rw [if_pos (show mid.course.ecall.isSome ∧ _ from present), (ecallEnd_still mid).beside.course]
    · next absent => rw [if_neg (show ¬ (mid.course.ecall.isSome ∧ _) from absent), setState_course]
  have cleared : ∀ {mid : Ccall} {c : Course}, mid.course = c →
      ({ mid with userl := mid.userl.incallClear false false }).course = { c with incall := false } := by
    rintro mid _ rfl
    simp only [course, incallClear_someoneIn, Bool.and_false]
  exact ⟨_, ended (cleared (leave_course { cc with error := some err } err))⟩

theorem closeCall_course {shouldEnd : Bool} : (closeCall cc shouldEnd).course = cc.course.closeCall shouldEnd := by
  have emptied : ∀ {mid : Ccall} {c : Course}, mid.course = c →
      ({ mid with ecall := none, error := none }).course = { c with ecall := none, error := none } := by
    rintro mid _ rfl
    rfl
  have idle := setState_course cc .idle
  refine emptied ?_
  simp only [show cc.course.error = cc.error from rfl]
  split
  · split
    · exact idle
    · rw [← idle]
      exact told_course rfl rfl
  · split
    · exact (tmrStart_beside rfl).course
    · exact told_course (setState_course cc .incoming) rfl

theorem reqCfgJoin_course (env : Env) (cc : Ccall) (retryAttempt isOutgoing : Bool) :
    (reqCfgJoin env cc retryAttempt isOutgoing).1.course =
      { cc.course.enter (if isOutgoing then .waitconfigOutgoing else .waitconfig) with je := some ⟨retryAttempt⟩ } := by
  rw [← setState_course]
  exact (tell_beside rfl rfl).course

theorem sendConfConn_course (env : Env) (cc : Ccall) (url : Bytes) (sfti : Option SftServer) (update : Bool) :
    (sendConfConn env cc url sfti update).1.course = cc.course := by
  simp only [sendConfConn, sendMsgSft, reduceCtorEq, or_false, false_and, and_false, if_false]
  exact tell_plain cc rfl

theorem ecallMsgRecv_course : ∃ ecall, (cc.ecall = some ecall ∨ cc.ecall = none) ∧
      (ecallMsgRecv cc).course = { cc.course with ecall := some ecall } := by
  unfold ecallMsgRecv
  split
  · next ecall known =>
    refine ⟨ecall, .inl known, ?_⟩
    rw [← known]
    exact tell_plain cc rfl
  · next without => exact ⟨cc.nextEcall, .inr without, tell_plain _ rfl⟩

theorem joinListed_course (env : Env) (urls : List Bytes) : ∀ (cc : Ccall) (connected : Nat) (err : Option Errno),
    (joinListed env urls cc connected err).1.course = cc.course := by
  induction urls with
  | nil => exact fun _ _ _ => rfl
  | cons url rest ih =>
    intro cc connected err
    unfold joinListed
    by_cases can : canConnectSft cc url = true
    · simp only [can, if_true]
      have sent := sendConfConn_course env cc url (getSftInfo cc url) false
      generalize sendConfConn env cc url (getSftInfo cc url) false = r at sent
      generalize (if r.2.isNone = true then connected + 1 else connected) = count
      split
      · exact sent
      · exact (ih _ _ _).trans sent
    · simp only [can, if_false, Bool.false_eq_true]
      split
      · rfl
      · exact ih _ _ _

theorem joinConfigured_course {servers : List SftServer} : ∀ (cc : Ccall) (err : Option Errno),
    (joinConfigured env servers cc err).1.course = cc.course := by
  induction servers with
  | nil => exact fun _ _ => rfl
  | cons server rest ih =>
    intro cc err
    exact (ih _ _).trans (sendConfConn_course env cc _ _ false)

def goesOn : CcallState → Bool
  | .idle | .incoming | .terminating => false
  | _ => true

/-- What joining an SFT does to the course: nothing, or the call ends for the second configuration without an SFT that
    may be joined, or that configuration is asked for. -/
inductive JoinTurn (env : Env) (c : Course) (je : JoinElem) (joined : Joined) : Prop
  | tried (course : joined.cc.course = c) (deref : joined.derefJe = true)
  | denied (n : Nat) (waiting : c.state = .waitconfig) (again : je.retryAttempt = true) (err : joined.err ≠ none)
      (deref : joined.derefJe = true) (course : joined.cc.course = c.endWithErr (env.hasEconn n) .EACCES)
  | asked (state : CcallState) (goes : goesOn state = true) (err : joined.err ≠ none)
      (course : joined.cc.course = { c.enter state with je := some ⟨true⟩ })

theorem joinRetry_turn (waiting : cc.state = .waitconfig) : JoinTurn env cc.course je (joinRetry env cc je) := by
  unfold joinRetry
  split
  · next again =>
    obtain ⟨n, course⟩ := endWithErr_course cc .EACCES
    exact .denied n waiting again (by simp) rfl course
  · have course := reqCfgJoin_course env cc true (cc.state = .waitconfigOutgoing)
    have goes : goesOn (if decide (cc.state = .waitconfigOutgoing) = true then .waitconfigOutgoing
        else .waitconfig) = true := by
      split <;> rfl
    simp only
    split
    · next failed => exact .asked _ goes (ne_none_iff_isSome.mpr failed) course
    · exact .asked _ goes (by simp) course

theorem joinElsewhere_turn : JoinTurn env cc.course je (joinElsewhere env cc je cc.state err) := by
  unfold joinElsewhere
  split
  · next waiting => exact joinRetry_turn waiting.1
  · exact .tried (joinConfigured_course cc err) rfl

theorem joinSft_turn (env : Env) (cc : Ccall) (je : JoinElem) (servers : cc.cfg.sftservers ≠ []) :
    JoinTurn env cc.course je (joinSft env cc je) := by
  unfold joinSft
  rw [if_neg (by simpa using servers)]
  split
  · exact .tried rfl rfl
  · split
    · have listed := joinListed_course env cc.sftl cc 0 none
      simp only
      split
      · exact .tried listed rfl
      · have same : cc.state = (joinListed env cc.sftl cc 0 none).1.state := congrArg (·.state) listed.symm
        rw [← listed, same]
        exact joinElsewhere_turn
    · split
      · split
        · exact .tried (sendConfConn_course env cc _ _ false) rfl
        · exact joinElsewhere_turn
      · exact joinElsewhere_turn

end

def isCommand : CcallEvent → Bool
  | .start _ | .answer => true
  | _ => false

def isConfEnd : Output → Bool
  | .send (.confEnd _ _) _ _ _ => true
  | _ => false

/-- The errors with which the last one to leave ends the conference. -/
def finished : Option Errno → Bool
  | none | some .ENOONEJOINED | some .EEVERYONELEFT => true
  | _ => false

/-- A message moves a call that is not down to an earlier conference. -/
def Rejoins (cc : Ccall) : CcallEvent → Prop
  | .msgRecv _ _ age (.confStart _ info) => Earlier cc age true info ∧ ¬ Down cc
  | .msgRecv _ _ age (.confCheck resp info) => Earlier cc age resp info ∧ ¬ Down cc
  | _ => False

/-- The event ends the call with an error, its CONFPART and its configuration apart. -/
inductive Fails (cc : Ccall) : CcallEvent → Errno → Prop
  | network : Fails cc .sftNetworkError .ENOSYS
  | connect (inactive : cc.state ≠ .active) : Fails cc (.timer .connect) .ETIMEDOUT
  | duration : Fails cc (.timer .duration) .EDURATION
  | alone (err : Errno) (left : err = .EEVERYONELEFT ∨ err = .ENOONEJOINED) (set : CcallTimer.alone ∈ cc.timers)
      (active : cc.state = .active) (present : cc.ecall ≠ none) : Fails cc (.timer .alone) err

/-- The call would reconnect once too often. -/
inductive GivesUp (cc : Ccall) : CcallEvent → Prop
  | keepalive (active : cc.state = .active) (present : cc.ecall ≠ none)
      (missing : cc.expectedPing + 1 > maxMissingPings) (spent : cc.reconnectAttempts ≥ maxReconnectAttempts) :
      GivesUp cc (.timer .keepalive)
  | decryptCheck (active : cc.state = .active) (unheard : cc.receivedConfpart = false)
      (spent : cc.reconnectAttempts ≥ maxReconnectAttempts) : GivesUp cc (.timer .decryptCheck)

/-- The course after an event that is not a CONFPART of the inner call. -/
inductive Turn (env : Env) (cc : Ccall) : CcallEvent → Course → Prop
  | stays (event : CcallEvent) (je : Option JoinElem) : Turn env cc event { cc.course with je := je }
  /-- Starting or answering a call that is not down clears its error. -/
  | clears (event : CcallEvent) (command : isCommand event = true)
      (later : cc.state ≠ .idle ∧ cc.state ≠ .incoming) : Turn env cc event { cc.course with error := none }
  | takes (event : CcallEvent) (state : CcallState) (command : isCommand event = true)
      (rests : cc.state = .idle ∨ cc.state = .incoming) (waits : state = .waitconfig ∨ state = .waitconfigOutgoing) :
      Turn env cc event { ({ cc.course with error := none } : Course).enter state with je := some ⟨false⟩ }
  | moves (event : CcallEvent) (state : CcallState) (je : Option JoinElem) (goes : goesOn state = true) :
      Turn env cc event { cc.course.enter state with je := je }
  /-- A message of the SFT reaches the inner call, or makes one. -/
  | reaches (msg : Bytes × SftMsg) (ecall : Nat) (found : cc.ecall = some ecall ∨ cc.ecall = none) :
      Turn env cc (.sftMsgRecv (some msg)) { cc.course with ecall := some ecall }
  | setsUp (msg : Bytes × SftMsg) (ecall : Nat) (found : cc.ecall = some ecall ∨ cc.ecall = none) :
      Turn env cc (.sftMsgRecv (some msg)) { cc.course.enter .setuprecv with ecall := some ecall }
  | refuses (msg : Bytes × SftMsg) (status : ConfconnStatus) (refused : status ≠ .ok) :
      Turn env cc (.sftMsgRecv (some msg)) { cc.course with confconnStatus := status, sftReject := true }
  | lapses (event : CcallEvent) (alone sftReject : Bool) (aloneLess : alone = true → cc.course.alone = true)
      (rejectLess : sftReject = true → cc.course.sftReject = true) :
      Turn env cc event { cc.course with alone := alone, sftReject := sftReject }
  | comesIn (event : CcallEvent) (idle : cc.state = .idle) : Turn env cc event (cc.course.enter .incoming)
  | ringsOff (event : CcallEvent) (incoming : cc.state = .incoming) :
      Turn env cc event (cc.course.tell (.leaveh .stillOngoing))
  | passes (event : CcallEvent) (incoming : cc.state = .incoming) :
      Turn env cc event ((cc.course.enter .idle).tell (.closeh none))
  | rejoins (event : CcallEvent) (earlier : Rejoins cc event) :
      Turn env cc event { ({ cc.course with ecall := none } : Course).enter .waitconfig with je := some ⟨false⟩ }
  | fails (event : CcallEvent) (n : Nat) (err : Errno) (cause : Fails cc event err) :
      Turn env cc event (cc.course.endWithErr (env.hasEconn n) err)
  | denied (cfg : CallConfig) (n : Nat) (waiting : cc.state = .waitconfig) (again : cc.je = some ⟨true⟩) :
      Turn env cc (.config cfg) { cc.course.endWithErr (env.hasEconn n) .EACCES with je := none }
  /-- The configuration has no SFT; the call has ended and goes on. -/
  | unserved (cfg : CallConfig) (n : Nat) (je : JoinElem) (awaited : cc.je = some je) (empty : cfg.sftservers = []) :
      Turn env cc (.config cfg)
        { (cc.course.endWithErr (env.hasEconn n) .ENOTSUP).enter .connsent with je := none }
  | rejected (marked : cc.course.sftReject = true) (sent : cc.state = .connsent) :
      Turn env cc (.timer .sftReject)
        (match rejectReason cc.confconnStatus with
          | none => ({ cc.course with sftReject := false } : Course).enter .idle
          | some reason => (({ cc.course with sftReject := false } : Course).enter .idle).tell (.leaveh reason))
  | closes (ecall : Nat) (err : Option Errno) (ends : List Output) (current : cc.ecall = some ecall)
      (gone : err ≠ some .EAGAIN ∧ err ≠ some .ENOTCONN) (confEnd : ∀ o ∈ ends, isConfEnd o = true)
      (declared : ends ≠ [] →
        finished cc.error = true ∧ cc.userl.someoneIn = false ∧ cc.receivedConfpart = true) :
      Turn env cc (.closed ecall err) (({ cc.course with incall := false, told := cc.course.told ++ ends } :
        Course).closeCall (!cc.userl.someoneIn))
  | givesUp (event : CcallEvent) (n : Nat) (cause : GivesUp cc event) :
      Turn env cc event ((cc.course.endWithErr (env.hasEconn n) .ETIMEDOUT).tell (.leaveh .stillOngoing))
  | terminates : Turn env cc (.timer .term) ((cc.course.enter .idle).tell (.closeh cc.error))

section
variable {cc' : Ccall} {event : CcallEvent} {userid clientid : Bytes} {info : ConfInfo} {age : UInt32} {ecall : Nat}
  {msg : Confpart}

theorem Turn.of_eq {c' : Course} (turn : Turn env cc event c) (same : c' = c) : Turn env cc event c' := same ▸ turn

theorem Beside.turn (beside : Beside cc cc') : Turn env cc event cc'.course :=
  (Turn.stays event cc.je).of_eq beside.course

theorem setState_turn (goes : goesOn state = true) : Turn env cc event (setState cc state).course :=
  (Turn.moves event state cc.je goes).of_eq (setState_course cc state)

/-- A start or an answer takes up a call that is down, and clears the error of any other. -/
theorem command_course (command : isCommand event = true) (stepped : step env event cc = some cc') :
    ((cc.state = .idle ∨ cc.state = .incoming) ∧ ∃ state, (state = .waitconfig ∨ state = .waitconfigOutgoing) ∧
      cc'.course = { ({ cc.course with error := none } : Course).enter state with je := some ⟨false⟩ }) ∨
    ((cc.state ≠ .idle ∧ cc.state ≠ .incoming) ∧ cc'.course = { cc.course with error := none }) := by
  cases event with
  | answer =>
    obtain rfl := some.inj stepped
    unfold answer
    simp only
    split
    · next rests => exact .inl ⟨rests, _, .inl rfl, reqCfgJoin_course env _ false false⟩
    · next later => exact .inr ⟨not_or.mp later, rfl⟩
  | start meeting =>
    obtain rfl := some.inj stepped
    unfold start
    simp only
    split
    · next incoming =>
      have rests : cc.state = .idle ∨ cc.state = .incoming := .inr incoming
      simp only [answer, if_pos rests]
      exact .inl ⟨rests, _, .inl rfl, reqCfgJoin_course env _ false false⟩
    · next idle => exact .inl ⟨.inl idle, _, .inr rfl, reqCfgJoin_course env _ false true⟩
    · next incoming idle => exact .inr ⟨⟨idle, incoming⟩, rfl⟩
  | _ => simp [isCommand] at command

theorem command_turn (command : isCommand event = true) (stepped : step env event cc = some cc') :
    Turn env cc event cc'.course := by
  rcases command_course command stepped with ⟨rests, state, waits, course⟩ | ⟨later, course⟩
  · exact (Turn.takes event state command rests waits).of_eq course
  · exact (Turn.clears event command later).of_eq course

theorem config_turn {cfg : CallConfig} (awaited : cc.je = some je)
    (updated : configUpdateHandler env { cc with cfg := cfg } je = some cc') :
    Turn env cc (.config cfg) cc'.course := by
  unfold configUpdateHandler at updated
  obtain ⟨mid, settled, rfl⟩ := map_eq_some_iff.mp updated
  by_cases empty : cfg.sftservers = []
  · have ends : joinSft env { cc with cfg := cfg } je =
        ⟨endWithErr env { cc with cfg := cfg } .ENOTSUP, none, true⟩ := by
      simp [joinSft, empty]
    obtain ⟨n, ended⟩ := endWithErr_course { cc with cfg := cfg } .ENOTSUP
    simp only [ends, isNone_none, if_true] at settled ⊢
    have course := (stopOthersRinging_still settled).beside.course.trans (setState_course _ _)
    rw [ended] at course
    exact (Turn.unserved cfg n je awaited empty).of_eq (congrArg (fun c => { c with je := none }) course)
  · have turn := joinSft_turn env { cc with cfg := cfg } je empty
    generalize joinSft env { cc with cfg := cfg } je = joined at turn settled
    have failed : joined.err ≠ none → joined.cc = mid := by
      intro err
      rw [if_neg (by simpa using err)] at settled
      exact some.inj settled
    cases turn with
    | tried course deref =>
      rw [if_pos deref]
      by_cases err : joined.err = none
      · simp only [err, isNone_none, if_true] at settled
        have sent := (stopOthersRinging_still settled).beside.course.trans (setState_course _ _)
        rw [course] at sent
        exact (Turn.moves _ .connsent none rfl).of_eq (congrArg (fun c => { c with je := none }) sent)
      · rw [failed err] at course
        exact (Turn.stays _ none).of_eq (congrArg (fun c => { c with je := none }) course)
    | denied n waiting again err deref course =>
      rw [if_pos deref]
      rw [failed err] at course
      have retried : cc.je = some ⟨true⟩ := by rw [awaited, ← again]
      exact (Turn.denied cfg n waiting retried).of_eq (congrArg (fun c => { c with je := none }) course)
    | asked state goes err course =>
      rw [failed err] at course
      split
      · exact (Turn.moves _ state none goes).of_eq (congrArg (fun c => { c with je := none }) course)
      · exact (Turn.moves _ state _ goes).of_eq course

theorem comeIn_course {shouldRing : Bool} :
    (comeIn cc userid clientid shouldRing).course = cc.course.enter .incoming := by
  have entered := setState_course { cc with isRinging := shouldRing } .incoming
  exact ((tell_beside rfl rfl).trans (ite_beside (tmrStart_beside rfl))).course.trans entered

theorem stopRinging_course : (stopRinging cc).course = cc.course.tell (.leaveh .stillOngoing) :=
  told_course (tmrCancel_beside cc rfl).course rfl

theorem rejoin_course : (rejoin env cc info).course =
      { ({ cc.course with ecall := none } : Course).enter .waitconfig with je := some ⟨false⟩ } := by
  refine (reqCfgJoin_course env _ false false).trans ?_
  have ended := (ecallEnd_still cc).beside.course
  exact congrArg
    (fun c : Course => { ({ c with ecall := none } : Course).enter .waitconfig with je := some ⟨false⟩ }) ended

theorem confstartState_turn {mid : Ccall} {rings : Bool} {order : Int32}
    (beside : Beside cc mid) (earlier : order > 0 → ¬ Down cc → Rejoins cc event)
    (heard : confstartState env mid userid clientid rings order info = some cc') : Turn env cc event cc'.course := by
  have state : mid.state = cc.state := beside.aside.state
  have moved : ¬ Down cc → Turn env cc event (if order > 0 then rejoin env mid info else mid).course := by
    intro up
    split
    · next before =>
      refine (Turn.rejoins event (earlier before up)).of_eq ?_
      rw [rejoin_course, beside.course]
    · exact beside.turn
  unfold confstartState at heard
  simp only at heard
  split at heard
  · next idle =>
    obtain rfl := some.inj heard
    refine (Turn.comesIn event (state ▸ idle)).of_eq ?_
    rw [takeSftl_still.beside.course, comeIn_course, beside.course]
  · next incoming =>
    obtain rfl := some.inj heard
    rw [takeSftl_still.beside.course, (tmrStart_beside rfl).course]
    split
    · refine (Turn.ringsOff event (state ▸ incoming)).of_eq ?_
      rw [stopRinging_course, beside.course]
    · exact beside.turn
  all_goals try
    next known => exact some.inj heard ▸ moved (by simp [Down, ← state, known])
  · next known =>
    have up : ¬ Down cc := by simp [Down, ← state, known]
    by_cases before : order > 0
    · rw [if_pos before] at heard
      have rejoined := moved up
      rw [if_pos before] at rejoined
      exact some.inj heard ▸ rejoined
    · rw [if_neg before] at heard
      split at heard
      · exact (beside.trans (sendMsgI_still (by simp) (by simp) heard).beside).turn
      · exact some.inj heard ▸ beside.turn
  · exact some.inj heard ▸ beside.turn

theorem handleConfstartCheck_turn {isStart resp : Bool}
    (earlier : Earlier cc age (isStart || resp) info → ¬ Down cc → Rejoins cc event)
    (heard : handleConfstartCheck env cc userid clientid age isStart resp info = some cc') :
    Turn env cc event cc'.course := by
  unfold handleConfstartCheck at heard
  split at heard
  · next valid =>
    refine confstartState_turn (ite_beside adopt_beside) (fun before up => ?_) heard
    exact earlier ⟨valid.1, by simpa using valid.2, before⟩ up
  · exact some.inj heard ▸ (Beside.refl cc).turn

theorem msgRecv_turn {msg : Message} (heard : msgRecv env cc userid clientid age msg = some cc') :
    Turn env cc (.msgRecv userid clientid age msg) cc'.course := by
  unfold msgRecv at heard
  split at heard
  · exact handleConfstartCheck_turn (fun earlier up => ⟨by simpa using earlier, up⟩) heard
  · exact handleConfstartCheck_turn (fun earlier up => ⟨by simpa using earlier, up⟩) heard
  · obtain rfl := some.inj heard
    unfold confEndRecv
    split
    · next incoming =>
      split
      · exact (Turn.passes _ incoming).of_eq (told_course (setState_course cc .idle) rfl)
      · exact (Beside.refl cc).turn
    · exact (ite_beside (tmrStart_beside rfl)).turn
    · exact (Beside.refl cc).turn
  · exact (confKeyResp_beside heard).turn
  · exact (confKeyReq_beside heard).turn
  · obtain rfl := some.inj heard
    unfold rejectRecv
    split
    · next own => exact (Turn.ringsOff _ own.1).of_eq stopRinging_course
    · exact (Beside.refl cc).turn

theorem sftMsgRecv_turn {sessid : Bytes} {msg : SftMsg} :
    Turn env cc (.sftMsgRecv (some (sessid, msg))) (sftMsgRecv cc sessid msg).course := by
  have setsUp : ∀ {mid : Ccall}, Beside (setState cc .setuprecv) mid →
      Turn env cc (.sftMsgRecv (some (sessid, msg))) (ecallMsgRecv mid).course := by
    intro mid beside
    obtain ⟨ecall, found, course⟩ := ecallMsgRecv_course
    have same : mid.ecall = cc.ecall := (beside.aside.ecall).trans (setState_aside cc .setuprecv).ecall
    rw [beside.course, setState_course] at course
    exact (Turn.setsUp _ ecall (same ▸ found)).of_eq course
  unfold sftMsgRecv
  split
  · exact (Beside.refl cc).turn
  · split
    · exact (Beside.refl cc).turn
    · next status refused =>
      refine (Turn.refuses _ status refused).of_eq ?_
      simp [course, tmrStart]
    · split
      · exact setsUp setupUrls_still.beside
      · exact (Beside.refl cc).turn
    · split
      · exact setsUp (.refl _)
      · exact (Beside.refl cc).turn
    · obtain ⟨ecall, found, course⟩ := ecallMsgRecv_course
      exact (Turn.reaches _ ecall found).of_eq course

theorem sendMsgSft_turn {sftUrl : Option Bytes} {msg : SftMessage} :
    Turn env cc event (sendMsgSft env cc sftUrl msg).1.course := by
  unfold sendMsgSft
  split
  · exact (Beside.refl cc).turn
  · simp only
    split
    · refine (Turn.moves event .connecting cc.je rfl).of_eq ((setState_course _ .connecting).trans ?_)
      exact congrArg (fun c : Course => c.enter .connecting) (tell_plain cc rfl)
    · exact (Turn.stays event cc.je).of_eq (tell_plain cc rfl)

theorem mediaEstabHandler_turn : Turn env cc event (mediaEstabHandler cc ecall).course := by
  unfold mediaEstabHandler
  split
  · exact (Beside.refl cc).turn
  · have told : Beside cc (if cc.isMlsCall then cc.tell .reqNewEpochh else cc) := ite_beside (tell_beside rfl rfl)
    generalize (if cc.isMlsCall then cc.tell .reqNewEpochh else cc) = mid at told
    simp only
    split
    · exact told.turn
    · refine (Turn.moves event .active cc.je rfl).of_eq ?_
      have entered := setState_course mid .active
      rw [told.course] at entered
      refine (users_beside ?_).course.trans entered
      rw [incallClear_someoneIn, Bool.and_true]

/-- A reconnect leaves the course alone, sends CONFCONN again, or gives up after too many. -/
theorem reconnect_course (cc : Ccall) (again : Bool) :
    (reconnect env cc again).course = cc.course ∨ (reconnect env cc again).course = cc.course.enter .connsent ∨
      cc.reconnectAttempts ≥ maxReconnectAttempts ∧ ∃ n, (reconnect env cc again).course =
        (cc.course.endWithErr (env.hasEconn n) .ETIMEDOUT).tell (.leaveh .stillOngoing) := by
  unfold reconnect
  split
  · exact .inl rfl
  · split
    · next spent =>
      obtain ⟨n, ended⟩ := endWithErr_course cc .ETIMEDOUT
      exact .inr (.inr ⟨spent, n, told_course ended rfl⟩)
    · have users : (cc.userl.incallClear true again).someoneIn = cc.userl.someoneIn := by
        rw [incallClear_someoneIn, Bool.and_true]
      have sent : (setState { cc with
          reconnectAttempts := cc.reconnectAttempts + 1
          expectedPing := 0
          userl := cc.userl.incallClear true again } .connsent).course = cc.course.enter .connsent := by
        rw [setState_course]
        exact congrArg (·.enter .connsent) (users_beside users).course
      refine .inr (.inl ?_)
      simp only
      split
      · exact sent
      · exact (sendConfConn_course env _ _ _ true).trans sent

theorem closeHandler_turn (closed : closeHandler env cc ecall err = some cc') :
    Turn env cc (.closed ecall err) cc'.course := by
  unfold closeHandler at closed
  split at closed
  · exact some.inj closed ▸ (Beside.refl cc).turn
  · next current =>
    simp only at closed
    split at closed
    · -- The attempts are counted anew, so none is one too many.
      obtain rfl := some.inj closed
      rcases reconnect_course { cc with
          userl := cc.userl.resetKeygenerator, reconnectAttempts := 0, expectedPing := 0 } (err = some .EAGAIN) with
        same | sent | ⟨spent, -⟩
      · exact (Turn.stays _ cc.je).of_eq same
      · exact (Turn.moves _ .connsent cc.je rfl).of_eq sent
      · exact absurd spent (by simp [maxReconnectAttempts])
    · next gone =>
      obtain ⟨mid, sent, rfl⟩ := map_eq_some_iff.mp closed
      have shouldEnd : decide (cc.userl.incallCount = 0) = !cc.userl.someoneIn := by
        simp [incallCount_eq_zero]
      rw [closeCall_course, shouldEnd]
      have cleared : ({ cc with userl := cc.userl.resetKeygenerator.incallClear false false } : Ccall).course =
          { cc.course with incall := false } := by
        simp only [course, incallClear_someoneIn, Bool.and_false]
      have turn : ∀ ends : List Output,
          mid.course = { cc.course with incall := false, told := cc.course.told ++ ends } →
          (∀ o ∈ ends, isConfEnd o = true) → (ends ≠ [] →
            finished cc.error = true ∧ cc.userl.someoneIn = false ∧ cc.receivedConfpart = true) →
          Turn env cc (.closed ecall err) (mid.course.closeCall (!cc.userl.someoneIn)) := by
        intro ends same confEnd declared
        rw [same]
        exact Turn.closes ecall err ends (not_not.mp current) (not_or.mp gone) confEnd declared
      split at sent
      · next last =>
        obtain ⟨done, nobody, received⟩ := last
        obtain rfl := some.inj sent
        refine turn [.send (.confEnd false cc.convidHash) none false (env.answers cc.out.length)] ?_
          (by simp [isConfEnd]) ?_
        · exact told_course cleared rfl
        · intro _
          rw [shouldEnd] at nobody
          refine ⟨?_, by simpa using nobody, received⟩
          rcases done with known | known | known <;> simp [finished, show cc.error = _ from known]
      · obtain rfl := some.inj sent
        exact turn [] (by rw [cleared, append_nil]) (by simp) (by simp)

theorem Course.endWithErr_alone (active : c.state = .active) {econn : Bool} {err : Errno} :
    ({ c with alone := false } : Course).endWithErr econn err = c.endWithErr econn err := by
  simp [Course.endWithErr, Course.leave, active, Course.enter]

theorem sftRejectTimeout_turn (set : CcallTimer.sftReject ∈ cc.timers) :
    Turn env cc (.timer .sftReject) (sftRejectTimeout (cc.tmrCancel [.sftReject])).course := by
  have lapsed : (cc.tmrCancel [.sftReject]).course = { cc.course with sftReject := false } := by
    simp [course, tmrCancel]
  unfold sftRejectTimeout
  split
  · next sent =>
    have idle := setState_course (cc.tmrCancel [.sftReject]) .idle
    rw [lapsed] at idle
    have marked : cc.course.sftReject = true := by simpa [course] using set
    have connsent : cc.state = .connsent := sent
    refine (Turn.rejected marked connsent).of_eq ?_
    have status : (setState (cc.tmrCancel [.sftReject]) .idle).confconnStatus = cc.confconnStatus :=
      congrArg (·.confconnStatus) idle
    simp only [status]
    cases rejectReason cc.confconnStatus with
    | none => exact idle
    | some reason => exact (ecallEnd_still _).beside.course.trans (told_course idle rfl)
  · exact (Turn.lapses _ cc.course.alone false id (by simp)).of_eq lapsed

theorem aloneTimeout_turn (set : CcallTimer.alone ∈ cc.timers) :
    Turn env cc (.timer .alone) (aloneTimeout env (cc.tmrCancel [.alone])).course := by
  have lapsed : (cc.tmrCancel [.alone]).course = { cc.course with alone := false } := by
    simp [course, tmrCancel]
  unfold aloneTimeout
  split
  · exact (Turn.lapses _ false cc.course.sftReject (by simp) id).of_eq lapsed
  · next acts =>
    obtain ⟨active, present⟩ := not_or.mp acts
    have left : ∀ {p : Prop} [Decidable p], (if p then Errno.EEVERYONELEFT else .ENOONEJOINED) = .EEVERYONELEFT ∨
        (if p then Errno.EEVERYONELEFT else .ENOONEJOINED) = .ENOONEJOINED := by
      intro p _
      split <;> simp
    obtain ⟨n, ended⟩ := endWithErr_course (cc.tmrCancel [.alone])
      (if (cc.tmrCancel [.alone]).someoneJoined then .EEVERYONELEFT else .ENOONEJOINED)
    rw [lapsed, Course.endWithErr_alone (not_not.mp active)] at ended
    exact (Turn.fails _ n _ (.alone _ left set (not_not.mp active) present)).of_eq ended

theorem fire_turn {t : CcallTimer} (set : t ∈ cc.timers) (fired : fire env (cc.tmrCancel [t]) t = some cc') :
    Turn env cc (.timer t) cc'.course := by
  have reconnects : ∀ {mid : Ccall} {again : Bool}, mid.course = cc.course →
      (mid.reconnectAttempts ≥ maxReconnectAttempts → GivesUp cc (.timer t)) →
      Turn env cc (.timer t) (reconnect env mid again).course := by
    intro mid again same gives
    rcases reconnect_course mid again with course | course | ⟨spent, n, course⟩
    · exact (Turn.stays _ cc.je).of_eq (course.trans same)
    · rw [same] at course
      exact (Turn.moves _ .connsent cc.je rfl).of_eq course
    · rw [same] at course
      exact (Turn.givesUp _ n (gives spent)).of_eq course
  have fails : ∀ {err : Errno}, watched t = false → Fails cc (.timer t) err →
      Turn env cc (.timer t) (endWithErr env (cc.tmrCancel [t]) err).course := by
    intro err other cause
    obtain ⟨n, ended⟩ := endWithErr_course (cc.tmrCancel [t]) err
    rw [(tmrCancel_beside cc (by simp [other])).course] at ended
    exact (Turn.fails _ n err cause).of_eq ended
  have cancelled : watched t = false → Beside cc (cc.tmrCancel [t]) :=
    fun other => tmrCancel_beside cc (by simp [other])
  cases t with
  | connect =>
    refine some.inj fired ▸ ?_
    unfold connectTimeout
    split
    · exact (cancelled rfl).turn
    · next inactive => exact fails rfl (.connect inactive)
  | sendCheck => exact ((cancelled rfl).trans (sendCheckTimeout_still fired).beside).turn
  | ongoing =>
    refine some.inj fired ▸ ?_
    unfold ongoingCallTimeout
    split
    · next known =>
      have incoming : cc.state = .incoming := known
      refine (Turn.passes _ incoming).of_eq (told_course ?_ rfl)
      rw [setState_course, (cancelled rfl).course]
    · exact (cancelled rfl).turn
  | rotateKey =>
    have beside := Sidesteps.beside env (rotateKeyTimeout_sidesteps (fun _ _ _ _ _ => trivial) trivial fired)
    exact ((cancelled rfl).trans beside).turn
  | rotateMls => exact ((cancelled rfl).trans (Sidesteps.beside env (rotateMlsTimeout_sidesteps fired))).turn
  | ring =>
    refine some.inj fired ▸ ?_
    unfold stopRingingTimeout
    split
    · next known =>
      have incoming : cc.state = .incoming := known
      exact (Turn.ringsOff _ incoming).of_eq (told_course (cancelled rfl).course rfl)
    · exact (cancelled rfl).turn
  | sftReject => exact some.inj fired ▸ sftRejectTimeout_turn set
  | decryptCheck =>
    change decryptCheckTimeout env (cc.tmrCancel [.decryptCheck]) = some cc' at fired
    unfold decryptCheckTimeout at fired
    split at fired
    · exact some.inj fired ▸ (cancelled rfl).turn
    · next active =>
      split at fired
      · next unheard =>
        refine some.inj fired ▸ reconnects (cancelled rfl).course (fun spent => ?_)
        exact .decryptCheck (not_not.mp active) ((Bool.not_eq_true' _).mp unheard) spent
      · split at fired
        · exact some.inj fired ▸ ((cancelled rfl).trans (tmrStart_beside rfl)).turn
        · split at fired
          · exact some.inj fired ▸ (cancelled rfl).turn
          · split at fired
            · exact ((cancelled rfl).trans (requestKeysFrom_still fired).beside).turn
            · exact some.inj fired ▸ (cancelled rfl).turn
  | keepalive =>
    refine some.inj fired ▸ ?_
    unfold keepaliveTimeout
    split
    · exact (cancelled rfl).turn
    · next acts =>
      obtain ⟨active, present⟩ := not_or.mp acts
      have counted : Beside (cc.tmrCancel [.keepalive])
          { cc.tmrCancel [.keepalive] with expectedPing := cc.expectedPing + 1 } := beside_of_eq rfl rfl
      simp only
      split
      · next missing =>
        refine reconnects ((cancelled rfl).trans counted).course (fun spent => ?_)
        exact .keepalive (not_not.mp active) present missing spent
      · exact ((cancelled rfl).trans (counted.trans (tmrStart_beside rfl))).turn
  | alone => exact some.inj fired ▸ aloneTimeout_turn set
  | duration => exact some.inj fired ▸ fails rfl .duration
  | term =>
    refine some.inj fired ▸ Turn.terminates.of_eq ?_
    have idle := setState_course (cc.tmrCancel [.term]) .idle
    rw [(cancelled rfl).course] at idle
    have error : (setState (cc.tmrCancel [.term]) .idle).error = cc.error := congrArg (·.error) idle
    unfold durtermTimeout
    simp only [error]
    exact told_course idle rfl

/-- The CONFPART of the inner call, with the user list it finds. -/
def takenConfpart (cc : Ccall) : CcallEvent → Option (Userlist × List Part)
  | .confpart ecall msg => if cc.ecall = some ecall then some (cc.userl, msg.partl) else none
  | _ => none

/-- Every event but a CONFPART of the inner call takes one of the turns. -/
theorem step_turn (other : takenConfpart cc event = none) (stepped : step env event cc = some cc') :
    Turn env cc event cc'.course := by
  have made : ∀ {p : Prop} [Decidable p] {r : Option Ccall}, (if p then none else r) = some cc' → r = some cc' :=
    fun kept => (ite_none_left_eq_some.mp kept).2
  have known : ∀ {p : Prop} [Decidable p] {r : Option Ccall}, (if p then r else none) = some cc' → p ∧ r = some cc' :=
    fun kept => ite_none_right_eq_some.mp kept
  cases event with
  | start meeting => exact command_turn rfl stepped
  | answer => exact command_turn rfl stepped
  | end_ => exact some.inj stepped ▸ (ecallEnd_still cc).beside.turn
  | reject => exact (reject_still stepped).beside.turn
  | setClients clientl epoch => exact (setClients_beside stepped).turn
  | setMediaKey epochid key => exact (Sidesteps.beside env (setMediaKey_sidesteps (fun _ => trivial) stepped)).turn
  | setDuration duration =>
    exact some.inj stepped ▸
      (beside_of_eq rfl rfl : Beside cc { cc with meetingDuration := duration * 1000 }).turn
  | setBackground background => exact some.inj stepped ▸ setBackground_still.beside.turn
  | config cfg =>
    simp only [step] at stepped
    split at stepped
    · exact some.inj stepped ▸ (beside_of_eq rfl rfl : Beside cc { cc with cfg := cfg }).turn
    · next awaited => exact config_turn awaited stepped
  | msgRecv userid clientid age msg => exact msgRecv_turn stepped
  | sftNetworkError =>
    obtain ⟨n, ended⟩ := endWithErr_course cc .ENOSYS
    exact some.inj stepped ▸ (Turn.fails _ n _ .network).of_eq ended
  | sftMsgRecv msg =>
    cases msg with
    | none =>
      refine some.inj stepped ▸ ?_
      split
      · exact setState_turn rfl
      · exact (Beside.refl cc).turn
    | some msg => exact some.inj stepped ▸ sftMsgRecv_turn
  | transpSend msg => exact some.inj (made stepped) ▸ sendMsgSft_turn
  | datachanEstab =>
    refine some.inj (made stepped) ▸ ?_
    split
    · exact setState_turn rfl
    · exact (Beside.refl cc).turn
  | mediaEstab ecall => exact some.inj (known stepped).2 ▸ mediaEstabHandler_turn
  | ping =>
    exact some.inj (made stepped) ▸
      (beside_of_eq rfl rfl : Beside cc { cc with expectedPing := 0, reconnectAttempts := 0 }).turn
  | confpart ecall msg =>
    simp only [takenConfpart, ite_eq_right_iff, reduceCtorEq, imp_false] at other
    have handled := (known stepped).2
    rw [confpartHandler, if_pos other] at handled
    exact some.inj handled ▸ (Beside.refl cc).turn
  | propsync useridHash clientidHash muted latestEpoch =>
    exact (Sidesteps.beside env <| propsyncHandler_sidesteps (made stepped)).turn
  | closed ecall err => exact closeHandler_turn (known stepped).2
  | lookup index =>
    obtain ⟨r, -, rfl⟩ := map_eq_some_iff.mp stepped
    exact (beside_of_eq rfl rfl : Beside cc { cc with keystore := r.1 }).turn
  | decryptAttempted =>
    exact some.inj stepped ▸
      (beside_of_eq rfl rfl : Beside cc { cc with keystore := cc.keystore.setDecryptAttempted }).turn
  | decryptSuccessful =>
    exact some.inj stepped ▸
      (beside_of_eq rfl rfl : Beside cc { cc with keystore := cc.keystore.setDecryptSuccessful }).turn
  | timer t => exact fire_turn (known stepped).1 (known stepped).2
  | tick now => exact some.inj stepped ▸ (beside_of_eq rfl rfl : Beside cc { cc with now := now }).turn

/-- When the conference started, once a CONFPART is received. -/
def startTime (cc : Ccall) (msg : Confpart) : UInt64 :=
  if (msg.shouldStart || (cc.isCaller && cc.sftTimestamp = 0 && cc.sftSeqno = 0 && msg.partl.length = 1)) && cc.isCaller
  then msg.timestamp
  else if cc.sftTimestamp = 0 ∧ cc.sftSeqno = 0 then msg.timestamp
  else cc.sftTimestamp

/-- The first CONFPART of a meeting comes when its time is up. -/
def RunsOut (cc : Ccall) (msg : Confpart) : Prop :=
  cc.meetingDuration ≠ 0 ∧ cc.receivedConfpart = false ∧
    cc.meetingDuration - (msg.timestamp - startTime cc msg).toUInt32.toInt32 ≤ 0

/-- The course after a CONFPART of the inner call. -/
inductive ConfpartTurn (env : Env) (cc : Ccall) (msg : Confpart) : Course → Prop
  | lists (alone : Bool) (few : alone = true → msg.partl.length ≤ 1) :
      ConfpartTurn env cc msg { cc.course with
        receivedConfpart := true
        alone := alone
        incall := Userlist.listsOthers cc.userl msg.partl }
  | runsOut (alone : Bool) (n : Nat) (few : alone = true → msg.partl.length ≤ 1) (spent : RunsOut cc msg) :
      ConfpartTurn env cc msg
        { ({ cc.course with receivedConfpart := true, alone := alone } : Course).endWithErr (env.hasEconn n)
            .EDURATION with
          incall := Userlist.listsOthers cc.userl msg.partl }

theorem confpartStart_course {shouldStart : Bool} (started : confpartStart env cc msg shouldStart = some cc') :
    cc'.course = { cc.course with receivedConfpart := true } ∧ cc'.userl = cc.userl ∧
      cc'.meetingDuration = cc.meetingDuration ∧
      cc'.sftTimestamp = if shouldStart && cc.isCaller then msg.timestamp
        else if cc.sftTimestamp = 0 ∧ cc.sftSeqno = 0 then msg.timestamp else cc.sftTimestamp := by
  unfold confpartStart at started
  simp only at started
  split at started
  · next starts =>
    rw [if_pos starts]
    have course := (sendMsgI_still (by simp) (by simp) started).beside.course
    rw [sendMsg, sendMsgI] at started
    obtain ⟨made, -, rfl⟩ := map_eq_some_iff.mp started
    cases made with
    | error err => exact ⟨course, rfl, rfl, rfl⟩
    | ok msg => exact ⟨course, rfl, rfl, rfl⟩
  · next later =>
    rw [if_neg later]
    split at started
    · next fresh =>
      rw [if_pos fresh]
      exact some.inj started ▸ ⟨rfl, rfl, rfl, rfl⟩
    · next known =>
      rw [if_neg known]
      exact some.inj started ▸ ⟨rfl, rfl, rfl, rfl⟩

theorem confpartAlone_course {parts : Nat} : ∃ alone : Bool, (alone = true → parts ≤ 1) ∧
      (confpartAlone cc parts).course = { cc.course with alone := alone } := by
  unfold confpartAlone
  split
  · exact ⟨false, by simp, by simp [course, tmrCancel]⟩
  · next few =>
    split
    · exact ⟨true, fun _ => Nat.le_of_not_gt few, by simp [course, tmrStart]⟩
    · exact ⟨cc.course.alone, fun _ => Nat.le_of_not_gt few, rfl⟩

theorem setState_self (cc : Ccall) (state : CcallState) : (setState cc state).userl.self = cc.userl.self := by
  have entered : (enter { cc with state := state } state).userl.self = cc.userl.self := by
    cases state with
    | connsent =>
      unfold enter
      simp only
      split <;> rfl
    | active =>
      unfold enter
      simp only
      split <;> rfl
    | _ => rfl
  unfold setState
  simp only
  split
  · exact entered
  · exact entered

theorem endWithErr_self (env : Env) (cc : Ccall) (err : Errno) :
    (endWithErr env cc err).userl.self = cc.userl.self := by
  have ended : ∀ {mid : Ccall}, mid.userl.self = cc.userl.self →
      (if mid.ecall.isSome ∧ env.hasEconn mid.out.length then ecallEnd mid else setState mid .idle).userl.self =
        cc.userl.self := by
    intro mid same
    split
    · unfold ecallEnd
      split <;> exact same
    · exact (setState_self mid .idle).trans same
  unfold endWithErr
  refine ended ?_
  simp only
  split
  all_goals try exact setState_self { cc with error := some err } _
  · rfl
  all_goals
    split
    · exact setState_self { cc with error := some err } _
    · exact setState_self { cc with error := some err } _

theorem takePartlist_course {partlist : List Part}
    (taken : takePartlist env cc (cc.userl.updateBeforeSort partlist false) = some cc') :
    cc'.course = { cc.course with incall := Userlist.listsOthers cc.userl partlist } := by
  rw [(takePartlist_beside taken).course]
  simp only [course, updateBeforeSort_someoneIn]

theorem confpart_turn (current : cc.ecall = some ecall)
    (stepped : step env (.confpart ecall msg) cc = some cc') : ConfpartTurn env cc msg cc'.course := by
  have handled := (ite_none_right_eq_some.mp stepped).2
  rw [confpartHandler, if_neg (not_not.mpr current)] at handled
  obtain ⟨first, started, handled⟩ := bind_eq_some_iff.mp handled
  obtain ⟨third, taken, ended⟩ := bind_eq_some_iff.mp handled
  obtain ⟨course, users, length, time⟩ := confpartStart_course started
  obtain ⟨alone, few, lonely⟩ := confpartAlone_course
  have kept : (confpartAlone first msg.partl.length).userl = first.userl ∧
      (confpartAlone first msg.partl.length).meetingDuration = first.meetingDuration ∧
      (confpartAlone first msg.partl.length).sftTimestamp = first.sftTimestamp := by
    unfold confpartAlone
    split
    · exact ⟨rfl, rfl, rfl⟩
    · split <;> exact ⟨rfl, rfl, rfl⟩
  rw [course] at lonely
  rw [(confpartEnd_beside ended).course, takePartlist_course taken]
  generalize confpartAlone first msg.partl.length = second at lonely kept taken
  obtain ⟨users', length', time'⟩ := kept
  unfold confpartDuration
  split
  · next timed =>
    simp only
    split
    · next spent =>
      obtain ⟨n, out⟩ := endWithErr_course second .EDURATION
      have same : Userlist.SameSelf cc.userl (endWithErr env second .EDURATION).userl := by
        rw [Userlist.SameSelf, endWithErr_self, users', users]
        exact ⟨rfl, rfl⟩
      rw [out, listsOthers_sameSelf same, lonely]
      refine .runsOut alone n few ⟨?_, ?_, ?_⟩
      · rw [← length, ← length']
        exact timed.1
      · simpa using timed.2
      · rw [← length, ← length', startTime, ← time, ← time']
        exact spent
    · rw [(tmrStart_beside rfl).course, lonely]
      simp only [tmrStart, users', users]
      exact .lists alone few
  · rw [lonely, users', users]
    exact .lists alone few

/-- Where an event leads the course. -/
theorem step_course (stepped : step env event cc = some cc') :
    takenConfpart cc event = none ∧ Turn env cc event cc'.course ∨
      ∃ ecall msg, event = .confpart ecall msg ∧ cc.ecall = some ecall ∧
        takenConfpart cc event = some (cc.userl, msg.partl) ∧ ConfpartTurn env cc msg cc'.course := by
  rcases eq_none_or_eq_some (takenConfpart cc event) with other | ⟨taken, known⟩
  · exact .inl ⟨other, step_turn other stepped⟩
  · cases event with
    | confpart ecall msg =>
      obtain ⟨current, same⟩ := ite_none_right_eq_some.mp known
      exact .inr ⟨ecall, msg, rfl, current, known.trans same.symm, confpart_turn current stepped⟩
    | _ => simp [takenConfpart] at known

end

end Avs.Ccall
