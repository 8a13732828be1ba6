import Avs.KeyProvenance

/-!
What hanging up a conference leaves undone. `ccall_end` ends the inner call and nothing else: a configuration
that was asked for still arrives, a SETUP of the SFT still makes an inner call where there is none, and the
call reconnects and moves to an earlier conference as before.
-/
namespace Avs.Ccall
open List Option Runs

open Userlist (bobThenAlice)

def isConfConn : Output → Bool
  | .sft _ (.confConn _ _ _ _) _ => true
  | _ => false

/-- The call comes back with this event: a CONFCONN is sent, a SETUP of the SFT makes an inner call, or the call becomes
    active. -/
inductive Revives (event : CcallEvent) (cc cc' : Ccall) : Prop
  | sends (o : Output) (member : o ∈ cc'.out.drop cc.out.length) (confConn : isConfConn o = true)
  | makes (sessid : Bytes) (url sftTuple : Option Bytes)
      (setup : event = .sftMsgRecv (some (sessid, .setup url sftTuple))) (without : cc.ecall = none)
      (made : cc'.ecall.isSome)
  | activates (before : cc.state ≠ .active) (after : cc'.state = .active)

/-- No configuration is awaited, and a call in CONNSENT has its inner call and did not run out of time. -/
structure AtRest (cc : Ccall) : Prop where
  je : cc.je = none
  connsent : cc.state = .connsent → cc.ecall.isSome ∧ cc.error ≠ some .EDURATION

def Down (cc : Ccall) : Prop := cc.state = .idle ∨ cc.state = .incoming ∨ cc.state = .terminating

/-- A message that would move the call to an earlier conference. -/
def Earlier (cc : Ccall) (age : UInt32) (valid : Bool) (info : ConfInfo) : Prop :=
  age < confstartTimeoutS ∧ valid = true ∧ tsCmp cc info > 0

/-- The event does not start or answer the call, reconnect it, establish its media or move a call that is not down to an
    earlier conference. -/
def Calm (event : CcallEvent) (cc : Ccall) : Prop :=
  match event with
  | .start _ | .answer => False
  | .transpSend msg => msg = .setup ∨ msg = .update
  | .mediaEstab ecall => cc.ecall = some ecall → cc.state = .connsent ∨ cc.state = .active
  | .closed ecall err => cc.ecall = some ecall → err ≠ some .EAGAIN ∧ err ≠ some .ENOTCONN
  | .msgRecv _ _ age (.confStart _ info) => Down cc ∨ ¬ Earlier cc age true info
  | .msgRecv _ _ age (.confCheck resp info) => Down cc ∨ ¬ Earlier cc age resp info
  | .timer .keepalive => cc.state = .active → cc.ecall.isSome → cc.expectedPing + 1 ≤ maxMissingPings
  | .timer .decryptCheck => cc.state = .active → cc.receivedConfpart = true
  | _ => True

structure Tame (cc cc' : Ccall) : Prop where
  out : Adds isConfConn cc cc'
  active : cc'.state = .active → cc.state = .active
  rest : AtRest cc → AtRest cc'

theorem Tame.refl (cc : Ccall) : Tame cc cc := ⟨.of_eq rfl, id, id⟩

theorem Tame.trans {a b c : Ccall} (first : Tame a b) (second : Tame b c) : Tame a c :=
  ⟨first.out.trans second.out, first.active ∘ second.active, second.rest ∘ first.rest⟩

section
variable {cc : Ccall} {env : Env} {cc' : Ccall} {o : Output} {userid clientid sessid : Bytes} {order : Int32}
  {info : ConfInfo} {age : UInt32} {ecall : Nat} {msg : Confpart} {event : CcallEvent}

theorem isConfConn_of_aside (aside : forward o = false) : isConfConn o = false := by
  unfold forward at aside
  split at aside
  · simp at aside
  · rfl
  · next not _ =>
    unfold isConfConn
    split
    · exact absurd rfl (not _ _ _ _ _ _)
    · rfl

theorem Aside.tame (aside : Aside cc cc') : Tame cc cc' := by
  obtain ⟨extra, out, none_⟩ := aside.out
  refine ⟨⟨extra, out, fun o member => isConfConn_of_aside (none_ o member)⟩, ?_, ?_⟩
  · rw [aside.state]
    exact id
  · intro rest
    refine ⟨aside.je.trans rest.je, ?_⟩
    rw [aside.state, aside.ecall, aside.error]
    exact rest.connsent

theorem Beside.tame (beside : Beside cc cc') : Tame cc cc' := beside.aside.tame

theorem tame_of_aside {start : Ccall} (aside : Aside start cc') (out : start.out = cc.out) (je : start.je = cc.je)
    (connsent : start.state ≠ .connsent) (active : start.state = .active → cc.state = .active) : Tame cc cc' := by
  refine Tame.trans ⟨.of_eq out, active, ?_⟩ aside.tame
  exact fun rest => ⟨je.trans rest.je, fun known => absurd known connsent⟩

theorem setState_tame {state : CcallState} (connsent : state ≠ .connsent)
    (active : state = .active → cc.state = .active) : Tame cc (setState cc state) :=
  tame_of_aside (setState_aside cc state) rfl rfl connsent active

theorem endWithErr_tame {err : Errno} : Tame cc (endWithErr env cc err) := by
  obtain ⟨state, closed, aside⟩ := endWithErr_closing
  refine tame_of_aside aside rfl rfl ?_ ?_
  · rcases closed with rfl | rfl <;> simp
  · rcases closed with rfl | rfl <;> simp

theorem tell_tame (other : forward o = false) : Tame cc (cc.tell o) :=
  (tell_aside other).tame

theorem comeIn_tame {shouldRing : Bool} : Tame cc (comeIn cc userid clientid shouldRing) := by
  have rings : Tame cc { cc with isRinging := shouldRing } := Aside.tame (aside_of_eq rfl)
  have told : Tame cc ((setState { cc with isRinging := shouldRing } .incoming).tell
      (.starth userid clientid shouldRing)) :=
    (rings.trans (setState_tame (by simp) (by simp))).trans (tell_tame rfl)
  exact told.trans (ite_aside tmrStart_aside).tame

theorem takeSftl_tame : Tame cc (takeSftl cc order info) :=
  Aside.tame (ite_aside (aside_of_eq rfl))

theorem confstartState_tame {rings : Bool} (calm : Down cc ∨ ¬ order > 0)
    (heard : confstartState env cc userid clientid rings order info = some cc') : Tame cc cc' := by
  have later : ¬ Down cc → ¬ order > 0 := calm.resolve_left
  unfold confstartState at heard
  simp only at heard
  split at heard
  · exact some.inj heard ▸ comeIn_tame.trans takeSftl_tame
  · obtain rfl := some.inj heard
    refine Tame.trans ?_ (tmrStart_aside.tame.trans takeSftl_tame)
    exact (ite_aside stopRinging_aside).tame
  all_goals try
    next known =>
      rw [if_neg (later (by simp [Down, known]))] at heard
      exact some.inj heard ▸ .refl cc
  · next known =>
    rw [if_neg (later (by simp [Down, known]))] at heard
    split at heard
    · exact (sendMsgI_aside heard).tame
    · exact some.inj heard ▸ .refl cc
  · exact some.inj heard ▸ .refl cc

theorem handleConfstartCheck_tame {isStart resp : Bool} (calm : Down cc ∨ ¬ Earlier cc age (isStart || resp) info)
    (heard : handleConfstartCheck env cc userid clientid age isStart resp info = some cc') : Tame cc cc' := by
  unfold handleConfstartCheck at heard
  split at heard
  · next valid =>
    have adopted : Aside cc (if tsCmp cc info > 0 then adopt env cc info else cc) :=
      ite_aside (aside_of_eq rfl)
    refine adopted.tame.trans (confstartState_tame ?_ heard)
    rcases calm with down | notEarlier
    · left
      rwa [Down, adopted.state]
    · right
      exact fun earlier => notEarlier ⟨valid.1, by simpa using valid.2, earlier⟩
  · exact some.inj heard ▸ .refl cc

theorem confEndRecv_tame : Tame cc (confEndRecv cc sessid) := by
  unfold confEndRecv
  split
  · split
    · exact (setState_tame (by simp) (by simp)).trans (tell_tame rfl)
    · exact .refl cc
  · exact (ite_aside tmrStart_aside).tame
  · exact .refl cc

theorem msgRecv_tame {msg : Message} (calm : Calm (.msgRecv userid clientid age msg) cc)
    (heard : msgRecv env cc userid clientid age msg = some cc') : Tame cc cc' := by
  unfold msgRecv at heard
  split at heard
  · exact handleConfstartCheck_tame (by simpa [Calm] using calm) heard
  · exact handleConfstartCheck_tame (by simpa [Calm] using calm) heard
  · exact some.inj heard ▸ confEndRecv_tame
  · exact (confKeyResp_beside heard).tame
  · exact (confKeyReq_beside heard).tame
  · exact some.inj heard ▸ rejectRecv_aside.tame

theorem ecallMsgRecv_tame : Tame cc (ecallMsgRecv cc) := by
  unfold ecallMsgRecv
  split
  · next ecall known =>
    refine ⟨adds_tell rfl, id, ?_⟩
    exact fun rest => ⟨rest.je, rest.connsent⟩
  · refine ⟨adds_tell rfl, id, ?_⟩
    exact fun rest => ⟨rest.je, fun connsent => ⟨rfl, (rest.connsent connsent).2⟩⟩

theorem sftMsgRecv_tame {msg : SftMsg} : Tame cc (sftMsgRecv cc sessid msg) := by
  unfold sftMsgRecv
  split
  · exact .refl cc
  · have moved : Tame cc (setState cc .setuprecv) := setState_tame (by simp) (by simp)
    split
    · exact .refl cc
    · exact Aside.tame (aside_of_eq rfl)
    · split
      · exact (moved.trans setupUrls_still.beside.tame).trans ecallMsgRecv_tame
      · exact .refl cc
    · split
      · exact moved.trans ecallMsgRecv_tame
      · exact .refl cc
    · exact ecallMsgRecv_tame

theorem sftMsgRecv_setup {url sftTuple : Option Bytes} (rest : AtRest cc) (without : cc.ecall = none) :
    (sftMsgRecv cc sessid (.setup url sftTuple)).ecall = none := by
  have away : cc.state ≠ .connsent := by
    intro connsent
    simpa [without] using (rest.connsent connsent).1
  unfold sftMsgRecv
  split
  · exact without
  · simpa only [if_neg away] using without

theorem sendMsgSft_tame {sftUrl : Option Bytes} {msg : SftMessage} (other : msg = .setup ∨ msg = .update) :
    Tame cc (sendMsgSft env cc sftUrl msg).1 := by
  unfold sendMsgSft
  split
  · exact .refl cc
  · have aside : ∀ url err, forward (.sft url msg err) = false := by
      intro url err
      rcases other with rfl | rfl <;> rfl
    simp only
    split
    · exact (tell_tame (aside _ _)).trans (setState_tame (by simp) (by simp))
    · exact tell_tame (aside _ _)

theorem mediaEstabHandler_tame (calm : Calm (.mediaEstab ecall) cc) : Tame cc (mediaEstabHandler cc ecall) := by
  unfold mediaEstabHandler
  split
  · exact .refl cc
  · next current =>
    have established := calm (not_not.mp current)
    have told : Aside cc (if cc.isMlsCall then cc.tell .reqNewEpochh else cc) := ite_aside (tell_aside rfl)
    generalize (if cc.isMlsCall then cc.tell .reqNewEpochh else cc) = mid at told
    simp only
    split
    · exact told.tame
    · next away =>
      have active : mid.state = .active := by
        rw [told.state] at away ⊢
        exact established.resolve_left away
      have entered : Tame mid (setState mid .active) := setState_tame (by simp) (fun _ => active)
      exact (told.tame.trans entered).trans (Aside.tame (aside_of_eq rfl))

theorem confpartDuration_tame {first : Bool} : Tame cc (confpartDuration env cc msg first) := by
  unfold confpartDuration
  split
  · simp only
    split
    · exact endWithErr_tame
    · exact tmrStart_aside.tame
  · exact .refl cc

theorem confpartHandler_tame (heard : confpartHandler env cc ecall msg = some cc') : Tame cc cc' := by
  unfold confpartHandler at heard
  split at heard
  · exact some.inj heard ▸ .refl cc
  · simp only at heard
    obtain ⟨mid, started, heard⟩ := bind_eq_some_iff.mp heard
    obtain ⟨late, taken, ended⟩ := bind_eq_some_iff.mp heard
    have listed : ∀ {before : Ccall} {list : Userlist}, Tame before { before with userl := list } :=
      Aside.tame (aside_of_eq rfl)
    exact ((((confpartStart_aside started).trans confpartAlone_aside).tame.trans confpartDuration_tame).trans
      listed).trans ((takePartlist_beside taken).trans (confpartEnd_beside ended)).tame

theorem closeCall_tame {shouldEnd : Bool} : Tame cc (closeCall cc shouldEnd) := by
  have forgets : ∀ {mid : Ccall}, mid.state ≠ .connsent → Tame mid { mid with ecall := none, error := none } :=
    fun away => tame_of_aside (.refl _) rfl rfl away id
  unfold closeCall
  simp only
  split
  · have idle : Tame cc (setState cc .idle) := setState_tame (by simp) (by simp)
    have aside : Aside (setState cc .idle) (if cc.error = some .EDURATION then setState cc .idle
        else (setState cc .idle).tell (.closeh (setState cc .idle).error)) := by
      split
      · exact .refl _
      · exact tell_aside rfl
    refine (idle.trans aside.tame).trans (forgets ?_)
    rw [aside.state, (setState_aside cc .idle).state]
    simp
  · split
    · next overtime =>
      refine ⟨.of_eq rfl, id, fun rest => ⟨rest.je, fun known => ?_⟩⟩
      exact absurd overtime (rest.connsent known).2
    · have incoming : Tame cc (setState cc .incoming) := setState_tame (by simp) (by simp)
      refine (incoming.trans (tell_tame rfl)).trans (forgets ?_)
      rw [(tell_aside rfl).state, (setState_aside cc .incoming).state]
      simp

theorem closeHandler_tame {err : Option Errno} (calm : Calm (.closed ecall err) cc)
    (closed : closeHandler env cc ecall err = some cc') : Tame cc cc' := by
  unfold closeHandler at closed
  split at closed
  · exact some.inj closed ▸ .refl cc
  · next current =>
    obtain ⟨again, lost⟩ := calm (not_not.mp current)
    have stays : ¬ (err = some .EAGAIN ∨ err = some .ENOTCONN) := not_or.mpr ⟨again, lost⟩
    simp only [if_neg stays] at closed
    obtain ⟨mid, sent, rfl⟩ := map_eq_some_iff.mp closed
    refine Tame.trans ?_ closeCall_tame
    split at sent
    · refine Tame.trans ?_ (sendMsgI_aside sent).tame
      exact Aside.tame (aside_of_eq rfl)
    · exact some.inj sent ▸ Aside.tame (aside_of_eq rfl)

theorem sftRejectTimeout_tame : Tame cc (sftRejectTimeout cc) := by
  unfold sftRejectTimeout
  split
  · have moved : Tame cc (setState cc .idle) := setState_tame (by simp) (by simp)
    simp only
    split
    · exact moved
    · exact (moved.trans (tell_tame rfl)).trans (ecallEnd_still _).beside.tame
  · exact .refl cc

theorem decryptCheckTimeout_tame (calm : cc.state = .active → cc.receivedConfpart = true)
    (checked : decryptCheckTimeout env cc = some cc') : Tame cc cc' := by
  unfold decryptCheckTimeout at checked
  split at checked
  · exact some.inj checked ▸ .refl cc
  · next active =>
    rw [if_neg (by simp [calm (not_not.mp active)])] at checked
    split at checked
    · exact some.inj checked ▸ tmrStart_aside.tame
    · split at checked
      · exact some.inj checked ▸ .refl cc
      · split at checked
        · exact (requestKeysFrom_still checked).beside.tame
        · exact some.inj checked ▸ .refl cc

theorem keepaliveTimeout_tame (calm : cc.state = .active → cc.ecall.isSome → cc.expectedPing + 1 ≤ maxMissingPings) :
    Tame cc (keepaliveTimeout env cc) := by
  unfold keepaliveTimeout
  split
  · exact .refl cc
  · next live =>
    obtain ⟨active, known⟩ := not_or.mp live
    have few := calm (not_not.mp active) (ne_none_iff_isSome.mp known)
    simp only
    rw [if_neg (UInt32.not_lt.mpr few)]
    exact Aside.tame (aside_of_eq rfl)

theorem fire_tame {t : CcallTimer} (calm : Calm (.timer t) cc) (fired : fire env (cc.tmrCancel [t]) t = some cc') :
    Tame cc cc' := by
  refine (tmrCancel_aside [t]).tame.trans ?_
  generalize cancelled : cc.tmrCancel [t] = mid at fired ⊢
  cases t with
  | connect =>
    refine some.inj fired ▸ ?_
    unfold connectTimeout
    split
    · exact .refl mid
    · exact endWithErr_tame
  | sendCheck => exact (sendCheckTimeout_still fired).beside.tame
  | ongoing =>
    refine some.inj fired ▸ ?_
    unfold ongoingCallTimeout
    split
    · exact (setState_tame (by simp) (by simp)).trans (tell_tame rfl)
    · exact .refl mid
  | rotateKey => exact (Sidesteps.beside env (rotateKeyTimeout_sidesteps (fun _ _ _ _ _ => trivial) trivial fired)).tame
  | rotateMls => exact (Sidesteps.beside env (rotateMlsTimeout_sidesteps fired)).tame
  | ring =>
    refine some.inj fired ▸ ?_
    unfold stopRingingTimeout
    split
    · exact (tell_tame rfl).trans (Aside.tame (aside_of_eq rfl))
    · exact .refl mid
  | sftReject => exact some.inj fired ▸ sftRejectTimeout_tame
  | decryptCheck => exact decryptCheckTimeout_tame (cancelled ▸ calm) fired
  | keepalive => exact some.inj fired ▸ keepaliveTimeout_tame (cancelled ▸ calm)
  | alone =>
    refine some.inj fired ▸ ?_
    unfold aloneTimeout
    split
    · exact .refl mid
    · exact endWithErr_tame
  | duration => exact some.inj fired ▸ endWithErr_tame
  | term =>
    refine some.inj fired ▸ ?_
    exact (setState_tame (by simp) (by simp)).trans (tell_tame rfl)

theorem step_tame (calm : Calm event cc) (rest : AtRest cc) (stepped : step env event cc = some cc') : Tame cc cc' := by
  cases event with
  | start meeting => exact calm.elim
  | answer => exact calm.elim
  | end_ => exact some.inj stepped ▸ (ecallEnd_still cc).beside.tame
  | reject => exact (reject_still stepped).beside.tame
  | setClients clientl epoch => exact (setClients_beside stepped).tame
  | setMediaKey epochid key => exact (Sidesteps.beside env (setMediaKey_sidesteps (fun _ => trivial) stepped)).tame
  | setDuration duration => exact some.inj stepped ▸ Aside.tame (aside_of_eq rfl)
  | setBackground background => exact some.inj stepped ▸ setBackground_still.beside.tame
  | config cfg =>
    simp only [step, rest.je] at stepped
    exact some.inj stepped ▸ Aside.tame (⟨rfl, rest.je.symm, rfl, rfl, .of_eq rfl⟩)
  | msgRecv userid clientid age msg => exact msgRecv_tame calm stepped
  | sftNetworkError => exact some.inj stepped ▸ endWithErr_tame
  | sftMsgRecv msg =>
    cases msg with
    | none =>
      refine some.inj stepped ▸ ?_
      split
      · exact setState_tame (by simp) (by simp)
      · exact .refl cc
    | some msg => exact some.inj stepped ▸ sftMsgRecv_tame
  | transpSend msg =>
    exact some.inj (ite_none_left_eq_some.mp stepped).2 ▸ sendMsgSft_tame calm
  | datachanEstab =>
    refine some.inj (ite_none_left_eq_some.mp stepped).2 ▸ ?_
    split
    · exact setState_tame (by simp) (by simp)
    · exact .refl cc
  | mediaEstab ecall =>
    exact some.inj (ite_none_right_eq_some.mp stepped).2 ▸ mediaEstabHandler_tame calm
  | ping =>
    refine some.inj (ite_none_left_eq_some.mp stepped).2 ▸ Aside.tame ?_
    exact aside_of_eq rfl
  | confpart ecall msg => exact confpartHandler_tame (ite_none_right_eq_some.mp stepped).2
  | propsync useridHash clientidHash muted latestEpoch =>
    exact (Sidesteps.beside env <| propsyncHandler_sidesteps (ite_none_left_eq_some.mp stepped).2).tame
  | closed ecall err => exact closeHandler_tame calm (ite_none_right_eq_some.mp stepped).2
  | lookup index =>
    obtain ⟨found, -, rfl⟩ := map_eq_some_iff.mp stepped
    exact Aside.tame (aside_of_eq rfl)
  | decryptAttempted => exact some.inj stepped ▸ Aside.tame (aside_of_eq rfl)
  | decryptSuccessful => exact some.inj stepped ▸ Aside.tame (aside_of_eq rfl)
  | timer t => exact fire_tame calm (ite_none_right_eq_some.mp stepped).2
  | tick now => exact some.inj stepped ▸ Aside.tame (aside_of_eq rfl)

theorem step_not_revives (calm : Calm event cc) (rest : AtRest cc)
    (stepped : step env event cc = some cc') : ¬ Revives event cc cc' := by
  have tame := step_tame calm rest stepped
  rintro (⟨o, member, confConn⟩ | ⟨sessid, url, sftTuple, rfl, without, made⟩ | ⟨before, after⟩)
  · obtain ⟨extra, out, none_⟩ := tame.out
    rw [out, drop_left] at member
    simp [none_ o member] at confConn
  · obtain rfl := some.inj stepped
    simp [sftMsgRecv_setup rest without] at made
  · exact before (tame.active after)

end

/-- A call that is hung up at rest does not come back in any calm run. -/
theorem hangup_final (env : Env) (cc hung : Ccall) (events : List CcallEvent) (rest : AtRest cc)
    (hangup : step env .end_ cc = some hung) (calm : Throughout (step env) hung events Calm)
    (front back : List CcallEvent) (event : CcallEvent) (mid next : Ccall) (split : events = front ++ event :: back)
    (reached : run (step env) hung front = some mid) (stepped : step env event mid = some next) :
    ¬ Revives event mid next := by
  obtain rfl := some.inj hangup
  have start : AtRest (ecallEnd cc) := (ecallEnd_still cc).beside.tame.rest rest
  have keeps : ∀ event cc cc', Calm event cc → AtRest cc → step env event cc = some cc' → AtRest cc' :=
    fun event cc cc' calm rest stepped => (step_tame calm rest stepped).rest rest
  rw [split] at calm
  have stays : AtRest mid := run_throughout keeps (throughout_front calm) start reached
  exact step_not_revives (calm front event back mid rfl reached) stays stepped

instance (event : CcallEvent) (cc : Ccall) : Decidable (Calm event cc) := by
  unfold Calm Down Earlier
  split <;> infer_instance

/-- Alice hangs up while the configuration is awaited: it still sends the CONFCONN, and the call becomes active. -/
theorem hangup_undone : ∃ cc hung next last, run (step plainEnv) (aliceCall false) [.start false] = some cc ∧
      cc.state ≠ .idle ∧ cc.state ≠ .incoming ∧ step plainEnv .end_ cc = some hung ∧
      step plainEnv (.config ⟨[plainSft], [plainSft], false⟩) hung = some next ∧
      Revives (.config ⟨[plainSft], [plainSft], false⟩) hung next ∧
      run (step plainEnv) hung connects.tail = some last ∧ last.state = .active := by
  have shown : ∃ cc, run (step plainEnv) (aliceCall false) [.start false] = some cc ∧
      (cc.state ≠ .idle ∧ cc.state ≠ .incoming) ∧ ∃ hung, step plainEnv .end_ cc = some hung ∧
      ∃ next, step plainEnv (.config ⟨[plainSft], [plainSft], false⟩) hung = some next ∧
        (∃ o ∈ next.out.drop hung.out.length, isConfConn o = true) ∧
        ∃ last, run (step plainEnv) hung connects.tail = some last ∧ last.state = .active := by decide +kernel
  obtain ⟨cc, reached, ⟨busy, busy'⟩, hung, hangup, next, stepped, ⟨o, member, confConn⟩, last, later⟩ := shown
  exact ⟨cc, hung, next, last, reached, busy, busy', hangup, stepped, .sends o member confConn, later⟩

def bobTells (timestamp : UInt64) : CcallEvent :=
  .msgRecv (ascii "bob") (ascii "1") 0
    (.confStart false ⟨timestamp, 0, [], ascii "sft.bob", none, [ascii "sft.bob"]⟩)

def sftSetup : CcallEvent := .sftMsgRecv (some (ascii "conv", .setup (some (ascii "sft/")) none))

/-- Alice hangs up an active call: a configuration and a later conference change nothing, the inner call closes, the
    call rings again, and a SETUP is ignored. -/
theorem hangup_final_active :
    let events := [.config ⟨[plainSft], [plainSft], false⟩, bobTells 9, .closed 0 none, bobTells 1]
    ∃ cc hung mid next, run (step plainEnv) (aliceCall false) (connects ++ [lists bobThenAlice]) = some cc ∧
      cc.state = .active ∧ step plainEnv .end_ cc = some hung ∧
      run (step plainEnv) hung events = some mid ∧ mid.state = .incoming ∧
      step plainEnv sftSetup mid = some next ∧ ¬ Revives sftSetup mid next := by
  intro events
  simp only [exists_and_left]
  refine exists_shown (fun cc => (cc.state = .active ∧ cc.je = none) ∧ ∃ hung, step plainEnv .end_ cc = some hung ∧
    Throughout (step plainEnv) hung (events ++ [sftSetup]) Calm ∧
      ∃ mid, run (step plainEnv) hung events = some mid ∧ mid.state = .incoming ∧
        ∃ next, step plainEnv sftSetup mid = some next ∧ True) (by decide +kernel) ?_
  rintro cc reached ⟨⟨active, je⟩, hung, hangup, calm, mid, later, incoming, next, stepped, -⟩
  have rest : AtRest cc := ⟨je, by simp [active]⟩
  exact ⟨active, hung, hangup, mid, later, incoming, next, stepped,
    hangup_final plainEnv cc hung _ rest hangup calm events [] sftSetup mid next rfl later stepped⟩

end Avs.Ccall
