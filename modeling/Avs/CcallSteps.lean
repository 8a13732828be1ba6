import Avs.CcallMoves

/-!
Every event of a conference call is a sequence of moves (`step_moves`), of those it is permitted in the state
it leaves. What holds in every reachable state is proved move by move.
-/
namespace Avs.Ccall
open List Option Keystore Userlist
open Relation (ReflTransGen)

section
variable {cc : Ccall} {env : Env} {permit : Permit} {cc' : Ccall} {list : Userlist} {shouldStart : Bool}
  {msg : Confpart} {ecall : Nat} {info : ConfInfo} {userid clientid sessid : Bytes} {order : Int32} {age : UInt32}
  {keyl : List (UInt32 × Bytes)} {muted : Option Bool} {event : CcallEvent}

theorem trackKeygeneratorChange_sidesteps {prev : Option UserRef} (users : cc.userl = list)
    (generates : cc.state = cc'.state → cc'.isKg → cc.draws < cc'.draws → permit.generates cc)
    (sends : permit.sends cc'.keystore)
    (called : userCalls env (Userlist.trackKeygeneratorChange list prev) cc = some cc') :
    Sidesteps env permit cc cc' := by
  unfold Userlist.trackKeygeneratorChange at called
  split at called
  · exact some.inj called ▸ .refl
  · split at called
    · exact some.inj called ▸ .refl
    · rename_i kg _
      obtain ⟨mid, first, last⟩ := bind_eq_some_iff.mp called
      obtain rfl := some.inj last
      by_cases isMe : list.isKeygeneratorMe = true
      · have isKg : cc.isKg := by rw [Ccall.isKg, users]; exact isMe
        simp only [userCall, isMe] at first
        exact kgChangeHandler_sidesteps isKg generates sends first
      · exact (userCall_still (by simpa [Other] using isMe) first).sidesteps

/-- What taking a CONFPART does between the update of the users and their sorting. -/
theorem takePartlist_sidesteps {partl : List Part}
    (generates : ∀ mid : Ccall, mid.state = cc'.state → cc'.isKg → mid.draws = cc.draws → mid.draws < cc'.draws →
      permit.generates mid)
    (sends : permit.sends cc'.keystore)
    (taken : takePartlist env cc (cc.userl.updateBeforeSort partl false) = some cc') :
    ∃ last, Sidesteps env permit { cc with userl := (cc.userl.updateBeforeSort partl false).list } last ∧
      cc' = { last with userl := last.userl.sort } := by
  obtain ⟨last, called, rfl⟩ := map_eq_some_iff.mp taken
  obtain ⟨before, calls, others⟩ := updateBeforeSort_calls
  rw [calls, userCalls_append] at called
  obtain ⟨mid, called, tracked⟩ := bind_eq_some_iff.mp called
  have still := userCalls_still others called
  exact ⟨last, still.sidesteps.trans (trackKeygeneratorChange_sidesteps still.quiet.users
    (fun state isKg more => generates mid state isKg still.quiet.draws more) sends tracked), rfl⟩

theorem takePartlist_moves {partl : List Part} (known : cc.confpartData.isSome)
    (generates : ∀ mid : Ccall, mid.state = cc'.state → cc'.isKg → mid.draws = cc.draws → mid.draws < cc'.draws →
      permit.generates mid)
    (sends : permit.sends cc'.keystore)
    (taken : takePartlist env cc (cc.userl.updateBeforeSort partl false) = some cc') : Moves env permit cc cc' := by
  obtain ⟨last, sidesteps, rfl⟩ := takePartlist_sidesteps generates sends taken
  exact ((ReflTransGen.single (.updateFromSftlist partl known)).trans sidesteps.moves).tail .sort

theorem takePartlist_beside {partl : List Part}
    (taken : takePartlist env cc (cc.userl.updateBeforeSort partl false) = some cc') :
    Beside { cc with userl := (cc.userl.updateBeforeSort partl false).list } cc' := by
  have sends : Permit.any.sends cc'.keystore := trivial
  obtain ⟨last, sidesteps, rfl⟩ := takePartlist_sidesteps (fun _ _ _ _ _ => trivial) sends taken
  exact (sidesteps.beside env).trans (users_beside sort_someoneIn)

theorem sendKeys_sidestep {sendToAll : Bool} (sent : sendKeys env cc sendToAll = some cc')
    (sends : permit.sends cc.keystore) : Sidestep env permit cc cc' :=
  ⟨.sendKeys sendToAll sent sends, sendKeys_beside sent, fun _ => (sendKeys_settled sent).1.keystore ▸ .refl _⟩

theorem confpartEnd_sidesteps {upd : Userlist.SftUpdate} {sftl : List Bytes}
    (ended : confpartEnd env cc upd sftl shouldStart = some cc') :
    Settled cc cc' ∧ (permit.sends cc.keystore → Sidesteps env permit cc cc') := by
  obtain ⟨mid, keyed, rest⟩ := bind_eq_some_iff.mp ended
  have told : Still cc (cc.tell .groupChangedh) := tell_still rfl rfl rfl
  have sent : Settled cc mid ∧ (permit.sends cc.keystore → Sidesteps env permit cc mid) := by
    split at keyed
    · simp only at keyed
      split at keyed
      · exact ⟨told.settled.trans (sendKeys_settled keyed).1,
          fun sends => told.sidesteps.tail (sendKeys_sidestep keyed sends)⟩
      · exact some.inj keyed ▸ ⟨told.settled, fun _ => told.sidesteps⟩
    · exact some.inj keyed ▸ ⟨.refl cc, fun _ => .refl⟩
  have asked : Still mid (if upd.missing then mid.tell .reqClientsh else mid) := ite_still (tell_still rfl rfl rfl)
  simp only at rest
  generalize (if upd.missing then mid.tell .reqClientsh else mid) = late at asked rest
  have listed : Still mid { late with sftl := sftl } := asked.trans (still_of_eq rfl rfl)
  have last : Still mid cc' := by
    split at rest
    · exact listed.trans (sendCheckTimeout_still rest)
    · exact some.inj rest ▸ listed
  exact ⟨sent.1.trans last.settled, fun sends => (sent.2 sends).trans last.sidesteps⟩

theorem confpartEnd_beside {upd : Userlist.SftUpdate} {sftl : List Bytes}
    (ended : confpartEnd env cc upd sftl shouldStart = some cc') : Beside cc cc' :=
  Sidesteps.beside env ((confpartEnd_sidesteps ended).2 trivial)

theorem confpartStart_quiet
    (started : confpartStart env cc msg shouldStart = some cc') : Quiet cc cc' ∧ cc'.confpartData.isSome := by
  have kept : ∀ ts sn, Quiet cc { cc with
      receivedConfpart := true, confpartData := some (keepConfpartData msg), sftTimestamp := ts, sftSeqno := sn } :=
    fun _ _ => ⟨rfl, rfl, fun _ => rfl, rfl, .refl _, rfl, .of_eq rfl⟩
  unfold confpartStart at started
  simp only at started
  split at started
  · have sent := sendMsgI_quiet (.inl (by simp)) started
    exact ⟨(kept _ _).trans sent, sent.data rfl⟩
  · split at started
    · exact some.inj started ▸ ⟨kept _ _, rfl⟩
    · exact some.inj started ▸ ⟨kept _ _, rfl⟩

theorem confpartAlone_quiet {parts : Nat} : Quiet cc (confpartAlone cc parts) := by
  unfold confpartAlone
  split
  · exact quiet_of_eq rfl
  · split
    · exact tmrStart_quiet
    · exact .refl cc

theorem confpartStart_aside (started : confpartStart env cc msg shouldStart = some cc') : Aside cc cc' := by
  unfold confpartStart at started
  simp only at started
  split at started
  · refine Aside.trans ?_ (sendMsgI_aside started)
    exact aside_of_eq rfl
  · split at started
    · exact some.inj started ▸ aside_of_eq rfl
    · exact some.inj started ▸ aside_of_eq rfl

theorem confpartAlone_aside {parts : Nat} : Aside cc (confpartAlone cc parts) := by
  unfold confpartAlone
  split
  · exact aside_of_eq rfl
  · exact ite_aside tmrStart_aside

theorem confpartDuration_moves {first : Bool} : Moves env permit cc (confpartDuration env cc msg first) := by
  unfold confpartDuration
  split
  · simp only
    split
    · exact endWithErr_moves
    · exact tmrStart_quiet.moves
  · exact .refl

/-- No move takes back a draw or drops the data of a CONFPART. -/
theorem move_counts (move : Move env permit cc cc') :
    cc.draws ≤ cc'.draws ∧ (cc.confpartData.isSome → cc'.confpartData.isSome) := by
  cases move with
  | quiet quiet => exact ⟨quiet.draws.ge, quiet.data⟩
  | sendKeys sendToAll sent from_ =>
    obtain ⟨settled, data⟩ := sendKeys_settled sent
    exact ⟨settled.draws.ge, by rw [data]; exact id⟩
  | generate isFirst isKg proteus first generated permitted from_ =>
    obtain ⟨-, -, draws, data⟩ := generateSessionKey_kept generated
    exact ⟨by omega, by rw [data]; exact id⟩
  | _ => exact ⟨Nat.le_refl _, id⟩

theorem moves_counts (moves : Moves env permit cc cc') :
    cc.draws ≤ cc'.draws ∧ (cc.confpartData.isSome → cc'.confpartData.isSome) := by
  induction moves with
  | refl => exact ⟨Nat.le_refl _, id⟩
  | tail _ move ih =>
    obtain ⟨more, known⟩ := move_counts move
    exact ⟨ih.1.trans more, known ∘ ih.2⟩

/-- What a CONFPART does before its participants are taken. -/
theorem confpartHead_moves {started : Ccall} {first : Bool}
    (start : confpartStart env cc msg shouldStart = some started) :
    Moves env permit cc (confpartDuration env (confpartAlone started msg.partl.length) msg first) ∧
      (confpartDuration env (confpartAlone started msg.partl.length) msg first).confpartData.isSome := by
  obtain ⟨quiet, known⟩ := confpartStart_quiet start
  have late : Moves env permit (confpartAlone started msg.partl.length)
      (confpartDuration env (confpartAlone started msg.partl.length) msg first) := confpartDuration_moves
  exact ⟨(quiet.trans confpartAlone_quiet).moves.trans late, (moves_counts late).2 (confpartAlone_quiet.data known)⟩

/-- A CONFPART that generates keys does so in the state it leaves. -/
theorem confpartHandler_moves
    (generates : ∀ mid : Ccall, mid.state = cc'.state → cc'.isKg → cc.draws ≤ mid.draws → mid.draws < cc'.draws →
      permit.generates mid)
    (sends : permit.sends cc'.keystore) (handled : confpartHandler env cc ecall msg = some cc') :
    Moves env permit cc cc' := by
  unfold confpartHandler at handled
  split at handled
  · exact some.inj handled ▸ .refl
  · obtain ⟨started, start, handled⟩ := bind_eq_some_iff.mp handled
    obtain ⟨taken, take, ended⟩ := bind_eq_some_iff.mp handled
    obtain ⟨head, known⟩ := confpartHead_moves start
    obtain ⟨settled, last⟩ := confpartEnd_sidesteps ended
    have sends' : permit.sends taken.keystore := settled.keystore ▸ sends
    refine (head.trans (takePartlist_moves known ?_ sends' take)).trans (last sends').moves
    intro mid state isKg draws more
    refine generates mid (state.trans settled.state.symm) (settled.isKg.trans isKg) ?_ (settled.draws ▸ more)
    rw [draws]
    exact (moves_counts head).1

theorem setClients_sidesteps {clientl : List Client} {epoch : UInt32}
    (approves : permit.approves cc.userl (cc.userl.updateFromSelist env.hashUser clientl epoch cc.secret).list)
    (sends : permit.sends cc'.keystore)
    (set : setClients env cc clientl epoch = some cc') : Sidesteps env permit cc cc' := by
  obtain ⟨mid, called, rest⟩ := bind_eq_some_iff.mp set
  have others : ∀ call ∈ (cc.userl.updateFromSelist env.hashUser clientl epoch cc.secret).calls, Other call :=
    updateFromSelist_calls
  have updated : Sidesteps env permit cc mid := (ReflTransGen.single ⟨.updateFromSelist clientl epoch approves,
    users_beside updateFromSelist_someoneIn, fun _ => .refl _⟩).trans (userCalls_still others called).sidesteps
  generalize cc.userl.updateFromSelist env.hashUser clientl epoch cc.secret = upd at rest
  obtain ⟨keyed, sent, stopped⟩ := bind_eq_some_iff.mp rest
  have last := stopOthersRingingI_still stopped
  have told : Still mid (if upd.changed then mid.tell .groupChangedh else mid) := ite_still (tell_still rfl rfl rfl)
  generalize (if upd.changed then mid.tell .groupChangedh else mid) = late at told sent
  have marked : Still late { late with someoneLeft := true } := still_of_eq rfl rfl
  have left : Still mid (if upd.removed then { late with someoneLeft := true }.tmrStart .rotateKey else late) :=
    told.trans (ite_still (marked.trans (tmrStart_still rfl)))
  generalize (if upd.removed then { late with someoneLeft := true }.tmrStart .rotateKey else late) = later
    at left sent
  have ready : Sidesteps env permit cc later := updated.trans left.sidesteps
  split at sent
  · have kept : cc'.keystore = later.keystore := last.keystore.trans (sendKeys_settled sent).1.keystore
    exact (ready.tail (sendKeys_sidestep sent (kept ▸ sends))).trans last.sidesteps
  · obtain rfl := some.inj sent
    exact ready.trans last.sidesteps

theorem setClients_beside {clientl : List Client} {epoch : UInt32}
    (set : setClients env cc clientl epoch = some cc') : Beside cc cc' :=
  Sidesteps.beside env (setClients_sidesteps trivial trivial set)

theorem adopt_moves : Moves env permit cc (adopt env cc info) := by
  let taken : Ccall := { cc with
    primarySftUrl := some (copySft info.sftUrl), sftTuple := info.sftTuple, sftTimestamp := info.timestamp,
    sftSeqno := info.seqno, keystore := cc.keystore.reset }
  have quiet : Quiet { cc with keystore := cc.keystore.reset } taken := quiet_of_eq rfl
  have reset : Moves env permit cc taken := (ReflTransGen.single .reset).tail (.quiet quiet)
  have renamed : Moves env permit cc (setSecret env taken info.secret) := reset.tail (.setSecret info.secret rfl)
  refine (renamed.tail .resetKeygenerator).tail (.quiet ?_)
  exact quiet_of_eq rfl

theorem adopt_beside : Beside cc (adopt env cc info) := by
  refine beside_of_eq ?_ rfl
  simp only [course, adopt, setSecret]
  congr 1
  exact setSecret_someoneIn

theorem rejoin_moves : Moves env permit cc (rejoin env cc info) := by
  have dropped : Quiet (ecallEnd cc) { ecallEnd cc with ecall := none, sftl := info.sftl } :=
    quiet_of_eq rfl
  exact ((ecallEnd_still cc).quiet.trans dropped).moves.trans reqCfgJoin_moves

theorem comeIn_moves {shouldRing : Bool} : Moves env permit cc (comeIn cc userid clientid shouldRing) := by
  have ringing : Quiet cc { cc with isRinging := shouldRing } := quiet_of_eq rfl
  have told : Moves env permit cc
      ((setState { cc with isRinging := shouldRing } .incoming).tell (.starth userid clientid shouldRing)) :=
    (ringing.moves.trans (setState_moves .incoming)).tail (.quiet (tell_quiet rfl))
  exact told.tail (.quiet (ite_quiet tmrStart_quiet))

theorem takeSftl_still : Still cc (takeSftl cc order info) := ite_still (still_of_eq rfl rfl)

theorem stopRinging_quiet : Quiet cc (stopRinging cc) := by
  have told : Quiet cc ((cc.tmrCancel [.ring]).tell (.leaveh .stillOngoing)) :=
    (tmrCancel_quiet _).trans (tell_quiet rfl)
  exact told.trans (quiet_of_eq rfl)

theorem stopRinging_aside : Aside cc (stopRinging cc) := by
  have told : Aside cc ((cc.tmrCancel [.ring]).tell (.leaveh .stillOngoing)) :=
    (tmrCancel_aside _).trans (tell_aside rfl)
  exact told.trans (aside_of_eq rfl)

theorem confstartState_moves {rings : Bool}
    (handled : confstartState env cc userid clientid rings order info = some cc') : Moves env permit cc cc' := by
  have rejoined : Moves env permit cc (if order > 0 then rejoin env cc info else cc) := by
    split
    · exact rejoin_moves
    · exact .refl
  unfold confstartState at handled
  simp only at handled
  split at handled
  · exact some.inj handled ▸ comeIn_moves.tail (.quiet takeSftl_still.quiet)
  · cases handled
    exact (((ite_quiet stopRinging_quiet).trans tmrStart_quiet).trans takeSftl_still.quiet).moves
  all_goals first
    | exact some.inj handled ▸ rejoined
    | exact some.inj handled ▸ .refl
    | split at handled
      · exact some.inj handled ▸ rejoin_moves
      · split at handled
        · exact (sendMsgI_quiet (.inl (by simp)) handled).moves
        · exact some.inj handled ▸ .refl

theorem handleConfstartCheck_moves {isStart resp : Bool}
    (handled : handleConfstartCheck env cc userid clientid age isStart resp info = some cc') :
    Moves env permit cc cc' := by
  unfold handleConfstartCheck at handled
  split at handled
  · refine ReflTransGen.trans ?_ (confstartState_moves handled)
    split
    · exact adopt_moves
    · exact .refl
  · exact some.inj handled ▸ .refl

/-- The keys of a message are set one by one. -/
theorem receiveKeys_sidesteps : ∀ {cc : Ccall}, (∀ k ∈ keyl, permit.takes k.1 k.2) →
    receiveKeys env keyl cc = some cc' → Sidesteps env permit cc cc' := by
  induction keyl with
  | nil => exact fun _ received => some.inj received ▸ .refl
  | cons k rest ih =>
    intro cc takes received
    simp only [receiveKeys] at received
    split at received
    · simp at received
    · rename_i done set
      have taken : Sidesteps env permit cc { cc with keystore := done.ks } :=
        .single ⟨.setSessionKey k.1 k.2 (takes k (by simp)) set, beside_of_eq rfl rfl, fun valid =>
          setSessionKey_onward valid set⟩
      split at received
      · exact some.inj received ▸ taken
      · exact taken.trans (ih (fun k' member => takes k' (by simp [member])) received)

/-- Keys are taken from the key generator only. -/
theorem confKeyResp_sidesteps (takes : fromKg cc userid clientid → ∀ k ∈ keyl, permit.takes k.1 k.2)
    (handled : confKeyResp env cc userid clientid keyl = some cc') : Sidesteps env permit cc cc' := by
  unfold confKeyResp at handled
  split at handled
  · cases handled
    exact Still.sidesteps (still_of_eq rfl rfl)
  · split at handled
    · rename_i isFrom
      have salted : Sidesteps env permit cc
          { cc with keystore := (cc.keystore.setSalt (some cc.convidHash) cc.now).ks } :=
        .single ⟨.setSalt, beside_of_eq rfl rfl, setSalt_onward⟩
      exact salted.trans (receiveKeys_sidesteps (takes isFrom) handled)
    · exact some.inj handled ▸ .refl

theorem confKeyReq_sidesteps (sends : permit.sends cc'.keystore)
    (handled : confKeyReq env cc userid clientid = some cc') : Sidesteps env permit cc cc' := by
  unfold confKeyReq at handled
  split at handled
  · split at handled
    · exact some.inj handled ▸ .refl
    · rename_i u _
      split at handled
      · have asked : Sidesteps env permit cc
            { cc with userl := cc.userl.modify u.addr (fun u => { u with needsKey := true }) } :=
          .single ⟨.askKey u.addr, users_beside (modify_someoneIn (fun _ => rfl)), fun _ => .refl _⟩
        exact asked.tail (sendKeys_sidestep handled ((sendKeys_settled handled).1.keystore ▸ sends))
      · exact some.inj handled ▸ .refl
  · exact some.inj handled ▸ .refl

theorem confKeyResp_beside (handled : confKeyResp env cc userid clientid keyl = some cc') : Beside cc cc' :=
  Sidesteps.beside env (confKeyResp_sidesteps (fun _ _ _ => trivial) handled)

theorem confKeyReq_beside (handled : confKeyReq env cc userid clientid = some cc') : Beside cc cc' :=
  Sidesteps.beside env (confKeyReq_sidesteps trivial handled)

theorem rejectRecv_quiet : Quiet cc (rejectRecv cc userid) :=
  ite_quiet stopRinging_quiet

theorem rejectRecv_aside : Aside cc (rejectRecv cc userid) :=
  ite_aside stopRinging_aside

theorem confEndRecv_moves : Moves env permit cc (confEndRecv cc sessid) := by
  unfold confEndRecv
  split
  · split
    · exact (setState_moves .idle).tail (.quiet (tell_quiet rfl))
    · exact .refl
  · exact (ite_quiet tmrStart_quiet).moves
  · exact .refl

theorem ecallMsgRecv_quiet : Quiet cc (ecallMsgRecv cc) := by
  unfold ecallMsgRecv
  split
  · exact tell_quiet rfl
  · refine Quiet.trans ?_ (tell_quiet rfl)
    exact quiet_of_eq rfl

theorem setupUrls_still {url sftTuple : Option Bytes} : Still cc (setupUrls cc url sftTuple) := by
  unfold setupUrls
  split
  · exact .refl cc
  · exact still_of_eq rfl rfl

theorem sftMsgRecv_moves {msg : SftMsg} : Moves env permit cc (sftMsgRecv cc sessid msg) := by
  unfold sftMsgRecv
  split
  · exact .refl
  · split
    · exact .refl
    · exact Quiet.moves (quiet_of_eq rfl)
    · split
      · exact (setState_moves .setuprecv).tail (.quiet (setupUrls_still.quiet.trans ecallMsgRecv_quiet))
      · exact .refl
    · split
      · exact (setState_moves .setuprecv).tail (.quiet ecallMsgRecv_quiet)
      · exact .refl
    · exact ecallMsgRecv_quiet.moves

theorem mediaEstabHandler_moves : Moves env permit cc (mediaEstabHandler cc ecall) := by
  have asked : Quiet cc (if cc.isMlsCall then cc.tell .reqNewEpochh else cc) := ite_quiet (tell_quiet rfl)
  unfold mediaEstabHandler
  split
  · exact .refl
  · simp only
    generalize (if cc.isMlsCall then cc.tell .reqNewEpochh else cc) = mid at asked ⊢
    split
    · exact asked.moves
    · exact (asked.moves.trans (setState_moves .active)).tail (.incallClear true _)

theorem touch_modify {addr : Nat} {f : UserInfo → UserInfo} (addrs : ∀ u, (f u).addr = u.addr)
    (same : ∀ u, (f u).useridReal = u.useridReal ∧ (f u).clientidReal = u.clientidReal ∧
      (f u).seApproved = u.seApproved ∧ (f u).incallNow = u.incallNow ∧ (f u).needsKey = u.needsKey) :
    Alike list (list.modify addr f) := by
  refine ⟨rfl, rfl, ?_, ?_⟩
  · simp only [Userlist.modify, List.map_map]
    refine map_congr_left (fun u _ => ?_)
    simp only [Function.comp]
    split
    · exact addrs u
    · rfl
  · intro u' member
    obtain ⟨u, old, rfl⟩ := List.mem_map.mp member
    refine ⟨u, old, ?_⟩
    split
    · exact same u
    · exact ⟨rfl, rfl, rfl, rfl, rfl⟩

theorem muteUser_sidesteps {user : UserInfo} : Sidesteps env permit cc (muteUser cc user muted) := by
  unfold muteUser
  split
  · exact .refl
  · rename_i m
    split
    · exact .refl
    · have touched : Sidesteps env permit cc
          { cc with userl := cc.userl.modify user.addr (fun u => { u with muted := m }) } :=
        .single ⟨.touch (touch_modify (fun _ => rfl) (fun _ => ⟨rfl, rfl, rfl, rfl, rfl⟩)),
          users_beside (modify_someoneIn (fun _ => rfl)), fun _ => .refl _⟩
      exact touched.trans (tell_still rfl rfl rfl).sidesteps

theorem propsyncHandler_sidesteps {useridHash clientidHash : Bytes} {latestEpoch : UInt32}
    (handled : propsyncHandler cc useridHash clientidHash muted latestEpoch = some cc') :
    Sidesteps env permit cc cc' := by
  unfold propsyncHandler at handled
  split at handled
  · exact some.inj handled ▸ .refl
  · rename_i user _
    have moved : Sidesteps env permit cc (muteUser cc user muted) := muteUser_sidesteps
    simp only at handled
    split at handled
    · have epoch : Sidesteps env permit cc { muteUser cc user muted with
          userl := (muteUser cc user muted).userl.modify user.addr (fun u => { u with latestEpoch := latestEpoch }) } :=
        moved.tail ⟨.touch (touch_modify (fun _ => rfl) (fun _ => ⟨rfl, rfl, rfl, rfl, rfl⟩)),
          users_beside (modify_someoneIn (fun _ => rfl)), fun _ => .refl _⟩
      exact epoch.trans (syncMediaKeys_sidesteps handled)
    · exact some.inj handled ▸ moved

theorem closeCall_moves {shouldEnd : Bool} : Moves env permit cc (closeCall cc shouldEnd) := by
  have finished : ∀ {mid : Ccall}, Moves env permit cc mid →
      Moves env permit cc { mid with ecall := none, error := none } :=
    fun moves => moves.tail (.quiet (quiet_of_eq rfl))
  refine finished ?_
  split
  · refine (setState_moves .idle).tail (.quiet ?_)
    split
    · exact .refl _
    · exact tell_quiet rfl
  · split
    · exact tmrStart_quiet.moves
    · exact (setState_moves .incoming).tail (.quiet (tell_quiet rfl))

theorem closeHandler_moves {err : Option Errno} (closed : closeHandler env cc ecall err = some cc') :
    Moves env permit cc cc' := by
  have cleared : Moves env permit cc { cc with userl := cc.userl.resetKeygenerator } := .single .resetKeygenerator
  unfold closeHandler at closed
  split at closed
  · exact some.inj closed ▸ .refl
  · simp only at closed
    split at closed
    · cases closed
      refine ReflTransGen.trans (cleared.tail (.quiet ?_)) reconnect_moves
      exact quiet_of_eq rfl
    · obtain ⟨mid, ended, rfl⟩ := map_eq_some_iff.mp closed
      refine ReflTransGen.trans ((cleared.tail (.incallClear false false)).tail (.quiet ?_)) closeCall_moves
      split at ended
      · exact sendMsgI_quiet (.inl (by simp)) ended
      · exact some.inj ended ▸ .refl _

theorem sftRejectTimeout_moves : Moves env permit cc (sftRejectTimeout cc) := by
  unfold sftRejectTimeout
  split
  · simp only
    split
    · exact setState_moves .idle
    · exact (setState_moves .idle).tail (.quiet ((tell_quiet rfl).trans (ecallEnd_still _).quiet))
  · exact .refl

theorem decryptCheckTimeout_moves (checked : decryptCheckTimeout env cc = some cc') : Moves env permit cc cc' := by
  unfold decryptCheckTimeout at checked
  split at checked
  · exact some.inj checked ▸ .refl
  · split at checked
    · exact some.inj checked ▸ reconnect_moves
    · split at checked
      · exact some.inj checked ▸ tmrStart_quiet.moves
      · split at checked
        · exact some.inj checked ▸ .refl
        · split at checked
          · exact (requestKeysFrom_still checked).quiet.moves
          · exact some.inj checked ▸ .refl

theorem keepaliveTimeout_moves : Moves env permit cc (keepaliveTimeout env cc) := by
  have counted : Quiet cc { cc with expectedPing := cc.expectedPing + 1 } := quiet_of_eq rfl
  unfold keepaliveTimeout
  split
  · exact .refl
  · simp only
    split
    · exact counted.moves.trans reconnect_moves
    · exact (counted.trans tmrStart_quiet).moves

theorem aloneTimeout_moves : Moves env permit cc (aloneTimeout env cc) := by
  unfold aloneTimeout
  split
  · exact .refl
  · exact endWithErr_moves

theorem ongoingCallTimeout_moves : Moves env permit cc (ongoingCallTimeout cc) := by
  unfold ongoingCallTimeout
  split
  · exact (setState_moves .idle).tail (.quiet (tell_quiet rfl))
  · exact .refl

theorem stopRingingTimeout_quiet : Quiet cc (stopRingingTimeout cc) := by
  refine ite_quiet (Quiet.trans (tell_quiet (o := .leaveh .stillOngoing) rfl) ?_)
  exact quiet_of_eq rfl

theorem connectTimeout_moves : Moves env permit cc (connectTimeout env cc) := by
  unfold connectTimeout
  split
  · exact .refl
  · exact endWithErr_moves

theorem durtermTimeout_moves : Moves env permit cc (durtermTimeout cc) :=
  (setState_moves .idle).tail (.quiet (tell_quiet rfl))

theorem answer_moves : Moves env permit cc (answer env cc) := by
  have errorless : Quiet cc { cc with error := none } := quiet_of_eq rfl
  unfold answer
  simp only
  split
  · refine ReflTransGen.trans (errorless.moves.tail (.quiet ?_)) reqCfgJoin_moves
    exact quiet_of_eq rfl
  · exact errorless.moves

theorem start_moves {meeting : Bool} : Moves env permit cc (start env cc meeting) := by
  have errorless : Quiet cc { cc with error := none, meeting := meeting } := quiet_of_eq rfl
  unfold start
  simp only
  split
  · exact errorless.moves.trans answer_moves
  · refine ReflTransGen.trans (errorless.moves.tail (.quiet ?_)) reqCfgJoin_moves
    exact quiet_of_eq rfl
  · exact errorless.moves

theorem reject_still (rejected : reject env cc = some cc') : Still cc cc' := by
  unfold reject at rejected
  split at rejected
  · have reason : Still cc { cc with stopRingingReason := .rejected } := still_of_eq rfl rfl
    exact reason.trans (stopOthersRinging_still rejected)
  · exact some.inj rejected ▸ .refl cc

theorem setBackground_still {background : Bool} : Still cc (setBackground cc background) := by
  unfold setBackground
  split
  · split
    · exact tmrCancel_still cc rfl
    · exact tmrStart_still rfl
  · exact .refl cc

theorem setMediaKey_sidesteps {epochid : UInt32} {key : Bytes} (takes : cc.isMlsCall = true → permit.takes epochid key)
    (set : setMediaKey env cc epochid key = some cc') : Sidesteps env permit cc cc' := by
  unfold setMediaKey at set
  split at set
  · exact some.inj set ▸ .refl
  · rename_i mls
    split at set
    · simp at set
    · rename_i done stored
      have taken : Sidesteps env permit cc { cc with keystore := done.ks } :=
        .single ⟨.setSessionKey epochid key (takes (by simpa using mls)) stored, beside_of_eq rfl rfl, fun valid =>
          setSessionKey_onward valid stored⟩
      simp only at set
      split at set
      · exact some.inj set ▸ taken
      · obtain ⟨mid, synced, rotated⟩ := bind_eq_some_iff.mp set
        have alike : Alike cc.userl (cc.userl.setLatestEpoch epochid) :=
          ⟨rfl, rfl, rfl, fun u member => ⟨u, member, rfl, rfl, rfl, rfl, rfl⟩⟩
        have touched : Sidesteps env permit cc
            { cc with keystore := done.ks, userl := cc.userl.setLatestEpoch epochid } :=
          taken.tail ⟨.touch alike, beside_of_eq rfl rfl, fun _ => .refl _⟩
        refine ReflTransGen.trans (touched.trans (Still.sidesteps ?_))
          ((syncMediaKeys_sidesteps synced).trans (rotateMlsTimeout_sidesteps rotated))
        exact still_of_eq rfl rfl

/-- What an event may do, given the state it leaves: only a CONFKEY response of the key generator and the application
    bring session keys, and only the application approved clients; keys are generated by the key generator, in the state
    the event leaves, and sent from the keystore it leaves. -/
def permitted (env : Env) (event : CcallEvent) (cc cc' : Ccall) : Permit where
  takes index key := match event with
    | .msgRecv userid clientid _ (.confKey true keyl) => (index, key) ∈ keyl ∧ fromKg cc userid clientid
    | .setMediaKey epochid media => cc.isMlsCall = true ∧ index = epochid ∧ key = media
    | _ => False
  approves list list' := match event with
    | .setClients clientl epoch =>
      list = cc.userl ∧ list' = (cc.userl.updateFromSelist env.hashUser clientl epoch cc.secret).list
    | _ => False
  generates mid := mid.state = cc'.state ∧ cc'.isKg ∧ cc.draws ≤ mid.draws ∧ mid.draws < cc'.draws
  sends ks := ks = cc'.keystore

theorem msgRecv_moves {msg : Message}
    (takes : ∀ keyl, msg = .confKey true keyl → fromKg cc userid clientid → ∀ k ∈ keyl, permit.takes k.1 k.2)
    (sends : permit.sends cc'.keystore) (received : msgRecv env cc userid clientid age msg = some cc') :
    Moves env permit cc cc' := by
  match msg with
  | .confStart resp info => exact handleConfstartCheck_moves received
  | .confCheck resp info => exact handleConfstartCheck_moves received
  | .confEnd resp sessid => exact some.inj received ▸ confEndRecv_moves
  | .confKey true keyl => exact (confKeyResp_sidesteps (takes keyl rfl) received).moves
  | .confKey false keyl => exact (confKeyReq_sidesteps sends received).moves
  | .reject resp => exact some.inj received ▸ rejectRecv_quiet.moves

/-- Of the timers only the one for the rotation generates keys. -/
theorem fire_moves {t : CcallTimer}
    (generates : t = .rotateKey → ∀ mid : Ccall, mid.state = cc'.state → cc'.isKg → mid.draws = cc.draws →
      mid.draws < cc'.draws → permit.generates mid)
    (sends : permit.sends cc'.keystore) (fired : fire env cc t = some cc') : Moves env permit cc cc' := by
  cases t with
  | connect => exact some.inj fired ▸ connectTimeout_moves
  | sendCheck => exact (sendCheckTimeout_still fired).quiet.moves
  | ongoing => exact some.inj fired ▸ ongoingCallTimeout_moves
  | rotateKey => exact (rotateKeyTimeout_sidesteps (generates rfl) sends fired).moves
  | rotateMls => exact (rotateMlsTimeout_sidesteps fired).moves
  | ring => exact some.inj fired ▸ stopRingingTimeout_quiet.moves
  | sftReject => exact some.inj fired ▸ sftRejectTimeout_moves
  | decryptCheck => exact decryptCheckTimeout_moves fired
  | keepalive => exact some.inj fired ▸ keepaliveTimeout_moves
  | alone => exact some.inj fired ▸ aloneTimeout_moves
  | duration => exact some.inj fired ▸ endWithErr_moves
  | term => exact some.inj fired ▸ durtermTimeout_moves

/-- The events in which keys may be generated. -/
def Generating : CcallEvent → Prop
  | .confpart _ _ => True
  | .timer .rotateKey => True
  | _ => False

/-- A permit that leaves room for an event. -/
structure Allows (env : Env) (event : CcallEvent) (cc cc' : Ccall) (permit : Permit) : Prop where
  takes : ∀ index key, (permitted env event cc cc').takes index key → permit.takes index key
  approves : ∀ list list', (permitted env event cc cc').approves list list' → permit.approves list list'
  generates : Generating event → ∀ mid, (permitted env event cc cc').generates mid → permit.generates mid
  sends : permit.sends cc'.keystore

/-- An event is a sequence of moves that any permit with room for it allows. -/
theorem event_moves (allows : Allows env event cc cc' permit)
    (stepped : step env event cc = some cc') : Moves env permit cc cc' := by
  cases event with
  | start meeting => exact some.inj stepped ▸ start_moves
  | answer => exact some.inj stepped ▸ answer_moves
  | end_ => exact some.inj stepped ▸ (ecallEnd_still cc).quiet.moves
  | reject => exact (reject_still stepped).quiet.moves
  | setClients clientl epoch => exact (setClients_sidesteps (allows.approves _ _ ⟨rfl, rfl⟩) allows.sends stepped).moves
  | setMediaKey epochid key => exact (setMediaKey_sidesteps (fun mls => allows.takes _ _ ⟨mls, rfl, rfl⟩) stepped).moves
  | setDuration duration =>
    cases stepped
    exact Quiet.moves (quiet_of_eq rfl)
  | setBackground background => exact some.inj stepped ▸ setBackground_still.quiet.moves
  | config cfg =>
    have configured : Quiet cc { cc with cfg := cfg } := quiet_of_eq rfl
    simp only [step] at stepped
    split at stepped
    · exact some.inj stepped ▸ configured.moves
    · exact configured.moves.trans (configUpdateHandler_moves stepped)
  | msgRecv userid clientid age msg =>
    refine msgRecv_moves ?_ allows.sends stepped
    rintro keyl rfl isFrom k member
    exact allows.takes k.1 k.2 ⟨member, isFrom⟩
  | sftNetworkError => exact some.inj stepped ▸ endWithErr_moves
  | sftMsgRecv msg =>
    match msg with
    | none =>
      simp only [step, some.injEq] at stepped
      subst stepped
      split
      · exact setState_moves .waitnetwork
      · exact .refl
    | some (sessid, msg) => exact some.inj stepped ▸ sftMsgRecv_moves
  | transpSend msg =>
    exact some.inj (ite_none_left_eq_some.mp stepped).2 ▸ sendMsgSft_moves
  | datachanEstab =>
    refine some.inj (ite_none_left_eq_some.mp stepped).2 ▸ ?_
    split
    · exact setState_moves .connected
    · exact .refl
  | mediaEstab ecall =>
    exact some.inj (ite_none_right_eq_some.mp stepped).2 ▸ mediaEstabHandler_moves
  | ping =>
    refine some.inj (ite_none_left_eq_some.mp stepped).2 ▸ Quiet.moves ?_
    exact quiet_of_eq rfl
  | confpart ecall msg =>
    refine confpartHandler_moves ?_ allows.sends (ite_none_right_eq_some.mp stepped).2
    exact fun mid state isKg less more => allows.generates trivial mid ⟨state, isKg, less, more⟩
  | propsync useridHash clientidHash muted latestEpoch =>
    exact (propsyncHandler_sidesteps (ite_none_left_eq_some.mp stepped).2).moves
  | closed ecall err => exact closeHandler_moves (ite_none_right_eq_some.mp stepped).2
  | lookup index =>
    obtain ⟨found, looked, rfl⟩ := map_eq_some_iff.mp stepped
    exact .single (.getMediaKey index looked)
  | decryptAttempted =>
    cases stepped
    exact Quiet.moves ⟨rfl, rfl, id, rfl, ⟨rfl, rfl, rfl, rfl, rfl, rfl⟩, rfl, .of_eq rfl⟩
  | decryptSuccessful =>
    cases stepped
    exact Quiet.moves ⟨rfl, rfl, id, rfl, ⟨rfl, rfl, rfl, rfl, rfl, rfl⟩, rfl, .of_eq rfl⟩
  | timer t =>
    have fired := (ite_none_right_eq_some.mp stepped).2
    refine (tmrCancel_quiet [t]).moves.trans (fire_moves ?_ allows.sends fired)
    rintro rfl mid state isKg draws more
    exact allows.generates trivial mid ⟨state, isKg, draws.ge, more⟩
  | tick now =>
    cases stepped
    exact Quiet.moves (quiet_of_eq rfl)

/-- An event makes the moves it is permitted, and no others. -/
theorem step_moves (stepped : step env event cc = some cc') : Moves env (permitted env event cc cc') cc cc' :=
  event_moves ⟨fun _ _ => id, fun _ _ => id, fun _ _ => id, rfl⟩ stepped

end

end Avs.Ccall
