import Avs.CallCourse
import Avs.KeyRetention
import Mathlib.Logic.Relation

/-!
What a conference call can do to its keys and its users, as moves: most of them are quiet, the others are the
calls of the keystore and of the user list, each with the check that guards it. What leaves the course of the call
alone as well is a sidestep.
-/
namespace Avs.Ccall
open List Option Keystore Userlist
open Relation (ReflTransGen)

/-- The keystores differ in their flags and clock only. -/
structure KeysKept (ks ks' : Keystore) : Prop where
  keyl : ks'.keyl = ks.keyl
  current : ks'.current = ks.current
  init : ks'.init = ks.init
  salt : ks'.salt = ks.salt
  nextAddr : ks'.nextAddr = ks.nextAddr
  hashForward : ks'.hashForward = ks.hashForward

theorem KeysKept.refl (ks : Keystore) : KeysKept ks ks := ⟨rfl, rfl, rfl, rfl, rfl, rfl⟩

theorem KeysKept.trans {a b c : Keystore} (first : KeysKept a b) (second : KeysKept b c) : KeysKept a c where
  keyl := second.keyl.trans first.keyl
  current := second.current.trans first.current
  init := second.init.trans first.init
  salt := second.salt.trans first.salt
  nextAddr := second.nextAddr.trans first.nextAddr
  hashForward := second.hashForward.trans first.hashForward

def keySent : Output → Bool
  | .send (.confKey true _) _ _ _ => true
  | _ => false

/-- Nothing changed that keys and users depend on, and no keys were sent. -/
structure Quiet (cc cc' : Ccall) : Prop where
  mls : cc'.isMlsCall = cc.isMlsCall
  hash : cc'.convidHash = cc.convidHash
  data : cc.confpartData.isSome → cc'.confpartData.isSome
  users : cc'.userl = cc.userl
  keys : KeysKept cc.keystore cc'.keystore
  draws : cc'.draws = cc.draws
  sent : Adds keySent cc cc'

theorem Quiet.refl (cc : Ccall) : Quiet cc cc := ⟨rfl, rfl, id, rfl, .refl _, rfl, .of_eq rfl⟩

variable {cc : Ccall} {a b c cc' : Ccall} {env : Env} {o : Output} {t : CcallTimer}

theorem Quiet.trans (first : Quiet a b) (second : Quiet b c) : Quiet a c :=
  ⟨second.mls.trans first.mls, second.hash.trans first.hash, second.data ∘ first.data, second.users.trans first.users,
    first.keys.trans second.keys, second.draws.trans first.draws, first.sent.trans second.sent⟩

/-- What keys and users depend on. -/
def base (cc : Ccall) : Bool × Bytes × Option Bytes × Userlist × Keystore × Nat × List Output :=
  (cc.isMlsCall, cc.convidHash, cc.confpartData, cc.userl, cc.keystore, cc.draws, cc.out)

theorem quiet_of_eq (same : cc'.base = cc.base) : Quiet cc cc' := by
  simp only [base, Prod.mk.injEq] at same
  obtain ⟨mls, hash, data, users, keys, draws, out⟩ := same
  exact ⟨mls, hash, by rw [data]; exact id, users, keys ▸ .refl _, draws, .of_eq out⟩

theorem tell_quiet (other : keySent o = false) : Quiet cc (cc.tell o) :=
  ⟨rfl, rfl, id, rfl, .refl _, rfl, adds_tell other⟩

theorem tmrStart_quiet : Quiet cc (cc.tmrStart t) := quiet_of_eq rfl

theorem tmrCancel_quiet (ts : List CcallTimer) : Quiet cc (cc.tmrCancel ts) := quiet_of_eq rfl

theorem ite_quiet {p : Prop} [Decidable p] (quiet : Quiet a b) : Quiet a (if p then b else a) := by
  split
  · exact quiet
  · exact .refl a

/-- Quiet, with the keystore and the course as they were. -/
structure Still (cc cc' : Ccall) : Prop where
  quiet : Quiet cc cc'
  keystore : cc'.keystore = cc.keystore
  beside : Beside cc cc'

theorem Still.refl (cc : Ccall) : Still cc cc := ⟨.refl cc, rfl, .refl cc⟩

theorem Still.trans (first : Still a b) (second : Still b c) : Still a c :=
  ⟨first.quiet.trans second.quiet, second.keystore.trans first.keystore, first.beside.trans second.beside⟩

theorem still_of_eq (same : cc'.base = cc.base) (course : cc'.course = cc.course) : Still cc cc' :=
  ⟨quiet_of_eq same, congrArg (·.2.2.2.2.1) same, beside_of_eq course (congrArg (·.2.2.2.2.2.2) same)⟩

theorem tell_still (keyless : keySent o = false) (other : forward o = false) (plain : notable o = false) :
    Still cc (cc.tell o) :=
  ⟨tell_quiet keyless, rfl, tell_beside other plain⟩

theorem tmrStart_still (other : watched t = false) : Still cc (cc.tmrStart t) :=
  ⟨tmrStart_quiet, rfl, tmrStart_beside other⟩

theorem tmrCancel_still (cc : Ccall) {ts : List CcallTimer} (others : ts.any watched = false) :
    Still cc (cc.tmrCancel ts) :=
  ⟨tmrCancel_quiet ts, rfl, tmrCancel_beside cc others⟩

theorem ite_still {p : Prop} [Decidable p] (still : Still a b) : Still a (if p then b else a) := by
  split
  · exact still
  · exact .refl a

/-- The users differ in what neither keys nor messages depend on. -/
def Alike (list list' : Userlist) : Prop :=
  list'.keygenerator = list.keygenerator ∧ list'.nextAddr = list.nextAddr ∧
    list'.users.map (·.addr) = list.users.map (·.addr) ∧
      ∀ u' ∈ list'.users, ∃ u ∈ list.users, u'.useridReal = u.useridReal ∧
    u'.clientidReal = u.clientidReal ∧ u'.seApproved = u.seApproved ∧ u'.incallNow = u.incallNow ∧
    u'.needsKey = u.needsKey

/-- What an event may do: the session keys it may bring from outside, the lists of approved clients it may take, the
    states in which it may generate a key, and the keystores from which it may send keys. -/
structure Permit where
  takes : UInt32 → Bytes → Prop
  approves : Userlist → Userlist → Prop
  generates : Ccall → Prop
  sends : Keystore → Prop

def Permit.any : Permit := ⟨fun _ _ => True, fun _ _ => True, fun _ => True, fun _ => True⟩

/-- One call of the keystore or of the user list. -/
inductive Move (env : Env) (permit : Permit) (cc : Ccall) : Ccall → Prop
  | quiet {cc' : Ccall} (quiet : Quiet cc cc') : Move env permit cc cc'
  | resetKeygenerator : Move env permit cc { cc with userl := cc.userl.resetKeygenerator }
  | reset : Move env permit cc { cc with keystore := cc.keystore.reset }
  | resetKeys : Move env permit cc { cc with keystore := cc.keystore.resetKeys }
  | setSecret (secret : Bytes) (empty : cc.keystore.keyl = []) : Move env permit cc (setSecret env cc secret)
  | incallClear (forceDecoder again : Bool) :
      Move env permit cc { cc with userl := cc.userl.incallClear forceDecoder again }
  | updateFromSftlist (partl : List Part) (known : cc.confpartData.isSome) :
      Move env permit cc { cc with userl := (cc.userl.updateBeforeSort partl false).list }
  | sort : Move env permit cc { cc with userl := cc.userl.sort }
  | updateFromSelist (clientl : List Client) (epoch : UInt32)
      (approves : permit.approves cc.userl (cc.userl.updateFromSelist env.hashUser clientl epoch cc.secret).list) :
      Move env permit cc { cc with userl := (cc.userl.updateFromSelist env.hashUser clientl epoch cc.secret).list }
  | touch {list : Userlist} (alike : Alike cc.userl list) : Move env permit cc { cc with userl := list }
  | askKey (addr : Nat) :
      Move env permit cc { cc with userl := cc.userl.modify addr (fun u => { u with needsKey := true }) }
  | sendKeys {cc' : Ccall} (sendToAll : Bool) (sent : sendKeys env cc sendToAll = some cc')
      (from_ : permit.sends cc.keystore) : Move env permit cc cc'
  | generate {cc' : Ccall} (isFirst : Bool) (isKg : cc.isKg) (proteus : cc.isMlsCall = false)
      (first : isFirst → cc.keystore.current = none) (generated : generateSessionKey env cc isFirst = some cc')
      (permitted : permit.generates cc) (from_ : permit.sends cc'.keystore) : Move env permit cc cc'
  | setSalt : Move env permit cc { cc with keystore := (cc.keystore.setSalt (some cc.convidHash) cc.now).ks }
  | setSessionKey {done : Keystore.Done} (index : UInt32) (key : Bytes) (takes : permit.takes index key)
      (set : cc.keystore.setSessionKey env.hkdf cc.now index key = some done) :
      Move env permit cc { cc with keystore := done.ks }
  | rotate {done : Keystore.Done} (isKg : cc.isKg) (proteus : cc.isMlsCall = false)
      (rotated : cc.keystore.rotate env.hkdf (fun _ => cc.now) = some done) :
      Move env permit cc { cc with keystore := done.ks }
  | getMediaKey {found : Keystore × Except Errno Bytes} (index : UInt32)
      (looked : cc.keystore.getMediaKey env.hkdf (fun _ => cc.now) index sessionKeySize = some found) :
      Move env permit cc { cc with keystore := found.1 }
  | setCurrent {curr : UInt32} {ts : UInt64} (index : UInt32) (at_ : cc.keystore.getCurrent = some (.ok (curr, ts)))
      (ahead : curr < index) : Move env permit cc { cc with keystore := (cc.keystore.setCurrent index).ks }
  | rotateByTime {done : Keystore.Done} {more : Bool} (minTs : UInt64) (mls : cc.isMlsCall = true)
      (rotated : cc.keystore.rotateByTime minTs = some (done, more)) :
      Move env permit cc { cc with keystore := done.ks }

abbrev Moves (env : Env) (permit : Permit) : Ccall → Ccall → Prop := ReflTransGen (Move env permit)

/-- A move that leaves the course alone and does not move the current key back. -/
structure Sidestep (env : Env) (permit : Permit) (cc cc' : Ccall) : Prop where
  move : Move env permit cc cc'
  beside : Beside cc cc'
  onward : cc.keystore.Valid → cc.keystore.Onward cc'.keystore

abbrev Sidesteps (env : Env) (permit : Permit) : Ccall → Ccall → Prop := ReflTransGen (Sidestep env permit)

variable {permit : Permit}

theorem Quiet.moves (quiet : Quiet cc cc') : Moves env permit cc cc' :=
  .single (.quiet quiet)

theorem Still.sidesteps (still : Still cc cc') : Sidesteps env permit cc cc' :=
  .single ⟨.quiet still.quiet, still.beside, fun _ => still.keystore ▸ .refl _⟩

theorem Sidesteps.moves (sidesteps : Sidesteps env permit cc cc') : Moves env permit cc cc' :=
  sidesteps.lift id (fun _ _ sidestep => sidestep.move)

theorem Sidesteps.beside (env : Env) (sidesteps : Sidesteps env .any cc cc') : Beside cc cc' := by
  induction sidesteps with
  | refl => exact .refl cc
  | tail _ sidestep ih => exact ih.trans sidestep.beside

section
theorem enter_moves {state : CcallState} : Moves env permit cc (enter cc state) := by
  have kg : Moves env permit cc { cc with userl := cc.userl.resetKeygenerator } := .single .resetKeygenerator
  cases state with
  | idle =>
    have fresh : Moves env permit cc { cc with userl := cc.userl.resetKeygenerator, keystore := cc.keystore.reset } :=
      kg.tail .reset
    refine fresh.tail (.quiet ?_)
    exact quiet_of_eq rfl
  | incoming | waitconfig | waitconfigOutgoing =>
    have dropped : Moves env permit cc
        { cc with userl := cc.userl.resetKeygenerator, keystore := cc.keystore.resetKeys } := kg.tail .resetKeys
    refine dropped.tail (.quiet ?_)
    exact quiet_of_eq rfl
  | connsent =>
    have dropped : Moves env permit cc { cc with keystore := cc.keystore.resetKeys } := .single .resetKeys
    by_cases fresh : (!cc.isMlsCall && cc.reconnectAttempts = 0) = true
    · simp only [enter, fresh, if_true]
      refine dropped.tail (.quiet ?_)
      exact quiet_of_eq rfl
    · simp only [enter, fresh, if_false, Bool.false_eq_true]
      refine Quiet.moves ?_
      exact quiet_of_eq rfl
  | active =>
    have pinged : Quiet cc { cc with expectedPing := 0 } := quiet_of_eq rfl
    have timed : Quiet cc (((({ cc with expectedPing := 0 }).tmrCancel [.connect]).tmrStart .decryptCheck).tmrStart
        .keepalive) := ((pinged.trans (tmrCancel_quiet _)).trans tmrStart_quiet).trans tmrStart_quiet
    refine Quiet.moves ?_
    unfold enter
    simp only
    split
    · exact timed.trans tmrStart_quiet
    · exact timed
  | connected | terminating => exact (tmrCancel_quiet _).moves
  | setuprecv | connecting | waitnetwork => exact .refl

theorem setState_moves (state : CcallState) : Moves env permit cc (setState cc state) := by
  have set : Quiet cc { cc with state := state } := quiet_of_eq rfl
  have entered : Moves env permit cc (enter { cc with state := state } state) := set.moves.trans enter_moves
  unfold setState
  split
  · exact entered.tail (.quiet (tell_quiet rfl))
  · exact entered

theorem enter_aside (cc : Ccall) (state : CcallState) : Aside cc (enter cc state) := by
  cases state with
  | idle | incoming | waitconfig | waitconfigOutgoing => exact aside_of_eq rfl
  | connsent =>
    by_cases fresh : (!cc.isMlsCall && decide (cc.reconnectAttempts = 0)) = true
    · simp only [enter, fresh, if_true]
      exact aside_of_eq rfl
    · simp only [enter, fresh, if_false, Bool.false_eq_true]
      exact aside_of_eq rfl
  | active =>
    have pinged : Aside cc { cc with expectedPing := 0 } := aside_of_eq rfl
    have timed : Aside cc (((({ cc with expectedPing := 0 }).tmrCancel [.connect]).tmrStart .decryptCheck).tmrStart
        .keepalive) := ((pinged.trans (tmrCancel_aside _)).trans tmrStart_aside).trans tmrStart_aside
    unfold enter
    simp only
    split
    · exact timed.trans tmrStart_aside
    · exact timed
  | connected | terminating => exact tmrCancel_aside _
  | setuprecv | connecting | waitnetwork => exact .refl cc

theorem setState_aside (cc : Ccall) (state : CcallState) : Aside { cc with state := state } (setState cc state) := by
  have entered := enter_aside { cc with state := state } state
  unfold setState
  simp only
  split
  · exact entered.trans (tell_aside rfl)
  · exact entered

variable {type : MsgType} {resp mine sendToAll isFirst : Bool} {targets : Option (List Target)} {err : Errno}
  {je : JoinElem} {kg : UserInfo} {first : Option Nat} {partl : List Part} {list : Userlist} {secret : Bytes}
  {epoch : UInt32} {prev : Option UserRef} {clientl : List Client}

theorem allocMessage_made {msg : Message} (made : allocMessage cc type resp = some (.ok msg)) {err : Option Errno} :
    (keySent (.send msg targets mine err) = true → type = .confKey ∧ resp = true) ∧
      (notable (.send msg targets mine err) = true → type = .confEnd) := by
  cases type with
  | confEnd | reject =>
    cases made
    simp [keySent, notable]
  | confStart | confCheck =>
    simp only [allocMessage, confInfo, some.injEq] at made
    split at made
    · simp [Except.map] at made
    · cases made
      simp [keySent, notable]
  | confKey =>
    simp only [allocMessage] at made
    split at made
    · simp at made
    · split at made
      · obtain ⟨keys, -, made⟩ := map_eq_some_iff.mp made
        cases keys with
        | error _ => cases made
        | ok _ =>
          cases made
          simp_all [keySent, notable]
      · cases made
        simp [keySent, notable]

theorem sendMsgI_aside (sent : sendMsgI env cc type resp targets mine = some cc') : Aside cc cc' := by
  obtain ⟨made, -, rfl⟩ := map_eq_some_iff.mp sent
  cases made with
  | error err => exact .refl cc
  | ok msg => exact tell_aside rfl

theorem sendMsgI_quiet (keyless : type ≠ .confKey ∨ resp = false)
    (sent : sendMsgI env cc type resp targets mine = some cc') : Quiet cc cc' := by
  obtain ⟨made, allocated, rfl⟩ := map_eq_some_iff.mp sent
  cases made with
  | error err => exact .refl cc
  | ok msg =>
    refine tell_quiet (Bool.eq_false_iff.mpr fun keyed => ?_)
    obtain ⟨key, answer⟩ := (allocMessage_made allocated).1 keyed
    simp [key, answer] at keyless

theorem sendMsgI_still (keyless : type ≠ .confKey ∨ resp = false) (other : type ≠ .confEnd)
    (sent : sendMsgI env cc type resp targets mine = some cc') : Still cc cc' := by
  have quiet := sendMsgI_quiet keyless sent
  obtain ⟨made, allocated, rfl⟩ := map_eq_some_iff.mp sent
  cases made with
  | error err => exact .refl cc
  | ok msg =>
    refine ⟨quiet, rfl, tell_beside rfl (Bool.eq_false_iff.mpr fun marked => ?_)⟩
    exact other ((allocMessage_made allocated).2 marked)

/-- The state, the keys and the key generator stay as they are. -/
structure Settled (cc cc' : Ccall) : Prop where
  state : cc'.state = cc.state
  keystore : cc'.keystore = cc.keystore
  keygenerator : cc'.userl.keygenerator = cc.userl.keygenerator
  draws : cc'.draws = cc.draws

theorem Settled.refl (cc : Ccall) : Settled cc cc := ⟨rfl, rfl, rfl, rfl⟩

theorem Settled.trans (first : Settled a b) (second : Settled b c) : Settled a c :=
  ⟨second.state.trans first.state, second.keystore.trans first.keystore,
    second.keygenerator.trans first.keygenerator, second.draws.trans first.draws⟩

theorem Settled.isKg (settled : Settled a b) : b.isKg = a.isKg := by
  simp only [Ccall.isKg, isKeygeneratorMe, settled.keygenerator]

theorem Still.settled (still : Still a b) : Settled a b :=
  ⟨still.beside.aside.state, still.keystore, congrArg (·.keygenerator) still.quiet.users, still.quiet.draws⟩

theorem sendMsgSft_moves {sftUrl : Option Bytes} {msg : SftMessage} :
    Moves env permit cc (sendMsgSft env cc sftUrl msg).1 := by
  unfold sendMsgSft
  split
  · exact .refl
  · simp only
    split
    · exact (tell_quiet rfl).moves.trans (setState_moves .connecting)
    · exact (tell_quiet rfl).moves

theorem sendConfConn_moves {sftUrl : Bytes} {sfti : Option SftServer} {update : Bool} :
    Moves env permit cc (sendConfConn env cc sftUrl sfti update).1 :=
  sendMsgSft_moves

theorem ecallEnd_still (cc : Ccall) : Still cc (ecallEnd cc) := by
  unfold ecallEnd
  split
  · exact .refl cc
  · exact tell_still rfl rfl rfl

theorem endWithErr_moves : Moves env permit cc (endWithErr env cc err) := by
  have error : Moves env permit cc { cc with error := some err } :=
    Quiet.moves (quiet_of_eq rfl)
  have ended : ∀ {mid : Ccall}, Moves env permit cc mid → Moves env permit cc
      (if mid.ecall.isSome ∧ env.hasEconn mid.out.length then ecallEnd mid else setState mid .idle) := by
    intro mid moves
    split
    · exact moves.tail (.quiet (ecallEnd_still mid).quiet)
    · exact moves.trans (setState_moves .idle)
  have cleared : ∀ {mid : Ccall}, Moves env permit cc mid →
      Moves env permit cc { mid with userl := mid.userl.incallClear false false } :=
    fun moves => moves.tail (.incallClear false false)
  have told : ∀ {mid : Ccall} {reason : Reason}, Moves env permit cc mid →
      Moves env permit cc (mid.tell (.leaveh reason)) :=
    fun moves => moves.tail (.quiet (tell_quiet rfl))
  unfold endWithErr
  refine ended (cleared ?_)
  simp only
  split
  · exact error.trans (setState_moves .idle)
  all_goals first
    | exact told (error.trans (setState_moves .idle))
    | exact error
    | split
      · exact told (error.trans (setState_moves .terminating))
      · exact error.trans (setState_moves .terminating)

theorem Aside.move (aside : Aside a b) (state : CcallState) :
    Aside { a with state := state } { b with state := state } :=
  ⟨rfl, aside.je, aside.ecall, aside.error, aside.out⟩

/-- The call ended with an error: it is idle, or its inner call is closing. -/
def Closing (cc : Ccall) (err : Errno) (cc' : Ccall) : Prop :=
  ∃ state, (state = .idle ∨ state = .terminating) ∧ Aside { cc with state := state, error := some err } cc'

theorem Closing.trans {mid : Ccall} (closing : Closing cc err mid) (aside : Aside mid cc') : Closing cc err cc' := by
  obtain ⟨state, closed, first⟩ := closing
  exact ⟨state, closed, first.trans aside⟩

theorem endWithErr_closing : Closing cc err (endWithErr env cc err) := by
  have ended : ∀ {mid : Ccall}, Closing cc err mid → Closing cc err
      (if mid.ecall.isSome ∧ env.hasEconn mid.out.length then ecallEnd mid else setState mid .idle) := by
    rintro mid ⟨state, closed, aside⟩
    split
    · exact ⟨state, closed, aside.trans (ecallEnd_still mid).beside.aside⟩
    · exact ⟨.idle, .inl rfl, (aside.move .idle).trans (setState_aside mid .idle)⟩
  have cleared : ∀ {mid : Ccall}, Closing cc err mid →
      Closing cc err { mid with userl := mid.userl.incallClear false false } :=
    fun closing => closing.trans (aside_of_eq rfl)
  have idle : Closing cc err (setState { cc with error := some err } .idle) :=
    ⟨.idle, .inl rfl, setState_aside { cc with error := some err } .idle⟩
  have terminating : Closing cc err (setState { cc with error := some err } .terminating) :=
    ⟨.terminating, .inr rfl, setState_aside { cc with error := some err } .terminating⟩
  unfold endWithErr
  refine ended (cleared ?_)
  simp only
  split
  · exact idle
  all_goals first
    | exact idle.trans (tell_aside rfl)
    | next known => exact ⟨.terminating, .inr rfl, known, rfl, rfl, rfl, .of_eq rfl⟩
    | exact terminating.trans (ite_aside (tell_aside rfl))

theorem reconnect_moves {again : Bool} : Moves env permit cc (reconnect env cc again) := by
  unfold reconnect
  split
  · exact .refl
  · split
    · exact endWithErr_moves.tail (.quiet (tell_quiet rfl))
    · have counted : Quiet cc { cc with reconnectAttempts := cc.reconnectAttempts + 1, expectedPing := 0 } :=
        quiet_of_eq rfl
      have cleared : Moves env permit cc { cc with
          reconnectAttempts := cc.reconnectAttempts + 1, expectedPing := 0,
          userl := cc.userl.incallClear true again } := counted.moves.tail (.incallClear true again)
      simp only
      split
      · exact cleared.trans (setState_moves .connsent)
      · exact (cleared.trans (setState_moves .connsent)).trans sendConfConn_moves

theorem stopOthersRingingI_still (stopped : stopOthersRingingI env cc = some cc') : Still cc cc' := by
  have cleared : Still cc { cc with stopRingingReason := .none } := still_of_eq rfl rfl
  unfold stopOthersRingingI at stopped
  simp only at stopped
  split at stopped
  · split at stopped
    · exact cleared.trans (sendMsgI_still (by simp) (by simp) stopped)
    · exact some.inj stopped ▸ cleared
  · split at stopped
    · exact cleared.trans (sendMsgI_still (by simp) (by simp) stopped)
    · exact some.inj stopped ▸ cleared
  · exact some.inj stopped ▸ .refl cc

theorem stopOthersRinging_still (stopped : stopOthersRinging env cc = some cc') : Still cc cc' := by
  unfold stopOthersRinging at stopped
  split at stopped
  · exact stopOthersRingingI_still stopped
  · exact some.inj stopped ▸ tell_still rfl rfl rfl

theorem reqCfgJoin_moves {retry outgoing : Bool} : Moves env permit cc (reqCfgJoin env cc retry outgoing).1 := by
  unfold reqCfgJoin
  refine ((setState_moves (if outgoing then .waitconfigOutgoing else .waitconfig)).tail (.quiet ?_)).tail
    (.quiet (tell_quiet rfl))
  exact quiet_of_eq rfl

theorem reqCfgJoin_aside (env : Env) (cc : Ccall) (retryAttempt isOutgoing : Bool) :
    Aside { cc with state := if isOutgoing then .waitconfigOutgoing else .waitconfig, je := some ⟨retryAttempt⟩ }
      (reqCfgJoin env cc retryAttempt isOutgoing).1 := by
  have entered := setState_aside cc (if isOutgoing then .waitconfigOutgoing else .waitconfig)
  refine Aside.trans ?_ (tell_aside rfl)
  exact ⟨entered.state, rfl, entered.ecall, entered.error, entered.out⟩

theorem joinListed_moves {urls : List Bytes} : ∀ (cc : Ccall) (connected : Nat) (err : Option Errno),
      Moves env permit cc (joinListed env urls cc connected err).1 := by
  induction urls with
  | nil => exact fun _ _ _ => .refl
  | cons url rest ih =>
    intro cc connected err
    simp only [joinListed]
    by_cases can : canConnectSft cc url
    · simp only [can, if_true]
      have sent : Moves env permit cc (sendConfConn env cc url (getSftInfo cc url) false).1 :=
        sendConfConn_moves
      generalize (if (sendConfConn env cc url (getSftInfo cc url) false).2.isNone then connected + 1 else connected) = n
      split
      · exact sent
      · exact sent.trans (ih _ _ _)
    · simp only [can, if_false, Bool.false_eq_true]
      split
      · exact .refl
      · exact ih _ _ _

theorem joinConfigured_moves {servers : List SftServer} :
    ∀ (cc : Ccall) (err : Option Errno), Moves env permit cc (joinConfigured env servers cc err).1 := by
  induction servers with
  | nil => exact fun _ _ => .refl
  | cons server rest ih => exact fun cc err => sendConfConn_moves.trans (ih _ _)

theorem joinElsewhere_moves {waiting : CcallState} {err : Option Errno} :
    Moves env permit cc (joinElsewhere env cc je waiting err).cc := by
  unfold joinElsewhere joinRetry
  split
  · split
    · exact endWithErr_moves
    · have requested : Moves env permit cc (reqCfgJoin env cc true (cc.state = .waitconfigOutgoing)).1 :=
        reqCfgJoin_moves
      simp only
      split
      · exact requested
      · exact requested
  · exact joinConfigured_moves cc err

theorem joinSft_moves : Moves env permit cc (joinSft env cc je).cc := by
  unfold joinSft
  split
  · exact endWithErr_moves
  · split
    · exact .refl
    · split
      · have listed : Moves env permit cc (joinListed env cc.sftl cc 0 none).1 := joinListed_moves cc 0 none
        simp only
        split
        · exact listed
        · exact listed.trans joinElsewhere_moves
      · split
        · split
          · exact sendConfConn_moves
          · exact joinElsewhere_moves
        · exact joinElsewhere_moves

theorem configUpdateHandler_moves (updated : configUpdateHandler env cc je = some cc') : Moves env permit cc cc' := by
  obtain ⟨mid, settled, rfl⟩ := map_eq_some_iff.mp updated
  have joined : Moves env permit cc mid := by
    split at settled
    · exact (joinSft_moves.trans (setState_moves .connsent)).tail (.quiet (stopOthersRinging_still settled).quiet)
    · exact some.inj settled ▸ joinSft_moves
  split
  · exact joined.tail (.quiet (quiet_of_eq rfl))
  · exact joined

/-- What `ccall_send_keys` does: only an active key generator of a Proteus call sends, and the flags are cleared whether
    or not there is a key to send. -/
theorem sendKeys_cases (sent : sendKeys env cc sendToAll = some cc') :
    cc' = cc ∧ ¬ (cc.isMlsCall = false ∧ cc.isKg = true ∧ cc.state = .active) ∨
      cc.isMlsCall = false ∧ cc.isKg = true ∧ cc.state = .active ∧
      (cc' = { cc with userl := (cc.userl.getKeyTargets sendToAll).1 } ∧
          ((cc.userl.getKeyTargets sendToAll).2 = [] ∨ ∃ err, confKeys cc.keystore = some (.error err)) ∨
        ∃ keyl, confKeys cc.keystore = some (.ok keyl) ∧ (cc.userl.getKeyTargets sendToAll).2 ≠ [] ∧
          cc' = { cc with
            userl := (cc.userl.getKeyTargets sendToAll).1
            out := cc.out ++ [.send (.confKey true keyl) (some (cc.userl.getKeyTargets sendToAll).2) false
              (env.answers cc.out.length)] }) := by
  unfold sendKeys at sent
  split at sent
  · rename_i guard
    simp only [Bool.and_eq_true, Bool.not_eq_true', decide_eq_true_eq] at guard
    refine .inr ⟨guard.1.1, guard.1.2, guard.2, ?_⟩
    simp only at sent
    split at sent
    · rename_i empty
      exact .inl ⟨(some.inj sent).symm, .inl (by simpa using empty)⟩
    · rename_i some_
      obtain ⟨made, allocated, rfl⟩ := map_eq_some_iff.mp sent
      simp only [allocMessage, guard.1.1, Bool.false_eq_true, if_false, if_true] at allocated
      obtain ⟨keys, keyed, rfl⟩ := map_eq_some_iff.mp allocated
      cases keys with
      | error err => exact .inl ⟨rfl, .inr ⟨err, keyed⟩⟩
      | ok keyl => exact .inr ⟨keyl, keyed, by simpa using some_, rfl⟩
  · rename_i guard
    exact .inl ⟨(some.inj sent).symm, by simpa [and_assoc] using guard⟩

theorem sendKeys_settled (sent : sendKeys env cc sendToAll = some cc') :
    Settled cc cc' ∧ cc'.confpartData = cc.confpartData := by
  rcases sendKeys_cases sent with ⟨rfl, -⟩ | ⟨-, -, -, ⟨rfl, -⟩ | ⟨keyl, -, -, rfl⟩⟩
  · exact ⟨.refl cc', rfl⟩
  · exact ⟨⟨rfl, rfl, rfl, rfl⟩, rfl⟩
  · exact ⟨⟨rfl, rfl, rfl, rfl⟩, rfl⟩

theorem sendKeys_beside (sent : sendKeys env cc sendToAll = some cc') : Beside cc cc' := by
  have marked : Beside cc { cc with userl := (cc.userl.getKeyTargets sendToAll).1 } :=
    users_beside getKeyTargets_someoneIn
  rcases sendKeys_cases sent with ⟨rfl, -⟩ | ⟨-, -, -, ⟨rfl, -⟩ | ⟨keyl, -, -, rfl⟩⟩
  · exact .refl cc'
  · exact marked
  · exact marked.trans (tell_beside rfl rfl)

theorem sendCheckTimeout_still (checked : sendCheckTimeout env cc = some cc') : Still cc cc' := by
  obtain ⟨mid, sent, rfl⟩ := map_eq_some_iff.mp checked
  refine Still.trans ?_ (tmrStart_still rfl)
  split at sent
  · obtain ⟨first, made, rfl⟩ := map_eq_some_iff.mp sent
    exact (sendMsgI_still (by simp) (by simp) made).trans (ite_still (tell_still rfl rfl rfl))
  · exact some.inj sent ▸ .refl cc

theorem requestKeysFrom_still {kg : Option UserInfo} {isMe : Bool}
    (requested : requestKeysFrom env cc kg isMe = some cc') : Still cc cc' := by
  unfold requestKeysFrom at requested
  split at requested
  · exact some.inj requested ▸ .refl cc
  · split at requested
    · exact some.inj requested ▸ .refl cc
    · exact sendMsgI_still (.inr rfl) (by simp) requested

theorem rotateMlsTimeout_sidesteps (rotated : rotateMlsTimeout cc = some cc') : Sidesteps env permit cc cc' := by
  unfold rotateMlsTimeout at rotated
  split at rotated
  · split at rotated
    · obtain ⟨⟨done, more⟩, byTime, rfl⟩ := map_eq_some_iff.mp rotated
      have moved : Sidesteps env permit cc { cc with keystore := done.ks } :=
        .single ⟨.rotateByTime _ (by simp_all) byTime, beside_of_eq rfl rfl, fun valid =>
          rotateByTime_onward valid byTime⟩
      exact moved.trans (ite_still (tmrStart_still rfl)).sidesteps
    · simp at rotated
  · exact some.inj rotated ▸ .refl

theorem syncMediaKeys_sidesteps (synced : syncMediaKeys cc = some cc') : Sidesteps env permit cc cc' := by
  unfold syncMediaKeys at synced
  simp only at synced
  split at synced
  · exact some.inj synced ▸ .refl
  · split at synced
    · simp at synced
    · exact some.inj synced ▸ .refl
    · rename_i curr ts at_
      refine ReflTransGen.trans ?_ (rotateMlsTimeout_sidesteps synced)
      split
      · rename_i ahead
        exact .single ⟨.setCurrent _ at_ ahead, beside_of_eq rfl rfl, fun valid =>
          setCurrent_onward valid at_ ahead⟩
      · exact .refl

/-- What `ccall_generate_session_key` does: the key is sent when it was stored. -/
theorem generateSessionKey_cases (generated : generateSessionKey env cc isFirst = some cc') :
    ∃ done, cc.keystore.setFreshSessionKey env.hkdf cc.now (freshIndex cc isFirst) (env.random cc.draws).toList
        cc.confpartData = some done ∧
      (done.err ≠ none ∧ cc' = { cc with becameKg := false, draws := cc.draws + 1, keystore := done.ks } ∨
        done.err = none ∧
          sendKeys env { cc with becameKg := false, draws := cc.draws + 1, keystore := done.ks } true = some cc') := by
  unfold generateSessionKey at generated
  split at generated
  · simp at generated
  · rename_i done set
    refine ⟨done, set, ?_⟩
    simp only at generated
    split at generated
    · rename_i failed
      exact .inl ⟨isSome_iff_ne_none.mp failed, (some.inj generated).symm⟩
    · rename_i stored
      exact .inr ⟨by simpa using stored, generated⟩

theorem generateSessionKey_kept (generated : generateSessionKey env cc isFirst = some cc') :
    cc'.state = cc.state ∧ cc'.userl.keygenerator = cc.userl.keygenerator ∧ cc'.draws = cc.draws + 1 ∧
      cc'.confpartData = cc.confpartData := by
  obtain ⟨done, -, ⟨-, rfl⟩ | ⟨-, sent⟩⟩ := generateSessionKey_cases generated
  · exact ⟨rfl, rfl, rfl, rfl⟩
  · obtain ⟨settled, data⟩ := sendKeys_settled sent
    exact ⟨settled.state, settled.keygenerator, settled.draws, data⟩

theorem generateSessionKey_beside (generated : generateSessionKey env cc isFirst = some cc') : Beside cc cc' := by
  obtain ⟨done, -, ⟨-, rfl⟩ | ⟨-, sent⟩⟩ := generateSessionKey_cases generated
  · exact beside_of_eq rfl rfl
  · refine Beside.trans ?_ (sendKeys_beside sent)
    exact beside_of_eq rfl rfl

theorem generateSessionKey_onward (generated : generateSessionKey env cc isFirst = some cc')
    (valid : cc.keystore.Valid) : cc.keystore.Onward cc'.keystore := by
  obtain ⟨done, set, ⟨-, rfl⟩ | ⟨-, sent⟩⟩ := generateSessionKey_cases generated
  · exact setFreshSessionKey_onward valid set
  · exact (sendKeys_settled sent).1.keystore ▸ setFreshSessionKey_onward valid set

theorem rotateKeyTimeout_sidesteps (generates : ∀ mid : Ccall, mid.state = cc'.state → cc'.isKg →
      mid.draws = cc.draws → mid.draws < cc'.draws → permit.generates mid)
    (sends : permit.sends cc'.keystore) (rotated : rotateKeyTimeout env cc = some cc') :
    Sidesteps env permit cc cc' := by
  unfold rotateKeyTimeout at rotated
  split at rotated
  · rename_i guard
    simp only [Bool.and_eq_true, Bool.not_eq_true', decide_eq_true_eq] at guard
    obtain ⟨⟨active, isKg⟩, proteus⟩ := guard
    split at rotated
    · simp at rotated
    · rename_i done rotated'
      have moved : Sidesteps env permit cc { cc with keystore := done.ks } :=
        .single ⟨.rotate isKg proteus rotated', beside_of_eq rfl rfl, fun valid =>
          rotate_onward valid rotated'⟩
      simp only at rotated
      split at rotated
      · obtain ⟨mid, generated, rfl⟩ := map_eq_some_iff.mp rotated
        obtain ⟨state, kg, draws, -⟩ := generateSessionKey_kept generated
        have isKg' : mid.isKg := by
          simp only [Ccall.isKg, isKeygeneratorMe, kg]
          exact isKg
        have left : Still mid { mid with someoneLeft := false } := still_of_eq rfl rfl
        refine (moved.tail ⟨.generate false isKg proteus (by simp) generated ?_ sends,
          generateSessionKey_beside generated, generateSessionKey_onward generated⟩).trans
            (left.trans (tmrStart_still rfl)).sidesteps
        refine generates _ ?_ isKg' rfl ?_
        · exact state.symm
        · show cc.draws < mid.draws
          rw [draws]
          exact Nat.lt_succ_self _
      · exact some.inj rotated ▸ moved.trans (tmrStart_still rfl).sidesteps
  · exact some.inj rotated ▸ .refl

/-- A handler call that does not make this client the key generator. -/
def Other : UserCall → Prop
  | .kgChange _ isMe _ => isMe = false
  | _ => True

theorem userCall_still {call : UserCall} (other : Other call) (called : userCall env cc call = some cc') :
    Still cc cc' := by
  cases call with
  | add u => exact some.inj called ▸ .refl cc
  | sync => exact some.inj called ▸ .refl cc
  | remove u vstateh => exact some.inj called ▸ still_of_eq rfl rfl
  | kgChange kg isMe isFirst =>
    obtain rfl : isMe = false := other
    simp only [userCall, kgChangeHandler, Bool.false_eq_true, if_false] at called
    obtain ⟨mid, asked, rfl⟩ := map_eq_some_iff.mp called
    refine Still.trans ?_ (tmrCancel_still mid rfl)
    split at asked
    · obtain ⟨sent, requested, rfl⟩ := map_eq_some_iff.mp asked
      exact (requestKeysFrom_still requested).trans (still_of_eq rfl rfl)
    · exact some.inj asked ▸ .refl cc

theorem userCalls_still {calls : List UserCall} :
    ∀ {cc : Ccall}, (∀ call ∈ calls, Other call) → userCalls env calls cc = some cc' → Still cc cc' := by
  induction calls with
  | nil => exact fun _ called => some.inj called ▸ .refl _
  | cons call rest ih =>
    intro cc others called
    obtain ⟨mid, first, later⟩ := bind_eq_some_iff.mp called
    exact (userCall_still (others call (by simp)) first).trans (ih (fun c member => others c (by simp [member])) later)

theorem userCalls_append {first second : List UserCall} (cc : Ccall) :
    userCalls env (first ++ second) cc = (userCalls env first cc).bind (userCalls env second) := by
  induction first generalizing cc with
  | nil => rfl
  | cons call rest ih =>
    simp only [cons_append, userCalls, bind_assoc]
    exact Option.bind_congr (fun mid _ => ih mid)

theorem kgChangeHandler_kept (called : kgChangeHandler env cc kg true = some cc') :
    cc'.state = cc.state ∧ cc'.userl.keygenerator = cc.userl.keygenerator := by
  simp only [kgChangeHandler, if_true] at called
  obtain ⟨mid, keyed, rfl⟩ := map_eq_some_iff.mp called
  split at keyed
  · cases keyed
    exact ⟨rfl, rfl⟩
  · split at keyed
    · simp at keyed
    · obtain ⟨cc₁, generated, rfl⟩ := map_eq_some_iff.mp keyed
      obtain ⟨state, kg, -⟩ := generateSessionKey_kept generated
      exact ⟨state, kg⟩
    · cases keyed
      exact ⟨rfl, rfl⟩

theorem current_of_getCurrent {ks : Keystore} (missing : ks.getCurrent = some (.error err)) : ks.current = none := by
  unfold Keystore.getCurrent Keystore.currentKey at missing
  rcases eq_none_or_eq_some ks.current with none_ | ⟨a, at_⟩
  · exact none_
  · rw [at_] at missing
    obtain ⟨current, found, mapped⟩ := map_eq_some_iff.mp missing
    obtain ⟨k, -, rfl⟩ := map_eq_some_iff.mp found
    simp at mapped

theorem kgChangeHandler_sidesteps (isKg : cc.isKg)
    (generates : cc.state = cc'.state → cc'.isKg → cc.draws < cc'.draws → permit.generates cc)
    (sends : permit.sends cc'.keystore) (called : kgChangeHandler env cc kg true = some cc') :
    Sidesteps env permit cc cc' := by
  obtain ⟨state, keygenerator⟩ := kgChangeHandler_kept called
  have isKg' : cc'.isKg := by
    simp only [Ccall.isKg, isKeygeneratorMe, keygenerator]
    exact isKg
  simp only [kgChangeHandler, if_true] at called
  obtain ⟨mid, keyed, rfl⟩ := map_eq_some_iff.mp called
  refine ReflTransGen.trans ?_ (tmrStart_still rfl).sidesteps
  split at keyed
  · cases keyed
    exact .refl
  · rename_i proteus
    split at keyed
    · simp at keyed
    · rename_i err missing
      obtain ⟨made, generated, rfl⟩ := map_eq_some_iff.mp keyed
      obtain ⟨-, -, draws, -⟩ := generateSessionKey_kept generated
      have more : cc.draws < made.draws := by omega
      exact (ReflTransGen.single ⟨.generate true isKg (by simpa using proteus) (fun _ => current_of_getCurrent missing)
        generated (generates state.symm isKg' more) sends, generateSessionKey_beside generated,
        generateSessionKey_onward generated⟩).trans (tmrStart_still rfl).sidesteps
    · cases keyed
      have became : Still cc { cc with becameKg := true } := still_of_eq rfl rfl
      exact (became.trans (tmrStart_still rfl)).sidesteps

theorem takePart_calls {s : SftUpdate} {p : Part} (others : ∀ call ∈ s.calls, Other call) :
    ∀ call ∈ (takePart first s p).calls, Other call := by
  unfold takePart
  split
  · exact others
  · split
    · rename_i u _
      intro call member
      simp only [takeFound] at member
      split at member
      · rcases mem_append.mp member with old | new
        · exact others call old
        · obtain rfl := mem_singleton.mp new
          trivial
      · exact others call member
    · exact others

theorem takeParts_calls {s : SftUpdate} (others : ∀ call ∈ s.calls, Other call) :
    ∀ call ∈ (partl.foldl (takePart first) s).calls, Other call :=
  List.foldlRecOn (motive := fun s : SftUpdate => ∀ call ∈ s.calls, Other call) partl _ others
    (fun _ others _ _ => takePart_calls others)

theorem settleCalls_other (u : UserInfo) : ∀ call ∈ settleCalls u, Other call := by
  intro call member
  unfold settleCalls at member
  split at member
  · split at member
    · obtain rfl := mem_singleton.mp member
      trivial
    · simp at member
  · split at member
    · obtain rfl := mem_singleton.mp member
      trivial
    · simp at member

theorem updateBeforeSort_calls {selfChanged : Bool} :
    ∃ before, (list.updateBeforeSort partl selfChanged).calls = before ++ trackKeygeneratorChange
        (list.updateBeforeSort partl selfChanged).list list.keygenerator ∧ ∀ call ∈ before, Other call := by
  refine ⟨_, rfl, ?_⟩
  intro call member
  simp only [mem_append, mem_flatMap] at member
  rcases member with (taken | ⟨u, -, settled⟩) | synced
  · exact takeParts_calls (by simp) call taken
  · exact settleCalls_other u call settled
  · split at synced
    · obtain rfl := mem_singleton.mp synced
      trivial
    · simp at synced

theorem takeClient_calls {s : SeUpdate} {cli : Client} (others : ∀ call ∈ s.calls, Other call) :
    ∀ call ∈ (takeClient env.hashUser secret epoch prev s cli).calls, Other call := by
  unfold takeClient
  split
  · exact others
  · split
    · exact others
    · simp only
      split
      · split
        · exact others
        · rename_i user _ _
          intro call member
          simp only [admitUser, mem_append] at member
          rcases member with (old | added) | tracked
          · exact others call old
          · split at added
            · obtain rfl := mem_singleton.mp added
              trivial
            · simp at added
          · split at tracked
            · simp only [trackKeygeneratorChange] at tracked
              split at tracked
              · simp at tracked
              · split at tracked
                · simp at tracked
                · obtain rfl := mem_singleton.mp tracked
                  simp [Other, isKeygeneratorMe]
            · simp at tracked
      · exact others

theorem takeClients_calls {s : SeUpdate} (others : ∀ call ∈ s.calls, Other call) :
    ∀ call ∈ (clientl.foldl (takeClient env.hashUser secret epoch prev) s).calls, Other call :=
  List.foldlRecOn (motive := fun s : SeUpdate => ∀ call ∈ s.calls, Other call) clientl _ others
    (fun _ others _ _ => takeClient_calls others)

theorem updateFromSelist_calls :
    ∀ call ∈ (list.updateFromSelist env.hashUser clientl epoch secret).calls, Other call := by
  intro call member
  simp only [updateFromSelist, mem_append] at member
  rcases member with taken | synced
  · exact takeClients_calls (by simp) call taken
  · split at synced
    · obtain rfl := mem_singleton.mp synced
      trivial
    · simp at synced

end

end Avs.Ccall
