import Avs.CcallEvents
import Avs.Deferral
import Avs.GroupLeaving
import Avs.Notifications

/-!
Whether an old message makes a call. The age of a message is a difference of two times in seconds, and is
compared in milliseconds as an unsigned product of 32 bits: of a SETUP with the time to set up a call, of a
CONFSTART and of a GROUPSTART with the time they ring.
-/
namespace Avs
open List Option

/-- The age of a message in milliseconds. -/
def ageMs (currTime msgTime : UInt32) : Nat := (currTime.toNat - msgTime.toNat) * 1000

/-- What the code has for the age is too old if the age is. -/
def StillOld (tooOld : Nat → Prop) (currTime msgTime : UInt32) : Prop :=
  tooOld (ageMs currTime msgTime) → tooOld (ageMs currTime msgTime % 2 ^ 32)

/-- What `wcall_recv_msg` decodes, with the times widened. -/
def recvDecode (libre : Libre) (currTime msgTime : UInt32) (buf : Bytes) : Except Errno EconnFmt.Message :=
  EconnFmt.messageDecode libre (currTime.toBitVec.setWidth 64) (msgTime.toBitVec.setWidth 64) buf

variable {currTime msgTime : UInt32} {msg : EconnFmt.Message} {userid clientid : Bytes} {m : Received}
  {timeoutSetup : BitVec 32}

theorem widened_age : (if (currTime.toBitVec.setWidth 64).ult (msgTime.toBitVec.setWidth 64) then (0 : BitVec 32)
      else (currTime.toBitVec.setWidth 64 - msgTime.toBitVec.setWidth 64).setWidth 32).toNat =
    currTime.toNat - msgTime.toNat := by
  have currLt := currTime.toNat_lt
  have msgLt := msgTime.toNat_lt
  have curr64 : (currTime.toBitVec.setWidth 64).toNat = currTime.toNat := by
    rw [BitVec.toNat_setWidth, UInt32.toNat_toBitVec]
    omega
  have msg64 : (msgTime.toBitVec.setWidth 64).toNat = msgTime.toNat := by
    rw [BitVec.toNat_setWidth, UInt32.toNat_toBitVec]
    omega
  by_cases early : currTime.toNat < msgTime.toNat
  · have ult : (currTime.toBitVec.setWidth 64).ult (msgTime.toBitVec.setWidth 64) = true := by
      rw [BitVec.ult_iff_lt, BitVec.lt_def, curr64, msg64]
      exact early
    rw [if_pos ult]
    show 0 = _
    omega
  · have ult : ¬ (currTime.toBitVec.setWidth 64).ult (msgTime.toBitVec.setWidth 64) = true := by
      rw [BitVec.ult_iff_lt, BitVec.lt_def, curr64, msg64]
      exact early
    rw [if_neg ult, BitVec.toNat_setWidth, BitVec.toNat_sub, curr64, msg64]
    omega

section
variable {libre : Libre} {buf : Bytes} {msgType : EconnFmt.MsgType}

/-- A message of a type has the difference of the times as its age. -/
theorem recvDecode_age (decoded : recvDecode libre currTime msgTime buf = .ok msg)
    (typed : msg.payload.msgType = some msgType) : msg.age.toNat = currTime.toNat - msgTime.toNat := by
  rcases EconnFmt.messageDecode_dated decoded with rfl | ⟨-, age⟩
  · cases typed
  · rw [age]
    exact widened_age

theorem recvDecode_ms (decoded : recvDecode libre currTime msgTime buf = .ok msg)
    (typed : msg.payload.msgType = some msgType) : (msg.age * 1000).toNat = ageMs currTime msgTime % 2 ^ 32 := by
  rw [BitVec.toNat_mul, recvDecode_age decoded typed]
  rfl

end

def Upcall.starts : Upcall → Bool
  | .start _ _ _ _ _ _ => true
  | _ => false

/-- Call objects to which a SETUP response is an answer, not a new call. -/
structure SetupObjects (σ : Type) extends Icall σ where
  response : ∀ currTime msgTime userid clientid msg s, msg.payload.msgType = some .setup → msg.resp = true →
    ∀ up ∈ (msgRecv currTime msgTime userid clientid msg s).upcalls, up.starts = false

namespace Calls

variable {convid : Bytes} {σ : Type} {a b c : Calls σ}

/-- Nobody is told of a call that comes in or will be, and there is none that was not there. -/
structure Unrung (a b : Calls σ) : Prop where
  fewer : ∀ convid ∈ b.convids, convid ∈ a.convids
  quiet : ∀ convid, told convid b = told convid a
  pending : b.pendingEventl.map (·.convid) = a.pendingEventl.map (·.convid)

theorem Unrung.refl (a : Calls σ) : Unrung a a := ⟨fun _ member => member, fun _ => rfl, rfl⟩

theorem Unrung.then (left : Unrung a b) (right : Unrung b c) : Unrung a c :=
  ⟨fun convid member => left.fewer convid (right.fewer convid member),
    fun convid => (right.quiet convid).trans (left.quiet convid), right.pending.trans left.pending⟩

theorem Frame.unrung {eventl : List IncomingEvent} (frame : Frame True [] a b) (effect : Effect convid eventl a b)
    (pending : eventl.map (·.convid) = a.pendingEventl.map (·.convid)) : Unrung a b := by
  refine ⟨?_, effect.quiet, by rw [effect.pending, pending]⟩
  intro other member
  exact (frame.fewer other member).resolve_right not_mem_nil

theorem upcall_unrung (convid : Bytes) (a : Calls σ) {up : Upcall} (quiet : up.starts = false) :
    Unrung a (a.upcall convid up) := by
  have frame : Frame True [] a (a.upcall convid up) := upcall_frame convid a (fun _ => trivial)
  cases found : a.lookup convid with
  | none =>
    rw [upcall.eq_def, found]
    exact .refl a
  | some w =>
    rw [upcall.eq_def, found] at frame ⊢
    cases up with
    | start msgTime userid clientid video shouldRing convType => cases quiet
    | answer => exact frame.unrung ((tell_effect (fun _ => rfl)).trans setState_effect) rfl
    | mediaEstab userid clientid =>
      exact frame.unrung (setState_effect.trans (tell_effect (fun _ => rfl))) rfl
    | leave reason msgTime => exact frame.unrung leaveHandler_effect leave_convids
    | close err msgTime userid clientid =>
      have effect := (@notify_close _ convid w.icall a err msgTime userid clientid).1
      rw [notify, upcall.eq_def, found] at effect
      exact frame.unrung effect rfl

theorem upcalls_unrung {ups : List Upcall} (a : Calls σ) (quiet : ∀ up ∈ ups, up.starts = false) :
    Unrung a (ups.foldl (upcall convid) a) := by
  induction ups generalizing a with
  | nil => exact .refl a
  | cons up rest ih =>
    have first := upcall_unrung convid a (quiet up mem_cons_self)
    exact first.then (ih _ (fun later member => quiet later (mem_cons_of_mem _ member)))

theorem deliver_response {objects : SetupObjects σ} {a : Calls σ} (setup : m.msg.payload.msgType = some .setup)
    (resp : m.msg.resp = true) : Unrung a (a.deliver objects.toIcall m) := by
  rw [deliver, invoke]
  cases a.lookup m.convid with
  | none => exact .refl a
  | some w =>
    have marked : Frame True [] a (a.modify m.convid (fun w' => { w' with
        icall := (objects.msgRecv m.currTime m.msgTime m.userid m.clientid m.msg w.icall).icall })) :=
      modify_frame (fun _ => rfl)
    refine (marked.unrung (modify_effect (fun _ => rfl)) rfl).then (upcalls_unrung _ ?_)
    exact objects.response _ _ _ _ _ _ setup resp

theorem accept_response {icall : Icall σ} {a : Calls σ}
    (setup : m.msg.payload.msgType = some .setup) (resp : m.msg.resp = true) : a.accept icall m = a := by
  have none_ : addType a.userid m = none := by simp [addType, isCreator, setup, resp]
  rw [accept, addWcall, none_]

end Calls

def Foreign (useridSelf userid : Bytes) : Prop :=
  useridSelf ≠ [] ∧ userid ≠ [] ∧ strcaseeq (some useridSelf) (some userid) = false

namespace CallingInstance

variable {σ : Type}

/-- A message makes no call and nobody is told of one; if it waits for the configuration, it will not later either. -/
structure Unheeded (icall : Icall σ) (m : Received) (before after : CallingInstance σ) : Prop where
  unrung : Calls.Unrung before.toCalls after.toCalls
  waiting : after.configUpdatel = before.configUpdatel ∨
    after.configUpdatel = before.configUpdatel ++ [m] ∧
      ∀ calls : Calls σ, calls.userid = before.userid → calls.accept icall m = calls

/-- No SETUP of these times from another user is heeded that is older than the time to set up a call. -/
def SetupsUnheeded (timeoutSetup : BitVec 32) (currTime msgTime : UInt32) : Prop :=
  ∀ (σ : Type) (objects : SetupObjects σ) (inst : CallingInstance σ) (libre : Libre) (buf : Bytes) (now : Nat)
    (m : Received), inst.timeoutSetup = timeoutSetup → m.currTime = currTime → m.msgTime = msgTime →
    recvDecode libre currTime msgTime buf = .ok m.msg → m.msg.payload.msgType = some .setup →
    Foreign inst.userid m.userid → timeoutSetup.toNat < ageMs currTime msgTime →
    Unheeded objects.toIcall m inst (inst.recvMsg objects.toIcall now m)

theorem response_unheeded {objects : SetupObjects σ} {inst : CallingInstance σ} {now : Nat}
    (setup : m.msg.payload.msgType = some .setup) (resp : m.msg.resp = true) :
    Unheeded objects.toIcall m inst (inst.recvMsg objects.toIcall now m) := by
  have current : ¬ expired inst.userid inst.timeoutSetup m = true := by simp [expired, Calls.isCreator, resp]
  rw [recvMsg, if_neg current]
  cases inst.lookup m.convid with
  | some w => exact ⟨Calls.deliver_response setup resp, .inl rfl⟩
  | none =>
    dsimp only
    split
    · exact ⟨.refl _, .inr ⟨rfl, fun calls _ => Calls.accept_response setup resp⟩⟩
    · rw [Calls.accept_response setup resp]
      exact ⟨.refl _, .inl rfl⟩

theorem expired_iff (foreign : Foreign userid m.userid)
    (setup : m.msg.payload.msgType = some .setup) (request : m.msg.resp = false) :
    expired userid timeoutSetup m = true ↔ timeoutSetup.toNat < (m.msg.age * 1000).toNat := by
  obtain ⟨self, sender, other⟩ := foreign
  simp [expired, Calls.isCreator, self, sender, other, setup, request, BitVec.lt_def]

theorem unheeded_of_stillOld
    (still : StillOld (timeoutSetup.toNat < ·) currTime msgTime) : SetupsUnheeded timeoutSetup currTime msgTime := by
  intro σ objects inst libre buf now m isTimeout _ _ decoded setup foreign old
  cases resp : m.msg.resp with
  | true => exact response_unheeded setup resp
  | false =>
    have expired : expired inst.userid inst.timeoutSetup m = true := by
      rw [expired_iff foreign setup resp, isTimeout, recvDecode_ms decoded setup]
      exact still old
    rw [recvMsg_expired expired]
    exact ⟨.refl _, .inl rfl⟩

end CallingInstance

def Output.rings : Output → Bool
  | .starth _ _ shouldRing => shouldRing
  | _ => false

namespace Ccall

variable {cc : Ccall} {env : Env} {cc' : Ccall} {info : ConfInfo} {resp : Bool} {order : Int32}

def ringing (cc : Ccall) : List Output := cc.out.filter (·.rings)

theorem tell_ringing (cc : Ccall) {out : Output} (quiet : out.rings = false) : (cc.tell out).ringing = cc.ringing := by
  rw [ringing, tell, filter_append]
  simp [ringing, quiet]

theorem tmrStart_out {timer : CcallTimer} : (cc.tmrStart timer).out = cc.out := rfl

theorem tmrCancel_out {timers : List CcallTimer} : (cc.tmrCancel timers).out = cc.out := rfl

theorem enter_out {state : CcallState} : (enter cc state).out = cc.out := by
  cases state <;> simp only [enter, apply_ite Ccall.out, tmrStart_out, tmrCancel_out, ite_self]

theorem setState_ringing (cc : Ccall) (state : CcallState) : (setState cc state).ringing = cc.ringing := by
  have entered : (enter { cc with state } state).ringing = cc.ringing := by rw [ringing, enter_out, ringing]
  rw [setState]
  split
  · rw [tell_ringing _ rfl, entered]
  · exact entered

theorem rejoin_ringing {env : Env} : (rejoin env cc info).ringing = cc.ringing := by
  have ended : (ecallEnd cc).ringing = cc.ringing := by
    rw [ecallEnd]
    split
    · rfl
    · exact tell_ringing cc rfl
  rw [rejoin, reqCfgJoin, tell_ringing _ rfl]
  exact (setState_ringing _ _).trans ended

theorem sendMsg_ringing {type : MsgType} {targets : Option (List Target)}
    (sent : sendMsg env cc type resp targets = some cc') : cc'.ringing = cc.ringing := by
  obtain ⟨made, _, rfl⟩ := map_eq_some_iff.mp sent
  cases made with
  | error err => rfl
  | ok msg => exact tell_ringing cc rfl

theorem takeSftl_ringing : (takeSftl cc order info).ringing = cc.ringing := by
  rw [takeSftl]
  split <;> rfl

/-- A message that does not ask to ring. -/
theorem confstartState_silent
    (done : confstartState env cc userid clientid false order info = some cc') : cc'.ringing = cc.ringing := by
  rw [confstartState] at done
  cases isState : cc.state with
  | idle =>
    rw [isState] at done
    obtain rfl := some.inj done
    rw [takeSftl_ringing, comeIn]
    exact (tell_ringing _ rfl).trans (setState_ringing _ _)
  | incoming =>
    rw [isState] at done
    obtain rfl := some.inj done
    rw [takeSftl_ringing]
    split
    · exact tell_ringing (cc.tmrCancel [.ring]) rfl
    · rfl
  | connsent | setuprecv | connecting | connected | waitconfig | waitconfigOutgoing | waitnetwork =>
    rw [isState] at done
    obtain rfl := some.inj done
    split
    · exact rejoin_ringing
    · rfl
  | active =>
    rw [isState] at done
    dsimp only at done
    split at done
    · obtain rfl := some.inj done
      exact rejoin_ringing
    · split at done
      · exact sendMsg_ringing done
      · obtain rfl := some.inj done
        rfl
  | terminating =>
    rw [isState] at done
    obtain rfl := some.inj done
    rfl

/-- A CONFSTART that is taken is so young that its milliseconds fit. -/
theorem confStart_silent {age : UInt32} (old : shouldRingTimeout.toNat ≤ age.toNat * 1000)
    (done : msgRecv env cc userid clientid age (.confStart resp info) = some cc') : cc'.ringing = cc.ringing := by
  rw [msgRecv, handleConfstartCheck] at done
  split at done
  · next taken =>
    have young : age.toNat < 120 := UInt32.lt_iff_toNat_lt.mp taken.1
    have late : ¬ age * 1000 < shouldRingTimeout := by
      rw [UInt32.lt_iff_toNat_lt, UInt32.toNat_mul, Nat.not_lt]
      refine old.trans (Nat.le_of_eq (Nat.mod_eq_of_lt ?_).symm)
      show age.toNat * 1000 < 2 ^ 32
      omega
    simp only [late, decide_false, Bool.and_false] at done
    rw [confstartState_silent done]
    split <;> rfl
  · obtain rfl := some.inj done
    rfl

/-- No CONFSTART of these times rings that is as old as the time it would ring. -/
def StartsSilent (currTime msgTime : UInt32) : Prop :=
  ∀ (env : Env) (cc cc' : Ccall) (libre : Libre) (buf userid clientid : Bytes) (msg : EconnFmt.Message)
    (info : ConfInfo), recvDecode libre currTime msgTime buf = .ok msg →
    msg.payload.msgType = some .confStart → shouldRingTimeout.toNat ≤ ageMs currTime msgTime →
    msgRecv env cc userid clientid (.ofBitVec msg.age) (.confStart msg.resp info) = some cc' →
    cc'.ringing = cc.ringing

theorem starts_silent (currTime msgTime : UInt32) : StartsSilent currTime msgTime := by
  intro env cc cc' libre buf userid clientid msg info decoded start old done
  refine confStart_silent ?_ done
  have age : (UInt32.ofBitVec msg.age).toNat = currTime.toNat - msgTime.toNat := recvDecode_age decoded start
  rw [age]
  exact old

end Ccall

def GroupOut.rings : GroupOut → Bool
  | .up (.start _ _ _ _ shouldRing _) => shouldRing
  | _ => false

namespace Egcall

variable {eg : Egcall} {env : GroupEnv}

def ringing (eg : Egcall) : List GroupOut := eg.log.filter (·.rings)

theorem tell_ringing (eg : Egcall) {out : GroupOut} (quiet : out.rings = false) :
    (eg.tell out).ringing = eg.ringing := by
  rw [ringing, tell, filter_append]
  simp [ringing, quiet]

theorem setState_ringing (eg : Egcall) (state : EgcallState) : (eg.setState state).ringing = eg.ringing := by
  rw [ringing, setState_log]
  exact tell_ringing eg rfl

theorem addEcall_ringing : (eg.addEcall userid clientid).ringing = eg.ringing := by
  dsimp only [addEcall]
  cases eg.findUserclient userid clientid <;> rfl

theorem startEcall_ringing {env : GroupEnv} {index : Nat} : (startEcall env eg index).ringing = eg.ringing := by
  have joined : (if eg.state = .outgoing then (eg.setState .answered).tell (.up .answer) else eg).ringing =
      eg.ringing := by
    split
    · rw [tell_ringing _ rfl, setState_ringing]
    · rfl
  rw [startEcall]
  split
  · exact joined
  · exact joined
  · rfl

theorem joinedBy_ringing {env : GroupEnv} : (joinedBy env eg userid clientid).ringing = eg.ringing := by
  rw [joinedBy]
  cases eg.findUserclient userid clientid with
  | none => exact startEcall_ringing.trans addEcall_ringing
  | some index =>
    dsimp only
    split
    · exact startEcall_ringing.trans addEcall_ringing
    · exact startEcall_ringing

theorem startState_silent (silent : eg.rings userid msg = false) :
    (startState env eg userid clientid msg).ringing = eg.ringing := by
  rw [startState]
  cases eg.state with
  | idle =>
    dsimp only
    rw [silent, if_neg (by simp)]
    exact (tell_ringing _ rfl).trans (setState_ringing eg .incoming)
  | incoming =>
    dsimp only
    split
    · exact tell_ringing eg rfl
    · rfl
  | terminating => rfl
  | _ => exact joinedBy_ringing

theorem startState_rings (idle : eg.state = .idle) (asks : eg.rings userid msg = true) :
    (startState env eg userid clientid msg).ringing =
      eg.ringing ++ [.up (.start (.ofBitVec msg.time) userid clientid (startsVideo msg) true .group)] := by
  rw [startState, idle]
  dsimp only
  rw [asks, if_pos rfl]
  show ((eg.setState .incoming).log ++ _).filter _ = _
  rw [filter_append]
  exact congrArg (· ++ _) (setState_ringing eg .incoming)

theorem rosterAdd_ringing (userid clientid : Bytes) : (eg.rosterAdd userid clientid).ringing = eg.ringing := by
  rw [rosterAdd]
  split <;> rfl

theorem recvStart_silent (late : ¬ msg.age * 1000 < shouldRingTimeout) :
    (recvStart env eg userid clientid msg).ringing = eg.ringing := by
  have silent : ∀ eg : Egcall, eg.rings userid msg = false := by
    intro eg
    exact decide_eq_false (fun holds => late holds.2.1)
  rw [recvStart, startState_silent (silent _)]
  refine Eq.trans ?_ (rosterAdd_ringing userid clientid)
  split <;> rfl

/-- No GROUPSTART of these times rings that is as old as the time it would ring. -/
def StartsSilent (currTime msgTime : UInt32) : Prop :=
  ∀ (env : GroupEnv) (eg : Egcall) (libre : Libre) (buf userid clientid : Bytes) (msg : EconnFmt.Message),
    recvDecode libre currTime msgTime buf = .ok msg → msg.payload.msgType = some .groupStart →
    shouldRingTimeout.toNat ≤ ageMs currTime msgTime → (msgRecv env eg userid clientid msg).ringing = eg.ringing

theorem silent_of_stillOld (still : StillOld (shouldRingTimeout.toNat ≤ ·) currTime msgTime) :
    StartsSilent currTime msgTime := by
  intro env eg libre buf userid clientid msg decoded start old
  have late : ¬ msg.age * 1000 < shouldRingTimeout := by
    rw [BitVec.lt_def, recvDecode_ms decoded start, Nat.not_lt]
    exact still old
  rw [msgRecv, start]
  exact recvStart_silent late

end Egcall

namespace StaleCalls

/-- A text and what it reads as, for a message of a type with an offer. -/
def offered (type : String) : Bytes × Odict :=
  (ascii ("\x7b\"version\":\"3.0\",\"type\":\"" ++ type ++
      "\",\"sessid\":\"s1\",\"resp\":false,\"sdp\":\"v=0\",\"props\":\x7b\x7d\x7d"),
    [("version", .string EconnFmt.econnProtoVersion), ("type", .string (ascii type)), ("sessid", .string (ascii "s1")),
      ("resp", .bool false), ("sdp", .string (ascii "v=0")), ("props", .object [])])

def parser : Libre := Jzon.knowing [offered "SETUP", offered "GROUPSTART"]

theorem setup_decoded : ∃ msg, recvDecode parser currTime msgTime (offered "SETUP").1 = .ok msg ∧
      msg.payload.msgType = some .setup ∧ msg.resp = false := by
  exact ⟨_, rfl, rfl, rfl⟩

theorem groupStart_decoded : ∃ msg, recvDecode parser currTime msgTime (offered "GROUPSTART").1 = .ok msg ∧
      msg.payload.msgType = some .groupStart ∧ msg.resp = false := by
  exact ⟨_, rfl, rfl, rfl⟩

/-- A call object that rings for every SETUP request. -/
def bell : SetupObjects Unit where
  toIcall := { CallingInstance.ringer with
    msgRecv := fun _ msgTime userid clientid msg _ =>
      ⟨(), if msg.resp then [] else [.start msgTime userid clientid false true .oneOnOne], none⟩ }
  response := by
    intro currTime msgTime userid clientid msg s _ resp up member
    simp [resp] at member

/-- An instance of Alice's with a configuration and no call. -/
def resting (timeoutSetup : BitVec 32) : CallingInstance Unit :=
  { CallingInstance.idle (ascii "alice") timeoutSetup true [] with
    cfg := { Config.configAlloc true with expiresTs := 1 } }

def received (currTime msgTime : UInt32) (msg : EconnFmt.Message) : Received :=
  ⟨msg, currTime, msgTime, ascii "c", ascii "bob", ascii "1", .oneOnOne, false⟩

theorem received_foreign : Foreign (resting timeoutSetup).userid (received currTime msgTime msg).userid := by
  have ids : Foreign (ascii "alice") (ascii "bob") := by
    refine ⟨?_, ?_, ?_⟩ <;> decide
  exact ids

theorem request_heeded (setup : msg.payload.msgType = some .setup) (request : msg.resp = false)
    (young : ¬ timeoutSetup.toNat < (msg.age * 1000).toNat) :
    ascii "c" ∈ ((resting timeoutSetup).recvMsg bell.toIcall 0 (received currTime msgTime msg)).convids := by
  have current : ¬ CallingInstance.expired (resting timeoutSetup).userid (resting timeoutSetup).timeoutSetup
      (received currTime msgTime msg) = true := by
    rw [CallingInstance.expired_iff received_foreign setup request]
    exact young
  have type : Calls.addType (ascii "alice") (received currTime msgTime msg) = some .oneOnOne := by
    have creator : Calls.isCreator (ascii "alice") (ascii "bob") msg = true := by
      simp only [Calls.isCreator, setup, request, decide_eq_true_eq]
      decide
    simp [Calls.addType, received, setup, creator]
  rw [CallingInstance.recvMsg, if_neg current]
  show ascii "c" ∈ ((resting timeoutSetup).toCalls.accept bell.toIcall (received currTime msgTime msg)).convids
  rw [Calls.accept, Calls.addWcall, show (resting timeoutSetup).toCalls.userid = ascii "alice" from rfl, type]
  let placed := (resting timeoutSetup).toCalls.place (ascii "c") .oneOnOne ()
  have frame : Calls.Frame False [] placed (placed.deliver bell.toIcall (received currTime msgTime msg)) := by
    refine Calls.invoke_frame ?_
    intro s up member closes
    obtain rfl : up = .start msgTime (ascii "bob") (ascii "1") false true .oneOnOne := by
      simpa [bell, received, request] using member
    cases closes
  exact frame.lasting.resolve_left id _ mem_cons_self

theorem stillOld_of_unheeded (unheeded : CallingInstance.SetupsUnheeded timeoutSetup currTime msgTime) :
    StillOld (timeoutSetup.toNat < ·) currTime msgTime := by
  intro old
  by_contra young
  obtain ⟨msg, decoded, setup, request⟩ := setup_decoded
  have quiet := unheeded Unit bell (resting timeoutSetup) parser _ 0 (received currTime msgTime msg) rfl rfl rfl
    decoded setup received_foreign old
  rw [← recvDecode_ms decoded setup] at young
  exact absurd (quiet.unrung.fewer _ (request_heeded setup request young)) not_mem_nil

theorem stillOld_of_silent (silent : Egcall.StartsSilent currTime msgTime) :
    StillOld (Egcall.shouldRingTimeout.toNat ≤ ·) currTime msgTime := by
  intro old
  by_contra young
  obtain ⟨msg, decoded, start, request⟩ := groupStart_decoded
  rw [← recvDecode_ms decoded start, Nat.not_le, ← BitVec.lt_def] at young
  have same := silent Egcall.smooth (Egcall.alloc (ascii "alice") (ascii "1")) parser _ (ascii "bob") (ascii "1") msg
    decoded start old
  rw [Egcall.msgRecv, start] at same
  dsimp only [Egcall.recvStart] at same
  rw [Egcall.startState_rings (by rw [request]; rfl)] at same
  · exact cons_ne_nil _ _ (append_eq_nil_iff.mp same).2
  · rw [request]
    exact decide_eq_true ⟨request, young, by decide⟩

/-- For the given times, what is too old makes no call and does not ring if and only if the milliseconds that are left
    in 32 bits are too old as well. -/
theorem stale_silent_iff (timeoutSetup : BitVec 32) (currTime msgTime : UInt32) :
    CallingInstance.SetupsUnheeded timeoutSetup currTime msgTime ∧ Ccall.StartsSilent currTime msgTime ∧
        Egcall.StartsSilent currTime msgTime ↔
      StillOld (timeoutSetup.toNat < ·) currTime msgTime ∧
        StillOld (Egcall.shouldRingTimeout.toNat ≤ ·) currTime msgTime := by
  constructor
  · rintro ⟨unheeded, -, silent⟩
    exact ⟨stillOld_of_unheeded unheeded, stillOld_of_silent silent⟩
  · rintro ⟨setups, starts⟩
    have conferences := Ccall.starts_silent currTime msgTime
    exact ⟨CallingInstance.unheeded_of_stillOld setups, conferences, Egcall.silent_of_stillOld starts⟩

/-- Messages of fifty days ago, 4294968 seconds: their milliseconds are 2 ^ 32 and 704. The SETUP and the GROUPSTART
    ring. -/
theorem fifty_days_old_rings : ageMs 1704294968 1700000000 = 2 ^ 32 + 704 ∧
      (∃ msg, recvDecode parser 1704294968 1700000000 (offered "SETUP").1 = .ok msg ∧
        ((resting 60000).recvMsg bell.toIcall 0 (received 1704294968 1700000000 msg)).out =
          [.state (ascii "c") .incoming,
            .incoming ⟨ascii "c", 1700000000, ascii "bob", ascii "1", false, true, .oneOnOne⟩]) ∧
      (∃ msg, recvDecode parser 1704294968 1700000000 (offered "GROUPSTART").1 = .ok msg ∧
        (Egcall.msgRecv Egcall.smooth (.alloc (ascii "alice") (ascii "1")) (ascii "bob") (ascii "1") msg).ringing =
          [.up (.start 1700000000 (ascii "bob") (ascii "1") false true .group)]) ∧
      ¬ CallingInstance.SetupsUnheeded 60000 1704294968 1700000000 ∧
      ¬ Egcall.StartsSilent 1704294968 1700000000 := by
  refine ⟨by decide, ⟨_, rfl, by decide +kernel⟩, ⟨_, rfl, by decide +kernel⟩, ?_, ?_⟩
  · intro unheeded
    exact absurd (stillOld_of_unheeded unheeded) (by unfold StillOld; decide)
  · intro silent
    exact absurd (stillOld_of_silent silent) (by unfold StillOld; decide)

end StaleCalls

end Avs
