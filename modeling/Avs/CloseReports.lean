import Avs.Notifications

/-!
What the steps of `Avs.Wcall` tell the application of a conversation. Most neither announce a call of it nor
report one closed, and leave its pending event (`Plain`); the commands do not but for a rejection (`Moved`),
provided that the call object calls no handler meanwhile (`Icall.Silent`).
-/
namespace Avs
open List Option

/-- A callback that neither announces nor closes a call of the conversation. -/
def WcallCallback.beside (convid : Bytes) : WcallCallback → Bool
  | .incoming ie => ie.convid ≠ convid
  | .closed _ ended _ _ _ => ended ≠ convid
  | _ => true

/-- The functions of a call object that are not for messages call no handler. -/
structure Icall.Silent {σ : Type} (icall : Icall σ) : Prop where
  start : ∀ callType audioCbr meeting s, (icall.start callType audioCbr meeting s).upcalls = []
  answer : ∀ callType audioCbr s, (icall.answer callType audioCbr s).upcalls = []
  end_ : ∀ s, (icall.end_ s).upcalls = []
  reject : ∀ s, (icall.reject s).upcalls = []
  setVideoSendState : ∀ vstate s, (icall.setVideoSendState vstate s).upcalls = []
  setDuration : ∀ duration s, (icall.setDuration duration s).upcalls = []

namespace Calls

variable {other convid : Bytes} {σ : Type} {a b c : Calls σ} {w : Wcall σ} {convType : ConvType} {state : WcallState}
  {reason : WcallReason} {msgTime : UInt32} {clientid userid : Option Bytes} {meeting : Bool}
  {eventl : List IncomingEvent} {ie : IncomingEvent} {err : Option Errno}

/-- What says nothing of the calls of a conversation, and leaves its pending event. -/
structure Plain (convid : Bytes) (a b : Calls σ) : Prop where
  clientid : b.clientid = a.clientid
  ignoreClose : b.ignoreClose convid = a.ignoreClose convid
  out : ∃ extra, b.out = a.out ++ extra ∧ ∀ callback ∈ extra, callback.beside convid = true

theorem Plain.refl (a : Calls σ) : Plain convid a a := ⟨rfl, rfl, [], by simp⟩

theorem Plain.then (first : Plain convid a b) (second : Plain convid b c) : Plain convid a c := by
  obtain ⟨extra, out, beside⟩ := first.out
  obtain ⟨extra', out', beside'⟩ := second.out
  refine ⟨second.clientid.trans first.clientid, second.ignoreClose.trans first.ignoreClose, extra ++ extra', ?_, ?_⟩
  · rw [out', out, append_assoc]
  · intro callback member
    exact (mem_append.mp member).elim (beside callback) (beside' callback)

theorem tell_plain (a : Calls σ) {callback : WcallCallback} (beside : callback.beside convid = true) :
    Plain convid a (a.tell callback) :=
  ⟨rfl, rfl, [callback], rfl, by simpa using beside⟩

theorem modify_plain {f : Wcall σ → Wcall σ} : Plain convid a (a.modify other f) :=
  ⟨rfl, rfl, [], by simp [modify]⟩

theorem remove_plain : Plain convid a (a.remove other) := ⟨rfl, rfl, [], by simp [remove]⟩

theorem place_plain {icall : σ} : Plain convid a (a.place other convType icall) :=
  ⟨rfl, rfl, [], by simp [place]⟩

theorem setState_plain : Plain convid a (a.setState other state) := by
  have marked : Plain convid a (a.modify other (fun w => { w with state })) := modify_plain
  rw [setState]
  split
  · exact .refl a
  · split
    · exact marked
    · exact marked.then (tell_plain _ rfl)

theorem tellClosed_plain {userid : Bytes} (kept : other ≠ convid ∨ a.ignoreClose other = true) :
    Plain convid a (a.tellClosed other reason msgTime userid clientid) := by
  rw [tellClosed]
  split
  · exact .refl a
  · next heard => exact tell_plain a (by simpa [WcallCallback.beside] using kept.resolve_right heard)

theorem setClosed_plain {w : Wcall σ} : Plain convid a (a.setClosed other w) := by
  rw [setClosed]
  split
  · exact setState_plain
  · exact setState_plain.then setState_plain

theorem ringing_of_state (found : a.lookup convid = some w) (state : w.state = .incoming) : Ringing convid a := by
  rw [Ringing, found, any_some]
  exact decide_eq_true state

/-- What a command does in its conversation, if no close is reported. -/
structure Moved (convid : Bytes) (a b : Calls σ) : Prop where
  plain : ∀ other, Plain other a b
  others : ∀ other, other ≠ convid → b.lookup other = a.lookup other
  absent : a.lookup convid = none → b.lookup convid = none
  alive : Alive convid a → Alive convid b

theorem Moved.refl (a : Calls σ) : Moved convid a a := ⟨fun _ => .refl a, fun _ _ => rfl, id, id⟩

theorem Moved.then (first : Moved convid a b) (second : Moved convid b c) : Moved convid a c :=
  ⟨fun other => (first.plain other).then (second.plain other),
    fun other differ => (second.others other differ).trans (first.others other differ),
    second.absent ∘ first.absent, second.alive ∘ first.alive⟩

theorem modify_moved {f : Wcall σ → Wcall σ} (keeps : ∀ w, (f w).convid = w.convid)
    (state : ∀ w, (f w).state = w.state) : Moved convid a (a.modify convid f) := by
  refine ⟨fun other => modify_plain, ?_, ?_, ?_⟩
  · intro other differ
    rw [lookup_modify a convid other keeps, if_neg differ]
  · intro absent
    rw [lookup_modify a convid convid keeps, if_pos rfl, absent, map_none]
  · intro alive w found
    rw [lookup_modify a convid convid keeps, if_pos rfl] at found
    obtain ⟨w, before, rfl⟩ := map_eq_some_iff.mp found
    rw [state]
    exact alive w before

theorem setState_moved (a : Calls σ) (convid : Bytes) (some_ : state ≠ .none) :
    Moved convid a (a.setState convid state) := by
  refine ⟨fun other => setState_plain, ?_, ?_, fun _ => alive_of_state some_⟩
  · intro other differ
    rw [lookup_setState, if_neg differ]
  · intro absent
    rw [lookup_setState, if_pos rfl, absent, map_none]

/-- A call object that calls no handler has nothing reported. -/
theorem invoke_moved (a : Calls σ) (convid : Bytes) {op : σ → IcallReply σ} (silent : ∀ s, (op s).upcalls = []) :
    Moved convid a (a.invoke convid op).1 := by
  rw [invoke]
  split
  · exact .refl a
  · next w _ =>
    dsimp only
    rw [silent, foldl_nil]
    exact modify_moved (fun _ => rfl) (fun _ => rfl)

section
variable {icall : Icall σ} (silent : icall.Silent) {callType : CallType} {audioCbr : Bool}
include silent

theorem Prepares.moved (prepares : Prepares icall convid a b) : Moved convid a b := by
  induction prepares with
  | refl => exact .refl a
  | mark f convids states _ _ moved => exact moved.then (modify_moved convids states)
  | state state some_ _ moved => exact moved.then (setState_moved _ convid some_)
  | video vstate _ moved => exact moved.then (invoke_moved _ convid (silent.setVideoSendState vstate))
  | duration duration _ moved => exact moved.then (invoke_moved _ convid (silent.setDuration duration))
  | untimed rest _ _ moved =>
    exact ⟨fun other => ⟨(moved.plain other).clientid, (moved.plain other).ignoreClose, (moved.plain other).out⟩,
      moved.others, moved.absent, moved.alive⟩

theorem iEnd_moved (a : Calls σ) (convid : Bytes) : Moved convid a (a.iEnd icall convid) :=
  ((setTermLocal_prepares.moved silent).then (invoke_moved _ convid silent.end_)).then
    (modify_moved (fun _ => rfl) (fun _ => rfl))

theorem endOnErr_moved (result : Calls σ × Option Errno) : Moved convid result.1 (endOnErr icall convid result) := by
  rw [endOnErr]
  split
  · exact iEnd_moved silent _ convid
  · exact .refl _

/-- A start reports nothing and leaves a call in its conversation, unless none can be made. -/
theorem execute_start_moved (executed : a.execute icall convid (.start callType convType audioCbr meeting) = some b) :
    if (a.lookup convid).isSome ∨ (a.wcallAdd icall convid convType meeting).isOk then
      (∀ other, Plain other a b) ∧ (∀ other, other ≠ convid → b.lookup other = a.lookup other) ∧ Alive convid b
    else b = a := by
  cases execute_execution executed with
  | absent _ none_ => cases none_
  | refused _ _ _ _ err absent refused => rw [if_neg (by simp [absent, refused, Except.isOk, Except.toBool])]
  | start _ _ _ _ mid timed made taken =>
    obtain ⟨ready, told, outgoing, alive, passed, asked⟩ :=
      @iStart_prepares convid _ icall timed callType audioCbr meeting
    rw [asked]
    have later := ((passed.moved silent).then (invoke_moved told convid
      (silent.start (plainType callType) audioCbr meeting))).then (endOnErr_moved silent _)
    have moved := (((takeDuration_prepares taken).moved silent).then (outgoing.moved silent)).then later
    rcases made with ⟨present, rfl⟩ | added
    · rw [if_pos (.inl present)]
      exact ⟨moved.plain, moved.others, later.alive alive⟩
    · obtain ⟨object, absent, -, rfl⟩ := wcallAdd_placed added
      rw [if_pos (.inr (by rw [added]; rfl))]
      refine ⟨fun other => place_plain.then (moved.plain other), fun other differ => ?_, later.alive alive⟩
      rw [moved.others other differ, lookup_place a convid other convType object absent, if_neg differ]

theorem execute_answer_moved
    (executed : a.execute icall convid (.answer callType audioCbr) = some b) : Moved convid a b := by
  cases execute_execution executed with
  | absent => exact .refl a
  | answer _ _ w found =>
    obtain ⟨told, prepares, asked | asked⟩ := @iAnswer_prepares convid _ icall a callType audioCbr
    · rw [asked]
      exact prepares.moved silent
    · rw [asked]
      exact ((prepares.moved silent).then (invoke_moved told convid (silent.answer _ _))).then
        (endOnErr_moved silent _)

theorem execute_end_moved (executed : a.execute icall convid .end_ = some b) : Moved convid a b := by
  cases execute_execution executed with
  | absent => exact .refl a
  | end_ w found => exact iEnd_moved silent a convid

/-- A rejection is seen in its own conversation only, and reports a close only of a call that rings. -/
theorem execute_reject_moved (executed : a.execute icall convid .reject = some b) :
    (∀ other, other ≠ convid → Plain other a b ∧ b.lookup other = a.lookup other) ∧
      ((∀ w, a.lookup convid = some w → w.state ≠ .incoming) → Moved convid a b) := by
  cases execute_execution executed with
  | absent => exact ⟨fun other _ => ⟨.refl a, rfl⟩, fun _ => .refl a⟩
  | reject w found =>
    obtain rfl := lookup_convid found
    have marked : Moved w.convid a (a.modify w.convid (fun w => { w with disableAudio := true })) :=
      modify_moved (fun _ => rfl) (fun _ => rfl)
    have rejected := marked.then (invoke_moved _ w.convid silent.reject)
    rw [iReject]
    constructor
    · intro other differ
      split
      · refine ⟨(rejected.plain other).then (tell_plain _ ?_), rejected.others other differ⟩
        exact decide_eq_true (Ne.symm differ)
      · exact ⟨marked.plain other, marked.others other differ⟩
    · intro quiet
      rw [if_neg (quiet w found)]
      exact marked

end

theorem ignoreClose_eq :
    a.ignoreClose convid = (a.processingNotifications && decide (convid ∈ a.pendingEventl.map (·.convid))) := by
  rw [ignoreClose]
  refine congrArg _ ?_
  by_cases pending : convid ∈ a.pendingEventl.map (·.convid)
  · rw [decide_eq_true pending, isSome_iff_ne_none, Ne, findPendingEvent_none_iff]
    exact not_not_intro pending
  · rw [decide_eq_false pending, findPendingEvent_none_iff.mpr pending]
    rfl

theorem Plain.noting (plain : Plain convid a b) (processing : b.processingNotifications = a.processingNotifications)
    (same : convid ∈ eventl.map (·.convid) ↔ convid ∈ a.pendingEventl.map (·.convid)) :
    Plain convid a { b with pendingEventl := eventl } := by
  refine ⟨plain.clientid, ?_, plain.out⟩
  rw [ignoreClose_eq, ignoreClose_eq]
  show (b.processingNotifications && decide (convid ∈ eventl.map (·.convid))) = _
  rw [processing, decide_eq_decide.mpr same]

theorem appendEvent_free (free : ie.userid ∉ eventl.map (·.convid)) : appendEvent eventl ie = eventl ++ [ie] := by
  rw [appendEvent, findPendingEvent_none_iff.mpr free]

theorem startHandler_marked : Plain convid a ((a.setState ie.convid .incoming).modify ie.convid
      (fun w => { w with videoCall := ie.videoCall, disableAudio := !ie.shouldRing })) :=
  setState_plain.then modify_plain

/-- Outside a batch an incoming call is announced at once. -/
theorem startHandler_told (now : a.processingNotifications = false) (found : a.lookup ie.convid = some w) :
    ∃ mid, (∀ other, Plain other a mid) ∧ a.startHandler ie = mid.tell (.incoming ie) := by
  let marked := (a.setState ie.convid .incoming).modify ie.convid
    (fun w => { w with videoCall := ie.videoCall, disableAudio := !ie.shouldRing })
  have rings : marked.lookup ie.convid =
      some { w with state := .incoming, videoCall := ie.videoCall, disableAudio := !ie.shouldRing } := by
    rw [lookup_modify _ ie.convid ie.convid (f := fun w =>
      { w with videoCall := ie.videoCall, disableAudio := !ie.shouldRing }) (fun _ => rfl)]
    rw [if_pos rfl, lookup_setState, if_pos rfl, found]
    rfl
  refine ⟨marked, fun other => startHandler_marked, ?_⟩
  rw [startHandler, if_neg (by rw [now]; decide), invokeIncomingHandler, rings]
  exact if_pos rfl

/-- In a batch it is noted, and nothing is announced yet. -/
theorem startHandler_waits (processing : a.processingNotifications = true) (free : a.ignoreClose ie.userid = false) :
    (∀ other, other ≠ ie.convid → Plain other a (a.startHandler ie)) ∧
      (a.startHandler ie).clientid = a.clientid ∧ (a.startHandler ie).ignoreClose ie.convid = true ∧
      ∃ extra, (a.startHandler ie).out = a.out ++ extra ∧ ∀ callback ∈ extra, callback.beside ie.convid = true := by
  rw [ignoreClose_eq, processing, Bool.true_and, decide_eq_false_iff_not] at free
  let marked := (a.setState ie.convid .incoming).modify ie.convid
    (fun w => { w with videoCall := ie.videoCall, disableAudio := !ie.shouldRing })
  have isMarked : ∀ other, Plain other a marked := fun other => startHandler_marked
  have still : marked.processingNotifications = a.processingNotifications := setState_effect.processing
  have waits : a.startHandler ie = { marked with pendingEventl := a.pendingEventl ++ [ie] } := by
    rw [startHandler, if_pos processing, appendEvent_free free]
  rw [waits]
  refine ⟨?_, (isMarked []).clientid, ?_, (isMarked ie.convid).out⟩
  · intro other differ
    refine (isMarked other).noting still ?_
    simp [differ]
  · rw [ignoreClose_eq]
    show (marked.processingNotifications && _) = true
    rw [still, processing, Bool.true_and]
    simp

/-- Other conversations hear nothing of a close, nor does its own while an event of it is pending. -/
theorem closeHandler_plain (kept : other ≠ convid ∨ a.ignoreClose convid = true) :
    Plain other a (a.closeHandler convid err msgTime userid clientid) := by
  rw [closeHandler]
  split
  · exact .refl a
  · next w _ =>
    split
    · exact remove_plain
    · have closed : Plain other a (a.setClosed convid w) := setClosed_plain
      refine (closed.then (tellClosed_plain ?_)).then remove_plain
      exact kept.imp Ne.symm (fun ignored => setClosed_plain.ignoreClose.trans ignored)

/-- Any other close is reported, and the call is removed. -/
theorem closeHandler_told
    (found : a.lookup convid = some w) (state : w.state ≠ .none) (heard : a.ignoreClose convid = false) :
    ∃ mid reason peer, Plain convid a mid ∧
      a.closeHandler convid err msgTime userid clientid =
        (mid.tell (.closed reason convid msgTime peer clientid)).remove convid := by
  have closed : Plain convid a (a.setClosed convid w) := setClosed_plain
  refine ⟨a.setClosed convid w, err2reason err, userid.getD a.userid, closed, ?_⟩
  rw [closeHandler, found]
  dsimp only
  rw [if_neg state, tellClosed, closed.ignoreClose, heard]
  rfl

theorem leaveHandler_plain
    (kept : other ≠ convid ∨ a.ignoreClose convid = true) : Plain other a (a.leaveHandler convid reason msgTime) := by
  have marked : Plain other a (a.setState convid .incoming) := setState_plain
  have told : Plain other a ((a.setState convid .incoming).tellClosed convid (leaveReason reason) msgTime a.userid
      (some a.clientid)) := by
    refine marked.then (tellClosed_plain ?_)
    exact kept.imp Ne.symm (fun ignored => setState_plain.ignoreClose.trans ignored)
  have left : Effect convid _ a (a.leaveHandler convid reason msgTime) := leaveHandler_effect
  refine ⟨told.clientid, ?_, told.out⟩
  rw [ignoreClose_eq, ignoreClose_eq, left.processing, left.pending, leave_convids]

/-- A handler is not seen in other conversations, unless it announces a call from one that is pending. -/
theorem upcall_elsewhere (a : Calls σ) {up : Upcall} (differ : other ≠ convid)
    (free : ∀ msgTime userid clientid video rings convType, up = .start msgTime userid clientid video rings convType →
      a.ignoreClose userid = false) :
    Plain other a (a.upcall convid up) ∧ (a.upcall convid up).lookup other = a.lookup other := by
  cases found : a.lookup convid with
  | none =>
    rw [upcall.eq_def, found]
    exact ⟨.refl a, rfl⟩
  | some w =>
    rw [upcall.eq_def, found]
    cases up with
    | start msgTime userid clientid video rings convType =>
      refine ⟨?_, by rw [lookup_startHandler, if_neg differ]⟩
      cases processing : a.processingNotifications with
      | true => exact (startHandler_waits processing (free _ _ _ _ _ _ rfl)).1 other differ
      | false =>
        obtain ⟨mid, plain, told⟩ := @startHandler_told σ a w
          ⟨convid, msgTime, userid, clientid, video, rings, convType⟩ processing found
        dsimp only
        rw [told]
        exact (plain other).then (tell_plain mid (decide_eq_true (Ne.symm differ)))
    | answer =>
      refine ⟨(tell_plain a rfl).then setState_plain, ?_⟩
      exact lookup_setState.trans (if_neg differ)
    | mediaEstab userid clientid =>
      refine ⟨setState_plain.then (tell_plain _ rfl), ?_⟩
      exact lookup_setState.trans (if_neg differ)
    | leave reason msgTime =>
      exact ⟨leaveHandler_plain (.inl differ), by rw [lookup_leaveHandler, if_neg differ]⟩
    | close err msgTime userid clientid =>
      exact ⟨closeHandler_plain (.inl differ), by rw [lookup_closeHandler, if_neg differ]⟩

end Calls

end Avs
