import Avs.Wcall

/-!
What the handlers and commands of `Avs.Wcall` leave alone. A call object reaches the calls through its
handlers only, so whatever it does, the conversations that have a call are those that had one, without some
that were closed, and only a start adds one (`Frame`).
-/
namespace Avs
open List Option

/-- The handler that frees the call. -/
def Upcall.closes : Upcall → Bool
  | .close _ _ _ _ => true
  | _ => false

/-- No reply of a call object closes the call, unless `closing`. -/
structure Icall.Within {σ : Type} (icall : Icall σ) (closing : Prop) : Prop where
  start : ∀ callType cbr meeting s, ∀ up ∈ (icall.start callType cbr meeting s).upcalls, up.closes → closing
  answer : ∀ callType cbr s, ∀ up ∈ (icall.answer callType cbr s).upcalls, up.closes → closing
  end_ : ∀ s, ∀ up ∈ (icall.end_ s).upcalls, up.closes → closing
  reject : ∀ s, ∀ up ∈ (icall.reject s).upcalls, up.closes → closing
  setVideoSendState : ∀ vstate s, ∀ up ∈ (icall.setVideoSendState vstate s).upcalls, up.closes → closing
  setDuration : ∀ duration s, ∀ up ∈ (icall.setDuration duration s).upcalls, up.closes → closing
  msgRecv : ∀ currTime msgTime userid clientid msg s,
    ∀ up ∈ (icall.msgRecv currTime msgTime userid clientid msg s).upcalls, up.closes → closing

theorem Icall.within_true {σ : Type} (icall : Icall σ) : icall.Within True := by
  constructor <;> intros <;> trivial

namespace Calls

variable {convid : Bytes} {σ : Type} {other : Bytes} {state : WcallState} {convType : ConvType} {calls : Calls σ}
  {f : Wcall σ → Wcall σ} {op : σ → IcallReply σ} {up : Upcall} {ups : List Upcall}

/-- The conversations that have a call. -/
def convids (calls : Calls σ) : List Bytes := calls.wcalls.map (·.convid)

theorem lookup_isSome_iff : (calls.lookup convid).isSome ↔ convid ∈ calls.convids := by
  simp [lookup, convids]

theorem lookup_eq_none_iff : calls.lookup convid = none ↔ convid ∉ calls.convids := by
  rw [← lookup_isSome_iff, not_isSome_iff_eq_none]

theorem lookup_convid {w : Wcall σ} (found : calls.lookup convid = some w) : w.convid = convid := by
  simpa using List.find?_some found

/-- A change that keeps the conversation id is seen in that conversation and in no other. -/
theorem lookup_modify (calls : Calls σ) (convid other : Bytes)
    (keeps : ∀ w, (f w).convid = w.convid) :
    (calls.modify convid f).lookup other =
      if other = convid then (calls.lookup other).map f else calls.lookup other := by
  have same : ∀ w : Wcall σ, (if w.convid = convid then f w else w).convid = w.convid := by
    intro w
    split
    · exact keeps w
    · rfl
  simp only [lookup, modify, List.find?_map, Function.comp_def, same]
  cases found : calls.wcalls.find? (fun w => w.convid = other) with
  | none => simp
  | some w =>
    have isOther : w.convid = other := by simpa using List.find?_some found
    simp only [map_some, isOther]
    split <;> rfl

theorem lookup_remove :
    (calls.remove convid).lookup other = if other = convid then none else calls.lookup other := by
  simp only [lookup, remove, List.find?_filter]
  split
  · next same => simp [same]
  · next differ =>
    refine congrArg (fun p => List.find? p calls.wcalls) (funext fun w => ?_)
    by_cases found : w.convid = other
    · simp [found, differ]
    · simp [found]

theorem lookup_place (calls : Calls σ) (convid other : Bytes) (convType : ConvType) (icall : σ)
    (absent : calls.lookup convid = none) :
    (calls.place convid convType icall).lookup other =
      if other = convid then
        some { convid, convType, duration := 0, videoCall := false, state := .none, disableAudio := false, icall }
      else calls.lookup other := by
  simp only [lookup, place, List.find?_append, List.find?_singleton] at absent ⊢
  by_cases same : other = convid
  · subst same
    simp [absent]
  · simp [same, Ne.symm same]

theorem lookup_setState : (calls.setState convid state).lookup other =
      if other = convid then (calls.lookup other).map (fun w => { w with state }) else calls.lookup other := by
  have seen := calls.lookup_modify convid other (f := fun w => { w with state }) (fun _ => rfl)
  rw [setState]
  split
  · next absent =>
    split
    · next same => rw [same, absent, map_none]
    · rfl
  · split
    · exact seen
    · exact seen

/-- What a handler makes of the call it is called for; the close handler frees it. -/
def act (up : Upcall) (w : Wcall σ) : Option (Wcall σ) :=
  match up with
  | .start _ _ _ videoCall shouldRing _ => some { w with state := .incoming, videoCall, disableAudio := !shouldRing }
  | .answer => some { w with state := .answered }
  | .mediaEstab _ _ => some { w with state := .mediaEstab }
  | .leave _ _ => some { w with state := .incoming, disableAudio := true }
  | .close _ _ _ _ => none

/-- What the handlers of a reply make of the call, one after the other. -/
def acts (ups : List Upcall) (w : Wcall σ) : Option (Wcall σ) := ups.foldlM (fun w up => act up w) w

section
variable {a : Calls σ} {err : Option Errno} {reason : WcallReason} {msgTime : UInt32} {userid clientid : Option Bytes}
  {w w' : Wcall σ}

theorem lookup_startHandler (ie : IncomingEvent) (a : Calls σ) (convid : Bytes) :
    (a.startHandler ie).lookup convid = if convid = ie.convid then
        (a.lookup convid).map (fun w =>
          { w with state := .incoming, videoCall := ie.videoCall, disableAudio := !ie.shouldRing })
      else a.lookup convid := by
  have marked : ((a.setState ie.convid .incoming).modify ie.convid
      (fun w => { w with videoCall := ie.videoCall, disableAudio := !ie.shouldRing })).lookup convid =
      if convid = ie.convid then (a.lookup convid).map (fun w =>
          { w with state := .incoming, videoCall := ie.videoCall, disableAudio := !ie.shouldRing })
        else a.lookup convid := by
    rw [lookup_modify _ ie.convid convid (f := fun w =>
      { w with videoCall := ie.videoCall, disableAudio := !ie.shouldRing }) (fun _ => rfl), lookup_setState]
    split
    · rw [Option.map_map]
      rfl
    · rfl
  rw [startHandler]
  split
  · exact marked
  · rw [invokeIncomingHandler]
    split
    · exact marked
    · split <;> exact marked

theorem lookup_tellClosed {userid : Bytes} :
    (a.tellClosed convid reason msgTime userid clientid).lookup other = a.lookup other := by
  rw [tellClosed]
  split <;> rfl

theorem lookup_closeHandler : (a.closeHandler convid err msgTime userid clientid).lookup other =
    if other = convid then none else a.lookup other := by
  rw [closeHandler]
  split
  · next absent =>
    split
    · next same => rw [same, absent]
    · rfl
  · split
    · exact lookup_remove
    · rw [lookup_remove, lookup_tellClosed, setClosed]
      split
      · rfl
      · next differ => split <;> simp only [lookup_setState, if_neg differ]

theorem lookup_leaveHandler : (a.leaveHandler convid reason msgTime).lookup other =
    if other = convid then (a.lookup other).map (fun w => { w with state := .incoming, disableAudio := true })
    else a.lookup other := by
  refine (lookup_modify _ convid other (f := fun w => { w with disableAudio := true }) (fun _ => rfl)).trans ?_
  show (if other = convid then Option.map _ (Calls.lookup (tellClosed _ _ _ _ _ _) other) else
    Calls.lookup (tellClosed _ _ _ _ _ _) other) = _
  rw [lookup_tellClosed, lookup_setState]
  split
  · rw [Option.map_map]
    rfl
  · rfl

/-- A handler changes the call it is called for, and no other. -/
theorem lookup_upcall (a : Calls σ) (up : Upcall) : (a.upcall convid up).lookup other =
    if other = convid then (a.lookup other).bind (act up) else a.lookup other := by
  rw [upcall.eq_def]
  split
  · next absent =>
    split
    · next same => rw [same, absent, bind_none]
    · rfl
  · have bound : ∀ {o o' : Option (Wcall σ)} {f : Wcall σ → Wcall σ}, o' = (if other = convid then o.map f else o) →
        o' = if other = convid then o.bind (fun w => some (f w)) else o := by
      rintro o _ f rfl
      cases o <;> rfl
    cases up with
    | start msgTime userid clientid video rings convType => exact bound (lookup_startHandler _ a other)
    | answer => exact bound lookup_setState
    | mediaEstab userid clientid => exact bound lookup_setState
    | leave reason msgTime => exact bound lookup_leaveHandler
    | close err msgTime userid clientid => exact lookup_closeHandler.trans (by cases a.lookup other <;> rfl)

theorem lookup_upcalls : ∀ (ups : List Upcall) (a : Calls σ), (ups.foldl (upcall convid) a).lookup other =
    if other = convid then (a.lookup other).bind (acts ups) else a.lookup other := by
  intro ups
  induction ups with
  | nil =>
    intro a
    exact (ite_eq_right_iff.mpr fun _ => bind_fun_some _).symm
  | cons up rest ih =>
    intro a
    rw [foldl_cons, ih, lookup_upcall]
    split
    · exact bind_assoc _ _ _
    · rfl

theorem lookup_invoke : (a.invoke convid op).1.lookup other =
    if other = convid then
      (a.lookup other).bind (fun w => acts (op w.icall).upcalls { w with icall := (op w.icall).icall })
    else a.lookup other := by
  rw [invoke]
  split
  · next absent =>
    split
    · next same => rw [same, absent, bind_none]
    · rfl
  · next w found =>
    refine (lookup_upcalls _ _).trans ?_
    rw [lookup_modify a convid other (f := fun w' => { w' with icall := (op w.icall).icall }) (fun _ => rfl)]
    split
    · next same =>
      rw [same, found]
      rfl
    · rfl

theorem acts_cons {rest : List Upcall} : acts (up :: rest) w = (act up w).bind (acts rest) := rfl

theorem acts_present (kept : ∀ up ∈ ups, up.closes = false) (w : Wcall σ) :
    (acts ups w).isSome := by
  induction ups generalizing w with
  | nil => rfl
  | cons up rest ih =>
    rw [acts_cons]
    have later := ih (fun up member => kept up (mem_cons_of_mem _ member))
    cases up with
    | close _ _ _ _ => cases kept _ mem_cons_self
    | _ => exact later _

/-- The handlers keep a property that does not hang on the state, the kind of call or its audio. -/
theorem acts_kept {P : Wcall σ → Prop}
    (keeps : ∀ up ∈ ups, ∀ w w', P w → act up w = some w' → P w') (holds : P w)
    (acted : acts ups w = some w') : P w' := by
  induction ups generalizing w with
  | nil => exact some.inj acted ▸ holds
  | cons up rest ih =>
    obtain ⟨mid, first, later⟩ := bind_eq_some_iff.mp acted
    exact ih (fun up member => keeps up (mem_cons_of_mem _ member)) (keeps up mem_cons_self w mid holds first)
      later

theorem act_icall (acted : act up w = some w') : w'.icall = w.icall := by
  cases up <;> simp only [act, some.injEq, reduceCtorEq] at acted <;> rw [← acted]

theorem acts_icall (acted : acts ups w = some w') : w'.icall = w.icall :=
  acts_kept (P := fun w' => w'.icall = w.icall) (fun _ _ _ _ same acted => (act_icall acted).trans same) rfl acted

end

/-- What no handler of a call object changes. -/
structure Setting where
  userid : Bytes
  clientid : Bytes
  cfg : Config
  callConfig : Bool
  processingNotifications : Bool
  durationl : List (Bytes × Int)

def setting (a : Calls σ) : Setting :=
  ⟨a.userid, a.clientid, a.cfg, a.callConfig, a.processingNotifications, a.durationl⟩

section
variable {a : Calls σ}

@[simp] theorem setting_tell {callback : WcallCallback} : (a.tell callback).setting = a.setting := rfl

@[simp] theorem setting_modify : (a.modify convid f).setting = a.setting := rfl

@[simp] theorem setting_remove : (a.remove convid).setting = a.setting := rfl

@[simp] theorem setting_setState : (a.setState convid state).setting = a.setting := by
  rw [setState]
  split
  · rfl
  · split <;> rfl

@[simp] theorem setting_upcall : (a.upcall convid up).setting = a.setting := by
  have told : ∀ {b : Calls σ} {reason : WcallReason} {msgTime : UInt32} {userid : Bytes} {clientid : Option Bytes},
      (b.tellClosed convid reason msgTime userid clientid).setting = b.setting := by
    intro b reason msgTime userid clientid
    rw [tellClosed]
    split <;> rfl
  rw [upcall.eq_def]
  split
  · rfl
  · cases up with
    | start msgTime userid clientid video rings convType =>
      refine Eq.trans ?_ (@setting_setState convid σ .incoming a)
      dsimp only [startHandler, invokeIncomingHandler]
      split
      · rfl
      · split
        · rfl
        · split <;> rfl
    | answer => exact setting_setState
    | mediaEstab userid clientid => exact setting_setState
    | leave reason msgTime => exact told.trans setting_setState
    | close err msgTime userid clientid =>
      dsimp only [closeHandler, setClosed]
      split
      · rfl
      · split
        · rfl
        · rw [setting_remove, told]
          split <;> simp

@[simp] theorem setting_invoke : (a.invoke convid op).1.setting = a.setting := by
  have called : ∀ (ups : List Upcall) (a : Calls σ), (ups.foldl (upcall convid) a).setting = a.setting := by
    intro ups
    induction ups with
    | nil => exact fun _ => rfl
    | cons up rest ih => exact fun a => (ih _).trans setting_upcall
  rw [invoke]
  split
  · rfl
  · exact called _ _

end

/-- What a step leaves: the user, the configuration, an empty list of durations, and the conversations with a call, but
    those that are closed and those in `new`. -/
structure Frame (closing : Prop) (new : List Bytes) (a b : Calls σ) : Prop where
  userid : b.userid = a.userid
  cfg : b.cfg = a.cfg
  callConfig : b.callConfig = a.callConfig
  durations : a.durationl = [] → b.durationl = []
  fewer : ∀ c ∈ b.convids, c ∈ a.convids ∨ c ∈ new
  lasting : closing ∨ ∀ c ∈ a.convids, c ∈ b.convids

section
variable {closing : Prop} {new more : List Bytes} {a b c : Calls σ}

theorem Frame.refl (a : Calls σ) : Frame closing [] a a :=
  ⟨rfl, rfl, rfl, id, fun _ member => .inl member, .inr (fun _ member => member)⟩

/-- One step after another, with what both of them add. -/
theorem Frame.trans (left : Frame closing new a b) (right : Frame closing more b c) :
    Frame closing (new ++ more) a c := by
  refine ⟨right.userid.trans left.userid, right.cfg.trans left.cfg, right.callConfig.trans left.callConfig,
    right.durations ∘ left.durations, ?_, ?_⟩
  · intro convid member
    rcases right.fewer convid member with earlier | added
    · rcases left.fewer convid earlier with first | added
      · exact .inl first
      · exact .inr (mem_append_left _ added)
    · exact .inr (mem_append_right _ added)
  · rcases left.lasting with closes | kept
    · exact .inl closes
    · exact right.lasting.imp id (fun kept' convid member => kept' convid (kept convid member))

theorem Frame.then (left : Frame closing new a b) (right : Frame closing [] b c) : Frame closing new a c := by
  simpa using left.trans right

theorem Frame.widen (frame : Frame closing [] a b) (new : List Bytes) : Frame closing new a b := by
  refine ⟨frame.userid, frame.cfg, frame.callConfig, frame.durations, fun c member => ?_, frame.lasting⟩
  exact (frame.fewer c member).imp id (fun none_ => absurd none_ not_mem_nil)

/-- A step of one call is within the frame if it keeps the call or may close it. -/
theorem Frame.of_lookup (convid : Bytes) (same : b.setting = a.setting) {g : Wcall σ → Option (Wcall σ)}
    (lookup : ∀ other, b.lookup other = if other = convid then (a.lookup other).bind g else a.lookup other)
    (lasts : ¬ closing → ∀ w, (g w).isSome) : Frame closing [] a b := by
  refine ⟨congrArg Setting.userid same, congrArg Setting.cfg same, congrArg Setting.callConfig same,
    (congrArg Setting.durationl same).trans, fun c member => .inl ?_, ?_⟩
  · rw [← lookup_isSome_iff, lookup] at member
    rw [← lookup_isSome_iff]
    split at member
    · exact isSome_of_isSome_bind member
    · exact member
  · refine or_iff_not_imp_left.mpr fun stays c member => ?_
    rw [← lookup_isSome_iff] at member
    rw [← lookup_isSome_iff, lookup]
    split
    · obtain ⟨w, found⟩ := isSome_iff_exists.mp member
      rw [found, bind_some]
      exact lasts stays w
    · exact member

theorem tell_frame {callback : WcallCallback} : Frame closing [] a (a.tell callback) :=
  ⟨rfl, rfl, rfl, id, fun _ member => .inl member, .inr (fun _ member => member)⟩

theorem modify_frame (keeps : ∀ w, (f w).convid = w.convid) :
    Frame closing [] a (a.modify convid f) := by
  refine .of_lookup convid (g := fun w => some (f w)) rfl (fun other => ?_) (fun _ _ => rfl)
  rw [lookup_modify a convid other keeps]
  cases a.lookup other <;> rfl

theorem setState_frame : Frame closing [] a (a.setState convid state) := by
  refine .of_lookup convid (g := fun w => some { w with state }) setting_setState (fun other => ?_) (fun _ _ => rfl)
  rw [lookup_setState]
  cases a.lookup other <;> rfl

theorem upcall_frame (convid : Bytes) (a : Calls σ) (allowed : up.closes → closing) :
    Frame closing [] a (a.upcall convid up) := by
  refine .of_lookup convid setting_upcall (fun _ => lookup_upcall a up) (fun stays w => ?_)
  have kept : up.closes = false := by simpa using fun closes => stays (allowed closes)
  cases up with
  | close _ _ _ _ => cases kept
  | _ => rfl

/-- What a call object does reaches the calls through the handlers only. -/
theorem invoke_frame (allowed : ∀ s, ∀ up ∈ (op s).upcalls, up.closes → closing) :
    Frame closing [] a (a.invoke convid op).1 := by
  refine .of_lookup convid setting_invoke (fun _ => lookup_invoke) (fun stays w => acts_present (fun up member => ?_) _)
  simpa using fun closes => stays (allowed w.icall up member closes)

/-- A call is added only where there is none, with the object that was made. -/
theorem wcallAdd_placed {icall : Icall σ} {meeting : Bool} (added : a.wcallAdd icall convid convType meeting = .ok b) :
    ∃ object, a.lookup convid = none ∧
      icall.alloc a.cfg.config (legacyType a.cfg.config convType) convid meeting = .ok object ∧
      b = a.place convid convType object := by
  rw [wcallAdd] at added
  split at added
  · cases added
  · next absent =>
    split at added
    · cases added
    · next object made =>
      exact ⟨object, not_isSome_iff_eq_none.mp absent, made, (Except.ok.inj added).symm⟩

theorem wcallAdd_frame {icall : Icall σ} {meeting : Bool} (added : a.wcallAdd icall convid convType meeting = .ok b) :
    Frame closing [convid] a b := by
  obtain ⟨object, -, -, rfl⟩ := wcallAdd_placed added
  refine ⟨rfl, rfl, rfl, id, fun other member => ?_, .inr fun other member => ?_⟩
  · simpa [convids, place] using member
  · rw [convids, place, map_append]
    exact mem_append_left _ member

end

/-- The conversation has a call with this property. -/
def Has (P : Wcall σ → Prop) (convid : Bytes) (calls : Calls σ) : Prop := ∃ w, calls.lookup convid = some w ∧ P w

section
variable {P Q : Wcall σ → Prop} {a b : Calls σ}

theorem Has.modify (has : Has P convid a) (keeps : ∀ w, (f w).convid = w.convid)
    (leads : ∀ w, P w → Q (f w)) : Has Q convid (a.modify convid f) := by
  obtain ⟨w, found, holds⟩ := has
  exact ⟨f w, by rw [a.lookup_modify convid convid keeps, if_pos rfl, found, map_some], leads w holds⟩

theorem Has.setState (has : Has P convid a) (state : WcallState) (leads : ∀ w, P w → Q { w with state }) :
    Has Q convid (a.setState convid state) := by
  obtain ⟨w, found, holds⟩ := has
  exact ⟨{ w with state }, by rw [lookup_setState, if_pos rfl, found, map_some], leads w holds⟩

theorem Has.invoke (has : Has P convid a)
    (leads : ∀ w, P w → ∃ w', acts (op w.icall).upcalls { w with icall := (op w.icall).icall } = some w' ∧ Q w') :
    Has Q convid (a.invoke convid op).1 := by
  obtain ⟨w, found, holds⟩ := has
  obtain ⟨w', acted, holds'⟩ := leads w holds
  exact ⟨w', by rw [lookup_invoke, if_pos rfl, found, bind_some, acted], holds'⟩

end

/-- No call of the conversation is in the state in which it was made. -/
def Alive (convid : Bytes) (a : Calls σ) : Prop := ∀ w, a.lookup convid = some w → w.state ≠ .none

theorem alive_of_state (some_ : state ≠ .none) {a : Calls σ} : Alive convid (a.setState convid state) := by
  intro w found
  rw [lookup_setState, if_pos rfl] at found
  obtain ⟨w, -, rfl⟩ := map_eq_some_iff.mp found
  exact some_

/-- What a command does to a call before it asks the call object: it marks the call, sets a state and passes on what it
    was given. -/
inductive Prepares (icall : Icall σ) (convid : Bytes) (a : Calls σ) : Calls σ → Prop
  | refl : Prepares icall convid a a
  | mark {b : Calls σ} (f : Wcall σ → Wcall σ) (convids : ∀ w, (f w).convid = w.convid)
      (states : ∀ w, (f w).state = w.state) (objects : ∀ w, (f w).icall = w.icall) (first : Prepares icall convid a b) :
      Prepares icall convid a (b.modify convid f)
  | state {b : Calls σ} (state : WcallState) (some_ : state ≠ .none) (first : Prepares icall convid a b) :
      Prepares icall convid a (b.setState convid state)
  | video {b : Calls σ} (vstate : VideoState) (first : Prepares icall convid a b) :
      Prepares icall convid a (b.invoke convid (icall.setVideoSendState vstate)).1
  | duration {b : Calls σ} (duration : Int) (first : Prepares icall convid a b) :
      Prepares icall convid a (b.invoke convid (icall.setDuration duration)).1
  | untimed {b : Calls σ} (rest : List (Bytes × Int)) (timed : a.durationl ≠ []) (first : Prepares icall convid a b) :
      Prepares icall convid a { b with durationl := rest }

section
variable {icall : Icall σ} {closing : Prop} {a b : Calls σ} {meeting audioCbr : Bool} {callType : CallType}

theorem takeDuration_prepares (taken : a.takeDuration icall convid = some b) : Prepares icall convid a b := by
  rw [takeDuration] at taken
  split at taken
  · exact some.inj taken ▸ .refl
  · next owner duration rest entries =>
    split at taken
    · obtain rfl := some.inj taken
      refine .untimed rest (by simp [entries]) (.duration duration ?_)
      exact .mark (fun w => { w with duration }) (fun _ => rfl) (fun _ => rfl) (fun _ => rfl) .refl
    · cases taken

/-- A start asks the object of a call whose state is set. -/
theorem iStart_prepares (a : Calls σ) (callType : CallType) (audioCbr meeting : Bool) : ∃ ready told,
    Prepares icall convid a ready ∧ Alive convid ready ∧ Prepares icall convid ready told ∧
      a.iStart icall convid callType audioCbr meeting =
        told.invoke convid (icall.start (plainType callType) audioCbr meeting) := by
  have marked : Prepares icall convid a
      (a.modify convid (fun w => { w with disableAudio := false, videoCall := plainType callType = .video })) :=
    .mark _ (fun _ => rfl) (fun _ => rfl) (fun _ => rfl) .refl
  have outgoing : ∀ {b : Calls σ}, Prepares icall convid a b →
      Prepares icall convid a (b.setOutgoing convid) ∧ Alive convid (b.setOutgoing convid) := by
    intro b prepares
    rw [setOutgoing]
    split
    · exact ⟨prepares.state _ (by decide), alive_of_state (by decide)⟩
    · next other => exact ⟨prepares, fun w found none_ => other (by rw [found]; simp [none_])⟩
  have passed : ∀ {b : Calls σ}, Prepares icall convid b (b.passVideo icall convid (plainType callType)) :=
    .video _ .refl
  refine ⟨_, _, (outgoing marked).1, (outgoing marked).2, ?_, rfl⟩
  rw [passDuration]
  split
  · exact passed
  · split
    · exact passed
    · exact .duration _ passed

theorem iAnswer_prepares (a : Calls σ) (callType : CallType) (audioCbr : Bool) : ∃ told,
    Prepares icall convid a told ∧ (a.iAnswer icall convid callType audioCbr = (told, none) ∨
      a.iAnswer icall convid callType audioCbr =
        told.invoke convid (icall.answer (plainType callType) audioCbr)) := by
  have marked : Prepares icall convid a (a.modify convid (fun w => { w with disableAudio := false })) :=
    .mark _ (fun _ => rfl) (fun _ => rfl) (fun _ => rfl) .refl
  rw [iAnswer]
  split
  · exact ⟨_, marked, .inl rfl⟩
  · exact ⟨_, (marked.state .answered (by decide)).video _, .inr rfl⟩

theorem setTermLocal_prepares : Prepares icall convid a (a.setTermLocal convid) := by
  rw [setTermLocal]
  split
  · exact .refl
  · exact .state _ (by decide) .refl

theorem Prepares.frame (within : icall.Within closing) (prepares : Prepares icall convid a b) :
    Frame closing [] a b := by
  induction prepares with
  | refl => exact .refl a
  | mark f convids _ _ _ frame => exact frame.then (modify_frame convids)
  | state state _ _ frame => exact frame.then setState_frame
  | video vstate _ frame => exact frame.then (invoke_frame (within.setVideoSendState vstate))
  | duration duration _ frame => exact frame.then (invoke_frame (within.setDuration duration))
  | untimed rest timed _ frame =>
    exact ⟨frame.userid, frame.cfg, frame.callConfig, fun none_ => absurd none_ timed, frame.fewer, frame.lasting⟩

theorem Prepares.has {P : σ → Prop} (prepares : Prepares icall convid a b)
    (video : ∀ vstate s, P s → P (icall.setVideoSendState vstate s).icall ∧
      ∀ up ∈ (icall.setVideoSendState vstate s).upcalls, up.closes = false)
    (duration : ∀ duration s, P s → P (icall.setDuration duration s).icall ∧
      ∀ up ∈ (icall.setDuration duration s).upcalls, up.closes = false)
    (has : Has (fun w => P w.icall) convid a) : Has (fun w => P w.icall) convid b := by
  have invoked : ∀ {a : Calls σ} {op : σ → IcallReply σ}, Has (fun w => P w.icall) convid a →
      (∀ s, P s → P (op s).icall ∧ ∀ up ∈ (op s).upcalls, up.closes = false) →
      Has (fun w => P w.icall) convid (a.invoke convid op).1 := by
    intro a op has keeps
    refine has.invoke fun w holds => ?_
    obtain ⟨kept, stays⟩ := keeps w.icall holds
    obtain ⟨w', acted⟩ := isSome_iff_exists.mp (acts_present stays { w with icall := (op w.icall).icall })
    exact ⟨w', acted, by rw [acts_icall acted]; exact kept⟩
  induction prepares with
  | refl => exact has
  | mark f convids _ objects _ has => exact has.modify convids (fun w holds => by rw [objects]; exact holds)
  | state state _ _ has => exact has.setState state (fun _ => id)
  | video vstate _ has => exact invoked has (video vstate)
  | duration d _ has => exact invoked has (duration d)
  | untimed rest _ _ has => exact has

/-- The conversation a command may make a call in. -/
def opened (cmd : Bytes × Command) : List Bytes :=
  match cmd.2 with
  | .start _ _ _ _ => [cmd.1]
  | _ => []

/-- The ways in which a command is carried out. A start makes a call where there is none, or fails to. -/
inductive Execution (icall : Icall σ) (convid : Bytes) (a : Calls σ) : Command → Calls σ → Prop
  | absent (cmd : Command) (none_ : opened (convid, cmd) = []) (absent : a.lookup convid = none) :
      Execution icall convid a cmd a
  | refused (callType : CallType) (convType : ConvType) (audioCbr meeting : Bool) (err : Errno)
      (absent : a.lookup convid = none) (refused : a.wcallAdd icall convid convType meeting = .error err) :
      Execution icall convid a (.start callType convType audioCbr meeting) a
  | start (callType : CallType) (convType : ConvType) (audioCbr meeting : Bool) (mid timed : Calls σ)
      (made : (a.lookup convid).isSome ∧ mid = a ∨ a.wcallAdd icall convid convType meeting = .ok mid)
      (taken : mid.takeDuration icall convid = some timed) :
      Execution icall convid a (.start callType convType audioCbr meeting)
        (endOnErr icall convid (timed.iStart icall convid callType audioCbr meeting))
  | answer (callType : CallType) (audioCbr : Bool) (w : Wcall σ) (found : a.lookup convid = some w) :
      Execution icall convid a (.answer callType audioCbr)
        (endOnErr icall convid (a.iAnswer icall convid callType audioCbr))
  | reject (w : Wcall σ) (found : a.lookup convid = some w) : Execution icall convid a .reject (a.iReject icall w)
  | end_ (w : Wcall σ) (found : a.lookup convid = some w) : Execution icall convid a .end_ (a.iEnd icall convid)

theorem execute_execution {cmd : Command} (executed : a.execute icall convid cmd = some b) :
    Execution icall convid a cmd b := by
  cases cmd with
  | start callType convType audioCbr meeting =>
    simp only [execute] at executed
    split at executed
    · next err refused =>
      obtain rfl := some.inj executed
      split at refused
      · cases refused
      · next absent => exact .refused _ _ _ _ err (not_isSome_iff_eq_none.mp absent) refused
    · next mid made =>
      obtain ⟨timed, taken, rfl⟩ := map_eq_some_iff.mp executed
      refine .start _ convType _ _ mid timed ?_ taken
      split at made
      · next present => exact .inl ⟨present, (Except.ok.inj made).symm⟩
      · exact .inr made
  | answer | reject | end_ =>
    simp only [execute] at executed
    split at executed
    · next absent => exact some.inj executed ▸ .absent _ rfl absent
    · next w found => exact some.inj executed ▸ by constructor; exact found

section
variable (within : icall.Within closing)
include within

theorem iEnd_frame : Frame closing [] a (a.iEnd icall convid) :=
  ((setTermLocal_prepares.frame within).then (invoke_frame within.end_)).then (modify_frame (fun _ => rfl))

theorem endOnErr_frame {result : Calls σ × Option Errno}
    (frame : Frame closing [] a result.1) : Frame closing [] a (endOnErr icall convid result) := by
  rw [endOnErr]
  split
  · exact frame.then (iEnd_frame within)
  · exact frame

theorem start_frame {timed : Calls σ} (taken : a.takeDuration icall convid = some timed) :
    Frame closing [] a (endOnErr icall convid (timed.iStart icall convid callType audioCbr meeting)) := by
  obtain ⟨ready, told, outgoing, -, passed, asked⟩ :=
    @iStart_prepares convid _ icall timed callType audioCbr meeting
  have first := ((takeDuration_prepares taken).frame within).then (outgoing.frame within)
  rw [asked]
  exact endOnErr_frame within ((first.then (passed.frame within)).then (invoke_frame (within.start _ _ _)))

/-- A command adds a call only where it is a start. -/
theorem execute_frame {cmd : Command} (executed : a.execute icall convid cmd = some b) :
    Frame closing (opened (convid, cmd)) a b := by
  cases execute_execution executed with
  | absent _ none_ => exact none_ ▸ .refl a
  | refused => exact (Frame.refl a).widen _
  | start callType convType audioCbr meeting mid timed made taken =>
    have frame := @start_frame convid _ _ _ _ meeting audioCbr callType within timed taken
    rcases made with ⟨-, rfl⟩ | added
    · exact frame.widen _
    · exact (wcallAdd_frame added).then frame
  | answer callType audioCbr w found =>
    obtain ⟨told, prepares, asked⟩ := @iAnswer_prepares convid _ icall a callType audioCbr
    refine endOnErr_frame within ?_
    rcases asked with asked | asked
    · rw [asked]
      exact prepares.frame within
    · rw [asked]
      exact (prepares.frame within).then (invoke_frame (within.answer _ _))
  | reject w found =>
    have marked : Frame closing [] a (a.modify w.convid (fun w => { w with disableAudio := true })) :=
      modify_frame (fun _ => rfl)
    rw [iReject]
    split
    · exact (marked.then (invoke_frame within.reject)).then tell_frame
    · exact marked
  | end_ w found => exact iEnd_frame within

/-- The same of a sequence of commands. -/
theorem run_frame {cmds : List (Bytes × Command)} :
    ∀ {a : Calls σ}, Runs.run (fun cmd calls => calls.execute icall cmd.1 cmd.2) a cmds = some b →
      Frame closing (cmds.flatMap opened) a b := by
  induction cmds with
  | nil =>
    intro a ran
    obtain rfl := some.inj ran
    exact .refl a
  | cons cmd rest ih =>
    intro a ran
    obtain ⟨mid, executed, ran'⟩ := Runs.run_cons.mp ran
    rw [flatMap_cons]
    exact (execute_frame within executed).trans (ih ran')

end

end

end Calls
end Avs
