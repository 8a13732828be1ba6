import Avs.WcallFrame

/-!
A batch of notifications, between `wcall_process_notifications(true)` and the matching `(false)`. What is owed
for a conversation is its first announcement since it was last closed, without ringing if it was left
(`owed`). The start handler looks for a pending event to merge with by the id of the sender, not of the
conversation, and a close leaves the pending event where it is.
-/
namespace Avs
open List Option

/-- What happens in a batch. -/
inductive Notice
  | incoming (event : IncomingEvent)
  | leave (convid : Bytes) (reason : WcallReason) (msgTime : UInt32)
  | close (convid : Bytes) (err : Option Errno) (msgTime : UInt32) (userid clientid : Option Bytes)

def Notice.convid : Notice → Bytes
  | .incoming event => event.convid
  | .leave convid _ _ => convid
  | .close convid _ _ _ _ => convid

namespace Calls

variable {σ : Type} {convid : Bytes} {notices : List Notice} {n : Notice} {ie : IncomingEvent}
  {eventl : List IncomingEvent}

/-- The call of a conversation, with a new object if there was no call. -/
def arrive (object : σ) (convid : Bytes) (convType : ConvType) (calls : Calls σ) : Calls σ :=
  match calls.lookup convid with
  | some _ => calls
  | none => calls.place convid convType object

/-- The object of a call calls its handler. For an announcement there is a call first. -/
def notify (object : σ) (calls : Calls σ) : Notice → Calls σ
  | .incoming ie =>
    (calls.arrive object ie.convid ie.convType).upcall ie.convid
      (.start ie.msgTime ie.userid ie.clientid ie.videoCall ie.shouldRing ie.convType)
  | .leave convid reason msgTime => calls.upcall convid (.leave reason msgTime)
  | .close convid err msgTime userid clientid => calls.upcall convid (.close err msgTime userid clientid)

def batch (object : σ) (notices : List Notice) (calls : Calls σ) : Calls σ :=
  (notices.foldl (notify object) (calls.processNotifications true)).processNotifications false

/-- An incoming call of a conversation, if that is what the application is told. -/
def heard (convid : Bytes) : WcallCallback → Option IncomingEvent
  | .incoming ie => if ie.convid = convid then some ie else none
  | _ => none

def told (convid : Bytes) (calls : Calls σ) : List IncomingEvent := calls.out.filterMap (heard convid)

/-- What one more notice makes of what is owed. -/
def owe (convid : Bytes) (due : Option IncomingEvent) : Notice → Option IncomingEvent
  | .incoming ie => if ie.convid = convid then due.or (some ie) else due
  | .leave left _ _ => if left = convid then due.map (fun ie => { ie with shouldRing := false }) else due
  | .close closed _ _ _ _ => if closed = convid then none else due

/-- The report a batch owes for a conversation. -/
def owed (convid : Bytes) (notices : List Notice) : Option IncomingEvent := notices.foldl (owe convid) none

/-- The batch reports for each conversation what it owes. -/
def Reported (object : σ) (notices : List Notice) (calls : Calls σ) : Prop :=
  ∀ convid, told convid (calls.batch object notices) = told convid calls ++ (owed convid notices).toList

/-- A notice without what only its report needs: its kind and the ids that are compared. -/
inductive Outline
  | incoming (convid userid : Bytes)
  | leave (convid : Bytes)
  | close (convid : Bytes)
  deriving DecidableEq, Repr

def outline : Notice → Outline
  | .incoming ie => .incoming ie.convid ie.userid
  | .leave convid _ _ => .leave convid
  | .close convid _ _ _ _ => .close convid

/-- The conversation that is announced. -/
def Outline.announces : Outline → Option Bytes
  | .incoming convid _ => some convid
  | _ => none

/-- The second has not the id of the conversation that the first announces. -/
def Outline.Apart (first later : Outline) : Prop :=
  match first, later with
  | .incoming earlier _, .incoming convid userid => convid ≠ earlier ∧ userid ≠ earlier
  | _, _ => True

def Distinct (outlines : List Outline) : Prop := outlines.Pairwise Outline.Apart

variable {outlines : List Outline}

theorem owed_append : owed convid (notices ++ [n]) = owe convid (owed convid notices) n := by
  rw [owed, foldl_append]
  rfl

theorem owe_other (other : convid ≠ n.convid) {due : Option IncomingEvent} : owe convid due n = due := by
  cases n <;> exact if_neg (Ne.symm other)

theorem owed_convid : ∀ {ie : IncomingEvent}, owed convid notices = some ie → ie.convid = convid := by
  induction notices using List.reverseRecOn with
  | nil =>
    intro ie due
    cases due
  | append_singleton front n ih =>
    intro ie due
    rw [owed_append] at due
    cases n with
    | incoming event =>
      rw [owe] at due
      split at due
      · next same =>
        cases before : owed convid front with
        | none =>
          rw [before] at due
          obtain rfl := some.inj due
          exact same
        | some earlier =>
          rw [before] at due
          obtain rfl := some.inj due
          exact ih before
      · exact ih due
    | leave left reason msgTime =>
      rw [owe] at due
      split at due
      · obtain ⟨earlier, before, rfl⟩ := map_eq_some_iff.mp due
        have same : earlier.convid = convid := ih before
        exact same
      · exact ih due
    | close closed err msgTime userid clientid =>
      rw [owe] at due
      split at due
      · cases due
      · exact ih due

def announced (notices : List Notice) : List Bytes := notices.filterMap (fun n => (outline n).announces)

theorem announced_append (notices : List Notice) (n : Notice) :
    announced (notices ++ [n]) = announced notices ++ (outline n).announces.toList := by
  rw [announced, filterMap_append]
  cases found : (outline n).announces <;> simp [announced, found]

theorem announced_other (other : convid ≠ n.convid) :
    convid ∈ announced (notices ++ [n]) ↔ convid ∈ announced notices := by
  rw [announced_append, mem_append]
  cases n with
  | incoming event =>
    have differ : convid ≠ event.convid := other
    simp [outline, Outline.announces, differ]
  | leave left reason msgTime => simp [outline, Outline.announces]
  | close closed err msgTime userid clientid => simp [outline, Outline.announces]

theorem owed_announced (fresh : convid ∉ announced notices) : owed convid notices = none := by
  induction notices using List.reverseRecOn with
  | nil => rfl
  | append_singleton front n ih =>
    rw [announced, filterMap_append, mem_append, not_or] at fresh
    rw [owed_append, ih fresh.1]
    cases n with
    | incoming event =>
      rw [owe, if_neg]
      rintro rfl
      exact fresh.2 (by simp [outline, Outline.announces])
    | leave left reason msgTime => simp [owe]
    | close closed err msgTime userid clientid => simp [owe]

def Ringing (convid : Bytes) (calls : Calls σ) : Prop := (calls.lookup convid).any (·.state = .incoming) = true

instance (convid : Bytes) (calls : Calls σ) : Decidable (Ringing convid calls) := inferInstanceAs (Decidable (_ = true))

/-- What a handler does in a batch: it leaves these events pending, reports no incoming call and does not touch the
    calls of other conversations. -/
structure Effect (convid : Bytes) (eventl : List IncomingEvent) (a b : Calls σ) : Prop where
  processing : b.processingNotifications = a.processingNotifications
  pending : b.pendingEventl = eventl
  quiet : ∀ c, told c b = told c a
  others : ∀ c, c ≠ convid → b.lookup c = a.lookup c

section
variable {a b c : Calls σ} {reason : WcallReason} {msgTime : UInt32}

theorem Effect.refl (convid : Bytes) (a : Calls σ) : Effect convid a.pendingEventl a a :=
  ⟨rfl, rfl, fun _ => rfl, fun _ _ => rfl⟩

theorem Effect.trans (left : Effect convid a.pendingEventl a b) (right : Effect convid b.pendingEventl b c) :
    Effect convid a.pendingEventl a c :=
  ⟨right.processing.trans left.processing, right.pending.trans left.pending,
    fun d => (right.quiet d).trans (left.quiet d), fun d other => (right.others d other).trans (left.others d other)⟩

theorem Effect.noting (effect : Effect convid a.pendingEventl a b) (eventl : List IncomingEvent) :
    Effect convid eventl a { b with pendingEventl := eventl } :=
  ⟨effect.processing, rfl, effect.quiet, effect.others⟩

theorem tell_effect {callback : WcallCallback} (other : ∀ c, heard c callback = none) :
    Effect convid a.pendingEventl a (a.tell callback) := by
  refine ⟨rfl, rfl, fun c => ?_, fun _ _ => rfl⟩
  rw [told, tell, filterMap_append]
  simp [told, other]

theorem modify_effect {f : Wcall σ → Wcall σ} (keeps : ∀ w, (f w).convid = w.convid) :
    Effect convid a.pendingEventl a (a.modify convid f) := by
  refine ⟨rfl, rfl, fun _ => rfl, fun d other => ?_⟩
  rw [lookup_modify a convid d keeps, if_neg other]

theorem setState_effect {state : WcallState} :
    Effect convid a.pendingEventl a (a.setState convid state) := by
  have marked : Effect convid a.pendingEventl a (a.modify convid (fun w => { w with state })) :=
    modify_effect (fun _ => rfl)
  rw [setState]
  split
  · exact .refl convid a
  · split
    · exact marked
    · exact marked.trans (tell_effect (fun _ => rfl))

theorem remove_effect : Effect convid a.pendingEventl a (a.remove convid) := by
  refine ⟨rfl, rfl, fun _ => rfl, fun d other => ?_⟩
  rw [lookup_remove, if_neg other]

theorem tellClosed_effect (reason : WcallReason) (msgTime : UInt32) (userid : Bytes)
    (clientid : Option Bytes) :
    Effect convid a.pendingEventl a (a.tellClosed convid reason msgTime userid clientid) := by
  rw [tellClosed]
  split
  · exact .refl convid a
  · exact tell_effect (fun _ => rfl)

theorem arrive_effect (object : σ) (convType : ConvType) (a : Calls σ) :
    Effect convid a.pendingEventl a (a.arrive object convid convType) ∧
      ((a.arrive object convid convType).lookup convid).isSome := by
  rw [arrive]
  split
  · next found => exact ⟨.refl convid a, by simp [found]⟩
  · next absent =>
    refine ⟨⟨rfl, rfl, fun _ => rfl, fun d other => ?_⟩, ?_⟩
    · rw [lookup_place a convid d convType object absent, if_neg other]
    · rw [lookup_place a convid convid convType object absent, if_pos rfl]
      rfl

theorem setState_ringing (found : (a.lookup convid).isSome) : Ringing convid (a.setState convid .incoming) := by
  obtain ⟨w, found⟩ := isSome_iff_exists.mp found
  rw [Ringing, lookup_setState, if_pos rfl, found]
  rfl

theorem Ringing.modify (ringing : Ringing convid a) {f : Wcall σ → Wcall σ} (keeps : ∀ w, (f w).convid = w.convid)
    (state : ∀ w, (f w).state = w.state) : Ringing convid (a.modify convid f) := by
  rw [Ringing, lookup_modify a convid convid keeps, if_pos rfl]
  rw [Ringing] at ringing
  cases found : a.lookup convid with
  | none =>
    rw [found] at ringing
    cases ringing
  | some w =>
    rw [found] at ringing
    simpa [state] using ringing

theorem notify_incoming {object : σ} (processing : a.processingNotifications = true) :
    Effect ie.convid (appendEvent a.pendingEventl ie) a (a.notify object (.incoming ie)) ∧
      Ringing ie.convid (a.notify object (.incoming ie)) := by
  obtain ⟨arrived, found⟩ := @arrive_effect _ ie.convid object ie.convType a
  obtain ⟨w, isCall⟩ := isSome_iff_exists.mp found
  have marked : Effect ie.convid a.pendingEventl a
      (((a.arrive object ie.convid ie.convType).setState ie.convid .incoming).modify ie.convid
        (fun w => { w with videoCall := ie.videoCall, disableAudio := !ie.shouldRing })) :=
    (arrived.trans setState_effect).trans (modify_effect (fun _ => rfl))
  have ringing := (setState_ringing found).modify
    (f := fun w => { w with videoCall := ie.videoCall, disableAudio := !ie.shouldRing }) (fun _ => rfl) (fun _ => rfl)
  rw [notify, upcall.eq_def, isCall]
  dsimp only
  rw [startHandler, if_pos (arrived.processing.trans processing), arrived.pending]
  exact ⟨marked.noting _, ringing⟩

theorem ignoreClose_processing (processing : a.processingNotifications = true) :
    a.ignoreClose convid = (findPendingEvent a.pendingEventl convid).isSome := by
  rw [ignoreClose, processing, Bool.true_and]

theorem silence_absent (absent : convid ∉ eventl.map (·.convid)) : silence eventl convid = eventl := by
  induction eventl with
  | nil => rfl
  | cons ie rest ih =>
    rw [map_cons, mem_cons, not_or] at absent
    rw [silence, if_neg (Ne.symm absent.1), ih absent.2]

theorem findPendingEvent_none_iff : findPendingEvent eventl convid = none ↔ convid ∉ eventl.map (·.convid) := by
  simp [findPendingEvent]

theorem Effect.ignoreClose (effect : Effect convid a.pendingEventl a b) (other : Bytes) :
    b.ignoreClose other = a.ignoreClose other := by
  rw [Calls.ignoreClose, Calls.ignoreClose, effect.processing, effect.pending]

/-- A leave is noted in the pending event, if closes are kept from the application. -/
theorem leaveHandler_effect :
    Effect convid (if a.ignoreClose convid then silence a.pendingEventl convid else a.pendingEventl) a
      (a.leaveHandler convid reason msgTime) := by
  have left : Effect convid a.pendingEventl a (a.setState convid .incoming) := setState_effect
  have told := left.trans (tellClosed_effect (leaveReason reason) msgTime a.userid (some a.clientid))
  have marked := told.trans (modify_effect (f := fun w => { w with disableAudio := true }) (fun _ => rfl))
  dsimp only [leaveHandler]
  rw [told.pending, left.ignoreClose]
  exact marked.noting _

theorem notify_leave {object : σ} (processing : a.processingNotifications = true)
    (found : (a.lookup convid).isSome) :
    Effect convid (silence a.pendingEventl convid) a (a.notify object (.leave convid reason msgTime)) ∧
      Ringing convid (a.notify object (.leave convid reason msgTime)) := by
  obtain ⟨w, isCall⟩ := isSome_iff_exists.mp found
  have silent : (if a.ignoreClose convid then silence a.pendingEventl convid else a.pendingEventl) =
      silence a.pendingEventl convid := by
    rw [ignoreClose_processing processing]
    split
    · rfl
    · next none_ =>
      exact (silence_absent (findPendingEvent_none_iff.mp (not_isSome_iff_eq_none.mp none_))).symm
  have ringing : Ringing convid ((a.setState convid .incoming).tellClosed convid (leaveReason reason) msgTime a.userid
      (some a.clientid)) := by
    rw [tellClosed]
    split
    · exact setState_ringing found
    · exact setState_ringing found
  rw [notify, upcall.eq_def, isCall]
  exact ⟨silent ▸ leaveHandler_effect, Ringing.modify ringing (fun _ => rfl) (fun _ => rfl)⟩

theorem notify_close (object : σ) (a : Calls σ) (err : Option Errno) (msgTime : UInt32)
    (userid clientid : Option Bytes) :
    Effect convid a.pendingEventl a (a.notify object (.close convid err msgTime userid clientid)) ∧
      (a.notify object (.close convid err msgTime userid clientid)).lookup convid = none := by
  rw [notify, upcall.eq_def]
  split
  · next absent => exact ⟨.refl convid a, absent⟩
  · next w isCall =>
    dsimp only
    rw [closeHandler, isCall]
    dsimp only
    split
    · exact ⟨remove_effect, by rw [lookup_remove, if_pos rfl]⟩
    · refine ⟨?_, by rw [lookup_remove, if_pos rfl]⟩
      refine Effect.trans ?_ remove_effect
      refine Effect.trans ?_ (tellClosed_effect _ _ _ _)
      rw [setClosed]
      split
      · exact setState_effect
      · exact setState_effect.trans setState_effect

theorem notify_leave_absent {object : σ} (absent : a.lookup convid = none)
    : a.notify object (.leave convid reason msgTime) = a := by
  rw [notify, upcall.eq_def, absent]

def reports (calls : Calls σ) (convid : Bytes) (eventl : List IncomingEvent) : List IncomingEvent :=
  if Ringing convid calls then eventl.filter (fun ie => ie.convid = convid) else []

theorem invokeIncomingHandler_eq :
    a.invokeIncomingHandler ie = if Ringing ie.convid a then a.tell (.incoming ie) else a := by
  rw [invokeIncomingHandler]
  split
  · next absent => rw [if_neg (by simp [Ringing, absent])]
  · next w found =>
    have iff_ : Ringing ie.convid a ↔ w.state = .incoming := by simp [Ringing, found]
    simp only [iff_]

theorem told_reported : ∀ (a : Calls σ), told convid (eventl.foldl (fun c ie => c.invokeIncomingHandler ie) a) =
      told convid a ++ reports a convid eventl := by
  induction eventl with
  | nil =>
    intro a
    simp [reports]
  | cons ie rest ih =>
    intro a
    have same : reports (a.invokeIncomingHandler ie) convid rest = reports a convid rest := by
      rw [reports, reports, invokeIncomingHandler_eq]
      split <;> rfl
    rw [foldl_cons, ih, same, invokeIncomingHandler_eq]
    by_cases here : ie.convid = convid
    · subst here
      by_cases ringing : Ringing ie.convid a
      · rw [if_pos ringing, reports, if_pos ringing, reports, if_pos ringing]
        simp [told, tell, heard]
      · rw [if_neg ringing, reports, if_neg ringing, reports, if_neg ringing]
    · have unheard : told convid (if Ringing ie.convid a then a.tell (.incoming ie) else a) = told convid a := by
        split
        · simp [told, tell, heard, here]
        · rfl
      rw [unheard, reports, reports, filter_cons_of_neg (by simpa using here)]

end

/-- What holds in a batch after some notices. A pending event of a call that was closed stays, but its conversation has
    no call. -/
structure Noted (start : Calls σ) (notices : List Notice) (calls : Calls σ) : Prop where
  processing : calls.processingNotifications = true
  quiet : ∀ c, told c calls = told c start
  unique : (calls.pendingEventl.map (·.convid)).Nodup
  listed : ∀ c, c ∈ calls.pendingEventl.map (·.convid) ↔ c ∈ announced notices
  values : ∀ e ∈ calls.pendingEventl, ∃ ie, .incoming ie ∈ notices ∧ e.clientid = ie.clientid ∧ e.msgTime = ie.msgTime
  due : ∀ c ie, owed c notices = some ie → ie ∈ calls.pendingEventl ∧ Ringing c calls
  settled : ∀ c, owed c notices = none → calls.lookup c = none ∨ c ∉ calls.pendingEventl.map (·.convid)

section
variable {start calls : Calls σ}

theorem filter_unique (unique : (eventl.map (·.convid)).Nodup)
    (member : ie ∈ eventl) : eventl.filter (fun e => e.convid = ie.convid) = [ie] := by
  induction eventl with
  | nil => cases member
  | cons e rest ih =>
    rw [map_cons, nodup_cons] at unique
    rcases mem_cons.mp member with rfl | later
    · have none_ : rest.filter (fun e => e.convid = ie.convid) = [] := by
        refine filter_eq_nil_iff.mpr (fun e listed => ?_)
        rw [decide_eq_true_iff]
        exact fun same => unique.1 (same ▸ List.mem_map_of_mem listed)
      simp [none_]
    · have other : e.convid ≠ ie.convid := fun same => unique.1 (same ▸ List.mem_map_of_mem later)
      rw [filter_cons_of_neg (by simpa using other), ih unique.2 later]

theorem told_processed (processing : calls.processingNotifications = true) :
    told convid (calls.processNotifications false) = told convid calls ++ reports calls convid calls.pendingEventl := by
  rw [processNotifications, processing]
  exact told_reported { calls with processingNotifications := false }

theorem Noted.reported (noted : Noted start notices calls) (convid : Bytes) :
    told convid (calls.processNotifications false) = told convid start ++ (owed convid notices).toList := by
  rw [told_processed noted.processing, noted.quiet]
  congr 1
  cases isDue : owed convid notices with
  | none =>
    rcases noted.settled convid isDue with absent | unlisted
    · simp [reports, Ringing, absent]
    · rw [reports]
      split
      · refine filter_eq_nil_iff.mpr (fun e listed => ?_)
        rw [decide_eq_true_iff]
        exact fun same => unlisted (same ▸ List.mem_map_of_mem listed)
      · rfl
  | some ie =>
    obtain ⟨member, ringing⟩ := noted.due convid ie isDue
    obtain rfl := owed_convid isDue
    rw [reports, if_pos ringing, filter_unique noted.unique member]
    rfl

/-- One more notice, of which only its own conversation needs a look. -/
theorem Noted.step (noted : Noted start notices calls) {calls' : Calls σ}
    (effect : Effect n.convid eventl calls calls') (unique : (eventl.map (·.convid)).Nodup)
    (kept : ∀ c, c ∈ eventl.map (·.convid) ↔ c ∈ announced (notices ++ [n]))
    (values : ∀ e ∈ eventl, (∃ ie ∈ calls.pendingEventl, e.clientid = ie.clientid ∧ e.msgTime = ie.msgTime) ∨
      n = .incoming e)
    (others : ∀ e ∈ calls.pendingEventl, e.convid ≠ n.convid → e ∈ eventl)
    (due : ∀ ie, owed n.convid (notices ++ [n]) = some ie → ie ∈ eventl ∧ Ringing n.convid calls')
    (settled : owed n.convid (notices ++ [n]) = none →
      calls'.lookup n.convid = none ∨ n.convid ∉ eventl.map (·.convid)) :
    Noted start (notices ++ [n]) calls' := by
  obtain ⟨processing, rfl, quiet, sameCalls⟩ := effect
  refine ⟨processing.trans noted.processing, fun c => (quiet c).trans (noted.quiet c), unique, kept, ?_, ?_, ?_⟩
  · intro e member
    rcases values e member with ⟨ie, isIn, client, time⟩ | rfl
    · obtain ⟨first, isNotice, client', time'⟩ := noted.values ie isIn
      exact ⟨first, mem_append_left _ isNotice, client.trans client', time.trans time'⟩
    · exact ⟨e, by simp, rfl, rfl⟩
  · intro c ie isDue
    by_cases here : c = n.convid
    · subst here
      exact due ie isDue
    · rw [owed_append, owe_other here] at isDue
      obtain ⟨member, rings⟩ := noted.due c ie isDue
      refine ⟨others ie member ?_, ?_⟩
      · rw [owed_convid isDue]
        exact here
      · rw [Ringing, sameCalls c here]
        exact rings
  · intro c isDue
    by_cases here : c = n.convid
    · subst here
      exact settled isDue
    · rw [owed_append, owe_other here] at isDue
      refine (noted.settled c isDue).imp (sameCalls c here).trans (fun unlisted listed => unlisted ?_)
      exact (noted.listed c).mpr ((announced_other here).mp ((kept c).mp listed))

/-- An announcement that has no earlier announcement's conversation id. -/
theorem Noted.incoming (object : σ) (noted : Noted start notices calls)
    (newConv : ie.convid ∉ announced notices) (newSender : ie.userid ∉ announced notices) :
    Noted start (notices ++ [.incoming ie]) (calls.notify object (.incoming ie)) := by
  obtain ⟨effect, ringing⟩ := notify_incoming noted.processing
  have alone : findPendingEvent calls.pendingEventl ie.userid = none :=
    findPendingEvent_none_iff.mpr (fun listed => newSender ((noted.listed _).mp listed))
  have isDue : owed ie.convid (notices ++ [.incoming ie]) = some ie := by
    rw [owed_append, owe, if_pos rfl, owed_announced newConv]
    rfl
  rw [appendEvent, alone] at effect
  refine noted.step effect ?_ ?_ ?_ ?_ ?_ ?_
  · rw [map_append, nodup_append]
    refine ⟨noted.unique, nodup_singleton _, fun c listed d new same => newConv ?_⟩
    have isNew : c = ie.convid := same.trans (mem_singleton.mp new)
    exact isNew ▸ (noted.listed c).mp listed
  · intro c
    rw [map_append, mem_append, noted.listed, announced_append, mem_append]
    rfl
  · intro e member
    rcases mem_append.mp member with earlier | new
    · exact .inl ⟨e, earlier, rfl, rfl⟩
    · exact .inr (by rw [mem_singleton.mp new])
  · exact fun e member _ => mem_append_left _ member
  · intro event isDue'
    obtain rfl := some.inj (isDue.symm.trans isDue')
    exact ⟨by simp, ringing⟩
  · intro none_
    exact absurd (isDue.symm.trans none_) (by simp)

theorem Noted.close (object : σ) (noted : Noted start notices calls) (convid : Bytes) (err : Option Errno)
    (msgTime : UInt32) (userid clientid : Option Bytes) :
    Noted start (notices ++ [.close convid err msgTime userid clientid])
      (calls.notify object (.close convid err msgTime userid clientid)) := by
  obtain ⟨effect, gone⟩ := @notify_close _ convid object calls err msgTime userid clientid
  refine noted.step effect noted.unique (fun c => ?_) ?_ (fun _ member _ => member) ?_ (fun _ => .inl gone)
  · rw [noted.listed, announced_append]
    simp [outline, Outline.announces]
  · exact fun e member => .inl ⟨e, member, rfl, rfl⟩
  · intro ie isDue
    rw [owed_append, owe, Notice.convid, if_pos rfl] at isDue
    cases isDue

end

section
theorem silence_convids : (silence eventl convid).map (·.convid) = eventl.map (·.convid) := by
  induction eventl with
  | nil => rfl
  | cons ie rest ih =>
    rw [silence]
    split
    · rfl
    · rw [map_cons, ih, map_cons]

theorem leave_convids {a : Calls σ} :
    (if a.ignoreClose convid then silence a.pendingEventl convid else a.pendingEventl).map (·.convid) =
      a.pendingEventl.map (·.convid) := by
  split
  · exact silence_convids
  · rfl

variable {e : IncomingEvent}

theorem mem_silence (member : e ∈ silence eventl convid) :
    ∃ ie ∈ eventl, e.clientid = ie.clientid ∧ e.msgTime = ie.msgTime := by
  induction eventl with
  | nil => cases member
  | cons ie rest ih =>
    rw [silence] at member
    split at member
    · rcases mem_cons.mp member with rfl | later
      · exact ⟨ie, by simp, rfl, rfl⟩
      · exact ⟨e, by simp [later], rfl, rfl⟩
    · rcases mem_cons.mp member with rfl | later
      · exact ⟨e, by simp, rfl, rfl⟩
      · obtain ⟨first, isIn, same⟩ := ih later
        exact ⟨first, by simp [isIn], same⟩

theorem silence_other (member : e ∈ eventl) (other : e.convid ≠ convid) : e ∈ silence eventl convid := by
  induction eventl with
  | nil => cases member
  | cons ie rest ih =>
    rw [silence]
    rcases mem_cons.mp member with rfl | later
    · rw [if_neg other]
      exact mem_cons_self
    · split
      · exact mem_cons_of_mem _ later
      · exact mem_cons_of_mem _ (ih later)

theorem silence_self (unique : (eventl.map (·.convid)).Nodup) (member : e ∈ eventl) :
    { e with shouldRing := false } ∈ silence eventl e.convid := by
  induction eventl with
  | nil => cases member
  | cons ie rest ih =>
    rw [map_cons, nodup_cons] at unique
    rw [silence]
    rcases mem_cons.mp member with rfl | later
    · rw [if_pos rfl]
      exact mem_cons_self
    · rw [if_neg (fun same : ie.convid = e.convid => unique.1 (same ▸ List.mem_map_of_mem later))]
      exact mem_cons_of_mem _ (ih unique.2 later)

end

section
variable {start calls : Calls σ}

theorem Noted.leave (object : σ) (noted : Noted start notices calls) (convid : Bytes) (reason : WcallReason)
    (msgTime : UInt32) :
    Noted start (notices ++ [.leave convid reason msgTime]) (calls.notify object (.leave convid reason msgTime)) := by
  have same : announced (notices ++ [.leave convid reason msgTime]) = announced notices := by
    rw [announced_append]
    simp [outline, Outline.announces]
  have owed_ : owed convid (notices ++ [.leave convid reason msgTime]) =
      (owed convid notices).map (fun ie => { ie with shouldRing := false }) := by
    rw [owed_append, owe, if_pos rfl]
  by_cases found : (calls.lookup convid).isSome
  · obtain ⟨effect, ringing⟩ := notify_leave noted.processing found
    refine noted.step effect ?_ ?_ ?_ (fun _ member other => silence_other member other) ?_ ?_
    · rw [silence_convids]
      exact noted.unique
    · intro c
      rw [silence_convids, noted.listed, same]
    · exact fun e member => .inl (mem_silence member)
    · intro event isDue
      obtain ⟨ie, before, rfl⟩ := map_eq_some_iff.mp (owed_.symm.trans isDue)
      obtain ⟨member, -⟩ := noted.due convid ie before
      obtain rfl := owed_convid before
      exact ⟨silence_self noted.unique member, ringing⟩
    · intro isDue
      rw [silence_convids]
      have before : owed convid notices = none := map_eq_none_iff.mp (owed_.symm.trans isDue)
      refine .inr ((noted.settled convid before).resolve_left ?_)
      exact fun absent => absurd found (by simp [absent])
  · -- Without a call nothing is owed, so there is nothing to make silent.
    have absent : calls.lookup convid = none := not_isSome_iff_eq_none.mp found
    have unowed : owed convid notices = none := by
      refine eq_none_iff_forall_ne_some.mpr (fun ie isDue => ?_)
      have rings := (noted.due convid ie isDue).2
      rw [Ringing, absent] at rings
      cases rings
    rw [unowed, map_none] at owed_
    rw [notify_leave_absent absent]
    refine noted.step (.refl _ calls) noted.unique (fun c => ?_) ?_ (fun _ member _ => member) ?_ (fun _ => .inl absent)
    · rw [noted.listed, same]
    · exact fun e member => .inl ⟨e, member, rfl, rfl⟩
    · intro ie isDue
      exact absurd (owed_.symm.trans isDue) (by simp)

end

theorem distinct_append {o : Outline} :
    Distinct (outlines ++ [o]) ↔ Distinct outlines ∧ ∀ first ∈ outlines, first.Apart o := by
  simp [Distinct, pairwise_append]

theorem apart_incoming_iff {userid : Bytes} : (∀ first ∈ notices.map outline, first.Apart (.incoming convid userid)) ↔
      convid ∉ announced notices ∧ userid ∉ announced notices := by
  induction notices with
  | nil => simp [announced]
  | cons n rest ih =>
    have split_ : announced (n :: rest) = (outline n).announces.toList ++ announced rest := by
      rw [announced, filterMap_cons]
      cases found : (outline n).announces <;> simp [announced]
    rw [map_cons, forall_mem_cons, ih, split_]
    cases n with
    | incoming ie => simp [outline, Outline.Apart, Outline.announces]; tauto
    | leave left reason msgTime => simp [outline, Outline.Apart, Outline.announces]
    | close closed err msgTime sender client => simp [outline, Outline.Apart, Outline.announces]

section
variable {start : Calls σ}

theorem noted_start (none_ : start.pendingEventl = []) : Noted start [] (start.processNotifications true) := by
  have begun : start.processNotifications true = { start with processingNotifications := true } := by
    simp [processNotifications]
  rw [begun]
  refine ⟨rfl, fun _ => rfl, ?_, ?_, ?_, ?_, ?_⟩
  · simp [none_]
  · simp [none_, announced]
  · simp [none_]
  · intro c ie isDue
    cases isDue
  · intro c _
    exact .inr (by simp [none_])

/-- What holds along every batch whose announcements are distinct. -/
theorem noted_of_distinct (object : σ) (none_ : start.pendingEventl = []) (distinct : Distinct (notices.map outline)) :
    Noted start notices (notices.foldl (notify object) (start.processNotifications true)) := by
  induction notices using List.reverseRecOn with
  | nil => exact noted_start none_
  | append_singleton front n ih =>
    rw [map_append, map_singleton, distinct_append] at distinct
    rw [foldl_append, foldl_cons, foldl_nil]
    have noted := ih distinct.1
    cases n with
    | incoming ie =>
      obtain ⟨newConv, newSender⟩ := apart_incoming_iff.mp distinct.2
      exact noted.incoming object newConv newSender
    | leave convid reason msgTime => exact noted.leave object convid reason msgTime
    | close convid err msgTime userid clientid => exact noted.close object convid err msgTime userid clientid

theorem reported_of_distinct {object : σ} (none_ : start.pendingEventl = [])
    (distinct : Distinct (notices.map outline)) : Reported object notices start :=
  (noted_of_distinct object none_ distinct).reported

/-- An announcement that meets an earlier one's conversation id and differs from all pending events is not reported as
    it should be. -/
theorem Noted.misreported {calls : Calls σ} (object : σ) (noted : Noted start notices calls)
    (differs : ∀ e ∈ calls.pendingEventl, e.clientid ≠ ie.clientid ∧ e.msgTime ≠ ie.msgTime)
    (meets : ie.convid ∈ announced notices ∨ ie.userid ∈ announced notices) :
    told ie.convid ((calls.notify object (.incoming ie)).processNotifications false) ≠
      told ie.convid start ++ (owed ie.convid (notices ++ [.incoming ie])).toList := by
  obtain ⟨effect, ringing⟩ := notify_incoming noted.processing
  rw [told_processed (effect.processing.trans noted.processing), effect.quiet, noted.quiet, reports, if_pos ringing,
    effect.pending]
  intro same
  have reported := append_cancel_left same
  cases found : findPendingEvent calls.pendingEventl ie.userid with
  | some prev =>
    -- The previous event is taken over with the new conversation and time.
    have member : prev ∈ calls.pendingEventl := mem_of_find?_eq_some found
    have merged : { prev with convid := ie.convid, msgTime := ie.msgTime } ∈
        (owed ie.convid (notices ++ [.incoming ie])).toList := by
      rw [← reported, appendEvent, found]
      simp
    rw [mem_toList, owed_append, owe, if_pos rfl] at merged
    cases before : owed ie.convid notices with
    | none =>
      rw [before] at merged
      have isNew : ie = { prev with convid := ie.convid, msgTime := ie.msgTime } := some.inj merged
      exact (differs prev member).1 (congrArg IncomingEvent.clientid isNew).symm
    | some first =>
      rw [before] at merged
      have isFirst : first = { prev with convid := ie.convid, msgTime := ie.msgTime } := some.inj merged
      have sameTime : first.msgTime = ie.msgTime := by rw [isFirst]
      exact (differs first (noted.due _ _ before).1).2 sameTime
  | none =>
    -- The earlier event of the conversation is reported as well.
    have alone : ie.userid ∉ announced notices := fun listed =>
      findPendingEvent_none_iff.mp found ((noted.listed _).mpr listed)
    obtain ⟨e, member, isConv⟩ := List.mem_map.mp ((noted.listed _).mpr (meets.resolve_right alone))
    have earlier : e ∈ calls.pendingEventl.filter (fun e => e.convid = ie.convid) :=
      mem_filter.mpr ⟨member, by simpa using isConv⟩
    have length := congrArg List.length reported
    have short : (owed ie.convid (notices ++ [.incoming ie])).toList.length ≤ 1 := by
      cases owed ie.convid (notices ++ [.incoming ie]) <;> simp
    have positive := length_pos_of_mem earlier
    simp only [appendEvent, found, filter_append, length_append, filter_singleton, decide_true,
      cond_true, length_singleton] at length
    omega

end

/-- A notice of an outline, whose announcement has these values. -/
def realize (clientid : Bytes) (msgTime : UInt32) : Outline → Notice
  | .incoming convid userid =>
    .incoming { convid, msgTime, userid, clientid, videoCall := false, shouldRing := true, convType := .oneOnOne }
  | .leave convid => .leave convid .normal 0
  | .close convid => .close convid none 0 none none

theorem outline_realize (clientid : Bytes) (msgTime : UInt32) (o : Outline) :
    outline (realize clientid msgTime o) = o := by
  cases o <;> rfl

def noCalls : Calls Unit where
  userid := []
  clientid := []
  cfg := Config.configAlloc true
  callConfig := true
  processingNotifications := false
  pendingEventl := []
  durationl := []
  wcalls := []
  out := []

theorem misreported_of_not_distinct (repeated : ¬ Distinct outlines) :
    ∃ notices, notices.map outline = outlines ∧ ∃ front, front <+: notices ∧ ¬ Reported () front noCalls := by
  induction outlines using List.reverseRecOn with
  | nil => exact absurd List.Pairwise.nil repeated
  | append_singleton outlines o ih =>
    by_cases distinct : Distinct outlines
    · -- The last is the first to repeat an id; it is given values of its own.
      have isOutlines : (outlines.map (realize [] 0)).map outline = outlines := by
        rw [List.map_map]
        exact (map_congr_left (fun o _ => outline_realize [] 0 o)).trans (List.map_id _)
      have noted := @noted_of_distinct _ (outlines.map (realize [] 0)) noCalls () rfl (by rwa [isOutlines])
      rw [distinct_append, not_and] at repeated
      have meets := repeated distinct
      refine ⟨outlines.map (realize [] 0) ++ [realize [0] 1 o], ?_, _, prefix_refl _, fun reported => ?_⟩
      · rw [map_append, isOutlines, map_singleton, outline_realize]
      · cases o with
        | incoming convid userid =>
          rw [← isOutlines, apart_incoming_iff, not_and_or, not_not, not_not] at meets
          let ie : IncomingEvent := ⟨convid, 1, userid, [0], false, true, .oneOnOne⟩
          refine @Noted.misreported _ _ ie _ _ () noted (fun e member => ?_) meets ?_
          · obtain ⟨first, isNotice, client, time⟩ := noted.values e member
            obtain ⟨o, -, isRealized⟩ := List.mem_map.mp isNotice
            cases o with
            | incoming earlier sender =>
              obtain rfl := Notice.incoming.inj isRealized
              rw [client, time]
              exact ⟨by simp [ie], show (0 : UInt32) ≠ 1 by decide⟩
            | leave left => cases isRealized
            | close closed => cases isRealized
          · have whole := reported convid
            rw [batch, foldl_append] at whole
            exact whole
        | leave convid => exact meets (fun first _ => by cases first <;> trivial)
        | close convid => exact meets (fun first _ => by cases first <;> trivial)
    · obtain ⟨notices, isOutlines, front, isFront, wrong⟩ := ih distinct
      refine ⟨notices ++ [realize [] 0 o], ?_, front, isFront.trans (prefix_append _ _), wrong⟩
      rw [map_append, isOutlines, map_singleton, outline_realize]

/-- At every moment of every batch of an outline the right reports are due, exactly if its announcements are distinct.
    -/
theorem batch_reports_iff (outlines : List Outline) :
    (∀ (σ : Type) (object : σ) (calls : Calls σ) (notices front : List Notice), calls.pendingEventl = [] →
      notices.map outline = outlines → front <+: notices → Reported object front calls) ↔ Distinct outlines := by
  constructor
  · intro reported
    by_contra repeated
    obtain ⟨notices, isOutlines, front, isFront, wrong⟩ := misreported_of_not_distinct repeated
    exact wrong (reported Unit () noCalls notices front rfl isOutlines isFront)
  · intro distinct σ object calls notices front none_ isOutlines isFront
    refine reported_of_distinct none_ (List.Pairwise.sublist (isFront.map outline).sublist ?_)
    rw [isOutlines]
    exact distinct

/-- A SETUP, its CANCEL and another SETUP of one user in a batch: the call that was cancelled is reported too. -/
theorem announced_twice :
    let first : IncomingEvent := ⟨ascii "c", 1, ascii "peer", ascii "1", false, true, .oneOnOne⟩
    let second : IncomingEvent := ⟨ascii "c", 3, ascii "peer", ascii "1", false, true, .oneOnOne⟩
    let notices := [.incoming first, .close (ascii "c") (some .ECANCELED) 2 (some (ascii "peer")) (some (ascii "1")),
      .incoming second]
    owed (ascii "c") notices = some second ∧ told (ascii "c") (batch () notices noCalls) = [first, second] ∧
      ¬ Reported () notices noCalls := by
  intro first second notices
  have due : owed (ascii "c") notices = some second := by decide +kernel
  have both : told (ascii "c") (batch () notices noCalls) = [first, second] := by decide +kernel
  refine ⟨due, both, fun reported => ?_⟩
  have once := reported (ascii "c")
  rw [both, due] at once
  exact absurd once (by decide +kernel)

end Calls
end Avs
