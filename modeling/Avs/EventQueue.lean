import Avs.Wcall

/-!
The batches of pushed messages, `src/wcall/event.c`: between `wcall_event_start` and `wcall_event_end`
messages queue events, and the end of the batch reports them in order. A CONFEND looks for the pending call of
its conversation with a loop that moves its cursor twice for an event it passes over (`queueFind`). All
handlers are set and allocations succeed. The instance is the one of the handle.
-/
namespace Avs.EventQueue
open List Option Runs

open EconnFmt

inductive EventState
  | idle | incoming | missed | closed
  deriving DecidableEq, Repr

structure CallEvent where
  convid : Bytes
  userid : Bytes
  clientid : Bytes
  state : EventState
  msgTime : UInt32
  convType : ConvType
  reason : WcallReason
  deriving DecidableEq, Repr

structure Instance where
  wuser : UInt32
  userid : Bytes
  clientid : Bytes
  processing : Bool
  eventl : List CallEvent
  deriving DecidableEq, Repr

/-- The arguments of `wcall_event_process`. -/
structure Push where
  buf : Bytes
  currTime : UInt32
  msgTime : UInt32
  convid : Bytes
  userid : Bytes
  clientid : Bytes
  convType : ConvType

/-- What `wcall_event_process` returns; `unknownProtocol` is `WCALL_ERROR_UNKNOWN_PROTOCOL`. -/
inductive Processed
  | ok
  | unknownProtocol
  | failed (err : Errno)
  deriving DecidableEq, Repr

/-- The calls of the handlers at the end of a batch. -/
inductive Report
  | incoming (event : IncomingEvent)
  | missed (call : MissedCall)
  | closed (reason : WcallReason) (convid : Bytes) (msgTime : UInt32) (userid clientid : Bytes)
  deriving DecidableEq, Repr

def eventAgeValid : BitVec 32 := 60

def Push.event (push : Push) (msgTime : UInt32) (state : EventState) (reason : WcallReason) : CallEvent :=
  ⟨push.convid, push.userid, push.clientid, state, msgTime, push.convType, reason⟩

def Instance.queueEvent (inst : Instance) (event : CallEvent) : Instance :=
  { inst with eventl := inst.eventl ++ [event] }

/-- The loop of `queue_find` from a cursor on: the position of the event it finds, behind `index` others. There is no
    result where the cursor is moved from a missing link. -/
def findFrom (isIt : CallEvent → Bool) (index : Nat) : (le : List CallEvent) → Option (Option Nat)
  | [] => some none
  | event :: next =>
    if isIt event then some (some index)
    else
      -- `le = le->next` in the body and once more in the head of the loop
      match next with
      | [] => none
      | _ :: le => findFrom isIt (index + 2) le

/-- The events `queue_find` is called for. -/
def pending (convid : Bytes) (event : CallEvent) : Bool := event.state = .incoming ∧ event.convid = convid

def queueFind (convid : Bytes) (eventl : List CallEvent) : Option (Option Nat) := findFrom (pending convid) 0 eventl

def CallEvent.miss (event : CallEvent) : CallEvent := { event with state := .missed, reason := .normal }

/-- `econn_message_decode` of what is pushed. -/
def Push.decode (push : Push) (libre : Libre) : Except Errno EconnFmt.Message :=
  messageDecode libre (push.currTime.toBitVec.setWidth 64) (push.msgTime.toBitVec.setWidth 64) push.buf

/-- What is done with a decoded message. -/
def take (push : Push) (msg : EconnFmt.Message) (inst : Instance) : Option (Processed × Instance) :=
  let own : Bool := inst.userid = push.userid ∧ inst.clientid = push.clientid
  let time : UInt32 := .ofBitVec msg.time
  match msg.payload.msgType with
  | some .setup | some .groupStart | some .confStart =>
    if eventAgeValid < msg.age then some (.failed .ETIMEDOUT, inst)
    else if msg.resp = false then some (.ok, inst.queueEvent (push.event time .incoming .normal))
    else if own then some (.ok, inst.queueEvent (push.event time .closed .answeredElsewhere))
    else some (.ok, inst)
  | some .confEnd =>
    if msg.resp = false then
      (queueFind push.convid inst.eventl).map (fun found =>
        match found with
        | some index => (.ok, { inst with eventl := inst.eventl.modify index CallEvent.miss })
        | none => (.ok, inst.queueEvent (push.event time .closed .normal)))
    else some (.ok, inst)
  | some .reject =>
    if own then some (.ok, inst.queueEvent (push.event time .closed .rejected))
    else some (.ok, inst)
  | _ => some (.ok, inst)

def eventStart (inst : Instance) : Instance := { inst with processing := true }

def eventProcess (libre : Libre) (push : Push) (inst : Instance) : Option (Processed × Instance) :=
  if push.buf = [] then some (.failed .EINVAL, inst)
  else if inst.processing = false then some (.failed .EAGAIN, inst)
  else
    match push.decode libre with
    | .error .EPROTONOSUPPORT => some (.unknownProtocol, inst)
    | .error err => some (.failed err, inst)
    | .ok msg => take push msg inst

/-- What `wcall_event_end` calls for an event. -/
def CallEvent.report (event : CallEvent) : Option Report :=
  match event.state with
  | .incoming =>
    some (.incoming ⟨event.convid, event.msgTime, event.userid, event.clientid, false, true, event.convType⟩)
  | .missed => some (.missed ⟨event.convid, event.msgTime, event.userid, event.clientid, false⟩)
  | .closed => some (.closed event.reason event.convid event.msgTime event.userid event.clientid)
  | .idle => none

def eventEnd (inst : Instance) : List Report × Instance :=
  if inst.processing = false then ([], inst)
  else (inst.eventl.filterMap CallEvent.report, { inst with processing := false, eventl := [] })

def processAll (libre : Libre) (pushes : List Push) (inst : Instance) : Option Instance :=
  run (fun push inst => (eventProcess libre push inst).map Prod.snd) inst pushes

/-- A batch, with what it reports. -/
def batch (libre : Libre) (pushes : List Push) (inst : Instance) : Option (List Report × Instance) :=
  (processAll libre pushes (eventStart inst)).map eventEnd

def batches (libre : Libre) : List (List Push) → Instance → Option (List (List Report))
  | [], _ => some []
  | pushes :: rest, inst =>
    (batch libre pushes inst).bind (fun done => (batches libre rest done.2).map (done.1 :: ·))

/-- What a message means for the reports: a call that comes in, a call that is over here, or the end of a conference. -/
inductive Notice
  | incoming
  | done (reason : WcallReason)
  | ended
  deriving DecidableEq, Repr

/-- What a message means that is decoded and, if it sets up a call, not too old. -/
def meaning (own : Bool) (msg : EconnFmt.Message) : Option Notice :=
  match msg.payload.msgType with
  | some .setup | some .groupStart | some .confStart =>
    if eventAgeValid < msg.age then none
    else if msg.resp then (if own then some (.done .answeredElsewhere) else none)
    else some .incoming
  | some .confEnd => if msg.resp then none else some .ended
  | some .reject => if own then some (.done .rejected) else none
  | _ => none

/-- What a pushed message means to a client of a user. -/
def notice (libre : Libre) (userid clientid : Bytes) (push : Push) : Option Notice :=
  if push.buf = [] then none
  else
    match push.decode libre with
    | .error _ => none
    | .ok msg => meaning (userid = push.userid ∧ clientid = push.clientid) msg

/-- The queue after a notice: the end of a conference is for its earliest pending call. -/
def note (push : Push) (queue : List CallEvent) : Option Notice → List CallEvent
  | some .incoming => queue ++ [push.event push.msgTime .incoming .normal]
  | some (.done reason) => queue ++ [push.event push.msgTime .closed reason]
  | some .ended =>
    match queue.findIdx? (pending push.convid) with
    | some index => queue.modify index CallEvent.miss
    | none => queue ++ [push.event push.msgTime .closed .normal]
  | none => queue

def noteAll (libre : Libre) (userid clientid : Bytes) (queue : List CallEvent) (pushes : List Push) :
    List CallEvent :=
  pushes.foldl (fun queue push => note push queue (notice libre userid clientid push)) queue

def reports (libre : Libre) (userid clientid : Bytes) (pushes : List Push) : List Report :=
  (noteAll libre userid clientid [] pushes).filterMap CallEvent.report

/-- The earliest pending call of the conversation is at an even position, or there is none and the queue is of even
    length. -/
def Visible (convid : Bytes) (queue : List CallEvent) : Prop :=
  match queue.findIdx? (pending convid) with
  | some index => index % 2 = 0
  | none => queue.length % 2 = 0

/-- Every end of a conference finds its call, or that there is none, in plain sight. -/
def AllVisible (libre : Libre) (userid clientid : Bytes) (queue : List CallEvent) : List Push → Prop
  | [] => True
  | push :: rest =>
    (notice libre userid clientid push = some .ended → Visible push.convid queue) ∧
      AllVisible libre userid clientid (note push queue (notice libre userid clientid push)) rest

variable {index : Nat} {queue queue' : List CallEvent} {event : CallEvent} {may : Nat → Prop} {pushes : List Push}

section
variable {isIt : CallEvent → Bool} {found : Nat} {le : List CallEvent}

/-- The loop finds events at even positions only. -/
theorem findFrom_even (result : findFrom isIt index le = some (some found)) : found % 2 = index % 2 := by
  fun_induction findFrom isIt index le with
  | case1 => cases result
  | case2 index event next sought =>
    cases result
    rfl
  | case3 => cases result
  | case4 index event _ skipped le ih =>
    have same := ih result
    omega

theorem findFrom_found (first : le.findIdx? isIt = some found)
    (even : found % 2 = 0) : findFrom isIt index le = some (some (index + found)) := by
  fun_induction findFrom isIt index le generalizing found with
  | case1 => cases first
  | case2 index event next sought =>
    rw [List.findIdx?_cons, if_pos sought] at first
    cases first
    rfl
  | case3 index event other => simp [List.findIdx?_cons, other] at first
  | case4 index event other skipped le ih =>
    rw [List.findIdx?_cons, if_neg other, List.findIdx?_cons] at first
    by_cases sought : isIt skipped = true
    · -- the event that is skipped is at an odd position
      rw [if_pos sought] at first
      cases first
      contradiction
    · rw [if_neg sought, Option.map_map, map_eq_some_iff] at first
      obtain ⟨behind, first, rfl⟩ := first
      rw [ih first (by simp only [Function.comp_apply] at even; omega), Function.comp_apply]
      congr 2
      omega

theorem findFrom_missing (none_ : le.findIdx? isIt = none) :
    findFrom isIt index le = if le.length % 2 = 0 then some none else none := by
  fun_induction findFrom isIt index le with
  | case1 => rfl
  | case2 index event next sought => simp [List.findIdx?_cons, sought] at none_
  | case3 => rfl
  | case4 index event other skipped le ih =>
    have behind : le.findIdx? isIt = none := by
      simp only [List.findIdx?_eq_none_iff, mem_cons] at none_ ⊢
      exact fun event member => none_ event (.inr (.inr member))
    rw [ih behind, length_cons, length_cons, Nat.add_assoc, Nat.add_mod_right]

end

section
variable {libre : Libre} {push : Push} {inst : Instance} {msg : EconnFmt.Message}

theorem decode_time {msgType : EconnFmt.MsgType} (decoded : push.decode libre = .ok msg)
    (typed : msg.payload.msgType = some msgType) : UInt32.ofBitVec msg.time = push.msgTime := by
  rcases messageDecode_dated decoded with rfl | ⟨time, _⟩
  · cases typed
  · rw [time, BitVec.setWidth_setWidth_of_le _ (by decide), BitVec.setWidth_eq]

theorem take_noted (decoded : push.decode libre = .ok msg)
    (other : meaning (inst.userid = push.userid ∧ inst.clientid = push.clientid) msg ≠ some .ended) :
    ∃ code, take push msg inst = some (code,
      { inst with
        eventl := note push inst.eventl
          (meaning (inst.userid = push.userid ∧ inst.clientid = push.clientid) msg) }) := by
  unfold meaning at other ⊢
  cases typed : msg.payload.msgType with
  | none => exact ⟨.ok, by simp [take, typed, note]⟩
  | some msgType =>
    have time := decode_time decoded typed
    cases msgType
    case setup | groupStart | confStart =>
      by_cases old : eventAgeValid < msg.age
      · exact ⟨.failed .ETIMEDOUT, by simp [take, typed, note, old]⟩
      · cases resp : msg.resp
        · exact ⟨.ok, by simp [take, typed, note, old, resp, time, Instance.queueEvent]⟩
        · by_cases own : inst.userid = push.userid ∧ inst.clientid = push.clientid
          · exact ⟨.ok, by simp [take, typed, note, old, resp, time, own, Instance.queueEvent]⟩
          · exact ⟨.ok, by simp [take, typed, note, old, resp, own]⟩
    case confEnd =>
      cases resp : msg.resp
      · simp [typed, resp] at other
      · exact ⟨.ok, by simp [take, typed, note, resp]⟩
    case reject =>
      by_cases own : inst.userid = push.userid ∧ inst.clientid = push.clientid
      · exact ⟨.ok, by simp [take, typed, note, time, own, Instance.queueEvent]⟩
      · exact ⟨.ok, by simp [take, typed, note, own]⟩
    all_goals exact ⟨.ok, by simp [take, typed, note]⟩

theorem take_ended {own : Bool} (decoded : push.decode libre = .ok msg) (ended : meaning own msg = some .ended) :
    take push msg inst = (queueFind push.convid inst.eventl).map (fun found =>
      match found with
      | some index => (.ok, { inst with eventl := inst.eventl.modify index CallEvent.miss })
      | none => (.ok, inst.queueEvent (push.event push.msgTime .closed .normal))) := by
  unfold meaning at ended
  cases typed : msg.payload.msgType with
  | none => simp [typed] at ended
  | some msgType =>
    have time := decode_time decoded typed
    cases msgType
    case confEnd =>
      cases resp : msg.resp
      · simp [take, typed, resp, time]
      · simp [typed, resp] at ended
    case setup | groupStart | confStart =>
      simp only [typed] at ended
      split at ended
      · cases ended
      · cases resp : msg.resp <;> cases own <;> simp [resp] at ended
    all_goals cases own <;> simp [typed] at ended

theorem eventProcess_noted (on : inst.processing = true)
    (other : notice libre inst.userid inst.clientid push ≠ some .ended) :
    ∃ code, eventProcess libre push inst = some (code,
      { inst with eventl := note push inst.eventl (notice libre inst.userid inst.clientid push) }) := by
  unfold notice at other ⊢
  unfold eventProcess
  by_cases empty : push.buf = []
  · exact ⟨.failed .EINVAL, by simp [empty, note]⟩
  · rw [if_neg empty] at other ⊢
    rw [if_neg empty, if_neg (by simp [on])]
    cases decoded : push.decode libre with
    | error err =>
      by_cases unknown : err = .EPROTONOSUPPORT
      · subst unknown
        exact ⟨.unknownProtocol, by simp [note]⟩
      · exact ⟨.failed err, by simp [note]⟩
    | ok msg =>
      rw [decoded] at other
      exact take_noted decoded other

theorem eventProcess_ended (on : inst.processing = true)
    (ended : notice libre inst.userid inst.clientid push = some .ended) :
    eventProcess libre push inst = (queueFind push.convid inst.eventl).map (fun found =>
      match found with
      | some index => (.ok, { inst with eventl := inst.eventl.modify index CallEvent.miss })
      | none => (.ok, inst.queueEvent (push.event push.msgTime .closed .normal))) := by
  unfold notice at ended
  unfold eventProcess
  by_cases empty : push.buf = []
  · simp [empty] at ended
  · rw [if_neg empty] at ended
    rw [if_neg empty, if_neg (by simp [on])]
    cases decoded : push.decode libre with
    | error err => simp [decoded] at ended
    | ok msg =>
      rw [decoded] at ended
      exact take_ended decoded ended

theorem eventProcess_visible (on : inst.processing = true)
    (visible : notice libre inst.userid inst.clientid push = some .ended → Visible push.convid inst.eventl) :
    ∃ code, eventProcess libre push inst = some (code,
      { inst with eventl := note push inst.eventl (notice libre inst.userid inst.clientid push) }) := by
  by_cases ended : notice libre inst.userid inst.clientid push = some .ended
  · have seen := visible ended
    unfold Visible at seen
    rw [eventProcess_ended on ended, ended, note, queueFind]
    cases first : inst.eventl.findIdx? (pending push.convid) with
    | some index =>
      rw [first] at seen
      rw [findFrom_found first seen, Nat.zero_add]
      exact ⟨.ok, rfl⟩
    | none =>
      rw [first] at seen
      rw [findFrom_missing first, if_pos seen]
      exact ⟨.ok, rfl⟩
  · exact eventProcess_noted on ended

end

/-- What a message does to a queue: nothing, one more event, or a missed call at a position that allows it. -/
inductive Moved (may : Nat → Prop) (queue : List CallEvent) : List CallEvent → Prop
  | same : Moved may queue queue
  | queued {event : CallEvent} : event.state ≠ .idle → Moved may queue (queue ++ [event])
  | missed {index : Nat} : may index → Moved may queue (queue.modify index CallEvent.miss)

def Reported (queue : List CallEvent) : Prop := ∀ event ∈ queue, event.state ≠ .idle

theorem Moved.reported (moved : Moved may queue queue') (reported : Reported queue) : Reported queue' := by
  cases moved with
  | same => exact reported
  | queued busy =>
    intro event member
    rcases mem_append.mp member with member | member
    · exact reported event member
    · exact mem_singleton.mp member ▸ busy
  | missed _ =>
    intro event member
    obtain ⟨position, found⟩ := mem_iff_getElem?.mp member
    rw [List.getElem?_modify] at found
    obtain ⟨before, at_, rfl⟩ := map_eq_some_iff.mp found
    split
    · simp [CallEvent.miss]
    · exact reported before (mem_of_getElem? at_)

theorem Moved.keeps (moved : Moved may queue queue') (fixed : ¬ may index) (here : queue[index]? = some event) :
    queue'[index]? = some event := by
  cases moved with
  | same => exact here
  | queued _ =>
    rw [List.getElem?_append_left (List.getElem?_eq_some_iff.mp here).1]
    exact here
  | @missed other allowed =>
    have apart : other ≠ index := by
      rintro rfl
      exact fixed allowed
    simp [here, apart]

theorem map_report (reported : Reported queue) :
    queue.map CallEvent.report = (queue.filterMap CallEvent.report).map some := by
  induction queue with
  | nil => rfl
  | cons event rest ih =>
    have busy := reported event mem_cons_self
    obtain ⟨report, reports⟩ : ∃ report, event.report = some report := by
      cases state : event.state with
      | idle => exact absurd state busy
      | incoming | missed | closed => simp [CallEvent.report, state]
    rw [map_cons, filterMap_cons_some reports, map_cons, reports,
      ih (fun event member => reported event (mem_cons_of_mem _ member))]

theorem reports_differ (reported : Reported queue) (reported' : Reported queue') (incoming : event.state = .incoming)
    (here : queue[index]? = some event) (there : queue'[index]? = some event.miss) :
    queue.filterMap CallEvent.report ≠ queue'.filterMap CallEvent.report := by
  intro same
  have maps : queue.map CallEvent.report = queue'.map CallEvent.report := by
    rw [map_report reported, map_report reported', same]
  have reports := congrArg (·[index]?) maps
  simp [here, there, CallEvent.report, CallEvent.miss, incoming] at reports

section
variable {libre : Libre} {userid clientid : Bytes} {push : Push} {inst inst' : Instance} {code : Processed}

theorem note_queued {noticed : Option Notice}
    (other : noticed ≠ some .ended) : Moved may queue (note push queue noticed) := by
  cases noticed with
  | none => exact .same
  | some noticed =>
    cases noticed with
    | incoming => exact .queued (by simp [Push.event])
    | done reason => exact .queued (by simp [Push.event])
    | ended => exact absurd rfl other

theorem note_moved (push : Push) (queue : List CallEvent) (noticed : Option Notice) :
    Moved (fun index => ∃ event, queue[index]? = some event ∧ event.state = .incoming) queue
      (note push queue noticed) := by
  by_cases ended : noticed = some .ended
  · rw [ended, note]
    cases first : queue.findIdx? (pending push.convid) with
    | some index =>
      obtain ⟨inside, sought, _⟩ := List.findIdx?_eq_some_iff_getElem.mp first
      simp only [pending, decide_eq_true_eq] at sought
      exact .missed ⟨queue[index], List.getElem?_eq_getElem inside, sought.1⟩
    | none => exact .queued (by simp [Push.event])
  · exact note_queued ended

/-- A message changes the queue alone, and makes missed calls at even positions only. -/
theorem eventProcess_moved (on : inst.processing = true)
    (processed : eventProcess libre push inst = some (code, inst')) :
    inst' = { inst with eventl := inst'.eventl } ∧ Moved (fun index => index % 2 = 0) inst.eventl inst'.eventl := by
  by_cases ended : notice libre inst.userid inst.clientid push = some .ended
  · rw [eventProcess_ended on ended, map_eq_some_iff] at processed
    obtain ⟨found, search, processed⟩ := processed
    cases found with
    | some index =>
      cases processed
      exact ⟨rfl, .missed (findFrom_even search)⟩
    | none =>
      cases processed
      exact ⟨rfl, .queued (by simp [Push.event])⟩
  · obtain ⟨code', noted⟩ := eventProcess_noted on ended
    rw [noted] at processed
    cases processed
    exact ⟨rfl, note_queued ended⟩

/-- Out of sight, a call that is to be missed stays an incoming one at an odd position. -/
theorem eventProcess_hidden (on : inst.processing = true)
    (ended : notice libre inst.userid inst.clientid push = some .ended)
    (hidden : ¬ Visible push.convid inst.eventl) (processed : eventProcess libre push inst = some (code, inst')) :
    ∃ index event, index % 2 = 1 ∧ event.state = .incoming ∧ inst'.eventl[index]? = some event ∧
      (note push inst.eventl (some .ended))[index]? = some event.miss := by
  cases first : inst.eventl.findIdx? (pending push.convid) with
  | none =>
    -- the loop runs off the end
    rw [Visible, first] at hidden
    rw [eventProcess_ended on ended, queueFind, findFrom_missing first, if_neg hidden] at processed
    cases processed
  | some index =>
    rw [Visible, first] at hidden
    obtain ⟨inside, sought, _⟩ := List.findIdx?_eq_some_iff_getElem.mp first
    simp only [pending, decide_eq_true_eq] at sought
    have here : inst.eventl[index]? = some inst.eventl[index] := List.getElem?_eq_getElem inside
    refine ⟨index, inst.eventl[index], by omega, sought.1, (eventProcess_moved on processed).2.keeps hidden here, ?_⟩
    rw [note, first]
    simp [inside]

theorem processAll_keeps (odd : index % 2 = 1) (on : inst.processing = true) (reported : Reported inst.eventl)
    (here : inst.eventl[index]? = some event) (processed : processAll libre pushes inst = some inst') :
    Reported inst'.eventl ∧ inst'.eventl[index]? = some event := by
  have keeps : ∀ (push : Push) (mid mid' : Instance), True →
      (mid.processing = true ∧ Reported mid.eventl ∧ mid.eventl[index]? = some event) →
      (eventProcess libre push mid).map Prod.snd = some mid' →
      mid'.processing = true ∧ Reported mid'.eventl ∧ mid'.eventl[index]? = some event := by
    rintro push mid mid' _ ⟨on, reported, here⟩ stepped
    obtain ⟨⟨code, _⟩, stepped', rfl⟩ := map_eq_some_iff.mp stepped
    obtain ⟨same, moved⟩ := eventProcess_moved on stepped'
    exact ⟨by rw [same]; exact on, moved.reported reported, moved.keeps (by omega) here⟩
  exact (run_invariant keeps (fun _ _ => trivial) ⟨on, reported, here⟩ processed).2

theorem noteAll_keeps (missed : event.state = .missed) (reported : Reported queue) (here : queue[index]? = some event) :
    Reported (noteAll libre userid clientid queue pushes) ∧
      (noteAll libre userid clientid queue pushes)[index]? = some event := by
  induction pushes generalizing queue with
  | nil => exact ⟨reported, here⟩
  | cons push rest ih =>
    have moved := note_moved push queue (notice libre userid clientid push)
    refine ih (moved.reported reported) (moved.keeps ?_ here)
    rintro ⟨other, there, incoming⟩
    rw [here] at there
    cases there
    rw [missed] at incoming
    cases incoming

/-- The messages of a batch are reported as noted if and only if every end of a conference is in plain sight. -/
theorem processAll_iff (pushes : List Push) (on : inst.processing = true) (reported : Reported inst.eventl) :
    (processAll libre pushes inst).map (fun done => done.eventl.filterMap CallEvent.report) =
        some ((noteAll libre inst.userid inst.clientid inst.eventl pushes).filterMap CallEvent.report) ↔
      AllVisible libre inst.userid inst.clientid inst.eventl pushes := by
  induction pushes generalizing inst with
  | nil => simp [processAll, run, noteAll, AllVisible]
  | cons push rest ih =>
    by_cases visible : notice libre inst.userid inst.clientid push = some .ended → Visible push.convid inst.eventl
    · obtain ⟨code, noted⟩ := eventProcess_visible on visible
      rw [AllVisible, and_iff_right visible, processAll, run, noted]
      exact @ih { inst with eventl := _ } on ((note_moved push _ _).reported reported)
    · refine iff_of_false ?_ (fun all => visible all.1)
      intro same
      obtain ⟨ended, hidden⟩ := Classical.not_imp.mp visible
      obtain ⟨done, ran, same⟩ := map_eq_some_iff.mp same
      obtain ⟨inst', stepped, ran⟩ := run_cons.mp ran
      obtain ⟨⟨code, _⟩, stepped', rfl⟩ := map_eq_some_iff.mp stepped
      obtain ⟨kept, moved⟩ := eventProcess_moved on stepped'
      obtain ⟨index, event, odd, incoming, there, missed⟩ := eventProcess_hidden on ended hidden stepped'
      obtain ⟨reported₁, stays₁⟩ := processAll_keeps odd (by rw [kept]; exact on) (moved.reported reported) there ran
      obtain ⟨reported₂, stays₂⟩ := noteAll_keeps (rfl : event.miss.state = .missed)
        ((note_moved push _ _).reported reported) missed
      exact reports_differ reported₁ reported₂ incoming stays₁ stays₂ (by rw [same, noteAll, foldl_cons, ended]; rfl)

theorem processAll_same (on : inst.processing = true)
    (processed : processAll libre pushes inst = some inst') : ∃ queue, inst' = { inst with eventl := queue } := by
  have keeps : ∀ (push : Push) (mid mid' : Instance), True → (∃ queue, mid = { inst with eventl := queue }) →
      (eventProcess libre push mid).map Prod.snd = some mid' → ∃ queue, mid' = { inst with eventl := queue } := by
    rintro push _ mid' _ ⟨queue, rfl⟩ stepped
    obtain ⟨⟨code, _⟩, stepped', rfl⟩ := map_eq_some_iff.mp stepped
    exact ⟨_, (eventProcess_moved (by exact on) stepped').1⟩
  exact run_invariant keeps (fun _ _ => trivial) ⟨inst.eventl, rfl⟩ processed

end

def resting (wuser : UInt32) (userid clientid : Bytes) : Instance := ⟨wuser, userid, clientid, false, []⟩

section
variable {libre : Libre} {wuser : UInt32} {userid clientid : Bytes}

theorem batch_eq : batch libre pushes (resting wuser userid clientid) =
      ((processAll libre pushes (eventStart (resting wuser userid clientid))).map
        (fun done => done.eventl.filterMap CallEvent.report)).map (·, resting wuser userid clientid) := by
  rw [batch, Option.map_map]
  cases processed : processAll libre pushes (eventStart (resting wuser userid clientid)) with
  | none => rfl
  | some done =>
    obtain ⟨queue, rfl⟩ := processAll_same rfl processed
    rfl

theorem batch_iff (pushes : List Push) : batch libre pushes (resting wuser userid clientid) =
        some (reports libre userid clientid pushes, resting wuser userid clientid) ↔
      AllVisible libre userid clientid [] pushes := by
  have noted := @processAll_iff libre (eventStart (resting wuser userid clientid)) pushes rfl
    (fun _ member => nomatch member)
  rw [batch_eq, map_eq_some_iff]
  constructor
  · rintro ⟨reported, ran, same⟩
    obtain ⟨rfl, _⟩ := Prod.mk.inj same
    exact noted.mp ran
  · intro visible
    exact ⟨_, noted.mpr visible, rfl⟩

end

/-- Batches report what they should, one after the other, if and only if in each of them every end of a conference is in
    plain sight. -/
theorem batches_reported_iff (libre : Libre) (wuser : UInt32) (userid clientid : Bytes) (pushes : List (List Push)) :
    batches libre pushes (resting wuser userid clientid) = some (pushes.map (reports libre userid clientid)) ↔
      ∀ batch ∈ pushes, AllVisible libre userid clientid [] batch := by
  induction pushes with
  | nil => simp [batches]
  | cons first rest ih =>
    rw [forall_mem_cons, ← ih, ← @batch_iff libre wuser userid clientid first, batches, batch_eq]
    cases processed : processAll libre first (eventStart (resting wuser userid clientid)) with
    | none => simp
    | some done =>
      simp only [map_some, bind_some, map_cons, some.injEq, Prod.mk.injEq, and_true,
        map_eq_some_iff, List.cons.injEq]
      constructor
      · rintro ⟨later, ran, same, rfl⟩
        exact ⟨same, ran⟩
      · rintro ⟨same, ran⟩
        exact ⟨_, ran, same, rfl⟩

/-- A text and what it reads as, for a message of a type without more members. -/
def written (type : String) : Bytes × Odict :=
  (ascii ("\x7b\"version\":\"3.0\",\"type\":\"" ++ type ++ "\",\"sessid\":\"s1\",\"resp\":false\x7d"),
    [("version", .string econnProtoVersion), ("type", .string (ascii type)), ("sessid", .string (ascii "s1")),
      ("resp", .bool false)])

def pushed (type convid : String) : Push :=
  ⟨(written type).1, 5, 5, ascii convid, ascii "bob", ascii "1", .group⟩

def parser : Libre := Jzon.knowing [written "GROUPSTART", written "CONFEND"]

def twoCalls : List Push := [pushed "GROUPSTART" "one", pushed "GROUPSTART" "two", pushed "CONFEND" "two"]

def ringing (convid : String) : Report :=
  .incoming ⟨ascii convid, 5, ascii "bob", ascii "1", false, true, .group⟩

/-- The second of two calls is over before it is reported, and is reported as coming in. One call less, and the search
    for it follows a missing link. -/
theorem second_call_rings : batches parser [twoCalls] (resting 0 (ascii "alice") (ascii "1")) =
        some [[ringing "one", ringing "two", .closed .normal (ascii "two") 5 (ascii "bob") (ascii "1")]] ∧
      reports parser (ascii "alice") (ascii "1") twoCalls =
        [ringing "one", .missed ⟨ascii "two", 5, ascii "bob", ascii "1", false⟩] ∧
      batches parser [[pushed "GROUPSTART" "one", pushed "CONFEND" "two"]] (resting 0 (ascii "alice") (ascii "1")) =
        none := by
  decide +kernel

end Avs.EventQueue
