import Avs.WcallFrame

/-!
What an application learns of a call it starts or answers. `wcall_i_answer` sets the state of the call before
it asks the call object, and does not ask where the state is set already. `mqueue_handler`, the only caller,
ends the call after every attempt that fails, so a call that counts as answered is one whose latest attempt the
object accepted (`Backed`), and a further attempt reaches the object again. The object keeps its own record of
what it was asked (`logged`).
-/
namespace Avs
open List Option Calls

/-- The handlers that make the call one that counts as answered. -/
def Upcall.answers : Upcall → Bool
  | .answer => true
  | .mediaEstab _ _ => true
  | _ => false

/-- What all three kinds of call object keep to: no setter closes the call, nor does a start or an answer that
    succeeds, and a call that is ended or rejected is not reported answered. -/
structure Icall.Sober {σ : Type} (icall : Icall σ) : Prop where
  setVideoSendState : ∀ vstate s, ∀ up ∈ (icall.setVideoSendState vstate s).upcalls, up.closes = false
  setDuration : ∀ duration s, ∀ up ∈ (icall.setDuration duration s).upcalls, up.closes = false
  start : ∀ callType cbr meeting s, (icall.start callType cbr meeting s).err = none →
    ∀ up ∈ (icall.start callType cbr meeting s).upcalls, up.closes = false
  answer : ∀ callType cbr s, (icall.answer callType cbr s).err = none →
    ∀ up ∈ (icall.answer callType cbr s).upcalls, up.closes = false
  end_ : ∀ s, ∀ up ∈ (icall.end_ s).upcalls, up.answers = false
  reject : ∀ s, ∀ up ∈ (icall.reject s).upcalls, up.answers = false

namespace Answering

variable {σ : Type}

/-- The states in which `wcall_i_answer` does not ask the call object. -/
def answered (w : Wcall σ) : Bool := w.state = .answered ∨ w.state = .mediaEstab

/-- A call object with what it has answered so far to a start or an answer, in order. -/
abbrev Logged (σ : Type) := σ × List (Option Errno)

def asked (reply : IcallReply σ) (log : List (Option Errno)) : IcallReply (Logged σ) :=
  ⟨(reply.icall, log ++ [reply.err]), reply.upcalls, reply.err⟩

def told (reply : IcallReply σ) (log : List (Option Errno)) : IcallReply (Logged σ) :=
  ⟨(reply.icall, log), reply.upcalls, reply.err⟩

/-- The call object, which keeps a record of its answers. -/
def logged (icall : Icall σ) : Icall (Logged σ) where
  alloc config convType convid meeting := (icall.alloc config convType convid meeting).map (·, [])
  start callType audioCbr meeting s := asked (icall.start callType audioCbr meeting s.1) s.2
  answer callType audioCbr s := asked (icall.answer callType audioCbr s.1) s.2
  end_ s := told (icall.end_ s.1) s.2
  reject s := told (icall.reject s.1) s.2
  setVideoSendState vstate s := told (icall.setVideoSendState vstate s.1) s.2
  setDuration duration s := told (icall.setDuration duration s.1) s.2
  msgRecv currTime msgTime userid clientid msg s :=
    told (icall.msgRecv currTime msgTime userid clientid msg s.1) s.2

/-- `wcall_i_start` or `wcall_i_answer` with its result, as `mqueue_handler` calls it for a command, if it does. -/
def attempt (icall : Icall σ) (convid : Bytes) (cmd : Command) (calls : Calls σ) :
    Option (Calls σ × Option Errno) :=
  match cmd with
  | .start callType convType audioCbr meeting =>
    match (if (calls.lookup convid).isSome then .ok calls else calls.wcallAdd icall convid convType meeting) with
    | .error _ => none
    | .ok calls =>
      (calls.takeDuration icall convid).map (fun calls => calls.iStart icall convid callType audioCbr meeting)
  | .answer callType audioCbr =>
    (calls.lookup convid).map (fun _ => calls.iAnswer icall convid callType audioCbr)
  | .reject => none
  | .end_ => none

/-- The attempt is the one of the handler, which ends the call if it fails. -/
theorem execute_attempt {icall : Icall σ} {convid : Bytes} {cmd : Command} {calls : Calls σ}
    {result : Calls σ × Option Errno} (tried : attempt icall convid cmd calls = some result) :
    calls.execute icall convid cmd = some (endOnErr icall convid result) := by
  cases cmd with
  | start callType convType audioCbr meeting =>
    simp only [attempt] at tried
    simp only [execute]
    generalize (if (calls.lookup convid).isSome then .ok calls
      else calls.wcallAdd icall convid convType meeting) = ready at tried ⊢
    cases ready with
    | error err => cases tried
    | ok ready =>
      obtain ⟨timed, taken, rfl⟩ := map_eq_some_iff.mp tried
      simp only [taken, map_some]
  | answer callType audioCbr =>
    obtain ⟨w, found, rfl⟩ := map_eq_some_iff.mp tried
    simp only [execute, found]
  | reject => cases tried
  | end_ => cases tried

section
variable {convid : Bytes} {calls : Calls σ} {w w' : Wcall σ}

theorem lookup_modified (found : calls.lookup convid = some w) {f : Wcall σ → Wcall σ}
    (keeps : ∀ w, (f w).convid = w.convid) : (calls.modify convid f).lookup convid = some (f w) := by
  rw [lookup_modify _ _ _ keeps, if_pos rfl, found, map_some]

theorem lookup_invoked {op : σ → IcallReply σ} (found : calls.lookup convid = some w) :
    (calls.invoke convid op).1.lookup convid =
      acts (op w.icall).upcalls { w with icall := (op w.icall).icall } := by
  rw [lookup_invoke, if_pos rfl, found, bind_some]

/-- No answered call is made of one that is not, but by a handler that is for that. -/
theorem acts_answered {ups : List Upcall} (quiet : ∀ up ∈ ups, up.answers = false)
    (acted : acts ups w = some w') : answered w' → answered w := by
  refine acts_kept (P := fun w' => answered w' → answered w) (fun up member v v' before acted => ?_) id acted
  have silent := quiet up member
  cases up with
  | answer => cases silent
  | mediaEstab _ _ => cases silent
  | close _ _ _ _ => cases acted
  | _ =>
    obtain rfl := some.inj acted
    simp [answered]

end

section
variable {icall : Icall σ} {convid : Bytes} {log : List (Option Errno)} {calls calls' : Calls (Logged σ)}
  {callType : CallType} {audioCbr meeting : Bool}

/-- The call is there, and its object has that record. -/
def Holds (convid : Bytes) (log : List (Option Errno)) : Calls (Logged σ) → Prop :=
  Has (fun w => w.icall.2 = log) convid

/-- The object was asked, and the result is what it said: it stands in the record if the call is still there, which it
    is after a success. -/
structure Reached (convid : Bytes) (log : List (Option Errno)) (result : Calls (Logged σ) × Option Errno) : Prop where
  recorded : ∀ w, result.1.lookup convid = some w → w.icall.2 = log ++ [result.2]
  present : result.2 = none → (result.1.lookup convid).isSome

/-- A call that counts as answered is one whose latest attempt the object accepted. -/
def Backed (convid : Bytes) (calls : Calls (Logged σ)) : Prop :=
  ∀ w, calls.lookup convid = some w → answered w → w.icall.2.getLast? = some none

theorem Holds.prepares (sober : icall.Sober) (holds : Holds convid log calls)
    (prepares : Prepares (logged icall) convid calls calls') : Holds convid log calls' :=
  prepares.has (P := fun s : Logged σ => s.2 = log)
    (fun vstate s same => ⟨same, sober.setVideoSendState vstate s.1⟩)
    (fun duration s same => ⟨same, sober.setDuration duration s.1⟩) holds

theorem Holds.reached (holds : Holds convid log calls) {op : Logged σ → IcallReply (Logged σ)}
    (recorded : ∀ s, (op s).icall.2 = s.2 ++ [(op s).err])
    (kept : ∀ s, (op s).err = none → ∀ up ∈ (op s).upcalls, up.closes = false) :
    Reached convid log (calls.invoke convid op) := by
  obtain ⟨w, found, same⟩ := holds
  have err : (calls.invoke convid op).2 = (op w.icall).err := by rw [Calls.invoke, found]
  constructor
  · intro w' after
    rw [lookup_invoked found] at after
    rw [acts_icall after, recorded, same, err]
  · intro success
    rw [lookup_invoked found]
    exact acts_present (kept w.icall (err.symm.trans success)) _

theorem iStart_reached (sober : icall.Sober) (holds : Holds convid log calls) :
    Reached convid log (calls.iStart (logged icall) convid callType audioCbr meeting) := by
  obtain ⟨ready, told, outgoing, -, passed, asked⟩ :=
    @iStart_prepares convid _ (logged icall) calls callType audioCbr meeting
  rw [asked]
  exact ((holds.prepares sober outgoing).prepares sober passed).reached (fun _ => rfl)
    (fun s => sober.start _ _ _ s.1)

/-- A start asks the object of the call that is there, or of the one it makes. -/
theorem start_reached (sober : icall.Sober) {mid timed : Calls (Logged σ)} {convType : ConvType}
    (made : (calls.lookup convid).isSome ∧ mid = calls ∨
      calls.wcallAdd (logged icall) convid convType meeting = .ok mid)
    (taken : mid.takeDuration (logged icall) convid = some timed) :
    ∃ log, (∀ w, calls.lookup convid = some w → w.icall.2 = log) ∧
      Reached convid log (timed.iStart (logged icall) convid callType audioCbr meeting) := by
  have ready : ∃ log, (∀ w, calls.lookup convid = some w → w.icall.2 = log) ∧ Holds convid log mid := by
    rcases made with ⟨present, rfl⟩ | added
    · obtain ⟨w, found⟩ := isSome_iff_exists.mp present
      exact ⟨w.icall.2, fun w' same => by rw [some.inj (found.symm.trans same)], w, found, rfl⟩
    · obtain ⟨object, absent, -, rfl⟩ := wcallAdd_placed added
      have placed := (calls.lookup_place convid convid convType object absent).trans (if_pos rfl)
      exact ⟨object.2, by simp [absent], _, placed, rfl⟩
  obtain ⟨log, same, holds⟩ := ready
  exact ⟨log, same, iStart_reached sober (holds.prepares sober (takeDuration_prepares taken))⟩

/-- An answer asks the object, or succeeds at once in a call that counts as answered, of which nothing changes that is
    told here. -/
theorem iAnswer_cases (sober : icall.Sober) {w : Wcall (Logged σ)} (found : calls.lookup convid = some w) :
    (answered w = true ∧ calls.iAnswer (logged icall) convid callType audioCbr =
        (calls.modify convid (fun w => { w with disableAudio := false }), none)) ∨
      Reached convid w.icall.2 (calls.iAnswer (logged icall) convid callType audioCbr) := by
  let marked := calls.modify convid (fun w => { w with disableAudio := false })
  have seen : marked.lookup convid = some { w with disableAudio := false } := lookup_modified found (fun _ => rfl)
  have test : (marked.lookup convid).any (fun w => w.state = .answered ∨ w.state = .mediaEstab) = answered w := by
    rw [seen, any_some]
    rfl
  rw [iAnswer]
  cases already : answered w with
  | true => exact .inl ⟨rfl, if_pos (test.trans already)⟩
  | false =>
    rw [if_neg (by rw [test, already]; exact Bool.false_ne_true)]
    have holds : Holds convid w.icall.2 marked := ⟨_, seen, rfl⟩
    refine .inr ((holds.prepares sober ?_).reached (fun _ => rfl) (fun s => sober.answer _ _ s.1))
    exact .video _ (.state .answered (by decide) .refl)

theorem Reached.backed {result : Calls (Logged σ) × Option Errno} (reached : Reached convid log result)
    (success : result.2 = none) : Backed convid result.1 := by
  intro w found _
  rw [reached.recorded w found, success, List.getLast?_concat]

theorem Backed.modify (backed : Backed convid calls) {f : Wcall (Logged σ) → Wcall (Logged σ)}
    (convids : ∀ w, (f w).convid = w.convid) (objects : ∀ w, (f w).icall = w.icall)
    (states : ∀ w, (f w).state = w.state) : Backed convid (calls.modify convid f) := by
  intro w found counts
  rw [lookup_modify _ _ _ convids, if_pos rfl] at found
  obtain ⟨w, before, rfl⟩ := map_eq_some_iff.mp found
  rw [objects]
  exact backed w before (by simpa [answered, states] using counts)

theorem Backed.invoke (backed : Backed convid calls) (op : Logged σ → IcallReply (Logged σ))
    (recorded : ∀ s, (op s).icall.2 = s.2) (quiet : ∀ s, ∀ up ∈ (op s).upcalls, up.answers = false) :
    Backed convid (calls.invoke convid op).1 := by
  cases found : calls.lookup convid with
  | none =>
    rw [Calls.invoke, found]
    exact backed
  | some w =>
    intro w' after counts
    rw [lookup_invoked found] at after
    rw [acts_icall after, recorded]
    have before : answered { w with icall := (op w.icall).icall } := acts_answered (quiet w.icall) after counts
    exact backed w found before

/-- A call that is ended does not count as answered, whatever it was. -/
theorem iEnd_backed (sober : icall.Sober) (calls : Calls (Logged σ)) :
    Backed convid (calls.iEnd (logged icall) convid) := by
  have marked : Backed convid (calls.setTermLocal convid) := by
    intro w found counts
    rw [setTermLocal] at found
    split at found
    · next remote =>
      rw [found, any_some, decide_eq_true_eq] at remote
      simp [answered, remote] at counts
    · rw [lookup_setState, if_pos rfl] at found
      obtain ⟨w, -, rfl⟩ := map_eq_some_iff.mp found
      simp [answered] at counts
  exact (marked.invoke (logged icall).end_ (fun _ => rfl) (fun s => sober.end_ s.1)).modify (fun _ => rfl)
    (fun _ => rfl) (fun _ => rfl)

/-- What an attempt does: it asks the object of the call, which may have been made for it, or it is an answer to a call
    that counts as answered. -/
theorem attempt_cases (sober : icall.Sober) {cmd : Command} {result : Calls (Logged σ) × Option Errno}
    (tried : attempt (logged icall) convid cmd calls = some result) :
    (∃ w, calls.lookup convid = some w ∧ answered w = true ∧
        result = (calls.modify convid (fun w => { w with disableAudio := false }), none)) ∨
      ∃ log, (∀ w, calls.lookup convid = some w → w.icall.2 = log) ∧ Reached convid log result := by
  cases cmd with
  | start callType convType audioCbr meeting =>
    simp only [attempt] at tried
    split at tried
    · cases tried
    · next ready made =>
      obtain ⟨timed, taken, rfl⟩ := map_eq_some_iff.mp tried
      split at made
      · next present => exact .inr (@start_reached _ _ _ _ _ _ _ sober _ _ convType
          (.inl ⟨present, (Except.ok.inj made).symm⟩) taken)
      · exact .inr (start_reached sober (.inr made) taken)
  | answer callType audioCbr =>
    obtain ⟨w, found, rfl⟩ := map_eq_some_iff.mp tried
    rcases iAnswer_cases sober found with ⟨already, returned⟩ | reached
    · exact .inl ⟨w, found, already, returned⟩
    · exact .inr ⟨w.icall.2, fun w' same => by rw [some.inj (found.symm.trans same)], reached⟩
  | reject => cases tried
  | end_ => cases tried

theorem endOnErr_backed (sober : icall.Sober) {result : Calls (Logged σ) × Option Errno}
    (success : result.2 = none → Backed convid result.1) :
    Backed convid (endOnErr (logged icall) convid result) := by
  rw [endOnErr]
  split
  · exact iEnd_backed sober _
  · next succeeds => exact success (not_isSome_iff_eq_none.mp succeeds)

theorem execute_backed (sober : icall.Sober) {cmd : Command} (backed : Backed convid calls)
    (executed : calls.execute (logged icall) convid cmd = some calls') : Backed convid calls' := by
  cases execute_execution executed with
  | absent => exact backed
  | refused => exact backed
  | start callType convType audioCbr meeting mid timed made taken =>
    obtain ⟨log, -, reached⟩ := @start_reached _ _ _ _ callType audioCbr meeting sober _ _ convType made taken
    exact endOnErr_backed sober reached.backed
  | answer callType audioCbr w found =>
    refine endOnErr_backed sober fun success => ?_
    rcases @iAnswer_cases _ _ _ _ callType audioCbr sober w found with ⟨-, returned⟩ | reached
    · rw [returned]
      exact backed.modify (fun _ => rfl) (fun _ => rfl) (fun _ => rfl)
    · exact reached.backed success
  | reject w found =>
    obtain rfl := lookup_convid found
    have marked : Backed w.convid (calls.modify w.convid (fun w => { w with disableAudio := true })) :=
      backed.modify (fun _ => rfl) (fun _ => rfl) (fun _ => rfl)
    rw [iReject]
    split
    · exact marked.invoke (logged icall).reject (fun _ => rfl) (fun s => sober.reject s.1)
    · exact marked
  | end_ w found => exact iEnd_backed sober calls

end

/-- Whatever commands of a call came before, an attempt that returns 0 is one of a call whose object has accepted an
    attempt, and after one that failed the object is asked again: the result is what it says. -/
theorem attempts_truthful (icall : Icall σ) (sober : icall.Sober) (convid : Bytes) (s t : Calls (Logged σ))
    (backed : Backed convid s) (cmds : List Command)
    (ran : Runs.run (fun cmd calls => calls.execute (logged icall) convid cmd) s cmds = some t)
    (cmd : Command) (result : Calls (Logged σ) × Option Errno)
    (tried : attempt (logged icall) convid cmd t = some result) :
    t.execute (logged icall) convid cmd = some (endOnErr (logged icall) convid result) ∧
      (result.2 = none → ∃ w, result.1.lookup convid = some w ∧ none ∈ w.icall.2) ∧
      ∀ w err, t.lookup convid = some w → w.icall.2.getLast? = some (some err) →
        ∀ w', result.1.lookup convid = some w' → w'.icall.2 = w.icall.2 ++ [result.2] := by
  have kept : Backed convid t :=
    @Runs.run_invariant _ _ _ (Backed convid) (fun _ => True)
      (fun _ _ _ _ backed executed => execute_backed sober backed executed) cmds s t (fun _ _ => trivial) backed ran
  refine ⟨execute_attempt tried, ?_⟩
  rcases attempt_cases sober tried with ⟨w, found, already, rfl⟩ | ⟨log, same, reached⟩
  · -- a call that counts as answered: its latest attempt was accepted, so there is no failure to repeat
    have last := kept w found already
    constructor
    · intro _
      exact ⟨{ w with disableAudio := false }, lookup_modified found (fun _ => rfl), mem_of_getLast? last⟩
    · intro w' err again failed
      rw [some.inj (again.symm.trans found), last] at failed
      cases failed
  · constructor
    · intro success
      obtain ⟨w, found⟩ := isSome_iff_exists.mp (reached.present success)
      exact ⟨w, found, by rw [reached.recorded w found, success]; simp⟩
    · intro w err found _ w' after
      rw [reached.recorded w' after, same w found]

/-- A call object that takes a start and no answer. -/
def unwilling : Icall Unit where
  alloc _ _ _ _ := .ok ()
  start _ _ _ _ := ⟨(), [], none⟩
  answer _ _ _ := ⟨(), [], some .ENOMEM⟩
  end_ _ := ⟨(), [], none⟩
  reject _ := ⟨(), [], none⟩
  setVideoSendState _ _ := ⟨(), [], none⟩
  setDuration _ _ := ⟨(), [], none⟩
  msgRecv _ _ _ _ _ _ := ⟨(), [], none⟩

theorem unwilling_sober : unwilling.Sober := by constructor <;> simp [unwilling]

def ringing : Calls (Logged Unit) where
  userid := ascii "alice"
  clientid := ascii "1"
  cfg := Config.configAlloc true
  callConfig := true
  processingNotifications := false
  pendingEventl := []
  durationl := []
  wcalls := [⟨ascii "one", .oneOnOne, 0, false, .incoming, false, ((), [])⟩]
  out := []

theorem ringing_backed : Backed (ascii "one") ringing := by
  intro w found counts
  obtain rfl := some.inj ((show ringing.lookup (ascii "one") = _ from rfl).symm.trans found)
  cases counts

/-- Two answers fail, both of them at the object, and a start after them succeeds. -/
theorem attempts_truthful_retried : ∃ t result,
    Runs.run (fun cmd calls => calls.execute (logged unwilling) (ascii "one") cmd) ringing
        [.answer .normal false, .answer .normal false] = some t ∧
      (t.lookup (ascii "one")).map (·.icall.2) = some [some .ENOMEM, some .ENOMEM] ∧
      attempt (logged unwilling) (ascii "one") (.start .normal .oneOnOne false false) t = some result ∧
      result.2 = none ∧ ∃ w, result.1.lookup (ascii "one") = some w ∧ none ∈ w.icall.2 := by
  refine ⟨_, _, rfl, rfl, rfl, rfl, ?_⟩
  have truthful := attempts_truthful unwilling unwilling_sober (ascii "one") ringing _ ringing_backed
    [.answer .normal false, .answer .normal false] rfl (.start .normal .oneOnOne false false) _ rfl
  exact truthful.2.1 rfl

end Answering

end Avs
