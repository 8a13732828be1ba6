import Avs.CloseReports
import Avs.Unanswered

/-!
How often the application is told that a call between two users is closed: at most once between an incoming
call, or a start, and the next (`ClosedOnce`). `wcall_i_reject` reports the close and leaves the state of the
call alone, and so does `icall_leave_handler` when another client rejects the call, so that it is reported
again when it ends. In a batch of notifications the incoming call is reported at the end, and closes are kept
back until then; the report may be lost.
-/
namespace Avs
open List Option Runs Calls Ecall

open Ecall (Peered Unanswered)

namespace DirectCalls

def Mark.announces (convid : Bytes) : Mark → Bool
  | .start started => started = convid
  | .told (.incoming ie) => ie.convid = convid
  | .told _ => false

def Mark.closes (convid : Bytes) : Mark → Bool
  | .told (.closed _ closed _ _ _) => closed = convid
  | _ => false

/-- There is a close at most between an announcement and the next. -/
def ClosedOnce (convid : Bytes) (log : List Mark) : Prop :=
  ∀ front mark middle back, log = front ++ mark :: (middle ++ back) → mark.announces convid = true →
    (∀ m ∈ middle, m.announces convid = false) → middle.countP (·.closes convid) ≤ 1

def tally (convid : Bytes) (n : Nat) (mark : Mark) : Nat :=
  if mark.announces convid then 0 else if mark.closes convid then n + 1 else n

def closes (convid : Bytes) (log : List Mark) : Nat := log.foldl (tally convid) 0

/-- There have been so many closes since the last announcement, and never more than one. -/
structure Counted (convid : Bytes) (log : List Mark) (n : Nat) : Prop where
  now : closes convid log = n
  always : ∀ front back, log = front ++ back → closes convid front ≤ 1

section
variable {convid : Bytes} {log : List Mark} {n : Nat}

theorem closes_append {convid : Bytes} {log : List Mark} {mark : Mark} :
    closes convid (log ++ [mark]) = tally convid (closes convid log) mark := by
  rw [closes, foldl_append]
  rfl

theorem Counted.append (counted : Counted convid log n) (mark : Mark) (few : tally convid n mark ≤ 1) :
    Counted convid (log ++ [mark]) (tally convid n mark) := by
  have now : closes convid (log ++ [mark]) = tally convid n mark := by rw [closes_append, counted.now]
  refine ⟨now, ?_⟩
  intro front back split
  rcases eq_nil_or_concat back with rfl | ⟨back, last, rfl⟩
  · rw [append_nil] at split
    rw [← split, now]
    exact few
  · rw [concat_eq_append, ← append_assoc] at split
    exact counted.always front back (append_inj' split rfl).1

theorem Counted.le_one (counted : Counted convid log n) : n ≤ 1 := by
  rw [← counted.now]
  exact counted.always log [] (append_nil log).symm

theorem Counted.announced (counted : Counted convid log n) (mark : Mark) (announces : mark.announces convid = true) :
    Counted convid (log ++ [mark]) 0 := by
  have zero : tally convid n mark = 0 := if_pos announces
  have counted := counted.append mark (by omega)
  rwa [zero] at counted

theorem Counted.closed (counted : Counted convid log 0) (mark : Mark) (silent : mark.announces convid = false)
    (closes : mark.closes convid = true) : Counted convid (log ++ [mark]) 1 := by
  have one : tally convid 0 mark = 1 := by simp [tally, silent, closes]
  have counted := counted.append mark (by omega)
  rwa [one] at counted

theorem Counted.beside {extra : List Mark} : ∀ {log : List Mark}, Counted convid log n →
    (∀ m ∈ extra, m.announces convid = false ∧ m.closes convid = false) → Counted convid (log ++ extra) n := by
  induction extra with
  | nil =>
    intro log counted _
    rwa [append_nil]
  | cons mark rest ih =>
    intro log counted other
    obtain ⟨silent, open_⟩ := other mark mem_cons_self
    have same : tally convid n mark = n := by simp [tally, silent, open_]
    have first := counted.append mark (by rw [same]; exact counted.le_one)
    rw [same] at first
    rw [append_cons]
    exact ih first (fun m member => other m (mem_cons_of_mem _ member))

theorem foldl_tally {middle : List Mark} (silent : ∀ m ∈ middle, m.announces convid = false) :
    ∀ n, middle.foldl (tally convid) n = n + middle.countP (·.closes convid) := by
  induction middle with
  | nil => exact fun n => rfl
  | cons mark rest ih =>
    intro n
    have ih := ih (fun m member => silent m (mem_cons_of_mem _ member))
    rw [foldl_cons, ih, countP_cons, tally, if_neg (by rw [silent mark mem_cons_self]; decide)]
    split <;> omega

theorem Counted.closedOnce (counted : Counted convid log n) : ClosedOnce convid log := by
  intro front mark middle back split announces silent
  have upto : closes convid (front ++ mark :: middle) = middle.countP (·.closes convid) := by
    rw [closes, foldl_append, foldl_cons, tally, if_pos announces, foldl_tally silent, Nat.zero_add]
  rw [← upto]
  exact counted.always _ back (by rw [split]; simp)

end

/-- There is no call, or one that rings in a batch and is still to be reported. -/
def Settled (convid : Bytes) (calls : Calls Peered) : Prop :=
  calls.lookup convid = none ∨
    calls.ignoreClose convid = true ∧
      ∃ w, calls.lookup convid = some w ∧ w.state = .incoming ∧ Unanswered w.icall.ecall

def waits (convid : Bytes) (calls : Calls Peered) : Bool :=
  (calls.lookup convid).isSome && calls.ignoreClose convid

/-- The log, with what is told in the current action, is right so far: after a close there is no call that could be
    closed again. -/
structure Sound (convid : Bytes) (log : List Mark) (calls : Calls Peered) : Prop where
  count : ∃ n, Counted convid (log ++ calls.out.map .told) n ∧ (n = 0 ∨ Settled convid calls)
  alive : Alive convid calls

variable {p : Peered} {userid : Bytes}

section
variable {convid : Bytes} {log : List Mark} {a b : Calls Peered} {n : Nat} {w : Wcall Peered}
  {op : Peered → IcallReply Peered}

theorem Counted.told {out extra : List WcallCallback} (counted : Counted convid (log ++ out.map .told) n)
    (beside : ∀ callback ∈ extra, callback.beside convid = true) :
    Counted convid (log ++ (out ++ extra).map .told) n := by
  rw [map_append, ← append_assoc]
  refine counted.beside ?_
  intro m member
  obtain ⟨callback, told, rfl⟩ := List.mem_map.mp member
  have beside := beside callback told
  cases callback <;> simp_all [WcallCallback.beside, Mark.announces, Mark.closes]

theorem log_tell {log : List Mark} {a : Calls Peered} {callback : WcallCallback} :
    log ++ (a.tell callback).out.map .told = (log ++ a.out.map .told) ++ [.told callback] := by
  rw [Calls.tell, map_append, ← append_assoc]
  rfl

theorem Counted.plain (counted : Counted convid (log ++ a.out.map .told) n) (plain : Plain convid a b) :
    Counted convid (log ++ b.out.map .told) n := by
  obtain ⟨extra, out, beside⟩ := plain.out
  rw [out]
  exact counted.told beside

section
variable (sound : Sound convid log a)
include sound

theorem Sound.elsewhere (plain : Plain convid a b)
    (lookup : b.lookup convid = a.lookup convid) : Sound convid log b := by
  obtain ⟨n, counted, settled⟩ := sound.count
  refine ⟨⟨n, counted.plain plain, ?_⟩, ?_⟩
  · rw [Settled, lookup, plain.ignoreClose]
    exact settled
  · rw [Alive, lookup]
    exact sound.alive

theorem Sound.moved (moved : Moved convid a b)
    (reported : a.ignoreClose convid = true → ¬ Ringing convid a) : Sound convid log b := by
  obtain ⟨n, counted, zero | absent | ⟨ignored, w, found, state, -⟩⟩ := sound.count
  · exact ⟨⟨n, counted.plain (moved.plain convid), .inl zero⟩, moved.alive sound.alive⟩
  · exact ⟨⟨n, counted.plain (moved.plain convid), .inr (.inl (moved.absent absent))⟩, moved.alive sound.alive⟩
  · exact absurd (ringing_of_state found state) (reported ignored)

theorem Sound.begun (first : a.out = []) (plain : Plain convid a b)
    (alive : Alive convid b) : Sound convid (log ++ [.start convid]) b := by
  obtain ⟨n, counted, -⟩ := sound.count
  have empty : log ++ a.out.map .told = log := by rw [first, map_nil, append_nil]
  rw [empty] at counted
  have begun : Counted convid ((log ++ [.start convid]) ++ a.out.map .told) 0 := by
    rw [first, map_nil, append_nil]
    exact counted.announced (.start convid) (decide_eq_true rfl)
  exact ⟨⟨0, begun.plain plain, .inl rfl⟩, alive⟩

theorem Sound.replaced (found : a.lookup convid = some w)
    (rings : a.ignoreClose convid = true → Unanswered w.icall.ecall → Unanswered p.ecall) :
    Sound convid log (a.modify convid (fun w => { w with icall := p })) ∧
      (a.modify convid (fun w => { w with icall := p })).lookup convid = some { w with icall := p } := by
  have moved : Moved convid a (a.modify convid (fun w => { w with icall := p })) :=
    modify_moved (fun _ => rfl) (fun _ => rfl)
  have lookup : (a.modify convid (fun w => { w with icall := p })).lookup convid = some { w with icall := p } := by
    rw [lookup_modify a convid convid (f := fun w => { w with icall := p }) (fun _ => rfl), if_pos rfl, found]
    rfl
  refine ⟨⟨?_, moved.alive sound.alive⟩, lookup⟩
  obtain ⟨n, counted, zero | absent | ⟨ignored, w', found', state, un⟩⟩ := sound.count
  · exact ⟨n, counted.plain (moved.plain convid), .inl zero⟩
  · rw [absent] at found
    cases found
  · obtain rfl := some.inj (found'.symm.trans found)
    refine ⟨n, counted.plain (moved.plain convid), .inr (.inr ⟨?_, _, lookup, state, rings ignored un⟩)⟩
    exact (moved.plain convid).ignoreClose.trans ignored

theorem Sound.closed (err : Option Errno) (msgTime : UInt32)
    (userid clientid : Option Bytes) : Sound convid log (a.closeHandler convid err msgTime userid clientid) := by
  have gone : (a.closeHandler convid err msgTime userid clientid).lookup convid = none := by
    rw [lookup_closeHandler, if_pos rfl]
  have alive : Alive convid (a.closeHandler convid err msgTime userid clientid) := by
    intro w found
    rw [gone] at found
    cases found
  refine ⟨?_, alive⟩
  obtain ⟨n, counted, settled⟩ := sound.count
  cases found : a.lookup convid with
  | none =>
    rw [Calls.closeHandler, found]
    exact ⟨n, counted, .inr (.inl found)⟩
  | some w =>
    cases ignored : a.ignoreClose convid with
    | true => exact ⟨n, counted.plain (closeHandler_plain (.inr ignored)),
        .inr (.inl gone)⟩
    | false =>
      have zero : n = 0 := by
        rcases settled with zero | absent | ⟨waits, -⟩
        · exact zero
        · rw [found] at absent
          cases absent
        · rw [ignored] at waits
          cases waits
      subst zero
      obtain ⟨mid, reason, peer, plain, told⟩ :=
        closeHandler_told found (sound.alive w found) ignored
      refine ⟨1, ?_, .inr (.inl gone)⟩
      rw [told]
      show Counted convid (log ++ (mid.tell _).out.map .told) 1
      rw [log_tell]
      exact (counted.plain plain).closed _ rfl (decide_eq_true rfl)

theorem Sound.left (reason : WcallReason) (msgTime : UInt32)
    (ignored : a.ignoreClose convid = true) : Sound convid log (a.leaveHandler convid reason msgTime) := by
  have plain : Plain convid a (a.leaveHandler convid reason msgTime) :=
    leaveHandler_plain (.inr ignored)
  have lookup : (a.leaveHandler convid reason msgTime).lookup convid =
      (a.lookup convid).map (fun w => { w with state := .incoming, disableAudio := true }) := by
    rw [lookup_leaveHandler, if_pos rfl]
  obtain ⟨n, counted, settled⟩ := sound.count
  refine ⟨⟨n, counted.plain plain, settled.imp id ?_⟩, ?_⟩
  · rintro (absent | ⟨-, w, found, -, un⟩)
    · exact .inl (by rw [lookup, absent, map_none])
    · refine .inr ⟨plain.ignoreClose.trans ignored, { w with state := .incoming, disableAudio := true }, ?_, rfl, un⟩
      rw [lookup, found, map_some]
  · intro w found
    rw [lookup] at found
    obtain ⟨w, -, rfl⟩ := map_eq_some_iff.mp found
    exact WcallState.noConfusion

end

theorem Counted.came {ie : IncomingEvent} (counted : Counted ie.convid (log ++ a.out.map .told) n)
    (found : a.lookup ie.convid = some w) (free : a.ignoreClose ie.userid = false) :
    ∃ n', Counted ie.convid (log ++ (a.startHandler ie).out.map .told) n' ∧
      (n' = 0 ∨ n' = n ∧ (a.startHandler ie).ignoreClose ie.convid = true) := by
  cases processing : a.processingNotifications with
  | true =>
    obtain ⟨-, -, waits, extra, out, beside⟩ := startHandler_waits processing free
    refine ⟨n, ?_, .inr ⟨rfl, waits⟩⟩
    rw [out]
    exact counted.told beside
  | false =>
    obtain ⟨mid, plain, told⟩ := startHandler_told processing found
    refine ⟨0, ?_, .inl rfl⟩
    rw [told, log_tell]
    exact (counted.plain (plain ie.convid)).announced (.told (.incoming ie)) (decide_eq_true rfl)

/-- What a handler needs for its call to be counted right. -/
def Fits (convid : Bytes) (calls : Calls Peered) : Upcall → Prop
  | .start _ userid _ _ _ _ => calls.ignoreClose userid = false
  | .leave _ _ => calls.ignoreClose convid = true
  | _ => True

/-- The object calls one handler at most, and that fits. -/
def Single (convid : Bytes) (calls : Calls Peered) (ups : List Upcall) : Prop :=
  ups = [] ∨ ∃ up, ups = [up] ∧ Fits convid calls up

theorem Sound.unclosed (sound : Sound convid log a) (found : a.lookup convid = some w)
    (answered : a.ignoreClose convid = true → ¬ Unanswered w.icall.ecall) :
    Counted convid (log ++ a.out.map .told) 0 := by
  obtain ⟨n, counted, zero | absent | ⟨ignored, w', found', -, un⟩⟩ := sound.count
  · exact zero ▸ counted
  · rw [found] at absent
    cases absent
  · obtain rfl := some.inj (found'.symm.trans found)
    exact absurd un (answered ignored)

/-- The call object is called. Of a call that rings in a batch it only reports the end. -/
theorem Sound.invoked (sound : Sound convid log a)
    (single : ∀ w, a.lookup convid = some w → Single convid a (op w.icall).upcalls)
    (rings : waits convid a = true → ∀ p, Unanswered p.ecall →
      Unanswered (op p).icall.ecall ∧ ∀ up ∈ (op p).upcalls, Upcall.ends up = true) :
    Sound convid log (a.invoke convid op).1 := by
  rw [invoke]
  cases found : a.lookup convid with
  | none => exact sound
  | some w =>
    dsimp only
    have rings (ignored : a.ignoreClose convid = true) := rings (by rw [waits, found, ignored]; rfl) w.icall
    have single := single w found
    generalize op w.icall = reply at rings single
    obtain ⟨replaced, lookup⟩ := sound.replaced found (fun ignored un => (rings ignored un).1)
    rcases single with silent | ⟨up, one, fits⟩
    · rw [silent]
      exact replaced
    · rw [one] at rings ⊢
      have plain : Plain convid a (a.modify convid (fun w => { w with icall := reply.icall })) :=
        modify_plain
      -- A handler that is not for the end is not called after a close.
      have zero : Upcall.ends up = false →
          Counted convid (log ++ (a.modify convid (fun w => { w with icall := reply.icall })).out.map .told) 0 := by
        intro begins
        refine (sound.unclosed found ?_).plain plain
        intro ignored un
        rw [(rings ignored un).2 up mem_cons_self] at begins
        cases begins
      rw [foldl_cons, foldl_nil, upcall.eq_def, lookup]
      cases up with
      | start msgTime userid clientid video shouldRing convType =>
        let ie : IncomingEvent := ⟨convid, msgTime, userid, clientid, video, shouldRing, convType⟩
        obtain ⟨n, counted, done⟩ := @Counted.came log _ 0 _ ie (zero rfl) lookup fits
        refine ⟨⟨n, counted, .inl (done.elim id And.left)⟩, ?_⟩
        intro w' found'
        rw [lookup_startHandler, if_pos rfl, lookup] at found'
        obtain rfl := some.inj found'
        exact WcallState.noConfusion
      | answer =>
        refine ⟨⟨0, (zero rfl).plain ?_, .inl rfl⟩, alive_of_state (by decide)⟩
        exact (tell_plain _ rfl).then setState_plain
      | mediaEstab userid clientid =>
        refine ⟨⟨0, (zero rfl).plain ?_, .inl rfl⟩, alive_of_state (by decide)⟩
        exact setState_plain.then (tell_plain _ rfl)
      | leave reason msgTime => exact replaced.left reason msgTime fits
      | close err msgTime userid clientid => exact replaced.closed err msgTime userid clientid

theorem Sound.placed (sound : Sound convid log a) (absent : a.lookup convid = none) {convType : ConvType}
    {msgTime : UInt32} {clientid : Bytes} {video : Bool}
    (one : (op p).upcalls = [.start msgTime userid clientid video true .oneOnOne]) (un : Unanswered (op p).icall.ecall)
    (free : a.ignoreClose userid = false) : Sound convid log ((a.place convid convType p).invoke convid op).1 := by
  have lookup := lookup_place a convid convid convType p absent
  rw [if_pos rfl] at lookup
  obtain ⟨n, counted, -⟩ := sound.count
  rw [invoke, lookup]
  dsimp only
  generalize op p = reply at one un
  rw [one, foldl_cons, foldl_nil]
  let placed := (a.place convid convType p).modify convid (fun w => { w with icall := reply.icall })
  have found : placed.lookup convid = some
      { convid, convType, duration := 0, videoCall := false, state := .none, disableAudio := false,
        icall := reply.icall } := by
    rw [lookup_modify _ convid convid (f := fun w => { w with icall := reply.icall }) (fun _ => rfl), if_pos rfl,
      lookup]
    rfl
  have plain : Plain convid a placed :=
    place_plain.then modify_plain
  let ie : IncomingEvent := ⟨convid, msgTime, userid, clientid, video, true, .oneOnOne⟩
  obtain ⟨n', counted', done⟩ := @Counted.came log placed n _ ie (counted.plain plain) found free
  have lookup' := lookup_startHandler ie placed convid
  rw [if_pos rfl, found] at lookup'
  show Sound convid log (placed.upcall convid _)
  rw [upcall.eq_def, found]
  refine ⟨⟨n', counted', done.imp id ?_⟩, ?_⟩
  · rintro ⟨-, waits⟩
    exact .inr ⟨waits, _, lookup', rfl, un⟩
  · intro w found'
    obtain rfl := some.inj (lookup'.symm.trans found')
    exact WcallState.noConfusion

theorem invoke_elsewhere {a : Calls Peered} {convid other : Bytes}
    (differ : other ≠ convid) (single : ∀ w, a.lookup convid = some w → Single convid a (op w.icall).upcalls) :
    Plain other a (a.invoke convid op).1 ∧ (a.invoke convid op).1.lookup other = a.lookup other := by
  rw [invoke]
  cases found : a.lookup convid with
  | none => exact ⟨.refl a, rfl⟩
  | some w =>
    dsimp only
    have single := single w found
    generalize op w.icall = reply at single
    have moved : Moved convid a (a.modify convid (fun w => { w with icall := reply.icall })) :=
      modify_moved (fun _ => rfl) (fun _ => rfl)
    rcases single with silent | ⟨up, one, fits⟩
    · rw [silent]
      exact ⟨moved.plain other, moved.others other differ⟩
    · rw [one, foldl_cons, foldl_nil]
      have called := @upcall_elsewhere other convid _
        (a.modify convid (fun w => { w with icall := reply.icall })) up differ (by
          intro msgTime userid clientid video rings convType isStart
          rw [isStart] at fits
          exact fits)
      exact ⟨(moved.plain other).then called.1, called.2.trans (moved.others other differ)⟩

theorem reported_same (eventl : List IncomingEvent) : ∀ a : Calls Peered,
    (eventl.foldl (fun c ie => c.invokeIncomingHandler ie) a).wcalls = a.wcalls ∧
      (eventl.foldl (fun c ie => c.invokeIncomingHandler ie) a).clientid = a.clientid := by
  induction eventl with
  | nil => exact fun a => ⟨rfl, rfl⟩
  | cons ie rest ih =>
    intro a
    rw [foldl_cons, (ih _).1, (ih _).2, invokeIncomingHandler_eq]
    split <;> exact ⟨rfl, rfl⟩

theorem Counted.reported (eventl : List IncomingEvent) : ∀ {a : Calls Peered} {n : Nat},
    Counted convid (log ++ a.out.map .told) n →
      ∃ n', Counted convid (log ++ (eventl.foldl (fun c ie => c.invokeIncomingHandler ie) a).out.map .told) n' ∧
        (n' = n ∨ n' = 0) ∧ (Ringing convid a → convid ∈ eventl.map (·.convid) → n' = 0) := by
  induction eventl with
  | nil =>
    intro a n counted
    exact ⟨n, counted, .inl rfl, fun _ member => absurd member not_mem_nil⟩
  | cons ie rest ih =>
    intro a n counted
    rw [foldl_cons, invokeIncomingHandler_eq]
    by_cases here : ie.convid = convid ∧ Ringing ie.convid a
    · obtain ⟨rfl, ringing⟩ := here
      have told : Counted ie.convid (log ++ (a.tell (.incoming ie)).out.map .told) 0 := by
        rw [log_tell]
        exact counted.announced (.told (.incoming ie)) (decide_eq_true rfl)
      rw [if_pos ringing]
      obtain ⟨n', counted', zero, -⟩ := ih told
      exact ⟨n', counted', .inr (zero.elim id id), fun _ _ => zero.elim id id⟩
    · have plain : Plain convid a (if Ringing ie.convid a then a.tell (.incoming ie) else a) := by
        split
        · next ringing => exact tell_plain a (decide_eq_true (fun same => here ⟨same, ringing⟩))
        · exact .refl a
      have ringing : Ringing convid (if Ringing ie.convid a then a.tell (.incoming ie) else a) ↔
          Ringing convid a := by
        split <;> rfl
      obtain ⟨n', counted', cases_, due⟩ := ih (counted.plain plain)
      refine ⟨n', counted', cases_, fun rings member => due (ringing.mpr rings) ?_⟩
      rw [map_cons, mem_cons] at member
      refine member.resolve_left ?_
      rintro rfl
      exact here ⟨rfl, rings⟩

theorem processed_clientid {processing : Bool} {a : Calls Peered} :
    (a.processNotifications processing).clientid = a.clientid := by
  rw [processNotifications]
  dsimp only
  split
  · exact (reported_same a.pendingEventl { a with processingNotifications := processing }).2
  · rfl

theorem Sound.processed (sound : Sound convid log a) (processing : Bool) :
    Sound convid log (a.processNotifications processing) := by
  obtain ⟨n, counted, settled⟩ := sound.count
  rw [processNotifications]
  dsimp only
  split
  · have same := reported_same a.pendingEventl { a with processingNotifications := processing }
    have lookup : ∀ other, Calls.lookup { a.pendingEventl.foldl (fun c ie => c.invokeIncomingHandler ie)
        { a with processingNotifications := processing } with pendingEventl := [] } other = a.lookup other := by
      intro other
      rw [Calls.lookup, Calls.lookup]
      exact congrArg _ same.1
    obtain ⟨n', counted', same_or, due⟩ := @Counted.reported convid log a.pendingEventl
      { a with processingNotifications := processing } n counted
    refine ⟨⟨n', counted', ?_⟩, ?_⟩
    · rcases settled with rfl | absent | ⟨waits, w, found, rings, -⟩
      · exact .inl (same_or.elim id id)
      · exact .inr (.inl ((lookup convid).trans absent))
      · rw [ignoreClose_eq, Bool.and_eq_true, decide_eq_true_eq] at waits
        have rings : Ringing convid { a with processingNotifications := processing } :=
          ringing_of_state found rings
        exact .inl (due rings waits.2)
    · rw [Alive, lookup]
      exact sound.alive
  · next goes =>
    refine ⟨⟨n, counted, settled.imp id ?_⟩, sound.alive⟩
    rintro (absent | ⟨waits, rest⟩)
    · exact .inl absent
    · refine .inr ⟨?_, rest⟩
      rw [ignoreClose_eq, Bool.and_eq_true] at waits
      have still : processing = true := by
        rw [waits.1] at goes
        simpa using goes
      rw [ignoreClose_eq]
      show (processing && _) = true
      rw [still, Bool.true_and]
      exact waits.2

end

section
variable {o : Outside} {timeoutSetup : Nat} {a b : Calls Peered} {convid other : Bytes} {log : List Mark}
  {m : Received} {action : Action}

theorem object_silent (o : Outside) (timeoutSetup : Nat) (userid clientid : Bytes) :
    (object o timeoutSetup userid clientid).Silent where
  start _ _ _ _ := replied_silent start_closeh
  answer _ _ _ := replied_silent answer_closeh
  end_ _ := replied_silent end_closeh
  reject _ := rfl
  setVideoSendState _ _ := replied_silent setVideoSendState_closeh
  setDuration _ _ := rfl

/-- Another client of the user rejects a call that rings. -/
def rejectedElsewhere (m : Received) (calls : Calls Peered) : Bool :=
  m.msg.payload.msgType = some .reject ∧ (calls.lookup m.convid).any (fun w =>
    Ecall.fromSelf w.icall.ecall m.userid ∧ w.icall.ecall.state = .pendingIncoming)

/-- The actions that do not report a call closed and keep it, and do not lose a pending event. -/
def Permitted (action : Action) (calls : Calls Peered) : Prop :=
  match action with
  | .command convid .reject => ¬ Ringing convid calls
  | .command convid (.answer _ _) => waits convid calls = false
  | .command convid .end_ => waits convid calls = false
  | .message m =>
    calls.ignoreClose m.userid = false ∧ (rejectedElsewhere m calls = true → calls.ignoreClose m.convid = true)
  | .replay m => calls.ignoreClose m.userid = false
  | .established convid _ => waits convid calls = false
  | _ => True

instance (action : Action) (calls : Calls Peered) : Decidable (Permitted action calls) := by
  unfold Permitted
  split <;> infer_instance

theorem msgRecv_single {w : Wcall Peered} (found : a.lookup m.convid = some w) (free : a.ignoreClose m.userid = false)
    (rejected : rejectedElsewhere m a = true → a.ignoreClose m.convid = true) :
    Single m.convid a (msgRecv o m.userid m.clientid m.msg w.icall).upcalls := by
  cases msgRecv_replied with
  | nothing none_ => exact .inl none_
  | start msgTime video one => exact .inr ⟨_, one, free⟩
  | answer one => exact .inr ⟨_, one, trivial⟩
  | leave one reject self ringing =>
    refine .inr ⟨_, one, rejected ?_⟩
    rw [rejectedElsewhere, found, any_some]
    exact decide_eq_true ⟨reject, decide_eq_true ⟨self, ringing⟩⟩
  | close err msgTime peer client one => exact .inr ⟨_, one, trivial⟩

theorem addType_oneOnOne (isType : addType userid m = some .oneOnOne) :
    Calls.isCreator userid m.userid m.msg = true := by
  have conference : (if m.convType = .conferenceMls then m.convType else .conference) ≠ ConvType.oneOnOne := by
    split
    · next mls =>
      rw [mls]
      decide
    · decide
  simp only [addType] at isType
  split at isType
  · cases isType
  split at isType
  · cases isType
  split at isType
  · exact absurd (some.inj isType) conference
  split at isType
  · exact absurd (some.inj isType) conference
  split at isType
  · next creator => exact creator
  · cases isType

theorem alloc_oneOnOne {config : Config.CallConfig} {convType : ConvType} {clientid : Bytes} {meeting : Bool}
    (made : (object o timeoutSetup userid clientid).alloc config (legacyType config convType) convid meeting =
      .ok p) :
    convType = .oneOnOne ∧
      p = ⟨Ecall.alloc .oneOnOne .normal timeoutSetup userid clientid o.sessid o.env.muted, none, none⟩ := by
  cases isType : legacyType config convType with
  | group | conference | conferenceMls =>
    rw [isType] at made
    cases made
  | oneOnOne =>
    rw [isType] at made
    constructor
    · rw [legacyType] at isType
      split at isType
      · cases isType
      · exact isType
    · simp only [object, allocate] at made
      split at made
      · cases made
      · split at made
        · cases made
        · exact (Except.ok.inj made).symm

theorem addWcall_placed (added : a.addWcall (object o timeoutSetup a.userid a.clientid) m = .ok b) :
    a.lookup m.convid = none ∧ Calls.isCreator a.userid m.userid m.msg = true ∧
      b = a.place m.convid .oneOnOne
        ⟨Ecall.alloc .oneOnOne .normal timeoutSetup a.userid a.clientid o.sessid o.env.muted, none, none⟩ := by
  rw [addWcall] at added
  cases isType : addType a.userid m with
  | none =>
    rw [isType] at added
    cases added
  | some convType =>
    rw [isType] at added
    obtain ⟨p, absent, made, rfl⟩ := wcallAdd_placed added
    obtain ⟨rfl, rfl⟩ := alloc_oneOnOne made
    exact ⟨absent, addType_oneOnOne isType, rfl⟩

theorem Sound.delivered (sound : Sound m.convid log a) (free : a.ignoreClose m.userid = false)
    (rejected : rejectedElsewhere m a = true → a.ignoreClose m.convid = true) :
    Sound m.convid log (a.deliver (object o timeoutSetup a.userid a.clientid) m) :=
  sound.invoked (fun _ found => msgRecv_single found free rejected) (fun _ _ un => msgRecv_unanswered un)

theorem Sound.accepted (sound : Sound m.convid log a) (named : a.clientid ≠ [])
    (free : a.ignoreClose m.userid = false) :
    Sound m.convid log (a.accept (object o timeoutSetup a.userid a.clientid) m) := by
  rw [accept]
  cases added : a.addWcall (object o timeoutSetup a.userid a.clientid) m with
  | error err => exact sound
  | ok b =>
    obtain ⟨absent, creator, rfl⟩ := addWcall_placed added
    obtain ⟨⟨msgTime, video, one⟩, un⟩ := @msgRecv_fresh m.userid m.clientid o
      ⟨Ecall.alloc .oneOnOne .normal timeoutSetup a.userid a.clientid o.sessid o.env.muted, none, none⟩
      m.msg rfl named rfl rfl rfl creator
    exact sound.placed absent one un free

theorem deliver_elsewhere (differ : other ≠ m.convid) (free : a.ignoreClose m.userid = false)
    (rejected : rejectedElsewhere m a = true → a.ignoreClose m.convid = true) :
    Plain other a (a.deliver (object o timeoutSetup a.userid a.clientid) m) ∧
      (a.deliver (object o timeoutSetup a.userid a.clientid) m).lookup other = a.lookup other :=
  invoke_elsewhere differ (fun _ found => msgRecv_single found free rejected)

theorem accept_elsewhere (differ : other ≠ m.convid) (free : a.ignoreClose m.userid = false) :
    Plain other a (a.accept (object o timeoutSetup a.userid a.clientid) m) ∧
      (a.accept (object o timeoutSetup a.userid a.clientid) m).lookup other = a.lookup other := by
  rw [accept]
  cases added : a.addWcall (object o timeoutSetup a.userid a.clientid) m with
  | error err => exact ⟨.refl a, rfl⟩
  | ok b =>
    obtain ⟨absent, creator, rfl⟩ := addWcall_placed added
    let p : Peered := ⟨Ecall.alloc .oneOnOne .normal timeoutSetup a.userid a.clientid o.sessid o.env.muted, none, none⟩
    let placed := a.place m.convid .oneOnOne p
    have setup : rejectedElsewhere m placed = true → placed.ignoreClose m.convid = true := by
      intro rejected
      simp only [Calls.isCreator, decide_eq_true_eq] at creator
      simp only [rejectedElsewhere, decide_eq_true_eq, creator.2.2.2.2] at rejected
      cases rejected.1
    have delivered := @deliver_elsewhere o timeoutSetup placed other m differ free setup
    refine ⟨place_plain.then delivered.1, delivered.2.trans ?_⟩
    rw [lookup_place a m.convid other .oneOnOne p absent, if_neg differ]

theorem eventReply_single {w : Wcall Peered} {event : Ecall.Event} :
    Single convid a (eventReply o event w.icall).upcalls := by
  rw [eventReply]
  split
  · rcases closeUpcalls_cases with silent | ⟨err, msgTime, peer, client, one⟩
    · exact .inl silent
    · exact .inr ⟨_, one, trivial⟩
  · exact .inl rfl

theorem eventReply_unanswered {event : Ecall.Event} (p : Peered) (un : Unanswered p.ecall) :
    Unanswered (eventReply o event p).icall.ecall ∧ ∀ up ∈ (eventReply o event p).upcalls, Upcall.ends up = true := by
  rw [eventReply]
  split
  · next outer =>
    refine ⟨?_, closeUpcalls_ends o p _⟩
    show Unanswered ((Ecall.step (event, o.env) p.ecall).getD p.ecall)
    cases stepped : Ecall.step (event, o.env) p.ecall with
    | none => exact un
    | some ec => exact step_unanswered un outer stepped
  · exact ⟨un, fun up member => absurd member not_mem_nil⟩

theorem establishedReply_single {w : Wcall Peered} {flow : Nat} :
    Single convid a (establishedReply flow w.icall).upcalls := by
  rw [establishedReply]
  split
  · exact .inr ⟨_, rfl, trivial⟩
  · exact .inl rfl

def Action.conversation : Action → Option Bytes
  | .command convid _ | .event convid _ | .established convid _ => some convid
  | .message m | .replay m => some m.convid
  | .notifications _ => none

theorem act_elsewhere (target : action.conversation = some convid) (differ : other ≠ convid)
    (permitted : Permitted action a) (acted : act timeoutSetup o action a = some b) :
    Plain other a b ∧ b.lookup other = a.lookup other := by
  have silent := object_silent o timeoutSetup a.userid a.clientid
  cases action with
  | command convid cmd =>
    obtain rfl := some.inj target
    cases cmd with
    | start callType convType audioCbr meeting =>
      have started := execute_start_moved silent acted
      split at started
      · exact ⟨started.1 other, started.2.1 other differ⟩
      · rw [started]
        exact ⟨.refl a, rfl⟩
    | answer callType audioCbr =>
      have moved := execute_answer_moved silent acted
      exact ⟨moved.plain other, moved.others other differ⟩
    | reject => exact (execute_reject_moved silent acted).1 other differ
    | end_ =>
      have moved := execute_end_moved silent acted
      exact ⟨moved.plain other, moved.others other differ⟩
  | message m =>
    obtain rfl := some.inj target
    obtain rfl := some.inj acted
    rw [CallingInstance.dispatch]
    split
    · exact deliver_elsewhere differ permitted.1 permitted.2
    · exact accept_elsewhere differ permitted.1
  | replay m =>
    obtain rfl := some.inj target
    obtain rfl := some.inj acted
    exact accept_elsewhere differ permitted
  | notifications processing => cases target
  | event convid event =>
    obtain rfl := some.inj target
    obtain rfl := some.inj acted
    exact invoke_elsewhere differ (fun w _ => eventReply_single)
  | established convid flow =>
    obtain rfl := some.inj target
    obtain rfl := some.inj acted
    exact invoke_elsewhere differ (fun w _ => establishedReply_single)

theorem Sound.commanded (sound : Sound convid log a) (moved : Moved convid a b) (idle : waits convid a = false) :
    Sound convid log b := by
  refine sound.moved moved ?_
  intro ignored ringing
  cases found : a.lookup convid with
  | none =>
    rw [Ringing, found] at ringing
    cases ringing
  | some w =>
    rw [waits, found, ignored] at idle
    cases idle

theorem Sound.append_nil (sound : Sound convid log b) : Sound convid (log ++ []) b := by
  rw [List.append_nil]
  exact sound

theorem Sound.acted (sound : Sound convid log a) (named : a.clientid ≠ []) (first : a.out = [])
    (target : action.conversation = some convid) (permitted : Permitted action a)
    (acted : act timeoutSetup o action a = some b) : Sound convid (log ++ started timeoutSetup o action a) b := by
  have silent := object_silent o timeoutSetup a.userid a.clientid
  cases action with
  | command convid cmd =>
    obtain rfl := some.inj target
    cases cmd with
    | start callType convType audioCbr meeting =>
      have reached := execute_start_moved silent acted
      rw [started]
      split at reached
      · next reaches =>
        rw [if_pos reaches]
        exact sound.begun first (reached.1 convid) reached.2.2
      · next stops =>
        rw [if_neg stops, List.append_nil, reached]
        exact sound
    | answer callType audioCbr =>
      exact (sound.commanded (execute_answer_moved silent acted) permitted).append_nil
    | reject =>
      have moved := (execute_reject_moved silent acted).2
        (fun w found state => permitted (ringing_of_state found state))
      exact (sound.moved moved (fun _ => permitted)).append_nil
    | end_ =>
      exact (sound.commanded (execute_end_moved silent acted) permitted).append_nil
  | message m =>
    obtain rfl := some.inj target
    obtain rfl := some.inj acted
    refine Sound.append_nil ?_
    rw [CallingInstance.dispatch]
    split
    · exact sound.delivered permitted.1 permitted.2
    · exact sound.accepted named permitted.1
  | replay m =>
    obtain rfl := some.inj target
    obtain rfl := some.inj acted
    exact (sound.accepted named permitted).append_nil
  | notifications processing => cases target
  | event convid event =>
    obtain rfl := some.inj target
    obtain rfl := some.inj acted
    exact (sound.invoked (fun w _ => eventReply_single) (fun _ => eventReply_unanswered)).append_nil
  | established convid flow =>
    obtain rfl := some.inj target
    obtain rfl := some.inj acted
    refine (sound.invoked (fun w _ => establishedReply_single) ?_).append_nil
    intro pending
    rw [show waits convid a = false from permitted] at pending
    cases pending

theorem started_elsewhere (target : action.conversation = some convid) (differ : other ≠ convid) :
    ∀ m ∈ started timeoutSetup o action a, m.announces other = false ∧ m.closes other = false := by
  intro m member
  cases action with
  | command convid cmd =>
    obtain rfl := some.inj target
    cases cmd with
    | start callType convType audioCbr meeting =>
      rw [started] at member
      split at member
      · rw [mem_singleton] at member
        rw [member]
        exact ⟨decide_eq_false (Ne.symm differ), rfl⟩
      · cases member
    | answer _ _ | reject | end_ => cases member
  | message _ | replay _ | notifications _ | event _ _ | established _ _ => cases member

theorem act_keeps (named : a.clientid ≠ []) (first : a.out = []) (permitted : Permitted action a)
    (acted : act timeoutSetup o action a = some b) :
    b.clientid = a.clientid ∧
      ∀ other, Sound other log a → Sound other (log ++ started timeoutSetup o action a) b := by
  cases target : action.conversation with
  | none =>
    cases action with
    | notifications processing =>
      obtain rfl := some.inj acted
      refine ⟨processed_clientid, ?_⟩
      exact fun other sound => (sound.processed processing).append_nil
    | command _ _ | message _ | replay _ | event _ _ | established _ _ => cases target
  | some convid =>
    -- There is always another conversation to look from.
    have differ : 0 :: convid ≠ convid := cons_ne_self 0 convid
    refine ⟨(act_elsewhere target differ permitted acted).1.clientid, ?_⟩
    intro other sound
    by_cases here : other = convid
    · subst here
      exact sound.acted named first target permitted acted
    · obtain ⟨plain, lookup⟩ := act_elsewhere target here permitted acted
      obtain ⟨n, counted, settled⟩ := sound.count
      have empty : ∀ log : List Mark, log ++ a.out.map .told = log := by
        intro log
        rw [first, map_nil, append_nil]
      have begun : Sound other (log ++ started timeoutSetup o action a) a := by
        refine ⟨⟨n, ?_, settled⟩, sound.alive⟩
        rw [empty] at counted ⊢
        exact counted.beside (started_elsewhere target here)
      exact begun.elsewhere plain lookup

structure Inv (s : Session) : Prop where
  named : s.calls.clientid ≠ []
  sound : ∀ convid, Sound convid s.log { s.calls with out := [] }

theorem Inv.step {action : Action × Outside} {s s' : Session} (inv : Inv s) (permitted : Permitted action.1 s.calls)
    (stepped : step timeoutSetup action s = some s') : Inv s' := by
  obtain ⟨b, acted, rfl⟩ := map_eq_some_iff.mp stepped
  -- Whether an action is permitted does not depend on what was told.
  have permitted : Permitted action.1 { s.calls with out := [] } := permitted
  obtain ⟨same, keeps⟩ := @act_keeps action.2 timeoutSetup { s.calls with out := [] } b s.log action.1
    inv.named rfl permitted acted
  refine ⟨?_, ?_⟩
  · show b.clientid ≠ []
    rw [same]
    exact inv.named
  · intro convid
    obtain ⟨⟨n, counted, settled⟩, alive⟩ := keeps convid (inv.sound convid)
    refine ⟨⟨n, ?_, settled⟩, alive⟩
    show Counted convid (_ ++ [].map .told) n
    rw [map_nil, append_nil]
    exact counted

theorem Inv.start {calls : Calls Peered} (none_ : calls.wcalls = []) (named : calls.clientid ≠ []) :
    Inv ⟨calls, []⟩ := by
  refine ⟨named, ?_⟩
  intro convid
  have absent : calls.lookup convid = none := by rw [Calls.lookup, none_, List.find?_nil]
  have counted : Counted convid [] 0 := by
    refine ⟨rfl, ?_⟩
    intro front back split
    obtain ⟨rfl, -⟩ := nil_eq_append_iff.mp split
    exact Nat.zero_le 1
  refine ⟨⟨0, counted, .inl rfl⟩, ?_⟩
  intro w found
  have found : calls.lookup convid = some w := found
  rw [absent] at found
  cases found

/-- In every session whose actions are permitted a call is closed at most once. -/
theorem calls_closed_once {timeoutSetup : Nat} {calls : Calls Peered} (none_ : calls.wcalls = [])
    (named : calls.clientid ≠ []) {actions : List (Action × Outside)} {s : Session}
    (ran : run (step timeoutSetup) ⟨calls, []⟩ actions = some s)
    (permitted : Throughout (step timeoutSetup) ⟨calls, []⟩ actions (fun a s => Permitted a.1 s.calls))
    (convid : Bytes) : ClosedOnce convid s.log := by
  have inv : Inv s := run_throughout (fun _ _ _ permitted inv stepped => inv.step permitted stepped) permitted
    (.start none_ named) ran
  obtain ⟨n, counted, -⟩ := (inv.sound convid).count
  have counted : Counted convid (s.log ++ [].map .told) n := counted
  rw [map_nil, append_nil] at counted
  exact counted.closedOnce

def smooth (closeErr : Option Errno) : Outside :=
  ⟨⟨false, true, false, ascii "sdp", false, none⟩, none, ascii "s1", closeErr, 0⟩

def fromBob (payload : EconnFmt.Payload) : Action :=
  .message {
    msg := { EconnFmt.messageAlloc with payload, sessidSender := Chars.strNcpy (some (ascii "s0")) }
    currTime := 0, msgTime := 0, convid := ascii "c", userid := ascii "bob", clientid := ascii "1"
    convType := .oneOnOne, meeting := false }

def bobsSetup : EconnFmt.Payload := .setup ⟨some (ascii "offer"), some [], none, none⟩

def aliceFresh : Session := fresh (ascii "alice") (ascii "1") (Config.configAlloc true)

/-- Alice answers Bob, who hangs up before there are media, and calls again. -/
theorem calls_closed_once_answered : ∃ s, run (step 60000) aliceFresh [(fromBob bobsSetup, smooth none),
        (.command (ascii "c") (.answer .normal false), smooth none), (fromBob .cancel, smooth none),
        (fromBob bobsSetup, smooth none), (fromBob .cancel, smooth (some .ECANCELED))] = some s ∧
      s.log.countP (·.closes (ascii "c")) = 2 ∧ ClosedOnce (ascii "c") s.log := by
  refine exists_guarded (fun a s => Permitted a.1 s.calls) (fun s => s.log.countP (·.closes (ascii "c")) = 2)
    (by decide +kernel) fun s permitted ran two => ?_
  exact ⟨two, calls_closed_once rfl (by decide) ran permitted (ascii "c")⟩

/-- Alice rejects Bob's call, and Bob cancels it. -/
theorem rejected_closed_twice : ∃ s, run (step 60000) aliceFresh [(fromBob bobsSetup, smooth none),
        (.command (ascii "c") .reject, smooth none), (fromBob .cancel, smooth (some .ECANCELED))] = some s ∧
      s.log = [.told (.state (ascii "c") .incoming),
        .told (.incoming ⟨ascii "c", 0, ascii "bob", ascii "1", false, true, .oneOnOne⟩),
        .told (.closed .rejected (ascii "c") 0 (ascii "alice") (some (ascii "1"))),
        .told (.state (ascii "c") .termRemote), .told (.state (ascii "c") .none),
        .told (.closed .canceled (ascii "c") 0 (ascii "bob") (some (ascii "1")))] ∧
      ¬ ClosedOnce (ascii "c") s.log := by
  refine exists_shown _ (by decide +kernel) fun s _ log => ⟨log, fun once => ?_⟩
  rw [log] at once
  have few := once [.told (.state (ascii "c") .incoming)] _ _ [] (by rw [append_nil]; rfl) (by decide) (by decide)
  revert few
  decide

end

end DirectCalls

end Avs
