import Avs.Base
import Avs.Runs

/-!
Messages of the application that wait for the data channel of an ecall, `ecall_dce_send` and the loop of
`channel_estab_handler` that sends them. The loop sends with the same function, so a message that the flow
answers with `ENOENT` goes back into the queue the loop is emptying. No flow does: a peerflow answers so without
a channel only, and has one before it calls the handler, and a jsflow never does. Allocations succeed.
-/
namespace Avs.PendingFlush
open List Option

/-- A flow with whether it has a data channel, `dc.ch` of a peerflow and `dc.handle` of a jsflow. -/
inductive Flow
  | peerflow (ch : Bool)
  | jsflow (handle : Bool)
  deriving DecidableEq, Repr

/-- `peerflow_dce_send` and `jsflow_dce_send`. -/
def Flow.dceSend : Flow → Option Errno
  | .peerflow ch => if ch then none else some .ENOENT
  | .jsflow handle => if handle then none else some .EINVAL

/-- The flow with a channel: the one created with an offer, or the peer's. -/
def Flow.connect : Flow → Flow
  | .peerflow _ => .peerflow true
  | .jsflow _ => .jsflow true

/-- The flow closed by the ecall. A peerflow keeps its channel until it is freed. -/
def Flow.close : Flow → Flow
  | .peerflow ch => .peerflow ch
  | .jsflow _ => .jsflow false

/-- `dce_pendingl`, and what the flow was handed. -/
structure Channel where
  pending : List Bytes
  handed : List Bytes
  deriving DecidableEq, Repr

/-- `ecall_dce_send`, with the flow's answer if there is a flow. -/
def dceSend (answer : Option (Option Errno)) (mb : Bytes) (c : Channel) : Channel × Option Errno :=
  match answer with
  | none => (c, none)
  | some (some .ENOENT) => ({ c with pending := c.pending ++ [mb], handed := c.handed ++ [mb] }, none)
  | some err => ({ c with handed := c.handed ++ [mb] }, err)

/-- One turn of the loop, of which `mb` is the first pending message. -/
def flushOne (answer : Option Errno) (mb : Bytes) (c : Channel) : Channel :=
  let sent := (dceSend (some answer) mb c).1
  { sent with pending := sent.pending.tail }

/-- The loop of `channel_estab_handler`, for as many turns as there is fuel. The flow's answers are those to the sends
    of the loop, one after the other. -/
def flush (answers : Nat → Option Errno) : (fuel turn : Nat) → Channel → Option Channel
  | 0, _, c => if c.pending = [] then some c else none
  | fuel + 1, turn, c =>
    match c.pending with
    | [] => some c
    | mb :: _ => flush answers fuel (turn + 1) (flushOne (answers turn) mb c)

/-- The loop ends, with each of the messages handed to the flow once, in order, and no other. -/
def Flushes (answers : Nat → Option Errno) (mbs : List Bytes) (c : Channel) : Prop :=
  ∃ fuel after, flush answers fuel 0 c = some after ∧ after.pending = [] ∧ after.handed = c.handed ++ mbs

/-- An ecall with the flows it ever had, of which `flow` is the one it has now, and the flows whose `MQ_DC_OPEN` is in
    the queue. `queued` are the messages `ecall_dce_send` ever queued, `flushed` those the loops handed to a flow. -/
structure Course where
  flow : Option Nat
  flows : List Flow
  mq : List Nat
  channel : Channel
  queued : List Bytes
  flushed : List Bytes
  deriving DecidableEq, Repr

/-- Flows are named by their place. `early` is whether `channel_estab_handler` returns before its loop, for a delayed
    restart or for an error. -/
inductive Event
  | send (mb : Bytes)
  | allocFlow (js : Bool)
  | closeFlow
  | connect (i : Nat)
  | opened (i : Nat) (early : Bool)
  | mqueue (early : Bool)
  deriving DecidableEq, Repr

/-- `channel_estab_handler` up to the end of its loop. A turn for each message is given, which is enough. -/
def channelEstab (i : Nat) (early : Bool) (s : Course) : Option Course :=
  if s.flow ≠ some i ∨ early then some s
  else
    (s.flows[i]?).bind fun flow =>
      (flush (fun _ => flow.dceSend) s.channel.pending.length 0 s.channel).map fun channel =>
        { s with channel, flushed := s.flushed ++ channel.handed.drop s.channel.handed.length }

/-- What happens to an ecall and its flows. The channel of a peerflow that opens is set, if it is not, and the handler
    is called from the queue; a jsflow calls it at once, and not without a channel. -/
def step (event : Event) (s : Course) : Option Course :=
  match event with
  | .send mb =>
    let channel := (dceSend ((s.flow.bind (s.flows[·]?)).map Flow.dceSend) mb s.channel).1
    some { s with channel, queued := s.queued ++ channel.pending.drop s.channel.pending.length }
  | .allocFlow js =>
    some { s with flow := some s.flows.length, flows := s.flows ++ [if js then .jsflow false else .peerflow false] }
  | .closeFlow =>
    some { s with flow := none, flows := s.flow.elim s.flows (s.flows.modify · Flow.close),
                  mq := s.mq.filter (fun i => s.flow ≠ some i) }
  | .connect i => some { s with flows := s.flows.modify i Flow.connect }
  | .opened i early =>
    match s.flows[i]? with
    | none => none
    | some (.peerflow _) => some { s with flows := s.flows.modify i Flow.connect, mq := s.mq ++ [i] }
    | some (.jsflow handle) => if handle then channelEstab i early s else some s
  | .mqueue early =>
    match s.mq with
    | [] => some s
    | i :: rest => channelEstab i early { s with mq := rest }

/-- The flow that calls `channel_estab_handler` in an event, if one does and the handler gets to its loop. -/
def estab (event : Event) (s : Course) : Option Nat :=
  match event with
  | .opened i false => if s.flows[i]? = some (.jsflow true) then some i else none
  | .mqueue false => s.mq.head?
  | _ => none

def fresh : Course := ⟨none, [], [], ⟨[], []⟩, [], []⟩

variable {mb : Bytes} {c : Channel}

section
variable {fuel : Nat} {answers : Nat → Option Errno} {after : Channel} {turn : Nat} {rest : List Bytes}

theorem flushOne_first {answer : Option Errno} (first : c.pending = mb :: rest) : flushOne answer mb c =
      ⟨rest ++ if answer = some .ENOENT then [mb] else [], c.handed ++ [mb]⟩ := by
  unfold flushOne dceSend
  split
  · next missing => cases missing
  · next enoent =>
    obtain rfl := some.inj enoent
    simp [first]
  · next other same =>
    obtain rfl := some.inj same
    have found : answer ≠ some .ENOENT := by
      rintro rfl
      exact other rfl
    simp [first, found]

theorem flush_cons (first : c.pending = mb :: rest) :
    flush answers (fuel + 1) turn c = flush answers fuel (turn + 1) (flushOne (answers turn) mb c) := by
  simp only [flush, first]

theorem flush_nil (empty : c.pending = []) : flush answers fuel turn c = some c := by
  cases fuel with
  | zero => simp only [flush, empty, if_true]
  | succ fuel => simp only [flush, empty]

/-- A loop that ends has emptied the queue and handed over what was there, and then what was put back: nothing if no
    message found the channel missing. -/
theorem flush_handed : ∀ {turn : Nat} {c : Channel}, flush answers fuel turn c = some after →
      after.pending = [] ∧ ∃ more, after.handed = c.handed ++ c.pending ++ more ∧
        (more = [] → ∀ n < c.pending.length, answers (turn + n) ≠ some .ENOENT) := by
  induction fuel with
  | zero =>
    intro turn c ended
    rw [flush] at ended
    split at ended
    · next empty =>
      obtain rfl := some.inj ended
      exact ⟨empty, [], by simp [empty], by simp [empty]⟩
    · cases ended
  | succ fuel ih =>
    intro turn c ended
    cases first : c.pending with
    | nil =>
      rw [flush_nil first] at ended
      obtain rfl := some.inj ended
      exact ⟨first, [], by simp, by simp⟩
    | cons mb rest =>
      rw [flush_cons first, flushOne_first first] at ended
      obtain ⟨empty, more, handed, kept⟩ := ih ended
      refine ⟨empty, (if answers turn = some .ENOENT then [mb] else []) ++ more, by simpa using handed, ?_⟩
      intro none n inside
      obtain ⟨found, nothing⟩ := append_eq_nil_iff.mp none
      have answered : answers turn ≠ some .ENOENT := by
        intro enoent
        simp [enoent] at found
      cases n with
      | zero => exact answered
      | succ n =>
        have later := kept nothing n (by simp only [length_cons] at inside; simp; omega)
        rwa [Nat.add_assoc, Nat.add_comm 1 n] at later

theorem flush_answered {mbs : List Bytes} :
    ∀ {turn : Nat} {c : Channel}, c.pending = mbs → (∀ n < mbs.length, answers (turn + n) ≠ some .ENOENT) →
      flush answers mbs.length turn c = some ⟨[], c.handed ++ mbs⟩ := by
  induction mbs with
  | nil =>
    intro turn c empty _
    rw [flush_nil empty, append_nil, ← empty]
  | cons mb rest ih =>
    intro turn c first answered
    have now : answers turn ≠ some .ENOENT := answered 0 (by simp)
    rw [length_cons, flush_cons first, flushOne_first first, if_neg now, append_nil]
    rw [ih rfl, append_assoc, singleton_append]
    intro n inside
    have later := answered (n + 1) (by simpa using inside)
    rwa [Nat.add_assoc, Nat.add_comm 1 n]

theorem flushes_iff : Flushes answers c.pending c ↔ ∀ n < c.pending.length, answers n ≠ some .ENOENT := by
  constructor
  · rintro ⟨fuel, after, ended, _, once⟩
    obtain ⟨_, more, handed, kept⟩ := flush_handed ended
    have none : more = [] := by
      rw [once] at handed
      simpa using handed
    simpa using kept none
  · intro answered
    exact ⟨_, _, flush_answered rfl (by simpa using answered), rfl, rfl⟩

end

/-- A flow that waits to call the handler has a channel, and the loops handed on what was queued, in its order. -/
structure Orderly (s : Course) : Prop where
  connected : ∀ i ∈ s.mq, s.flows[i]? = some (.peerflow true)
  ordered : s.flushed ++ s.channel.pending = s.queued

theorem dceSend_pending {answer : Option (Option Errno)} :
    ∃ more, (dceSend answer mb c).1.pending = c.pending ++ more := by
  unfold dceSend
  split
  · exact ⟨[], (append_nil _).symm⟩
  · exact ⟨[mb], rfl⟩
  · exact ⟨[], (append_nil _).symm⟩

theorem modify_connected {flows : List Flow} {i j : Nat} {f : Flow → Flow}
    (connected : flows[j]? = some (.peerflow true)) (keeps : f (.peerflow true) = .peerflow true) :
    (flows.modify i f)[j]? = some (.peerflow true) := by
  rw [List.getElem?_modify, connected]
  split
  · exact congrArg some keeps
  · rfl

theorem channelEstab_flushes {s : Course} {i : Nat} {flow : Flow} (ordered : s.flushed ++ s.channel.pending = s.queued)
    (current : s.flow = some i) (found : s.flows[i]? = some flow) (connected : flow.dceSend = none) :
    channelEstab i false s =
      some { s with channel := ⟨[], s.channel.handed ++ s.channel.pending⟩, flushed := s.queued } := by
  have ended := @flush_answered (fun _ => flow.dceSend) s.channel.pending 0 s.channel rfl (by simp [connected])
  rw [channelEstab, if_neg (by simp [current]), found, bind_some, ended, map_some]
  simp [ordered]

theorem channelEstab_orderly {s s' : Course} {i : Nat} {flow : Flow} {early : Bool} (orderly : Orderly s)
    (found : s.flows[i]? = some flow) (connected : flow.dceSend = none) (estab : channelEstab i early s = some s') :
    Orderly s' := by
  by_cases skipped : s.flow ≠ some i ∨ early
  · rw [channelEstab, if_pos skipped] at estab
    exact some.inj estab ▸ orderly
  · obtain ⟨current, reached⟩ := not_or.mp skipped
    obtain rfl := Bool.eq_false_iff.mpr reached
    rw [channelEstab_flushes orderly.ordered (not_not.mp current) found connected] at estab
    obtain rfl := some.inj estab
    exact ⟨orderly.connected, append_nil _⟩

theorem step_orderly {event : Event} {s s' : Course} (orderly : Orderly s) (stepped : step event s = some s') :
    Orderly s' := by
  cases event with
  | send mb =>
    obtain rfl := some.inj stepped
    refine ⟨orderly.connected, ?_⟩
    obtain ⟨more, appended⟩ := @dceSend_pending mb s.channel ((s.flow.bind (s.flows[·]?)).map Flow.dceSend)
    dsimp only
    rw [appended, drop_left, ← append_assoc, orderly.ordered]
  | allocFlow js =>
    obtain rfl := some.inj stepped
    refine ⟨fun i waits => ?_, orderly.ordered⟩
    have there := orderly.connected i waits
    have bound := (List.getElem?_eq_some_iff.mp there).1
    dsimp only
    rw [List.getElem?_append_left bound, there]
  | closeFlow =>
    obtain rfl := some.inj stepped
    refine ⟨fun i waits => ?_, orderly.ordered⟩
    have there := orderly.connected i (mem_filter.mp waits).1
    cases current : s.flow with
    | none => simpa [current] using there
    | some j =>
      exact modify_connected there rfl
  | connect i =>
    obtain rfl := some.inj stepped
    refine ⟨fun j waits => ?_, orderly.ordered⟩
    exact modify_connected (orderly.connected j waits) rfl
  | opened i early =>
    simp only [step] at stepped
    split at stepped
    · cases stepped
    · next ch found =>
      obtain rfl := some.inj stepped
      refine ⟨fun j waits => ?_, orderly.ordered⟩
      rcases mem_append.mp waits with before | added
      · exact modify_connected (orderly.connected j before) rfl
      · obtain rfl := mem_singleton.mp added
        simp [found, Flow.connect]
    · next handle found =>
      split at stepped
      · next connected => exact channelEstab_orderly orderly found (by simp [Flow.dceSend, connected]) stepped
      · exact some.inj stepped ▸ orderly
  | mqueue early =>
    simp only [step] at stepped
    split at stepped
    · exact some.inj stepped ▸ orderly
    · next i rest waiting =>
      have first := orderly.connected i (by simp [waiting])
      have shorter : Orderly { s with mq := rest } :=
        ⟨fun j waits => orderly.connected j (by simp [waiting, waits]), orderly.ordered⟩
      exact channelEstab_orderly shorter first rfl stepped

/-- Whatever happened to an ecall and its flows, the loops handed each queued message to a flow once and in the order
    of the queue, and whenever the handler gets to its loop for the flow of the ecall the loop ends, with the rest of
    the queue handed over and the queue empty. -/
theorem pending_flushed (events : List Event) (t : Course) (ran : Runs.run step fresh events = some t) :
    t.flushed ++ t.channel.pending = t.queued ∧
      ∀ event i, estab event t = some i → t.flow = some i →
        ∃ flow, t.flows[i]? = some flow ∧ Flushes (fun _ => flow.dceSend) t.channel.pending t.channel ∧
          ∃ after, step event t = some after ∧ after.channel.pending = [] ∧
            after.channel.handed = t.channel.handed ++ t.channel.pending ∧ after.flushed = t.queued := by
  have orderly : Orderly t := @Runs.run_invariant _ _ step Orderly (fun _ => True)
    (fun _ _ _ _ orderly stepped => step_orderly orderly stepped) events fresh t (fun _ _ => trivial)
    ⟨by simp [fresh], rfl⟩ ran
  refine ⟨orderly.ordered, ?_⟩
  intro event i called current
  have flushes : ∀ flow : Flow, flow.dceSend = none → Flushes (fun _ => flow.dceSend) t.channel.pending t.channel := by
    intro flow connected
    exact flushes_iff.mpr (by simp [connected])
  cases event with
  | opened j early =>
    cases early with
    | true => cases called
    | false =>
      simp only [estab] at called
      split at called
      · next found =>
        obtain rfl := some.inj called
        refine ⟨_, found, flushes _ rfl, { t with channel := ⟨[], _⟩, flushed := t.queued }, ?_, rfl, rfl, rfl⟩
        simp only [step, found, if_true]
        exact channelEstab_flushes orderly.ordered current found rfl
      · cases called
  | mqueue early =>
    cases early with
    | true => cases called
    | false =>
      obtain ⟨rest, waiting⟩ := List.head?_eq_some_iff.mp called
      have found := orderly.connected i (by simp [waiting])
      refine ⟨_, found, flushes _ rfl, { t with mq := rest, channel := ⟨[], _⟩, flushed := t.queued },
        ?_, rfl, rfl, rfl⟩
      simp only [step, waiting]
      exact channelEstab_flushes orderly.ordered current found rfl
  | send _ => cases called
  | allocFlow _ => cases called
  | closeFlow => cases called
  | connect _ => cases called

/-- Two messages wait for the channel of a peerflow, and are flushed when it opens. -/
theorem pending_flushed_two : ∃ t, Runs.run step fresh
      [.allocFlow false, .send (ascii "one"), .send (ascii "two"), .opened 0 false] = some t ∧
    t.queued = [ascii "one", ascii "two"] ∧
    ∃ after, step (.mqueue false) t = some after ∧ after.channel.pending = [] ∧
      after.flushed = [ascii "one", ascii "two"] := by
  refine ⟨_, rfl, rfl, ?_⟩
  obtain ⟨flow, -, -, after, stepped, empty, -, flushed⟩ := (pending_flushed
    [.allocFlow false, .send (ascii "one"), .send (ascii "two"), .opened 0 false] _ rfl).2 (.mqueue false) 0 rfl rfl
  exact ⟨after, stepped, empty, flushed⟩

end Avs.PendingFlush
