import Mathlib.Data.PNat.Defs
import Avs.Chunk
import Avs.Jzon
import Avs.Runs

/-!
The queue of the REST client. A request waits until one of `maxopen` slots is free and its priority value is the
lowest; its response handler is called when the HTTP layer has answered, and may start more requests before it
returns. `http_resp_handler` drops the report of an aborted connection, and `response` a JSON body that is empty
or cannot be decoded: the handler of the request is then not called, and the request keeps its slot.
-/
namespace Avs.Rest
open List Option Runs

open Chunk (Mbuf)

inductive HttpErr
  | econnaborted
  | other (err : Errno)
  deriving DecidableEq, Repr

structure HttpMsg where
  scode : Nat
  type : Bytes
  subtype : Bytes
  deriving DecidableEq, Repr

/-- `struct rest_req`; a request is known by its place in the order of the starts. -/
structure RestReq where
  id : Nat
  prio : Int
  json : Bool := false
  msg : Option HttpMsg := none
  mbBody : Option Mbuf := none
  deriving DecidableEq, Repr

/-- The arguments a response handler is called with. -/
structure Resp where
  id : Nat
  err : Option HttpErr
  msg : Option HttpMsg
  mb : Option Mbuf
  deriving DecidableEq, Repr

/-- `struct rest_cli`, without the requests whose handlers are running: these are in `closing`, innermost first, each
    with whether it is still linked in the list of open requests. Behind that is what has happened: the number of
    starts, the requests that the HTTP layer has reported a result for, the calls of the handlers, and the requests that
    left the queue, each with the queue. -/
structure RestCli where
  maxopen : ℕ+
  openl : List RestReq := []
  reql : List RestReq := []
  closing : List (Nat × Bool) := []
  started : Nat := 0
  reported : List Nat := []
  called : List Resp := []
  woken : List (RestReq × List RestReq) := []

def unlink (req : RestReq) (l : List RestReq) : List RestReq := l.filter (·.id != req.id)

namespace RestCli

/-- `list_count` of the open requests. -/
def slots (cli : RestCli) : Nat := cli.openl.length + cli.closing.countP Prod.snd

/-- `req_close` up to the call of the handler. -/
def reqClose (cli : RestCli) (linked : Bool) (resp : Resp) : RestCli :=
  { cli with closing := (resp.id, linked) :: cli.closing, called := resp :: cli.called }

/-- `wake_request`; `sent` is the result of `http_request`. -/
def wakeRequest (cli : RestCli) (rr : RestReq) (sent : Option HttpErr) : RestCli :=
  match sent with
  | none => { cli with openl := cli.openl ++ [rr] }
  | some err => { cli with reported := rr.id :: cli.reported }.reqClose false ⟨rr.id, some err, none, none⟩

def unqueue (cli : RestCli) (rq : RestReq) : RestCli :=
  { cli with reql := unlink rq cli.reql, woken := (rq, cli.reql) :: cli.woken }

/-- The body of the loop of `trigger_queue`. -/
def prior (rq : Option RestReq) (rrq : RestReq) : Option RestReq :=
  match rq with
  | none => some rrq
  | some rq => some (if rrq.prio < rq.prio then rrq else rq)

def triggerQueue (cli : RestCli) (sent : Option HttpErr) : RestCli :=
  if cli.maxopen ≤ cli.slots then cli
  else
    match cli.reql.foldl prior none with
    | none => cli
    | some rq => (cli.unqueue rq).wakeRequest rq sent

def restReqStart (cli : RestCli) (prio : Int) (sent : Option HttpErr) : RestCli :=
  let rr : RestReq := { id := cli.started, prio }
  { cli with reql := cli.reql ++ [rr], started := cli.started + 1 }.triggerQueue sent

/-- The end of `req_close`, when the innermost handler returns. -/
def handlerReturns (cli : RestCli) (sent : Option HttpErr) : Option RestCli :=
  match cli.closing with
  | [] => none
  | _ :: outer => some ({ cli with closing := outer }.triggerQueue sent)

end RestCli

/-- The two tests of `response`. -/
def undecoded (libre : Libre) (req : RestReq) : Bool :=
  let body := (req.mbBody.map Mbuf.buf).getD []
  req.json && (body.isEmpty || (Jzon.jzonDecode libre body) matches .error _)

/-- What the HTTP layer calls `http_resp_handler` with: an error, a message or, when all was received, neither. -/
inductive Result
  | failed (err : HttpErr)
  | responded (msg : HttpMsg)
  | complete
  deriving DecidableEq, Repr

/-- The request as `http_resp_handler` leaves it to `response`. -/
def RestReq.answered (req : RestReq) : Result → RestReq
  | .responded msg =>
    { req with
      json := strcaseeq (some msg.type) (some (ascii "application")) &&
        strcaseeq (some msg.subtype) (some (ascii "json"))
      msg := some msg
      mbBody := req.mbBody.map ({ · with pos := 0 }) }
  | _ => { req with mbBody := req.mbBody.map ({ · with pos := 0 }) }

/-- What `http_resp_handler` hands to the response handler of a request, if it closes it. -/
def RestReq.resp (libre : Libre) (req : RestReq) (result : Result) : Option Resp :=
  match result with
  | .failed .econnaborted => none
  | .failed err => some ⟨req.id, some err, none, none⟩
  | _ =>
    let req := req.answered result
    if undecoded libre req then none else some ⟨req.id, none, req.msg, req.mbBody⟩

def RestCli.update (cli : RestCli) (req : RestReq) : RestCli :=
  { cli with openl := cli.openl.map (fun r => if r.id = req.id then req else r) }

def RestCli.httpRespHandler (libre : Libre) (cli : RestCli) (req : RestReq) (result : Result) : RestCli :=
  match req.resp libre result with
  | none => if result = .failed .econnaborted then cli else cli.update (req.answered result)
  | some resp => { cli with openl := unlink req cli.openl }.reqClose true resp

/-- What happens to a client. The HTTP layer calls while no handler is running, and only for requests that are open. -/
inductive Action
  | start (prio : Int) (sent : Option HttpErr)
  | returns (sent : Option HttpErr)
  | data (id : Nat) (buf : Bytes)
  | result (id : Nat) (result : Result)
  deriving DecidableEq, Repr

/-- The request that the HTTP layer calls for. -/
def RestCli.addressed (cli : RestCli) (id : Nat) : Option RestReq :=
  if cli.closing = [] then cli.openl.find? (·.id = id) else none

def step (libre : Libre) : Action → RestCli → Option RestCli
  | .start prio sent, cli => some (cli.restReqStart prio sent)
  | .returns sent, cli => cli.handlerReturns sent
  | .data id buf, cli => (cli.addressed id).map fun req =>
    cli.update { req with mbBody := some ((req.mbBody.getD ⟨[], 0⟩).writeMem buf) }
  | .result id result, cli => (cli.addressed id).map fun req =>
    { cli with reported := id :: cli.reported }.httpRespHandler libre req result

/-- The earliest request of those with the least priority value. -/
def First (rq : RestReq) (reql : List RestReq) : Prop :=
  rq ∈ reql ∧ ∀ r ∈ reql, rq.prio ≤ r.prio ∧ (r.prio = rq.prio → rq.id ≤ r.id)

/-- The queue serves its requests: not too many are open, each was first when it left the queue, and while no handler is
    running none waits for a slot that is free, and a request with a result has had its handler called, once, and has
    no slot any more. -/
structure RestCli.Served (cli : RestCli) : Prop where
  bounded : cli.slots ≤ cli.maxopen
  inOrder : ∀ w ∈ cli.woken, First w.1 w.2
  busy : cli.closing = [] → cli.slots < cli.maxopen → cli.reql = []
  answered : cli.closing = [] → ∀ id ∈ cli.reported,
    (cli.called.map Resp.id).count id = 1 ∧ id ∉ cli.openl.map RestReq.id

/-- The result closes the request: the connection was not aborted, and a JSON body can be decoded. -/
def RestReq.closes (libre : Libre) (req : RestReq) : Result → Prop
  | .failed err => err ≠ .econnaborted
  | result => undecoded libre (req.answered result) = false

def Closes (libre : Libre) (a : Action) (cli : RestCli) : Prop :=
  match a with
  | .result id result => ∀ req ∈ cli.addressed id, req.closes libre result
  | _ => True

/-- All requests are queued, open or have had their handlers called, and only one of these. -/
structure RestCli.Ready (cli : RestCli) : Prop where
  once : (cli.reql.map RestReq.id ++ (cli.openl.map RestReq.id ++ cli.called.map Resp.id)).Perm (List.range cli.started)
  ascending : cli.reql.Pairwise (·.id < ·.id)
  bounded : cli.slots ≤ cli.maxopen
  inOrder : ∀ w ∈ cli.woken, First w.1 w.2

/-- What holds in every run. Where requests wait for a slot that is free, the innermost handler is that of a request
    without a slot. -/
structure RestCli.Sound (cli : RestCli) : Prop extends cli.Ready where
  waits : cli.reql = [] ∨ cli.slots = cli.maxopen ∨
    cli.slots + 1 = cli.maxopen ∧ ∃ id, cli.closing.head? = some (id, false)

/-- The requests with a result have had their handlers called. -/
def RestCli.Reported (cli : RestCli) : Prop := ∀ id ∈ cli.reported, id ∈ cli.called.map Resp.id

variable {libre : Libre} {cli cli' : RestCli} {rq : RestReq} {sent : Option HttpErr} {a : Action}

theorem prior_first {reql : List RestReq} (ascending : reql.Pairwise (·.id < ·.id)) :
    (reql.foldl RestCli.prior none).elim (reql = []) (First · reql) := by
  induction reql using List.reverseRecOn with
  | nil => rfl
  | append_singleton front r ih =>
    obtain ⟨before, _, after⟩ := pairwise_append.mp ascending
    have ih := ih before
    rw [foldl_append]
    cases found : front.foldl RestCli.prior none with
    | none =>
      obtain rfl : front = [] := by simpa [found] using ih
      simp [RestCli.prior, First]
    | some rq =>
      obtain ⟨member, least⟩ : First rq front := by simpa [found] using ih
      simp only [foldl_cons, foldl_nil, RestCli.prior]
      split
      · next less =>
        refine ⟨by simp, fun s other => ?_⟩
        rcases mem_append.mp other with old | new
        · have := (least s old).1
          exact ⟨by omega, by omega⟩
        · rw [mem_singleton.mp new]
          exact ⟨le_refl _, fun _ => le_refl _⟩
      · next no_less =>
        refine ⟨mem_append_left _ member, fun s other => ?_⟩
        rcases mem_append.mp other with old | new
        · exact least s old
        · rw [mem_singleton.mp new]
          exact ⟨by omega, fun _ => (after rq member r (by simp)).le⟩

theorem unlink_perm {l : List RestReq} (distinct : (l.map RestReq.id).Nodup) (member : rq ∈ l) :
    (l.map RestReq.id).Perm (rq.id :: (unlink rq l).map RestReq.id) := by
  have rest : (unlink rq l).map RestReq.id = (l.map RestReq.id).erase rq.id := by
    rw [distinct.erase_eq_filter, List.filter_map]
    rfl
  rw [rest]
  exact perm_cons_erase (List.mem_map_of_mem member)

namespace RestCli

theorem Ready.distinct (ready : cli.Ready) :
    (cli.reql.map RestReq.id ++ (cli.openl.map RestReq.id ++ cli.called.map Resp.id)).Nodup :=
  ready.once.nodup_iff.mpr nodup_range

/-- A request leaves the queue for a slot, or to be closed. -/
theorem Ready.woken (ready : cli.Ready) (room : cli.slots < cli.maxopen)
    (first : First rq cli.reql) : ((cli.unqueue rq).wakeRequest rq sent).Ready := by
  have ascending : (cli.unqueue rq).reql.Pairwise (·.id < ·.id) := ready.ascending.filter _
  have inOrder : ∀ w ∈ (cli.unqueue rq).woken, First w.1 w.2 := forall_mem_cons.mpr ⟨first, ready.inOrder⟩
  have left_ := (unlink_perm ready.distinct.of_append_left first.1).append_right
    (cli.openl.map RestReq.id ++ cli.called.map Resp.id)
  have moved := @perm_middle _ rq.id ((cli.unqueue rq).reql.map RestReq.id ++ cli.openl.map RestReq.id)
    (cli.called.map Resp.id)
  rw [append_assoc, append_assoc] at moved
  have once := (moved.trans left_.symm).trans ready.once
  cases sent with
  | none =>
    refine ⟨by simpa [wakeRequest, unqueue] using once, ascending, ?_, inOrder⟩
    simp only [slots, wakeRequest, unqueue, length_append, length_singleton] at room ⊢
    omega
  | some err =>
    refine ⟨once, ascending, ?_, inOrder⟩
    simpa [slots, wakeRequest, unqueue, reqClose] using ready.bounded

/-- The queue is looked at where one request waits at most, or one slot is free at most. -/
theorem Ready.triggerQueue (ready : cli.Ready) (few : cli.reql.length ≤ 1 ∨ cli.maxopen ≤ cli.slots + 1) :
    (cli.triggerQueue sent).Sound := by
  unfold RestCli.triggerQueue
  split
  · next full => exact ⟨ready, .inr (.inl (Nat.le_antisymm ready.bounded full))⟩
  · next room =>
    have found := prior_first ready.ascending
    split
    · next none_ => exact ⟨ready, .inl (by simpa [none_] using found)⟩
    · next rq least =>
      have first : First rq cli.reql := by simpa [least] using found
      refine ⟨ready.woken (by omega) first, ?_⟩
      rcases few with few | few
      · obtain ⟨only, is⟩ := length_eq_one_iff.mp (Nat.le_antisymm few (length_pos_of_mem first.1))
        obtain rfl : rq = only := by simpa [is] using first.1
        exact .inl (by cases sent <;> simp [wakeRequest, unqueue, reqClose, unlink, is])
      · have last : cli.slots + 1 = cli.maxopen := by omega
        refine .inr ?_
        cases sent with
        | none => exact .inl (by simp only [slots, wakeRequest, unqueue, length_append,
            length_singleton] at last ⊢; omega)
        | some err => exact .inr ⟨by simpa [slots, wakeRequest, unqueue, reqClose] using last, rq.id, rfl⟩

theorem triggerQueue_reported (reported : cli.Reported) : (cli.triggerQueue sent).Reported := by
  unfold triggerQueue
  split
  · exact reported
  · split
    · exact reported
    · cases sent with
      | none => exact reported
      | some err => exact forall_mem_cons.mpr ⟨mem_cons_self, fun id member => .tail _ (reported id member)⟩

theorem Sound.restReqStart {prio : Int} (sound : cli.Sound) : (cli.restReqStart prio sent).Sound := by
  refine Ready.triggerQueue ⟨?_, ?_, sound.bounded, sound.inOrder⟩ ?_
  · rw [range_succ, map_append, append_assoc]
    exact (perm_middle.trans (sound.once.cons _)).trans (perm_append_singleton _ _).symm
  · refine pairwise_append.mpr ⟨sound.ascending, by simp, fun r member _ new => ?_⟩
    rw [mem_singleton.mp new]
    exact mem_range.mp (sound.once.subset (mem_append_left _ (List.mem_map_of_mem member)))
  · rcases sound.waits with none_ | full | ⟨last, _⟩
    · exact .inl (by simp [none_])
    · exact .inr (Nat.le_succ_of_le full.ge)
    · exact .inr last.ge

theorem Sound.handlerReturns (sound : cli.Sound) (returned : cli.handlerReturns sent = some cli') : cli'.Sound := by
  unfold RestCli.handlerReturns at returned
  split at returned
  · simp at returned
  · next top outer closing =>
    obtain rfl := some.inj returned
    have slots : cli.slots = { cli with closing := outer }.slots + if top.2 then 1 else 0 := by
      simp only [RestCli.slots, closing, countP_cons]
      omega
    refine Ready.triggerQueue ⟨sound.once, sound.ascending, ?_, sound.inOrder⟩ ?_
    · have := sound.bounded
      simp only at this ⊢
      omega
    · rcases sound.waits with none_ | full | ⟨last, id, first⟩
      · exact .inl (by simp [none_])
      · refine .inr ?_
        simp only
        split at slots <;> omega
      · obtain rfl : top = (id, false) := by simpa [closing] using first
        exact .inr (by simp only; simp at slots; omega)

theorem update_ids : (cli.update rq).openl.map RestReq.id = cli.openl.map RestReq.id := by
  rw [update, List.map_map]
  refine map_congr_left fun r _ => ?_
  simp only [Function.comp_apply]
  split <;> simp_all

theorem Sound.update (sound : cli.Sound) : (cli.update rq).Sound := by
  have slots : (cli.update rq).slots = cli.slots := by simp [RestCli.slots, RestCli.update]
  have once := sound.once
  rw [← @update_ids cli rq] at once
  exact ⟨⟨once, sound.ascending, slots ▸ sound.bounded, sound.inOrder⟩, slots ▸ sound.waits⟩

theorem Sound.reqClose {resp : Resp} (sound : cli.Sound) (idle : cli.closing = []) (member : rq ∈ cli.openl)
    (same : resp.id = rq.id) : ({ cli with openl := unlink rq cli.openl }.reqClose true resp).Sound := by
  have left_ := unlink_perm sound.distinct.of_append_right.of_append_left member
  have slots : ({ cli with openl := unlink rq cli.openl }.reqClose true resp).slots = cli.slots := by
    have := left_.length_eq
    simp only [length_map, length_cons] at this
    simp [RestCli.slots, RestCli.reqClose, idle]
    omega
  refine ⟨⟨?_, sound.ascending, slots ▸ sound.bounded, sound.inOrder⟩, ?_⟩
  · refine ((perm_middle.trans ?_).append_left _).trans sound.once
    exact (same ▸ left_.symm).append_right _
  · rw [slots]
    rcases sound.waits with none_ | full | ⟨_, id, first⟩
    · exact .inl none_
    · exact .inr (.inl full)
    · simp [idle] at first

end RestCli

theorem answered_id {result : Result} : (rq.answered result).id = rq.id := by
  cases result <;> rfl

theorem resp_cases {result : Result} :
    (rq.closes libre result ∧ ∃ resp, resp.id = rq.id ∧ rq.resp libre result = some resp) ∨
      ¬ rq.closes libre result ∧ rq.resp libre result = none := by
  cases result with
  | failed err => cases err <;> simp [RestReq.closes, RestReq.resp]
  | _ => simp [RestReq.closes, RestReq.resp, answered_id, Classical.or_iff_not_imp_left]

theorem addressed_some {id : Nat} (at_ : cli.addressed id = some rq) :
    cli.closing = [] ∧ rq ∈ cli.openl ∧ rq.id = id := by
  unfold RestCli.addressed at at_
  split at at_
  · next idle => exact ⟨idle, mem_of_find?_eq_some at_, by simpa using List.find?_some at_⟩
  · simp at at_

theorem step_sound (sound : cli.Sound) (stepped : step libre a cli = some cli') : cli'.Sound ∧
    (Closes libre a cli → cli.Reported → cli'.Reported) ∧ (cli'.Served → Closes libre a cli) := by
  cases a with
  | start prio sent =>
    obtain rfl := some.inj stepped
    exact ⟨sound.restReqStart, fun _ reported => RestCli.triggerQueue_reported reported, fun _ => trivial⟩
  | returns sent =>
    refine ⟨sound.handlerReturns stepped, fun _ reported => ?_, fun _ => trivial⟩
    simp only [step, RestCli.handlerReturns] at stepped
    split at stepped
    · simp at stepped
    · obtain rfl := some.inj stepped
      exact RestCli.triggerQueue_reported reported
  | data id buf =>
    obtain ⟨req, _, rfl⟩ := map_eq_some_iff.mp stepped
    exact ⟨sound.update, fun _ reported => reported, fun _ => trivial⟩
  | result id result =>
    obtain ⟨req, at_, rfl⟩ := map_eq_some_iff.mp stepped
    obtain ⟨idle, member, rfl⟩ := addressed_some at_
    have sound₁ : { cli with reported := req.id :: cli.reported }.Sound := { sound with }
    unfold RestCli.httpRespHandler
    rcases @resp_cases libre req result with ⟨closes, resp, same, closed⟩ | ⟨stays, left_⟩
    · rw [closed]
      refine ⟨sound₁.reqClose idle member same, fun _ reported => ?_, fun _ r at_' => ?_⟩
      · refine forall_mem_cons.mpr ⟨by simp [RestCli.reqClose, same], fun id before => ?_⟩
        exact .tail _ (reported id before)
      · obtain rfl := some.inj (at_.symm.trans at_')
        exact closes
    · rw [left_]
      have opened := List.mem_map_of_mem (f := RestReq.id) member
      simp only
      split
      · exact ⟨sound₁, fun closes => absurd (closes req at_) stays,
          fun served => absurd opened (served.answered idle _ mem_cons_self).2⟩
      · refine ⟨sound₁.update, fun closes => absurd (closes req at_) stays, fun served => ?_⟩
        exact absurd opened (RestCli.update_ids ▸ (served.answered idle _ mem_cons_self).2)

theorem run_sound {maxopen : ℕ+} {actions : List Action} (ran : run (step libre) { maxopen } actions = some cli) :
    cli.Sound := by
  refine run_invariant (fun a s s' (_ : True) sound stepped => (step_sound sound stepped).1) (fun _ _ => trivial)
    ⟨⟨?_, ?_, ?_, ?_⟩, .inl rfl⟩ ran <;> simp [RestCli.slots]

/-- Whatever the HTTP layer reports and wherever handlers start requests, at each action every request so far is queued,
    open or has had its handler called, one of these and once, and at most `maxopen` have a slot. -/
theorem requests_conserved (libre : Libre) (maxopen : ℕ+) (actions : List Action) :
    Throughout (step libre) { maxopen } actions fun _ cli =>
      (cli.reql.map RestReq.id ++ (cli.openl.map RestReq.id ++ cli.called.map Resp.id)).Perm
        (List.range cli.started) ∧ cli.slots ≤ cli.maxopen := by
  intro front a back mid _ ran
  exact ⟨(run_sound ran).once, (run_sound ran).bounded⟩

/-- The requests started by the application and by its handlers are served by every run from a new client in which
    each result that the HTTP layer reports closes its request, and by no other. -/
theorem requests_served_iff (libre : Libre) (maxopen : ℕ+) (actions : List Action) :
    (∀ front back t, actions = front ++ back → run (step libre) { maxopen } front = some t → t.Served) ↔
      Throughout (step libre) { maxopen } actions (Closes libre) := by
  have start : RestCli.Sound { maxopen } := @run_sound libre _ maxopen [] rfl
  constructor
  · intro served front a back mid split ran
    have sound := run_sound ran
    cases stepped : step libre a mid with
    | some t =>
      refine (step_sound sound stepped).2.2 (served (front ++ [a]) back t (by simp [split]) ?_)
      exact run_append.mpr ⟨mid, ran, run_cons.mpr ⟨t, stepped, rfl⟩⟩
    | none =>
      cases a with
      | result id result =>
        intro req at_
        simp [step, mem_def.mp at_] at stepped
      | _ => trivial
  · intro closes front back t split ran
    have ⟨sound, reported⟩ : t.Sound ∧ t.Reported := run_throughout
      (fun a s s' closes kept stepped => (step_sound kept.1 stepped).imp_right fun keeps => keeps.1 closes kept.2)
      (throughout_front (split ▸ closes)) ⟨start, by simp [RestCli.Reported]⟩ ran
    refine ⟨sound.bounded, sound.inOrder, fun idle room => ?_, fun _ id member => ?_⟩
    · rcases sound.waits with none_ | full | ⟨_, top, first⟩
      · exact none_
      · omega
      · simp [idle] at first
    · have distinct := nodup_append.mp sound.distinct.of_append_right
      exact ⟨count_eq_one_of_mem distinct.2.1 (reported id member),
        fun opened => distinct.2.2 id opened id (reported id member) rfl⟩

def emptyJson : List Action :=
  [.start 0 none, .start 0 none, .result 0 (.responded ⟨200, ascii "application", ascii "json"⟩)]

/-- A JSON response without a body: the handler is not called, and the request that waits is not started. -/
theorem empty_json_keeps_slot : (fun libre => (run (step libre) { maxopen := 1 } emptyJson).map fun t =>
      (t.openl.map RestReq.id, t.reql.map RestReq.id, t.reported, t.called)) =
    fun _ => some ([0], [1], [0], []) := by
  rfl

end Avs.Rest
