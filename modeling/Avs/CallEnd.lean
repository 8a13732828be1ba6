import Avs.UpdateGlare

/-!
One of two connected peers ends the call. A CANCEL ends the other side in every state of a connected call, a
HANGUP only where the data channel stands and no request for an update comes before it, and a peer that was
asked for an update sends nothing at all when it ends.
-/
namespace Avs.CallEnd
open Duplex Peers UpdateGlare Runs Econn

def endCall (p : Peer) : Peer × List Letter :=
  let d := p.conn.end_ none
  ({ p with conn := d.conn }, d.sent.map (⟨·, 0⟩))

def ended (link : Link Peer Letter) (s : Side) : Link Peer Letter :=
  put link s (endCall (link.node s)).1 (link.inbox s) (endCall (link.node s)).2

/-- The call is over for a peer, or as good as over. -/
def Over (n : Peer) : Prop := n.conn.state = .terminating ∨ n.conn.state = .hangupSent

def Parted (s : Side) (link : Link Peer Letter) : Prop :=
  Over (link.node s) ∧ (link.node s.other).conn.state = .terminating

structure Drained (ids : Side → Ident) (link final : Link Peer Letter) (events : List (Event Peers.Action)) : Prop where
  deliveries : ∀ event ∈ events, Delivery event
  ran : run (step (machine ids)) link events = some final
  inbox : ∀ s, final.inbox s = []

/-- The end of the call by `s` reaches the other side: `s` was not asked for an update and, where it hangs up, the other
    side's data channel stands and no request for an update is on its way to it. -/
structure Heard (link : Link Peer Letter) (s : Side) : Prop where
  unasked : (link.node s).conn.state ≠ .updateRecv
  hangup : (link.node s).conn.state = .datachanEstablished →
    (link.node s.other).conn.state = .datachanEstablished ∧ ∀ letter ∈ link.inbox s.other, letter.msg.resp = true

def Update (sess : Side → Bytes) (s : Side) (letter : Letter) : Prop :=
  letter.msg.msgType = .update ∧ letter.msg.sessidSender = sess s

/-- What the updates of a connected call keep. -/
structure Live (ids : Side → Ident) (sess : Side → Bytes) (link : Link Peer Letter) : Prop where
  met : ∀ s, Met ids sess s (link.node s)
  open_ : ∀ s, Open (link.node s)
  updates : ∀ s, ∀ letter ∈ link.inbox s, Update sess s.other letter

variable {ids : Side → Ident} {n n' : Peer} {sess : Side → Bytes} {s : Side} {letters : List Letter}
  {link : Link Peer Letter}

section
variable {letter : Letter} {ticket : Nat} {sender : Ident} {conn : Econn} {userid clientid : Bytes}
  {msg : EconnMessage}

theorem open_cases (open_ : Open n) :
    n.conn.state = .answered ∨ n.conn.state = .datachanEstablished ∨ n.conn.state = .updateSent ∨
      n.conn.state = .updateRecv := by
  rcases open_ with (at_ | at_) | at_ | at_
  · exact .inl at_
  · exact .inr (.inl at_)
  · exact .inr (.inr (.inl at_))
  · exact .inr (.inr (.inr at_))

/-- The letters that may follow the end of a call on their way to the side that ended it. -/
def Mild (letter : Letter) : Prop :=
  letter.msg.msgType = .update ∨ letter.msg.msgType = .hangup ∧ letter.msg.resp = true

theorem over_recv (finished : Over n) (mild : Mild letter) :
    Over (recv sender letter n).1 ∧ (recv sender letter n).2 = [] := by
  have quiet : Over { n with conn := (n.conn.recvMessage none sender.userid sender.clientid letter.msg).conn } ∧
      (n.conn.recvMessage none sender.userid sender.clientid letter.msg).sent = [] := by
    unfold Over at finished ⊢
    rcases mild with type | ⟨type, resp⟩
    · simp only [recvMessage, type, recvUpdate, handleUpdateRequest, handleUpdateResponse]
      rcases finished with at_ | at_
      · simp only [at_]
        repeat' split
        all_goals simp_all [quiet]
      · simp only [at_]
        repeat' split
        all_goals simp_all [quiet]
    · simp only [recvMessage, type, recvHangup, resp]
      rcases finished with at_ | at_
      · simp only [at_]
        split <;> simp [quiet, at_]
      · simp only [at_]
        split <;> simp [quiet, at_, close]
  refine ⟨?_, by simp [recv, quiet.2]⟩
  rw [Over, recv_conn]
  exact quiet.1

theorem recvSetup_sent : (conn.recvSetup userid clientid msg).sent = [] := by
  simp only [recvSetup, handleSetupResponse, handleSetupRequest, incoming]
  repeat' split
  all_goals rfl

theorem recvUpdate_sent : (conn.recvUpdate userid clientid msg).sent = [] := by
  simp only [recvUpdate, handleUpdateRequest, handleUpdateResponse]
  repeat' split
  all_goals rfl

theorem recvCancel_sent : (conn.recvCancel none clientid msg).sent = [] := by
  simp only [recvCancel, close]
  repeat' split
  all_goals simp_all [quiet]

/-- The only letter a peer answers by itself is a HANGUP, with a response. -/
theorem recv_replies : ∀ sent ∈ (recv sender letter n).2, Mild sent := by
  intro sent member
  obtain ⟨msg, among, rfl⟩ := List.mem_map.mp member
  have member : msg ∈ (n.conn.recvMessage none sender.userid sender.clientid letter.msg).sent := among
  cases type : letter.msg.msgType with
  | setup => simp [recvMessage, type, recvSetup_sent] at member
  | update => simp [recvMessage, type, recvUpdate_sent] at member
  | cancel => simp [recvMessage, type, recvCancel_sent] at member
  | hangup =>
    simp only [recvMessage, type, recvHangup, close, transpSend] at member
    refine .inr ?_
    split at member
    · split at member
      all_goals simp_all [quiet]
    · simp [quiet] at member

/-- An update is read: a request asks the peer or is dropped by a winner, a response ends the peer's waiting or is
    dropped. -/
theorem recv_update (met : Met ids sess s n) (open_ : Open n) (update : Update sess s.other letter) :
    let r := (recv (ids s.other) letter n).1
    Met ids sess s r ∧ Open r ∧
      (r.conn.state = .datachanEstablished ↔ n.conn.state = .datachanEstablished ∧ letter.msg.resp = true) := by
  intro r
  obtain ⟨⟨type, sessid, resp, sdp⟩, ticket⟩ := letter
  obtain ⟨rfl, rfl⟩ : type = .update ∧ sessid = sess s.other := update
  cases resp with
  | true =>
    by_cases asking : Asking n
    · obtain ⟨-, met', -, -⟩ := recv_response met asking ticket sdp
      have state : r.conn.state = .answered := by
        rw [Asking] at asking
        simp [r, recv_conn, recvMessage, recvUpdate, sameSession, met.sessidRemote,
          handleUpdateResponse, met.clientidRemote, asking]
      refine ⟨met', .inl (.inl state), ?_⟩
      rw [Asking] at asking
      simp [state, asking]
    · have same : r = n := by
        rw [Asking] at asking
        simp [r, recv, recvMessage, recvUpdate, sameSession, met.sessidRemote,
          handleUpdateResponse, asking, quiet]
      rw [same]
      exact ⟨met, open_, by simp⟩
  | false =>
    have asked : ∀ {ticket}, Asked r ticket → Open r ∧ (r.conn.state = .datachanEstablished ↔ False) := by
      intro ticket asked
      exact ⟨.inr (.inr asked.1), by simp [asked.1]⟩
    simp only [Bool.false_eq_true, and_false]
    rcases open_ with rest | asking | waiting
    · obtain ⟨-, met', isAsked, -⟩ := recv_request met (.inl rest) ticket sdp
      exact ⟨met', asked isAsked⟩
    · cases winner : wins (ids s) (ids s.other) with
      | true =>
        have same : r = n := congrArg Prod.fst (recv_request_winner met asking winner ticket sdp)
        rw [same]
        refine ⟨met, .inr (.inl asking), ?_⟩
        rw [Asking] at asking
        simp [asking]
      | false =>
        obtain ⟨-, met', isAsked, -⟩ := recv_request met (.inr ⟨asking, winner⟩) ticket sdp
        exact ⟨met', asked isAsked⟩
    · have same : r = n := by
        simp [r, recv, recvMessage, recvUpdate, sameSession, met.sessidRemote,
          handleUpdateRequest, met.clientidRemote, waiting, quiet]
      rw [same]
      exact ⟨met, .inr (.inr waiting), by simp [waiting]⟩

theorem recv_cancel (met : Met ids sess s n) (open_ : Open n) :
    (recv (ids s.other) ⟨⟨.cancel, sess s.other, false, []⟩, ticket⟩ n).1.conn.state = .terminating := by
  have client : strcaseeq (some (ids s.other).clientid) (some n.conn.clientidRemote) = true := by
    have same := met.clientidRemote
    simp only [strcaseeq, decide_eq_true_eq] at same ⊢
    exact same.symm
  rw [recv_conn]
  rcases open_cases open_ with at_ | at_ | at_ | at_ <;>
    simp [recvMessage, recvCancel, client, at_, sameSession, met.sessidRemote, close]

/-- A HANGUP ends the call of a peer whose data channel stands, and no other. -/
theorem recv_hangup (met : Met ids sess s n) (open_ : Open n) :
    (recv (ids s.other) ⟨⟨.hangup, sess s.other, false, []⟩, ticket⟩ n).1.conn.state = .terminating ↔
      n.conn.state = .datachanEstablished := by
  rw [recv_conn]
  rcases open_cases open_ with at_ | at_ | at_ | at_ <;>
    simp [recvMessage, recvHangup, at_, sameSession, met.sessidRemote, close, quiet]

theorem received_updates (met : Met ids sess s n) (open_ : Open n)
    (updates : ∀ letter ∈ letters, Update sess s.other letter) : let r := received (machine ids) s n letters
    Met ids sess s r ∧ Open r ∧ (r.conn.state = .datachanEstablished ↔
      n.conn.state = .datachanEstablished ∧ ∀ letter ∈ letters, letter.msg.resp = true) := by
  induction letters generalizing n with
  | nil => exact ⟨met, open_, by simp [received]⟩
  | cons letter rest ih =>
    obtain ⟨met₁, open₁, data₁⟩ := recv_update met open_ (updates letter (by simp))
    obtain ⟨met', open', data⟩ := ih met₁ open₁ (fun later member => updates later (by simp [member]))
    refine ⟨met', open', ?_⟩
    rw [received, List.foldl_cons]
    refine data.trans ?_
    rw [data₁]
    simp [and_assoc]

theorem open_notTerminating (open_ : Open n) : n.conn.state ≠ .terminating := by
  rcases open_cases open_ with at_ | at_ | at_ | at_ <;> simp [at_]

theorem received_append {machine : Machine Peer Letter Peers.Action} {first second : List Letter} :
    received machine s n (first ++ second) = received machine s (received machine s n first) second := by
  simp [received]

end

theorem act_live {action : Peers.Action} (update : UpdateEvent (.act s action)) (met : Met ids sess s n)
    (open_ : Open n)
    (acted : act n action = some (n', letters)) :
    Met ids sess s n' ∧ Open n' ∧ ∀ letter ∈ letters, Update sess s letter := by
  cases action with
  | start sdp => exact absurd update id
  | answer sdp => exact absurd update id
  | updateReq sdp =>
    obtain ⟨rfl, met', asking⟩ := act_updateReq met open_ acted
    refine ⟨met', .inr (.inl asking), ?_⟩
    intro letter member
    obtain rfl := List.mem_singleton.mp member
    exact ⟨rfl, rfl⟩
  | updateResp sdp =>
    by_cases waiting : n.conn.state = .updateRecv
    · obtain ⟨rfl, met', rest, -⟩ := act_updateResp met ⟨waiting, rfl⟩ acted
      refine ⟨met', .inl rest, ?_⟩
      intro letter member
      obtain rfl := List.mem_singleton.mp member
      exact ⟨rfl, rfl⟩
    · obtain ⟨rfl, rfl⟩ := act_updateResp_unasked waiting acted
      exact ⟨met, open_, by simp⟩
  | datachan =>
    obtain ⟨rfl, met', alike⟩ := act_datachan met acted
    refine ⟨met', ?_, by simp⟩
    rcases open_ with rest | asking | waiting
    · exact .inl (alike.rest rest)
    · exact .inr (.inl (alike.asking asking))
    · exact .inr (.inr (alike.asked _ ⟨waiting, rfl⟩).1)

theorem put_live {x : Side} {rest : List Letter} (live : Live ids sess link) (met : Met ids sess x n) (open_ : Open n)
    (part : ∀ letter ∈ rest, letter ∈ link.inbox x) (sent : ∀ letter ∈ letters, Update sess x letter) :
    Live ids sess (put link x n rest letters) := by
  refine ⟨met_put live.met met, ?_, ?_⟩
  · intro s
    rcases Side.eq_or_other x s with rfl | rfl
    · simpa using open_
    · simpa using live.open_ x.other
  · intro s letter member
    rcases Side.eq_or_other x s with rfl | rfl
    · rw [put_inbox] at member
      exact live.updates s letter (part letter member)
    · rw [put_inbox_other] at member
      rcases List.mem_append.mp member with old | new
      · exact live.updates x.other letter old
      · rw [x.other_other]
        exact sent letter new

theorem step_live (event : Event Peers.Action) (link link' : Link Peer Letter) (update : UpdateEvent event)
    (live : Live ids sess link) (stepped : step (machine ids) event link = some link') : Live ids sess link' := by
  cases event with
  | act x action =>
    obtain ⟨n, letters, acted, rfl⟩ := step_act stepped
    obtain ⟨met, open_, sent⟩ := act_live update (live.met x) (live.open_ x) acted
    exact put_live live met open_ (fun _ member => member) sent
  | deliver x =>
    obtain ⟨letter, rest, at_, rfl⟩ := step_deliver stepped
    have isUpdate := live.updates x letter (by simp [at_])
    obtain ⟨met, open_, -⟩ := recv_update (live.met x) (live.open_ x) isUpdate
    refine put_live live met open_ (fun later member => by simp [at_, member]) ?_
    intro sent member
    simp [machine, recv, recvMessage, isUpdate.1, recvUpdate_sent] at member

theorem listening (s : Side) : Listening (machine ids) s Over Mild where
  stays := fun _ _ finished mild => (over_recv finished mild).1
  quiet := fun _ _ finished mild => (over_recv finished mild).2
  replies := fun _ _ => recv_replies

theorem endCall_cases (open_ : Open n) : Over (endCall n).1 ∧ ((n.conn.state = .updateRecv ∧ (endCall n).2 = []) ∨
        (n.conn.state = .datachanEstablished ∧ (endCall n).2 = [⟨⟨.hangup, n.conn.sessidLocal, false, []⟩, 0⟩]) ∨
        (n.conn.state ≠ .updateRecv ∧ n.conn.state ≠ .datachanEstablished ∧
          (endCall n).2 = [⟨⟨.cancel, n.conn.sessidLocal, false, []⟩, 0⟩])) := by
  rcases open_cases open_ with at_ | at_ | at_ | at_ <;>
    simp [Over, endCall, end_, at_, transpSend, quiet]

/-- What the other side becomes of once it has read its inbox. -/
theorem heard_iff (live : Live ids sess link) : (received (machine ids) s.other (link.node s.other)
      (link.inbox s.other ++ (endCall (link.node s)).2)).conn.state = .terminating ↔ Heard link s := by
  obtain ⟨met, open_, data⟩ :=
    received_updates (live.met s.other) (live.open_ s.other) (live.updates s.other)
  rw [received_append]
  have session : (link.node s).conn.sessidLocal = sess s.other.other := by
    rw [s.other_other]
    exact (live.met s).sessid
  obtain ⟨-, ⟨asked, nothing⟩ | ⟨established, hangup⟩ | ⟨unasked, notEstablished, cancel⟩⟩ :=
    endCall_cases (live.open_ s)
  · rw [nothing]
    constructor
    · intro finished
      exact absurd finished (open_notTerminating open_)
    · intro heard
      exact absurd asked heard.unasked
  · rw [hangup, session]
    refine (recv_hangup met open_).trans (data.trans ?_)
    constructor
    · intro standing
      exact ⟨by simp [established], fun _ => standing⟩
    · intro heard
      exact heard.hangup established
  · rw [cancel, session]
    constructor
    · intro _
      exact ⟨unasked, fun established => absurd established notEstablished⟩
    · intro _
      exact recv_cancel met open_

/-- In every run of updates, in any order: once a side has ended the call and all that is on its way is delivered, the
    call is over on both sides exactly when the end was heard. -/
theorem ending_heard_iff {ids : Side → Ident} {sess : Side → Bytes} {start link : Link Peer Letter}
    (connected : Connected ids sess start) {events : List (Event Peers.Action)}
    (update : ∀ event ∈ events, UpdateEvent event)
    (ran : run (step (machine ids)) start events = some link) (s : Side) :
    (∃ final deliveries, Drained ids (ended link s) final deliveries) ∧
      ∀ final deliveries, Drained ids (ended link s) final deliveries → (Parted s final ↔ Heard link s) := by
  have live : Live ids sess link := by
    refine run_invariant step_live update ⟨connected.met, fun x => .inl (connected.rest x), ?_⟩ ran
    intro x letter member
    simp [connected.inbox x] at member
  have finished : Over ((ended link s).node s) := by
    simpa [ended] using (endCall_cases (live.open_ s)).1
  have mild : ∀ letter ∈ (ended link s).inbox s, Mild letter := by
    intro letter member
    rw [ended, put_inbox] at member
    exact .inl (live.updates s letter member).1
  constructor
  · obtain ⟨deliveries, final, only, ran, inbox⟩ := exists_drained (listening s) finished mild
    exact ⟨final, deliveries, only, ran, inbox⟩
  · rintro final deliveries ⟨only, ran, inbox⟩
    obtain ⟨overAfter, other⟩ := deliveries_silent (listening s) only ran finished mild (inbox s.other)
    rw [Parted, other, ended, put_node_other, put_inbox_other, heard_iff live]
    exact and_iff_right overAfter

def states (link : Link Peer Letter) : EconnState × EconnState :=
  ((link.node .left).conn.state, (link.node .right).conn.state)

/-- Bob asks for an update, and Alice ends the call instead of answering: nothing is sent, and Bob waits on. -/
theorem ending_unheard : ∃ link, Connected bobAndAlice sessions answeredCall ∧
      run (step (machine bobAndAlice)) answeredCall [.act .left (.updateReq [1]), .deliver .right] = some link ∧
      Drained bobAndAlice (ended link .right) (ended link .right) [] ∧
      states (ended link .right) = (.updateSent, .terminating) ∧ ¬ Parted .right (ended link .right) := by
  simp only [exists_and_left]
  refine ⟨answeredCall_connected, exists_shown (fun link => (∀ s, (ended link .right).inbox s = []) ∧
    states (ended link .right) = (.updateSent, .terminating)) (by decide +kernel) ?_⟩
  rintro link - ⟨empty, both⟩
  refine ⟨⟨by simp, rfl, empty⟩, both, ?_⟩
  rintro ⟨-, other⟩
  have waits : ((ended link .right).node .left).conn.state = .updateSent := (Prod.mk.inj both).1
  exact absurd (waits.symm.trans other) (by simp)

/-- Both data channels stand, and Bob hangs up. -/
theorem ending_heard_hangup :
    ∃ link final, run (step (machine bobAndAlice)) answeredCall [.act .left .datachan, .act .right .datachan] =
        some link ∧
      Drained bobAndAlice (ended link .left) final [.deliver .right, .deliver .left] ∧ Heard link .left ∧
      Parted .left final := by
  simp only [exists_and_left]
  refine exists_shown (fun link => states link = (.datachanEstablished, .datachanEstablished) ∧
    link.inbox .right = [] ∧ ∃ final, run (step (machine bobAndAlice)) (ended link .left)
      [.deliver .right, .deliver .left] = some final ∧ ∀ s, final.inbox s = []) (by decide +kernel) ?_
  rintro link ran ⟨both, inbox, final, delivered, empty⟩
  obtain ⟨left, right⟩ := Prod.mk.inj both
  have drained : Drained bobAndAlice (ended link .left) final [.deliver .right, .deliver .left] :=
    ⟨by simp [Delivery], delivered, empty⟩
  have heard : Heard link .left := ⟨by simp [left], fun _ => ⟨right, by simp [Side.other, inbox]⟩⟩
  have update : ∀ event ∈ [Event.act Side.left Peers.Action.datachan, .act .right .datachan], UpdateEvent event := by
    simp [UpdateEvent]
  exact ⟨final, drained, heard,
    ((ending_heard_iff answeredCall_connected update ran .left).2 final _ drained).mpr heard⟩

end Avs.CallEnd
