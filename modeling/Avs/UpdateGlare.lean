import Avs.Peers

/-!
Two connected peers update their call, and may both ask for an update at once. As long as a side asks only
while no update is open, or as the winner while the other's request waits for its answer, a run goes through
the phases of `Phase`. A loser that asks while it should answer is dropped by the winner, and both sides then
wait for good.
-/
namespace Avs.UpdateGlare
open Duplex Peers List Option Runs Econn

def request (sess : Side → Bytes) (s : Side) (ticket : Nat) (sdp : Bytes) : Letter :=
  ⟨⟨.update, sess s, false, sdp⟩, ticket⟩

def response (sess : Side → Bytes) (s : Side) (ticket : Nat) (sdp : Bytes) : Letter :=
  ⟨⟨.update, sess s, true, sdp⟩, ticket⟩

/-- What the econn of a connected peer knows: both sessions and both ids. -/
structure Met (ids : Side → Ident) (sess : Side → Bytes) (s : Side) (n : Peer) : Prop where
  userid : n.conn.useridSelf = (ids s).userid
  clientid : n.conn.clientid = (ids s).clientid
  sessid : n.conn.sessidLocal = sess s
  sessidRemote : strcaseeq (some n.conn.sessidRemote) (some (sess s.other)) = true
  clientidRemote : strcaseeq (some n.conn.clientidRemote) (some (ids s.other).clientid) = true

def Rest (n : Peer) : Prop := n.conn.state = .answered ∨ n.conn.state = .datachanEstablished

def Asking (n : Peer) : Prop := n.conn.state = .updateSent

/-- The peer was asked for an update, by the other's offer of that number. -/
def Asked (n : Peer) (ticket : Nat) : Prop := n.conn.state = .updateRecv ∧ n.shown.1 = ticket

/-- What of the loser's dropped request may still be on its way to the winner. -/
def Stale (sess : Side → Bytes) (s : Side) (letters : List Letter) : Prop :=
  letters = [] ∨ ∃ ticket sdp, letters = [request sess s ticket sdp]

/-- The open updates and what is on its way, with `w` the winner. -/
inductive Phase (sess : Side → Bytes) (w : Side) (link : Link Peer Letter) : Prop
  | rest (winner : Rest (link.node w)) (loser : Rest (link.node w.other))
      (inbox : link.inbox w = []) (inboxOther : link.inbox w.other = [])
  | loserAsks (sdp : Bytes) (winner : Rest (link.node w)) (loser : Asking (link.node w.other))
      (inbox : link.inbox w = [request sess w.other (link.node w.other).offers sdp])
      (inboxOther : link.inbox w.other = [])
  | winnerAsked (winner : Asked (link.node w) (link.node w.other).offers) (loser : Asking (link.node w.other))
      (inbox : link.inbox w = []) (inboxOther : link.inbox w.other = [])
  | winnerAnswered (sdp : Bytes) (winner : Rest (link.node w)) (loser : Asking (link.node w.other))
      (inbox : link.inbox w = [])
      (inboxOther : link.inbox w.other = [response sess w (link.node w.other).offers sdp])
  | answeredAsks (sdp sdp' : Bytes) (winner : Asking (link.node w)) (loser : Asking (link.node w.other))
      (inbox : link.inbox w = [])
      (inboxOther : link.inbox w.other =
        [response sess w (link.node w.other).offers sdp, request sess w (link.node w).offers sdp'])
  | winnerAsks (sdp : Bytes) (winner : Asking (link.node w)) (loser : Rest (link.node w.other))
      (inbox : link.inbox w = [])
      (inboxOther : link.inbox w.other = [request sess w (link.node w).offers sdp])
  | bothAsk (sdp : Bytes) (winner : Asking (link.node w)) (loser : Asking (link.node w.other))
      (inbox : Stale sess w.other (link.inbox w))
      (inboxOther : link.inbox w.other = [request sess w (link.node w).offers sdp])
  | loserAsked (winner : Asking (link.node w)) (loser : Asked (link.node w.other) (link.node w).offers)
      (inbox : Stale sess w.other (link.inbox w)) (inboxOther : link.inbox w.other = [])
  | loserAnswered (sdp : Bytes) (winner : Asking (link.node w)) (loser : Rest (link.node w.other))
      (stale : List Letter) (isStale : Stale sess w.other stale)
      (inbox : link.inbox w = stale ++ [response sess w.other (link.node w).offers sdp])
      (inboxOther : link.inbox w.other = [])
  | loserAsksAgain (sdp sdp' : Bytes) (winner : Asking (link.node w)) (loser : Asking (link.node w.other))
      (stale : List Letter) (isStale : Stale sess w.other stale)
      (inbox : link.inbox w = stale ++ [response sess w.other (link.node w).offers sdp,
        request sess w.other (link.node w.other).offers sdp'])
      (inboxOther : link.inbox w.other = [])

/-- The phase and what each econn knows. -/
structure Updating (ids : Side → Ident) (sess : Side → Bytes) (w : Side) (link : Link Peer Letter) : Prop where
  met : ∀ s, Met ids sess s (link.node s)
  phase : Phase sess w link

variable {ids : Side → Ident} {sess : Side → Bytes} {link' link : Link Peer Letter} {letter : Letter} {w : Side}

section
variable {s : Side} {n n' : Peer} {letters : List Letter} {sdp : Bytes} {ticket : Nat}

def Open (n : Peer) : Prop := Rest n ∨ Asking n ∨ n.conn.state = .updateRecv

theorem act_updateReq (met : Met ids sess s n) (open_ : Open n) (acted : act n (.updateReq sdp) = some (n', letters)) :
    letters = [request sess s n'.offers sdp] ∧ Met ids sess s n' ∧ Asking n' := by
  have sent : n.conn.updateReq none sdp = ⟨{ n.conn with
        state := .updateSent
        tmrLocal := if n.conn.timeoutSetup = 0 then n.conn.tmrLocal else some .setup },
      if n.conn.timeoutSetup = 0 then some .EPROTO else none,
      [⟨.update, n.conn.sessidLocal, false, sdp⟩], []⟩ := by
    unfold Open Rest Asking at open_
    by_cases never : n.conn.timeoutSetup = 0 <;> rcases open_ with (at_ | at_) | at_ | at_ <;>
      simp [updateReq, at_, sendSetup, never]
  simp only [act, sent, offering, cons_ne_nil, if_false, map_cons, map_nil, some.injEq,
    Prod.mk.injEq] at acted
  obtain ⟨rfl, rfl⟩ := acted
  refine ⟨by simp [request, met.sessid], ?_, rfl⟩
  exact ⟨met.userid, met.clientid, met.sessid, met.sessidRemote, met.clientidRemote⟩

theorem act_updateResp (met : Met ids sess s n) (asked : Asked n ticket)
    (acted : act n (.updateResp sdp) = some (n', letters)) :
    letters = [response sess s ticket sdp] ∧ Met ids sess s n' ∧ Rest n' ∧ n'.offers = n.offers := by
  simp [act, updateResp, asked.1, sendSetup, answering, asked.2] at acted
  obtain ⟨rfl, rfl⟩ := acted
  refine ⟨by simp [response, met.sessid], ?_, .inl rfl, rfl⟩
  exact ⟨met.userid, met.clientid, met.sessid, met.sessidRemote, met.clientidRemote⟩

/-- A peer in the same phase, as far as updates are concerned. -/
structure Alike (n n' : Peer) : Prop where
  rest : Rest n → Rest n'
  asking : Asking n → Asking n'
  asked : ∀ ticket, Asked n ticket → Asked n' ticket
  offers : n'.offers = n.offers

theorem act_updateResp_unasked (notAsked : n.conn.state ≠ .updateRecv)
    (acted : act n (.updateResp sdp) = some (n', letters)) : letters = [] ∧ n' = n := by
  simp only [act, updateResp, notAsked, if_false, quiet, answering, if_true, some.injEq,
    Prod.mk.injEq] at acted
  exact ⟨acted.2.symm, acted.1.symm⟩

theorem act_datachan (met : Met ids sess s n) (acted : act n .datachan = some (n', letters)) :
    letters = [] ∧ Met ids sess s n' ∧ Alike n n' := by
  simp only [act, some.injEq, Prod.mk.injEq] at acted
  obtain ⟨rfl, rfl⟩ := acted
  unfold setDatachanEstablished
  split
  · next at_ =>
    refine ⟨rfl, ⟨met.userid, met.clientid, met.sessid, met.sessidRemote, met.clientidRemote⟩, ⟨fun _ => .inr rfl,
      fun asking => ?_, fun _ asked => ?_, rfl⟩⟩
    · exact absurd (at_.symm.trans asking) (by simp)
    · exact absurd (at_.symm.trans asked.1) (by simp)
  · exact ⟨rfl, met, ⟨id, id, fun _ => id, rfl⟩⟩

section
variable (met : Met ids sess s n)
include met

theorem recv_request (open_ : Rest n ∨ (Asking n ∧ wins (ids s) (ids s.other) = false)) (ticket : Nat) (sdp : Bytes) :
    let r := recv (ids s.other) (request sess s.other ticket sdp) n
    r.2 = [] ∧ Met ids sess s r.1 ∧ Asked r.1 ticket ∧ r.1.offers = n.offers := by
  intro r
  have lost : wins (ids s) (ids s.other) = false →
      isWinner n.conn.useridSelf n.conn.clientid (ids s.other).userid (ids s.other).clientid = false := by
    rw [met.userid, met.clientid]
    exact id
  have result : r = ({ n with
      conn := { n.conn with state := .updateRecv, tmrLocal := some .setup }
      shown := (ticket, sdp) }, []) := by
    rcases open_ with (at_ | at_) | ⟨at_, loser⟩
    · simp [r, recv, request, recvMessage, recvUpdate, sameSession, met.sessidRemote,
        handleUpdateRequest, met.clientidRemote, at_, note]
    · simp [r, recv, request, recvMessage, recvUpdate, sameSession, met.sessidRemote,
        handleUpdateRequest, met.clientidRemote, at_, note]
    · rw [Asking] at at_
      simp [r, recv, request, recvMessage, recvUpdate, sameSession, met.sessidRemote,
        handleUpdateRequest, met.clientidRemote, at_, note, lost loser]
  rw [result]
  exact ⟨rfl, ⟨met.userid, met.clientid, met.sessid, met.sessidRemote, met.clientidRemote⟩, ⟨rfl, rfl⟩, rfl⟩

theorem recv_request_winner (asking : Asking n) (winner : wins (ids s) (ids s.other) = true) (ticket : Nat)
    (sdp : Bytes) : recv (ids s.other) (request sess s.other ticket sdp) n = (n, []) := by
  have won : isWinner n.conn.useridSelf n.conn.clientid (ids s.other).userid (ids s.other).clientid = true := by
    rw [met.userid, met.clientid]
    exact winner
  rw [Asking] at asking
  simp [recv, request, recvMessage, recvUpdate, sameSession, met.sessidRemote,
    handleUpdateRequest, met.clientidRemote, asking, won, quiet]

theorem recv_response (asking : Asking n) (ticket : Nat) (sdp : Bytes) :
    let r := recv (ids s.other) (response sess s.other ticket sdp) n
    r.2 = [] ∧ Met ids sess s r.1 ∧ Rest r.1 ∧ r.1.offers = n.offers := by
  intro r
  rw [Asking] at asking
  have result : r = ({ n with
      conn := { n.conn with tmrLocal := none, state := .answered }
      got := some sdp }, []) := by
    simp [r, recv, response, recvMessage, recvUpdate, sameSession, met.sessidRemote,
      handleUpdateResponse, met.clientidRemote, asking, note]
  rw [result]
  exact ⟨rfl, ⟨met.userid, met.clientid, met.sessid, met.sessidRemote, met.clientidRemote⟩, .inl rfl, rfl⟩

end

end

section
variable {x : Side} {n : Peer} {rest letters : List Letter} {sdp : Bytes}

theorem met_put (met : ∀ s, Met ids sess s (link.node s)) (new : Met ids sess x n) :
    ∀ s, Met ids sess s ((put link x n rest letters).node s) := by
  intro s
  rcases Side.eq_or_other x s with rfl | rfl
  · simpa using new
  · simpa using met x.other

/-- Peers that move within their phases, with nothing sent, leave the phase of the link. -/
theorem phase_mono (phase : Phase sess w link) (alike : ∀ s, Alike (link.node s) (link'.node s))
    (boxes : ∀ s, link'.inbox s = link.inbox s) : Phase sess w link' := by
  have win := alike w
  have lose := alike w.other
  cases phase with
  | rest winner loser inbox inboxOther =>
    refine .rest (win.rest winner) (lose.rest loser) ?_ ?_
    · rw [boxes, inbox]
    · rw [boxes, inboxOther]
  | loserAsks sdp winner loser inbox inboxOther =>
    refine .loserAsks sdp (win.rest winner) (lose.asking loser) ?_ ?_
    · rw [boxes, inbox, lose.offers]
    · rw [boxes, inboxOther]
  | winnerAsked winner loser inbox inboxOther =>
    refine .winnerAsked ?_ (lose.asking loser) ?_ ?_
    · rw [lose.offers]
      exact win.asked _ winner
    · rw [boxes, inbox]
    · rw [boxes, inboxOther]
  | winnerAnswered sdp winner loser inbox inboxOther =>
    refine .winnerAnswered sdp (win.rest winner) (lose.asking loser) ?_ ?_
    · rw [boxes, inbox]
    · rw [boxes, inboxOther, lose.offers]
  | answeredAsks sdp sdp' winner loser inbox inboxOther =>
    refine .answeredAsks sdp sdp' (win.asking winner) (lose.asking loser) ?_ ?_
    · rw [boxes, inbox]
    · rw [boxes, inboxOther, lose.offers, win.offers]
  | winnerAsks sdp winner loser inbox inboxOther =>
    refine .winnerAsks sdp (win.asking winner) (lose.rest loser) ?_ ?_
    · rw [boxes, inbox]
    · rw [boxes, inboxOther, win.offers]
  | bothAsk sdp winner loser inbox inboxOther =>
    refine .bothAsk sdp (win.asking winner) (lose.asking loser) ?_ ?_
    · rw [boxes]
      exact inbox
    · rw [boxes, inboxOther, win.offers]
  | loserAsked winner loser inbox inboxOther =>
    refine .loserAsked (win.asking winner) ?_ ?_ ?_
    · rw [win.offers]
      exact lose.asked _ loser
    · rw [boxes]
      exact inbox
    · rw [boxes, inboxOther]
  | loserAnswered sdp winner loser stale isStale inbox inboxOther =>
    refine .loserAnswered sdp (win.asking winner) (lose.rest loser) stale isStale ?_ ?_
    · rw [boxes, inbox, win.offers]
    · rw [boxes, inboxOther]
  | loserAsksAgain sdp sdp' winner loser stale isStale inbox inboxOther =>
    refine .loserAsksAgain sdp sdp' (win.asking winner) (lose.asking loser) stale isStale ?_ ?_
    · rw [boxes, inbox, win.offers, lose.offers]
    · rw [boxes, inboxOther]

/-- A peer that moves within its phase leaves the phase of the link. -/
theorem phase_alike (phase : Phase sess w link) (alike : Alike (link.node x) n) :
    Phase sess w (put link x n (link.inbox x) []) := by
  apply phase_mono phase
  · intro s
    rcases Side.eq_or_other x s with rfl | rfl
    · simpa using alike
    · simpa using (⟨id, id, fun _ => id, rfl⟩ : Alike (link.node x.other) (link.node x.other))
  · intro s
    rcases Side.eq_or_other x s with rfl | rfl
    · simp
    · simp

theorem rest_notAsking (rest : Rest n) : ¬ Asking n := by
  intro asking
  rw [Asking] at asking
  rcases rest with at_ | at_ <;> simp [at_] at asking

theorem rest_notAsked (rest : Rest n) : n.conn.state ≠ .updateRecv := by
  rcases rest with at_ | at_ <;> simp [at_]

theorem asking_notAsked (asking : Asking n) : n.conn.state ≠ .updateRecv := by
  rw [Asking] at asking
  simp [asking]

theorem updating_req (updating : Updating ids sess w link) (loses : wins (ids w.other) (ids w) = false)
    (notAsking : ¬ Asking (link.node x))
    (onlyWinner : (link.node x).conn.state = .updateRecv → wins (ids x) (ids x.other) = true)
    (acted : act (link.node x) (.updateReq sdp) = some (n, letters)) :
    Updating ids sess w (put link x n (link.inbox x) letters) := by
  have sends : Open (link.node x) →
      letters = [request sess x n.offers sdp] ∧ Met ids sess x n ∧ Asking n :=
    fun open_ => act_updateReq (updating.met x) open_ acted
  rcases Side.eq_or_other w x with rfl | rfl
  · cases updating.phase with
    | rest winner loser inbox inboxOther =>
      obtain ⟨rfl, met, asking⟩ := sends (.inl winner)
      refine ⟨met_put updating.met met, .winnerAsks sdp ?_ ?_ ?_ ?_⟩ <;> simp [asking, loser, inbox, inboxOther]
    | loserAsks sdp' winner loser inbox inboxOther =>
      obtain ⟨rfl, met, asking⟩ := sends (.inl winner)
      refine ⟨met_put updating.met met, .bothAsk sdp ?_ ?_ ?_ ?_⟩ <;>
        simp [asking, loser, inbox, inboxOther, Stale, request]
    | winnerAsked winner loser inbox inboxOther =>
      obtain ⟨rfl, met, asking⟩ := sends (.inr (.inr winner.1))
      refine ⟨met_put updating.met met, .bothAsk sdp ?_ ?_ ?_ ?_⟩ <;>
        simp [asking, loser, inbox, inboxOther, Stale]
    | winnerAnswered sdp' winner loser inbox inboxOther =>
      obtain ⟨rfl, met, asking⟩ := sends (.inl winner)
      refine ⟨met_put updating.met met, .answeredAsks sdp' sdp ?_ ?_ ?_ ?_⟩ <;>
        simp [asking, loser, inbox, inboxOther]
    | answeredAsks _ _ winner | winnerAsks _ winner | bothAsk _ winner | loserAsked winner
    | loserAnswered _ winner | loserAsksAgain _ _ winner => exact absurd winner notAsking
  · have notAsked : (link.node w.other).conn.state ≠ .updateRecv := by
      intro asked
      have wins := onlyWinner asked
      rw [w.other_other, loses] at wins
      exact absurd wins (by simp)
    cases updating.phase with
    | rest winner loser inbox inboxOther =>
      obtain ⟨rfl, met, asking⟩ := sends (.inl loser)
      refine ⟨met_put updating.met met, .loserAsks sdp ?_ ?_ ?_ ?_⟩ <;> simp [asking, winner, inbox, inboxOther]
    | winnerAsks sdp' winner loser inbox inboxOther =>
      obtain ⟨rfl, met, asking⟩ := sends (.inl loser)
      refine ⟨met_put updating.met met, .bothAsk sdp' ?_ ?_ ?_ ?_⟩ <;>
        simp [asking, winner, inbox, inboxOther, Stale, request]
    | loserAnswered sdp' winner loser stale isStale inbox inboxOther =>
      obtain ⟨rfl, met, asking⟩ := sends (.inl loser)
      refine ⟨met_put updating.met met, .loserAsksAgain sdp' sdp ?_ ?_ stale isStale ?_ ?_⟩ <;>
        simp [asking, winner, inbox, inboxOther]
    | loserAsked _ loser => exact absurd loser.1 notAsked
    | loserAsks _ _ loser | winnerAsked _ loser | winnerAnswered _ _ loser | answeredAsks _ _ _ loser
    | bothAsk _ _ loser | loserAsksAgain _ _ _ loser => exact absurd loser notAsking

theorem updating_resp (updating : Updating ids sess w link)
    (acted : act (link.node x) (.updateResp sdp) = some (n, letters)) :
    Updating ids sess w (put link x n (link.inbox x) letters) := by
  by_cases asked : (link.node x).conn.state = .updateRecv
  · have sends : ∀ ticket, Asked (link.node x) ticket →
        letters = [response sess x ticket sdp] ∧ Met ids sess x n ∧ Rest n ∧ n.offers = (link.node x).offers :=
      fun ticket at_ => act_updateResp (updating.met x) at_ acted
    rcases Side.eq_or_other w x with rfl | rfl
    · cases updating.phase with
      | winnerAsked winner loser inbox inboxOther =>
        obtain ⟨rfl, met, rest, offers⟩ := sends _ winner
        refine ⟨met_put updating.met met, .winnerAnswered sdp ?_ ?_ ?_ ?_⟩ <;>
          simp [rest, loser, inbox, inboxOther]
      | rest winner | loserAsks _ winner | winnerAnswered _ winner => exact absurd asked (rest_notAsked winner)
      | answeredAsks _ _ winner | winnerAsks _ winner | bothAsk _ winner | loserAsked winner
      | loserAnswered _ winner | loserAsksAgain _ _ winner => exact absurd asked (asking_notAsked winner)
    · cases updating.phase with
      | loserAsked winner loser inbox inboxOther =>
        obtain ⟨rfl, met, rest, offers⟩ := sends _ loser
        refine ⟨met_put updating.met met, .loserAnswered sdp ?_ ?_ (link.inbox w) inbox ?_ ?_⟩ <;>
          simp [rest, winner, inboxOther]
      | rest _ loser | winnerAsks _ _ loser | loserAnswered _ _ loser => exact absurd asked (rest_notAsked loser)
      | loserAsks _ _ loser | winnerAsked _ loser | winnerAnswered _ _ loser | answeredAsks _ _ _ loser
      | bothAsk _ _ loser | loserAsksAgain _ _ _ loser => exact absurd asked (asking_notAsked loser)
  · obtain ⟨rfl, rfl⟩ := act_updateResp_unasked asked acted
    exact ⟨met_put updating.met (updating.met x), phase_alike updating.phase ⟨id, id, fun _ => id, rfl⟩⟩

theorem updating_datachan (updating : Updating ids sess w link)
    (acted : act (link.node x) .datachan = some (n, letters)) :
    Updating ids sess w (put link x n (link.inbox x) letters) := by
  obtain ⟨rfl, met, alike⟩ := act_datachan (updating.met x) acted
  exact ⟨met_put updating.met met, phase_alike updating.phase alike⟩

theorem stale_cons (stale : Stale sess w.other (letter :: rest)) :
    (∃ ticket sdp, letter = request sess w.other ticket sdp) ∧ rest = [] := by
  rcases stale with empty | ⟨ticket, sdp, at_⟩
  · exact absurd empty (by simp)
  · obtain ⟨rfl, rfl⟩ := List.cons.inj at_
    exact ⟨⟨ticket, sdp, rfl⟩, rfl⟩

theorem updating_deliver_winner (updating : Updating ids sess w link) (winner : wins (ids w) (ids w.other) = true)
    (at_ : link.inbox w = letter :: rest) :
    Updating ids sess w (put link w (recv (ids w.other) letter (link.node w)).1 rest
      (recv (ids w.other) letter (link.node w)).2) := by
  have met := updating.met w
  cases updating.phase with
  | rest _ _ inbox | winnerAsked _ _ inbox | winnerAnswered _ _ _ inbox | answeredAsks _ _ _ _ inbox
  | winnerAsks _ _ _ inbox => exact absurd (inbox.symm.trans at_) (by simp)
  | loserAsks sdp rest_ loser inbox inboxOther =>
    obtain ⟨rfl, rfl⟩ := List.cons.inj (inbox.symm.trans at_)
    obtain ⟨sent, met', asked, offers⟩ := recv_request met (.inl rest_) (link.node w.other).offers sdp
    refine ⟨met_put updating.met met', .winnerAsked ?_ ?_ ?_ ?_⟩ <;> simp [sent, asked, loser, inboxOther]
  | bothAsk sdp asking loser inbox inboxOther =>
    rw [at_] at inbox
    obtain ⟨⟨ticket, dropped, rfl⟩, rfl⟩ := stale_cons inbox
    rw [recv_request_winner met asking winner]
    refine ⟨met_put updating.met met, .bothAsk sdp ?_ ?_ ?_ ?_⟩ <;> simp [asking, loser, inboxOther, Stale]
  | loserAsked asking loser inbox inboxOther =>
    rw [at_] at inbox
    obtain ⟨⟨ticket, dropped, rfl⟩, rfl⟩ := stale_cons inbox
    rw [recv_request_winner met asking winner]
    refine ⟨met_put updating.met met, .loserAsked ?_ ?_ ?_ ?_⟩ <;> simp [asking, loser, inboxOther, Stale]
  | loserAnswered sdp asking loser stale isStale inbox inboxOther =>
    cases stale with
    | nil =>
      obtain ⟨rfl, rfl⟩ := List.cons.inj (inbox.symm.trans at_)
      obtain ⟨sent, met', rest_, offers⟩ := recv_response met asking (link.node w).offers sdp
      refine ⟨met_put updating.met met', .rest ?_ ?_ ?_ ?_⟩ <;> simp [sent, rest_, loser, inboxOther]
    | cons first more =>
      obtain ⟨⟨ticket, dropped, rfl⟩, rfl⟩ := stale_cons isStale
      obtain ⟨rfl, rfl⟩ := List.cons.inj (inbox.symm.trans at_)
      rw [recv_request_winner met asking winner]
      refine ⟨met_put updating.met met, .loserAnswered sdp ?_ ?_ [] (.inl rfl) ?_ ?_⟩ <;>
        simp [asking, loser, inboxOther]
  | loserAsksAgain sdp sdp' asking loser stale isStale inbox inboxOther =>
    cases stale with
    | nil =>
      obtain ⟨rfl, rfl⟩ := List.cons.inj (inbox.symm.trans at_)
      obtain ⟨sent, met', rest_, offers⟩ := recv_response met asking (link.node w).offers sdp
      refine ⟨met_put updating.met met', .loserAsks sdp' ?_ ?_ ?_ ?_⟩ <;> simp [sent, rest_, loser, inboxOther]
    | cons first more =>
      obtain ⟨⟨ticket, dropped, rfl⟩, rfl⟩ := stale_cons isStale
      obtain ⟨rfl, rfl⟩ := List.cons.inj (inbox.symm.trans at_)
      rw [recv_request_winner met asking winner]
      refine ⟨met_put updating.met met, .loserAsksAgain sdp sdp' ?_ ?_ [] (.inl rfl) ?_ ?_⟩ <;>
        simp [asking, loser, inboxOther]

theorem updating_deliver_loser (updating : Updating ids sess w link) (loses : wins (ids w.other) (ids w) = false)
    (at_ : link.inbox w.other = letter :: rest) :
    Updating ids sess w (put link w.other (recv (ids w) letter (link.node w.other)).1 rest
      (recv (ids w) letter (link.node w.other)).2) := by
  have met := updating.met w.other
  have requested : (Rest (link.node w.other) ∨ Asking (link.node w.other)) → ∀ ticket sdp,
      let r := recv (ids w) (request sess w ticket sdp) (link.node w.other)
      r.2 = [] ∧ Met ids sess w.other r.1 ∧ Asked r.1 ticket ∧ r.1.offers = (link.node w.other).offers := by
    intro open_ ticket sdp
    have loses' : wins (ids w.other) (ids w.other.other) = false := by rwa [w.other_other]
    have received := recv_request met (open_.imp id (fun asking => ⟨asking, loses'⟩)) ticket sdp
    rwa [w.other_other] at received
  have answered : Asking (link.node w.other) → ∀ ticket sdp,
      let r := recv (ids w) (response sess w ticket sdp) (link.node w.other)
      r.2 = [] ∧ Met ids sess w.other r.1 ∧ Rest r.1 ∧ r.1.offers = (link.node w.other).offers := by
    intro asking ticket sdp
    have received := recv_response met asking ticket sdp
    rwa [w.other_other] at received
  cases updating.phase with
  | rest _ _ _ inboxOther | loserAsks _ _ _ _ inboxOther | winnerAsked _ _ _ inboxOther
  | loserAsked _ _ _ inboxOther | loserAnswered _ _ _ _ _ _ inboxOther
  | loserAsksAgain _ _ _ _ _ _ _ inboxOther => exact absurd (inboxOther.symm.trans at_) (by simp)
  | winnerAnswered sdp winner asking inbox inboxOther =>
    obtain ⟨rfl, rfl⟩ := List.cons.inj (inboxOther.symm.trans at_)
    obtain ⟨sent, met', rest_, offers⟩ := answered asking (link.node w.other).offers sdp
    refine ⟨met_put updating.met met', .rest ?_ ?_ ?_ ?_⟩ <;> simp [sent, winner, rest_, inbox]
  | answeredAsks sdp sdp' winner asking inbox inboxOther =>
    obtain ⟨rfl, rfl⟩ := List.cons.inj (inboxOther.symm.trans at_)
    obtain ⟨sent, met', rest_, offers⟩ := answered asking (link.node w.other).offers sdp
    refine ⟨met_put updating.met met', .winnerAsks sdp' ?_ ?_ ?_ ?_⟩ <;> simp [sent, winner, rest_, inbox]
  | winnerAsks sdp winner rest_ inbox inboxOther =>
    obtain ⟨rfl, rfl⟩ := List.cons.inj (inboxOther.symm.trans at_)
    obtain ⟨sent, met', asked, offers⟩ := requested (.inl rest_) (link.node w).offers sdp
    refine ⟨met_put updating.met met', .loserAsked ?_ ?_ ?_ ?_⟩ <;> simp [sent, winner, asked, inbox, Stale]
  | bothAsk sdp winner asking inbox inboxOther =>
    obtain ⟨rfl, rfl⟩ := List.cons.inj (inboxOther.symm.trans at_)
    obtain ⟨sent, met', asked, offers⟩ := requested (.inr asking) (link.node w).offers sdp
    refine ⟨met_put updating.met met', .loserAsked ?_ ?_ ?_ ?_⟩ <;> simp [sent, winner, asked, inbox]

end

/-- An application asks for an update or answers one, the data channel comes up, or a message is delivered. -/
def UpdateEvent : Event Peers.Action → Prop
  | .act _ (.updateReq _) => True
  | .act _ (.updateResp _) => True
  | .act _ .datachan => True
  | .act _ _ => False
  | .deliver _ => True

/-- A side asks for an update neither while it waits for an answer nor, unless it is the winner, while it was asked
    itself. -/
def Orderly (ids : Side → Ident) : Event Peers.Action → Link Peer Letter → Prop
  | .act s (.updateReq _), link =>
    ¬ Asking (link.node s) ∧ ((link.node s).conn.state = .updateRecv → wins (ids s) (ids s.other) = true)
  | _, _ => True

instance (event : Event Peers.Action) : Decidable (UpdateEvent event) := by
  unfold UpdateEvent
  split <;> infer_instance

instance (n : Peer) : Decidable (Asking n) := inferInstanceAs (Decidable (n.conn.state = .updateSent))

instance (ids : Side → Ident) (event : Event Peers.Action) (link : Link Peer Letter) :
    Decidable (Orderly ids event link) := by
  unfold Orderly
  split <;> infer_instance

/-- Two econns that are connected to each other, with no update open. -/
structure Connected (ids : Side → Ident) (sess : Side → Bytes) (link : Link Peer Letter) : Prop where
  met : ∀ s, Met ids sess s (link.node s)
  rest : ∀ s, Rest (link.node s)
  inbox : ∀ s, link.inbox s = []

theorem step_updating (winner : wins (ids w) (ids w.other) = true) (loses : wins (ids w.other) (ids w) = false)
    (event : Event Peers.Action) (link link' : Link Peer Letter) (allowed : UpdateEvent event ∧ Orderly ids event link)
    (updating : Updating ids sess w link) (stepped : step (machine ids) event link = some link') :
    Updating ids sess w link' := by
  cases event with
  | act x action =>
    obtain ⟨n, letters, acted, rfl⟩ := step_act stepped
    cases action with
    | start sdp => exact allowed.1.elim
    | answer sdp => exact allowed.1.elim
    | updateReq sdp => exact updating_req updating loses allowed.2.1 allowed.2.2 acted
    | updateResp sdp => exact updating_resp updating acted
    | datachan => exact updating_datachan updating acted
  | deliver x =>
    obtain ⟨letter, rest, at_, rfl⟩ := step_deliver stepped
    rcases Side.eq_or_other w x with rfl | rfl
    · exact updating_deliver_winner updating winner at_
    · simpa [machine, w.other_other] using updating_deliver_loser updating loses at_

/-- A side that waits for an answer has an update on its way, or the other side is about to answer. -/
def Answerable (link : Link Peer Letter) : Prop :=
  ∀ s, Asking (link.node s) →
    (∃ t, ∃ letter ∈ link.inbox t, letter.msg.msgType = .update) ∨ (link.node s.other).conn.state = .updateRecv

theorem updating_answerable (updating : Updating ids sess w link) : Answerable link := by
  intro s asking
  have onWay : ∀ t letter, letter ∈ link.inbox t → letter.msg.msgType = .update →
      (∃ t, ∃ letter ∈ link.inbox t, letter.msg.msgType = .update) ∨ (link.node s.other).conn.state = .updateRecv :=
    fun t letter member update => .inl ⟨t, letter, member, update⟩
  cases updating.phase with
  | rest winner loser =>
    rcases Side.eq_or_other w s with rfl | rfl
    · exact absurd asking (rest_notAsking winner)
    · exact absurd asking (rest_notAsking loser)
  | winnerAsked winner =>
    rcases Side.eq_or_other w s with rfl | rfl
    · exact absurd winner.1 (asking_notAsked asking)
    · rw [w.other_other]
      exact .inr winner.1
  | loserAsked _ loser =>
    rcases Side.eq_or_other w s with rfl | rfl
    · exact .inr loser.1
    · exact absurd loser.1 (asking_notAsked asking)
  | loserAsks _ _ _ inbox => exact onWay w _ (by rw [inbox]; exact mem_cons_self) rfl
  | loserAnswered sdp _ _ stale _ inbox | loserAsksAgain sdp _ _ _ stale _ inbox =>
    exact onWay w (response sess w.other (link.node w).offers sdp) (by simp [inbox]) rfl
  | winnerAnswered _ _ _ _ inboxOther | answeredAsks _ _ _ _ _ inboxOther | winnerAsks _ _ _ _ inboxOther
  | bothAsk _ _ _ _ inboxOther => exact onWay w.other _ (by rw [inboxOther]; exact mem_cons_self) rfl

/-- A side stops waiting only with the answer to the offer it sent last, or because it loses to an offer of the other
    side. -/
def LeavesRightly (ids : Side → Ident) (event : Event Peers.Action) (link link' : Link Peer Letter) : Prop :=
  ∀ s, Asking (link.node s) → ¬ Asking (link'.node s) →
    event = .deliver s ∧ ∃ letter rest, link.inbox s = letter :: rest ∧
      ((letter.msg.resp = true ∧ letter.ticket = (link.node s).offers) ∨
        (letter.msg.resp = false ∧ wins (ids s) (ids s.other) = false))

section
variable {s : Side} {n : Peer} {letters rest : List Letter}

theorem act_asking {action : Peers.Action} (update : UpdateEvent (.act s action)) (met : Met ids sess s (link.node s))
    (asking : Asking (link.node s)) (acted : act (link.node s) action = some (n, letters)) : Asking n := by
  cases action with
  | start sdp => exact update.elim
  | answer sdp => exact update.elim
  | updateReq sdp => exact (act_updateReq met (.inr (.inl asking)) acted).2.2
  | updateResp sdp => exact (act_updateResp_unasked (asking_notAsked asking) acted).2 ▸ asking
  | datachan => exact (act_datachan met acted).2.2.asking asking

/-- A letter that ends the wait is the answer to the last offer, or an offer that the side loses to. -/
theorem recv_asking (updating : Updating ids sess w link) (winner : wins (ids w) (ids w.other) = true)
    (loses : wins (ids w.other) (ids w) = false) (asking : Asking (link.node s))
    (at_ : link.inbox s = letter :: rest) (left : ¬ Asking (recv (ids s.other) letter (link.node s)).1) :
    (letter.msg.resp = true ∧ letter.ticket = (link.node s).offers) ∨
      (letter.msg.resp = false ∧ wins (ids s) (ids s.other) = false) := by
  have met := updating.met s
  rcases Side.eq_or_other w s with rfl | rfl
  · have dropped : ∀ {stale : List Letter} {letter' : Letter}, Stale sess s.other (letter' :: stale) →
        letter' = letter → False := by
      intro stale letter' isStale same
      obtain ⟨⟨ticket, sdp, rfl⟩, _⟩ := stale_cons isStale
      rw [← same, recv_request_winner met asking winner] at left
      exact left asking
    cases updating.phase with
    | rest rest_ | loserAsks _ rest_ | winnerAnswered _ rest_ => exact absurd asking (rest_notAsking rest_)
    | winnerAsked asked => exact absurd asked.1 (asking_notAsked asking)
    | answeredAsks _ _ _ _ inbox | winnerAsks _ _ _ inbox => exact absurd (inbox.symm.trans at_) (by simp)
    | bothAsk _ _ _ inbox | loserAsked _ _ inbox => exact (dropped (at_ ▸ inbox) rfl).elim
    | loserAnswered sdp _ _ stale isStale inbox | loserAsksAgain sdp _ _ _ stale isStale inbox =>
      cases stale with
      | nil =>
        obtain ⟨rfl, _⟩ := List.cons.inj (inbox.symm.trans at_)
        exact .inl ⟨rfl, rfl⟩
      | cons first more => exact (dropped isStale (List.cons.inj (inbox.symm.trans at_)).1).elim
  · cases updating.phase with
    | rest _ rest_ | winnerAsks _ _ rest_ | loserAnswered _ _ rest_ => exact absurd asking (rest_notAsking rest_)
    | loserAsked _ asked => exact absurd asked.1 (asking_notAsked asking)
    | loserAsks _ _ _ _ inboxOther | winnerAsked _ _ _ inboxOther | loserAsksAgain _ _ _ _ _ _ _ inboxOther =>
      exact absurd (inboxOther.symm.trans at_) (by simp)
    | winnerAnswered _ _ _ _ inboxOther | answeredAsks _ _ _ _ _ inboxOther =>
      obtain ⟨rfl, _⟩ := List.cons.inj (inboxOther.symm.trans at_)
      exact .inl ⟨rfl, rfl⟩
    | bothAsk _ _ _ _ inboxOther =>
      obtain ⟨rfl, _⟩ := List.cons.inj (inboxOther.symm.trans at_)
      exact .inr ⟨rfl, by rwa [w.other_other]⟩

theorem step_leavesRightly (updating : Updating ids sess w link) (winner : wins (ids w) (ids w.other) = true)
    (loses : wins (ids w.other) (ids w) = false) {event : Event Peers.Action} (update : UpdateEvent event)
    (stepped : step (machine ids) event link = some link') : LeavesRightly ids event link link' := by
  intro s asking left
  cases event with
  | act x action =>
    obtain ⟨n, letters, acted, rfl⟩ := step_act stepped
    rcases Side.eq_or_other s x with rfl | rfl
    · exact absurd (act_asking update (updating.met x) asking acted) (by simpa using left)
    · exact absurd asking (by simpa using left)
  | deliver x =>
    obtain ⟨letter, rest, at_, rfl⟩ := step_deliver stepped
    rcases Side.eq_or_other s x with rfl | rfl
    · refine ⟨rfl, letter, rest, at_, recv_asking updating winner loses asking at_ ?_⟩
      simpa [machine] using left
    · exact absurd asking (by simpa using left)

end

/-- In every run of updates in which no side asks while it waits for an answer, and no loser asks while it was asked
    itself, a side that waits always has an update on its way or is about to be answered, the two sides never both wait
    with nothing on its way, and a side stops waiting only with the answer to its last offer or by losing to an offer of
    the other. -/
theorem orderly_updates_answerable {ids : Side → Ident} {sess : Side → Bytes} (differ : ids .left ≠ ids .right)
    {start link : Link Peer Letter} (connected : Connected ids sess start) {events : List (Event Peers.Action)}
    (orderly : Throughout (step (machine ids)) start events
      (fun event link => UpdateEvent event ∧ Orderly ids event link))
    (ran : run (step (machine ids)) start events = some link) :
    Answerable link ∧ (¬ ∀ s, Asking (link.node s) ∧ link.inbox s = []) ∧
      ∀ event link', UpdateEvent event → step (machine ids) event link = some link' →
        LeavesRightly ids event link link' := by
  obtain ⟨w, winner, loses⟩ : ∃ w, wins (ids w) (ids w.other) = true ∧ wins (ids w.other) (ids w) = false := by
    cases won : wins (ids .left) (ids .right) with
    | true => exact ⟨.left, won, (wins_swap differ).trans (by rw [won]; rfl)⟩
    | false => exact ⟨.right, (wins_swap differ).trans (by rw [won]; rfl), won⟩
  have updating : Updating ids sess w link :=
    run_throughout (step_updating winner loses) orderly
      ⟨connected.met, .rest (connected.rest w) (connected.rest w.other) (connected.inbox w)
        (connected.inbox w.other)⟩ ran
  have answerable := updating_answerable updating
  refine ⟨answerable, fun both => ?_, fun event link' update stepped =>
    step_leavesRightly updating winner loses update stepped⟩
  rcases answerable w (both w).1 with ⟨t, letter, member, _⟩ | asked
  · rw [(both t).2] at member
    exact absurd member not_mem_nil
  · exact asking_notAsked (both w.other).1 asked

def bobAndAlice : Side → Ident
  | .left => ⟨ascii "bob", ascii "1"⟩
  | .right => ⟨ascii "alice", ascii "1"⟩

def sessions : Side → Bytes
  | .left => ascii "s1"
  | .right => ascii "s2"

/-- Bob's client, which wins, and Alice's in an answered call. -/
def answeredCall : Link Peer Letter :=
  join (fun s => { zalloc 60000 (bobAndAlice s).userid (bobAndAlice s).clientid (sessions s) with
    state := .answered
    sessidRemote := sessions s.other
    useridRemote := (bobAndAlice s.other).userid
    clientidRemote := (bobAndAlice s.other).clientid })

theorem answeredCall_connected : Connected bobAndAlice sessions answeredCall := by
  refine ⟨fun s => ?_, fun s => .inl rfl, fun s => rfl⟩
  cases s <;> exact ⟨rfl, rfl, by decide, by decide, by decide⟩

/-- A call of `econn_update_req` returns 0. -/
def Accepted : Event Peers.Action → Link Peer Letter → Bool
  | .act s (.updateReq sdp), link => ((link.node s).conn.updateReq none sdp).err = none
  | _, _ => true

/-- Bob asks for an update, and Alice asks for one before answering: Bob, who wins, drops Alice's request, Alice no
    longer answers Bob's, and both wait. -/
theorem updates_deadlock :
    ∃ events link, Connected bobAndAlice sessions answeredCall ∧ bobAndAlice .left ≠ bobAndAlice .right ∧
      Throughout (step (machine bobAndAlice)) answeredCall events
        (fun event link => UpdateEvent event ∧ Accepted event link) ∧
      run (step (machine bobAndAlice)) answeredCall events = some link ∧
      ∀ s, Asking (link.node s) ∧ link.inbox s = [] := by
  refine ⟨[.act .left (.updateReq [1]), .deliver .right, .act .right (.updateReq [2]), .deliver .left], ?_⟩
  simp only [exists_and_left]
  exact ⟨answeredCall_connected, by decide, by decide +kernel⟩

/-- Both ask at once: Alice loses, answers Bob's request and asks again. -/
theorem orderly_updates_answerable_crossed : ∃ link, (run (step (machine bobAndAlice)) answeredCall
        [.act .left (.updateReq [1]), .act .right (.updateReq [2]), .deliver .right, .act .right (.updateResp [3]),
          .act .right (.updateReq [4])]) = some link ∧
      (∀ s, Asking (link.node s)) ∧ Answerable link := by
  refine exists_guarded (fun event link => UpdateEvent event ∧ Orderly bobAndAlice event link)
    (fun link => ∀ s, (link.node s).conn.state = .updateSent) (by decide +kernel) fun link orderly ran states => ?_
  exact ⟨states, (orderly_updates_answerable (by decide) answeredCall_connected orderly ran).1⟩

end Avs.UpdateGlare
