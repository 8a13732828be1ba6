import Avs.Peers

/-!
Two peers set up a call, and may both start at once. The offer of one of them counts: the winner's where both
have started, else the only one. A run goes through the phases of that offer (`Phase`): placed, crossed by the
other's offer, shown to the other application, replied to, and connected.
-/
namespace Avs.SetupGlare
open Duplex Peers Runs Econn

/-- An id that `str_ncpy` does not cut. -/
def Fits (ident : Ident) : Prop :=
  ident.userid.length < idLen ∧ ident.clientid.length < idLen

theorem strNcpy_fits {text : Bytes} (fits : text.length < idLen) : strNcpy text = text :=
  List.take_of_length_le (by simp only [idLen] at *; omega)

theorem strNcpy_strNcpy (text : Bytes) : strNcpy (strNcpy text) = strNcpy text := by
  simp [strNcpy, List.take_take]

/-- The SETUP with the offer of a peer. -/
def request (sess : Side → Bytes) (s : Side) (sdp : Bytes) : Letter := ⟨⟨.setup, sess s, false, sdp⟩, 1⟩

def response (sess : Side → Bytes) (s : Side) (sdp : Bytes) : Letter := ⟨⟨.setup, sess s, true, sdp⟩, 1⟩

/-- What a peer's econn knows all along: its own ids, and the other's once set. -/
structure Base (ids : Side → Ident) (sess : Side → Bytes) (s : Side) (n : Peer) : Prop where
  userid : n.conn.useridSelf = (ids s).userid
  clientid : n.conn.clientid = (ids s).clientid
  sessid : n.conn.sessidLocal = sess s
  useridRemote : n.conn.useridRemote = [] ∨ n.conn.useridRemote = (ids s.other).userid
  clientidRemote : n.conn.clientidRemote = [] ∨ n.conn.clientidRemote = (ids s.other).clientid

structure Idle (n : Peer) : Prop where
  state : n.conn.state = .idle
  started : n.started = false
  waiting : n.waiting = 0
  offers : n.offers = 0

/-- The peer has sent its offer and has no answer yet. -/
structure Calling (n : Peer) (offer : Bytes) : Prop where
  state : n.conn.state = .pendingOutgoing
  started : n.started = true
  waiting : n.waiting = 0
  offers : n.offers = 1
  offer : n.offer = offer

/-- The other peer's offer was shown to the application. -/
structure Shown (sess : Side → Bytes) (s : Side) (n : Peer) (offer : Bytes) : Prop where
  state : n.conn.state = .pendingIncoming ∨ n.conn.state = .conflictResolution
  waiting : n.waiting = 1
  shown : n.shown = (1, offer)
  sessidRemote : n.conn.sessidRemote = sess s.other

/-- The other peer's offer was answered. -/
structure Replied (sess : Side → Bytes) (s : Side) (n : Peer) (offer answer : Bytes) : Prop where
  state : n.conn.state = .answered
  waiting : n.waiting = 0
  answered : n.answered = some (1, offer)
  sent : n.sent = some answer
  sessidRemote : n.conn.sessidRemote = sess s.other

/-- The answer to the peer's own offer has arrived. -/
structure Connected (sess : Side → Bytes) (s : Side) (n : Peer) (offer answer : Bytes) : Prop where
  state : n.conn.state = .answered
  started : n.started = true
  waiting : n.waiting = 0
  offers : n.offers = 1
  offer : n.offer = offer
  got : n.got = some answer
  sessidRemote : n.conn.sessidRemote = sess s.other

/-- What of the other peer's dropped offer may still be on its way to a winner. -/
def Stale (ids : Side → Ident) (sess : Side → Bytes) (s : Side) (letters : List Letter) : Prop :=
  letters = [] ∨ wins (ids s) (ids s.other) = true ∧ ∃ offer, letters = [request sess s.other offer]

/-- Where the offer that counts is, with `s` the side that made it. -/
inductive Phase (ids : Side → Ident) (sess : Side → Bytes) (link : Link Peer Letter) : Prop
  | quiet (idle : ∀ s, Idle (link.node s)) (empty : ∀ s, link.inbox s = [])
  | placed (s : Side) (offer : Bytes) (calling : Calling (link.node s) offer)
      (idle : Idle (link.node s.other)) (inbox : link.inbox s = [])
        (inboxOther : link.inbox s.other = [request sess s offer])
  | crossed (s : Side) (offer offerOther : Bytes) (winner : wins (ids s) (ids s.other) = true)
      (calling : Calling (link.node s) offer) (callingOther : Calling (link.node s.other) offerOther)
      (stale : Stale ids sess s (link.inbox s))
      (inboxOther : link.inbox s.other = [request sess s offer])
  | shown (s : Side) (offer : Bytes) (calling : Calling (link.node s) offer)
      (shown : Shown sess s.other (link.node s.other) offer) (stale : Stale ids sess s (link.inbox s))
      (inboxOther : link.inbox s.other = [])
  | replied (s : Side) (offer answer : Bytes) (calling : Calling (link.node s) offer)
      (replied : Replied sess s.other (link.node s.other) offer answer) (letters : List Letter)
      (stale : Stale ids sess s letters) (inbox : link.inbox s = letters ++ [response sess s.other answer])
      (inboxOther : link.inbox s.other = [])
  | connected (s : Side) (offer answer : Bytes) (connected : Connected sess s (link.node s) offer answer)
      (replied : Replied sess s.other (link.node s.other) offer answer) (inbox : link.inbox s = [])
      (inboxOther : link.inbox s.other = [])

/-- The phase and what each econn knows. -/
structure Settling (ids : Side → Ident) (sess : Side → Bytes) (link : Link Peer Letter) : Prop where
  base : ∀ s, Base ids sess s (link.node s)
  phase : Phase ids sess link

variable {letters : List Letter} {s : Side} {ids : Side → Ident} {sess : Side → Bytes} {link : Link Peer Letter}

section
variable {n n' : Peer} {offer answer sdp : Bytes}

theorem checkRemote_met {remote sender : Bytes} (fits : sender.length < idLen)
    (met : remote = [] ∨ remote = sender) : checkRemote remote sender = some sender := by
  by_cases unset : remote = []
  · rw [checkRemote, if_pos unset, strNcpy_fits fits]
  · obtain rfl := met.resolve_left unset
    rw [checkRemote, if_neg unset, if_pos (by simp [strcaseeq])]

/-- The econn once the ids of the other peer are set. -/
def meet (ids : Side → Ident) (s : Side) (conn : Econn) : Econn :=
  { conn with useridRemote := (ids s.other).userid, clientidRemote := (ids s.other).clientid }

/-- The ids of the other peer pass the checks of `recv_setup`, and are set then. -/
theorem recvSetup_met (base : Base ids sess s n) (fits : Fits (ids s.other)) {msg : EconnMessage} :
    n.conn.recvSetup (ids s.other).userid (ids s.other).clientid msg =
      if msg.resp then (meet ids s n.conn).handleSetupResponse msg
      else (meet ids s n.conn).handleSetupRequest (ids s.other).userid (ids s.other).clientid msg := by
  simp only [recvSetup, checkRemote_met fits.1 base.useridRemote, checkRemote_met fits.2 base.clientidRemote,
    meet]

/-- The test of the glare, with the ids that a peer knows of both. -/
theorem isWinner_eq_wins (base : Base ids sess s n) :
    isWinner n.conn.useridSelf n.conn.clientid (ids s.other).userid (ids s.other).clientid =
      wins (ids s) (ids s.other) := by
  rw [base.userid, base.clientid]
  rfl

section
variable (base : Base ids sess s n) (fits : Fits (ids s.other)) (sessid : strNcpy (sess s.other) = sess s.other)
include base fits sessid

theorem recv_request_idle (idle : Idle n) (offer : Bytes) : let r := recv (ids s.other) (request sess s.other offer) n
    r.2 = [] ∧ Base ids sess s r.1 ∧ Shown sess s r.1 offer := by
  intro r
  have result : r = ({ n with
      conn := { meet ids s n.conn with
        state := .pendingIncoming, dir := .incoming, sessidRemote := sess s.other, tmrLocal := some .setup }
      waiting := n.waiting + 1
      shown := (1, offer) }, []) := by
    simp [r, recv, request, recvMessage, recvSetup_met base fits, handleSetupRequest, meet, idle.state,
      incoming, note, sessid]
  rw [result]
  exact ⟨rfl, ⟨base.userid, base.clientid, base.sessid, .inr rfl, .inr rfl⟩,
    ⟨.inl rfl, by simp [idle.waiting], rfl, rfl⟩⟩

theorem recv_request_winner (calling : Calling n offer) (winner : wins (ids s) (ids s.other) = true) :
    let r := recv (ids s.other) (request sess s.other sdp) n
    r.2 = [] ∧ Base ids sess s r.1 ∧ Calling r.1 offer := by
  intro r
  have won := (isWinner_eq_wins base).trans winner
  have result : r = ({ n with
      conn := { meet ids s n.conn with sessidRemote := sess s.other, conflict := 1 } }, []) := by
    simp [r, recv, request, recvMessage, recvSetup_met base fits, handleSetupRequest, meet, calling.state,
      won, quiet, sessid]
  rw [result]
  exact ⟨rfl, ⟨base.userid, base.clientid, base.sessid, .inr rfl, .inr rfl⟩,
    ⟨calling.state, calling.started, calling.waiting, calling.offers, calling.offer⟩⟩

theorem recv_request_loser (calling : Calling n sdp) (loser : wins (ids s) (ids s.other) = false) (offer : Bytes) :
    let r := recv (ids s.other) (request sess s.other offer) n
    r.2 = [] ∧ Base ids sess s r.1 ∧ Shown sess s r.1 offer := by
  intro r
  have lost := (isWinner_eq_wins base).trans loser
  have result : r = ({ n with
      conn := { meet ids s n.conn with
        sessidRemote := sess s.other, conflict := -1, state := .conflictResolution }
      waiting := n.waiting + 1
      shown := (1, offer) }, []) := by
    simp [r, recv, request, recvMessage, recvSetup_met base fits, handleSetupRequest, meet, calling.state,
      lost, note, sessid]
  rw [result]
  exact ⟨rfl, ⟨base.userid, base.clientid, base.sessid, .inr rfl, .inr rfl⟩,
    ⟨.inr rfl, by simp [calling.waiting], rfl, rfl⟩⟩

theorem recv_response (calling : Calling n offer) : let r := recv (ids s.other) (response sess s.other answer) n
    r.2 = [] ∧ Base ids sess s r.1 ∧ Connected sess s r.1 offer answer := by
  intro r
  have result : r = ({ n with
      conn := { meet ids s n.conn with tmrLocal := none, state := .answered, sessidRemote := sess s.other }
      got := some answer }, []) := by
    simp [r, recv, response, recvMessage, recvSetup_met base fits, handleSetupResponse, meet,
      calling.state, note, sessid]
  rw [result]
  exact ⟨rfl, ⟨base.userid, base.clientid, base.sessid, .inr rfl, .inr rfl⟩,
    ⟨rfl, calling.started, calling.waiting, calling.offers, calling.offer, rfl, rfl⟩⟩

end

theorem act_start_idle (base : Base ids sess s n) (idle : Idle n) :
    ∃ n', act n (.start sdp) = some (n', [request sess s sdp]) ∧ Base ids sess s n' ∧ Calling n' sdp := by
  refine ⟨{ n with
    conn := { n.conn with
      state := .pendingOutgoing, dir := .outgoing
      tmrLocal := if n.conn.timeoutSetup = 0 then n.conn.tmrLocal else some .setup }
    started := true, offers := 1, offer := sdp }, ?_, ?_, ?_⟩
  · by_cases never : n.conn.timeoutSetup = 0 <;>
      simp [act, idle.started, start, idle.state, sendSetup, offering, idle.offers, request, base.sessid,
        never]
  · exact ⟨base.userid, base.clientid, base.sessid, base.useridRemote, base.clientidRemote⟩
  · exact ⟨rfl, rfl, idle.waiting, rfl, rfl⟩

/-- A start comes too late once an offer of the other peer was shown. -/
theorem act_start_late (idle : n.conn.state ≠ .idle) (calling : n.conn.state ≠ .pendingOutgoing)
    (acted : act n (.start sdp) = some (n', letters)) : letters = [] ∧ n' = { n with started := true } := by
  have refused : n.conn.start none sdp = quiet n.conn (some .EPROTO) := by
    unfold start
    split
    · next at_ => exact absurd at_ idle
    · next at_ => exact absurd at_ calling
    · rfl
  simp only [act, refused, quiet, offering, if_true] at acted
  split at acted
  · exact absurd acted (by simp)
  · simp only [Option.some.injEq, Prod.mk.injEq] at acted
    exact ⟨acted.2.symm, acted.1.symm⟩

theorem act_answer_shown (base : Base ids sess s n)
    (shown : Shown sess s n offer) (acted : act n (.answer answer) = some (n', letters)) :
    letters = [response sess s answer] ∧ Base ids sess s n' ∧ Replied sess s n' offer answer := by
  simp [act, shown.waiting, Econn.answer, shown.state, sendSetup, answering, shown.shown, base.sessid] at acted
  obtain ⟨rfl, rfl⟩ := acted
  exact ⟨rfl, ⟨base.userid, base.clientid, rfl, base.useridRemote, base.clientidRemote⟩,
    ⟨rfl, rfl, rfl, rfl, shown.sessidRemote⟩⟩

theorem act_answer_unasked (waiting : n.waiting = 0) : act n (.answer answer) = none := by
  simp [act, waiting]

theorem act_start_again (started : n.started = true) : act n (.start sdp) = none := by
  simp [act, started]

end

section
variable {x : Side} {n : Peer} {rest : List Letter} {sdp : Bytes} {letter : Letter}

theorem base_put (base : ∀ s, Base ids sess s (link.node s)) (new : Base ids sess x n) :
    ∀ s, Base ids sess s ((put link x n rest letters).node s) := by
  intro s
  rcases Side.eq_or_other x s with rfl | rfl
  · simpa using new
  · simpa using base x.other

theorem settling_start (differ : ∀ s, ids s ≠ ids s.other) (settling : Settling ids sess link)
    (acted : act (link.node x) (.start sdp) = some (n, letters)) :
    Settling ids sess (put link x n (link.inbox x) letters) := by
  have idle : Idle (link.node x) → ∃ n', act (link.node x) (.start sdp) = some (n', [request sess x sdp]) ∧
      Base ids sess x n' ∧ Calling n' sdp := act_start_idle (settling.base x)
  have started : (link.node x).started = true → False := by
    intro started
    rw [act_start_again started] at acted
    exact absurd acted (by simp)
  have late : (link.node x).conn.state ≠ .idle → (link.node x).conn.state ≠ .pendingOutgoing →
      letters = [] ∧ n = { link.node x with started := true } := fun i c => act_start_late i c acted
  have base := settling.base x
  have known : Base ids sess x (link.node x) → Base ids sess x { link.node x with started := true } :=
    fun base => ⟨base.userid, base.clientid, base.sessid, base.useridRemote, base.clientidRemote⟩
  have done : ∀ {offer answer}, Replied sess x (link.node x) offer answer →
      Replied sess x { link.node x with started := true } offer answer := fun replied =>
    ⟨replied.state, replied.waiting, replied.answered, replied.sent, replied.sessidRemote⟩
  cases settling.phase with
  | quiet allIdle empty =>
    obtain ⟨n', acted', base', calling⟩ := idle (allIdle x)
    obtain ⟨rfl, rfl⟩ := Prod.mk.inj (Option.some.inj (acted.symm.trans acted'))
    refine ⟨base_put settling.base base', .placed x sdp ?_ ?_ ?_ ?_⟩ <;>
      simp [calling, allIdle, empty]
  | placed s offer calling idleOther inbox inboxOther =>
    rcases Side.eq_or_other s x with rfl | rfl
    · exact (started calling.started).elim
    · obtain ⟨n', acted', base', calling'⟩ := idle idleOther
      obtain ⟨rfl, rfl⟩ := Prod.mk.inj (Option.some.inj (acted.symm.trans acted'))
      refine ⟨base_put settling.base base', ?_⟩
      -- the winner's offer is the one that counts from here on
      cases winner : wins (ids s) (ids s.other) with
      | true =>
        refine .crossed s offer sdp winner ?_ ?_ ?_ ?_ <;>
          simp [calling, calling', inbox, inboxOther, Stale, winner]
      | false =>
        have winner' : wins (ids s.other) (ids s) = true := by rw [wins_swap (differ s), winner]; rfl
        refine .crossed s.other sdp offer ?_ ?_ ?_ ?_ ?_ <;>
          simp [calling, calling', inbox, inboxOther, Stale, winner', Side.other_other]
  | crossed s offer offerOther winner calling callingOther stale inboxOther =>
    rcases Side.eq_or_other s x with rfl | rfl
    · exact (started calling.started).elim
    · exact (started callingOther.started).elim
  | shown s offer calling shown stale inboxOther =>
    rcases Side.eq_or_other s x with rfl | rfl
    · exact (started calling.started).elim
    · obtain ⟨rfl, rfl⟩ := late (by rcases shown.state with at_ | at_ <;> simp [at_])
        (by rcases shown.state with at_ | at_ <;> simp [at_])
      have shown' : Shown sess s.other { link.node s.other with started := true } offer :=
        ⟨shown.state, shown.waiting, shown.shown, shown.sessidRemote⟩
      refine ⟨base_put settling.base (known base), .shown s offer ?_ ?_ ?_ ?_⟩ <;>
        simp [calling, shown', stale, inboxOther]
  | replied s offer answer calling replied stale isStale inbox inboxOther =>
    rcases Side.eq_or_other s x with rfl | rfl
    · exact (started calling.started).elim
    · obtain ⟨rfl, rfl⟩ := late (by simp [replied.state]) (by simp [replied.state])
      refine ⟨base_put settling.base (known base), .replied s offer answer ?_ ?_ stale isStale ?_ ?_⟩ <;>
        simp [calling, done replied, inbox, inboxOther]
  | connected s offer answer connected replied inbox inboxOther =>
    rcases Side.eq_or_other s x with rfl | rfl
    · exact (started connected.started).elim
    · obtain ⟨rfl, rfl⟩ := late (by simp [replied.state]) (by simp [replied.state])
      refine ⟨base_put settling.base (known base), .connected s offer answer ?_ ?_ ?_ ?_⟩ <;>
        simp [connected, done replied, inbox, inboxOther]

theorem settling_answer (settling : Settling ids sess link)
    (acted : act (link.node x) (.answer sdp) = some (n, letters)) :
    Settling ids sess (put link x n (link.inbox x) letters) := by
  have unasked : (link.node x).waiting = 0 → False := by
    intro waiting
    rw [act_answer_unasked waiting] at acted
    exact absurd acted (by simp)
  cases settling.phase with
  | quiet allIdle empty => exact (unasked (allIdle x).waiting).elim
  | placed s offer calling idleOther inbox inboxOther =>
    rcases Side.eq_or_other s x with rfl | rfl
    · exact (unasked calling.waiting).elim
    · exact (unasked idleOther.waiting).elim
  | crossed s offer offerOther winner calling callingOther stale inboxOther =>
    rcases Side.eq_or_other s x with rfl | rfl
    · exact (unasked calling.waiting).elim
    · exact (unasked callingOther.waiting).elim
  | shown s offer calling shown stale inboxOther =>
    rcases Side.eq_or_other s x with rfl | rfl
    · exact (unasked calling.waiting).elim
    · obtain ⟨rfl, base', replied⟩ := act_answer_shown (settling.base s.other) shown acted
      refine ⟨base_put settling.base base', .replied s offer sdp ?_ ?_ (link.inbox s) stale ?_ ?_⟩ <;>
        simp [calling, replied, inboxOther]
  | replied s offer answer calling replied stale isStale inbox inboxOther =>
    rcases Side.eq_or_other s x with rfl | rfl
    · exact (unasked calling.waiting).elim
    · exact (unasked replied.waiting).elim
  | connected s offer answer connected replied inbox inboxOther =>
    rcases Side.eq_or_other s x with rfl | rfl
    · exact (unasked connected.waiting).elim
    · exact (unasked replied.waiting).elim

theorem stale_cons (stale : Stale ids sess s (letter :: rest)) :
    wins (ids s) (ids s.other) = true ∧ (∃ offer, letter = request sess s.other offer) ∧ rest = [] := by
  rcases stale with empty | ⟨winner, offer, at_⟩
  · exact absurd empty (by simp)
  · obtain ⟨rfl, rfl⟩ := List.cons.inj at_
    exact ⟨winner, ⟨offer, rfl⟩, rfl⟩

theorem settling_deliver (differ : ∀ s, ids s ≠ ids s.other) (fits : ∀ s, Fits (ids s))
    (sessid : ∀ s, strNcpy (sess s) = sess s) (settling : Settling ids sess link)
    (at_ : link.inbox x = letter :: rest) :
    Settling ids sess (put link x (recv (ids x.other) letter (link.node x)).1 rest
      (recv (ids x.other) letter (link.node x)).2) := by
  have base := settling.base x
  cases settling.phase with
  | quiet allIdle empty => exact absurd ((empty x).symm.trans at_) (by simp)
  | placed s offer calling idleOther inbox inboxOther =>
    rcases Side.eq_or_other s x with rfl | rfl
    · exact absurd (inbox.symm.trans at_) (by simp)
    · obtain ⟨rfl, rfl⟩ := List.cons.inj (inboxOther.symm.trans at_)
      have received := recv_request_idle base (fits _) (sessid _) idleOther offer
      rw [s.other_other] at received ⊢
      obtain ⟨sent, base', shown⟩ := received
      refine ⟨base_put settling.base base', .shown s offer ?_ ?_ ?_ ?_⟩ <;>
        simp [calling, shown, sent, inbox, Stale]
  | crossed s offer offerOther winner calling callingOther stale inboxOther =>
    rcases Side.eq_or_other s x with rfl | rfl
    · rw [at_] at stale
      obtain ⟨winner, ⟨dropped, rfl⟩, rfl⟩ := stale_cons stale
      obtain ⟨sent, base', calling'⟩ := recv_request_winner base (fits _) (sessid _) calling winner
      refine ⟨base_put settling.base base', .crossed x offer offerOther winner ?_ ?_ ?_ ?_⟩ <;>
        simp [calling', callingOther, sent, inboxOther, Stale]
    · obtain ⟨rfl, rfl⟩ := List.cons.inj (inboxOther.symm.trans at_)
      have loser : wins (ids s.other) (ids s.other.other) = false := by
        rw [s.other_other, wins_swap (differ s), winner]
        rfl
      have received := recv_request_loser base (fits _) (sessid _) callingOther loser offer
      rw [s.other_other] at received ⊢
      obtain ⟨sent, base', shown⟩ := received
      refine ⟨base_put settling.base base', .shown s offer ?_ ?_ ?_ ?_⟩ <;>
        simp [calling, shown, sent, stale]
  | shown s offer calling shown stale inboxOther =>
    rcases Side.eq_or_other s x with rfl | rfl
    · rw [at_] at stale
      obtain ⟨winner, ⟨dropped, rfl⟩, rfl⟩ := stale_cons stale
      obtain ⟨sent, base', calling'⟩ := recv_request_winner base (fits _) (sessid _) calling winner
      refine ⟨base_put settling.base base', .shown x offer ?_ ?_ ?_ ?_⟩ <;>
        simp [calling', shown, sent, inboxOther, Stale]
    · exact absurd (inboxOther.symm.trans at_) (by simp)
  | replied s offer answer calling replied stale isStale inbox inboxOther =>
    rcases Side.eq_or_other s x with rfl | rfl
    · cases stale with
      | nil =>
        obtain ⟨rfl, rfl⟩ := List.cons.inj (inbox.symm.trans at_)
        obtain ⟨sent, base', connected⟩ := recv_response base (fits _) (sessid _) calling
        refine ⟨base_put settling.base base', .connected x offer answer ?_ ?_ ?_ ?_⟩ <;>
          simp [connected, replied, sent, inboxOther]
      | cons first more =>
        obtain ⟨winner, ⟨dropped, rfl⟩, rfl⟩ := stale_cons isStale
        obtain ⟨rfl, rfl⟩ := List.cons.inj (inbox.symm.trans at_)
        obtain ⟨sent, base', calling'⟩ := recv_request_winner base (fits _) (sessid _) calling winner
        refine ⟨base_put settling.base base', .replied x offer answer ?_ ?_ [] (.inl rfl) ?_ ?_⟩ <;>
          simp [calling', replied, sent, inboxOther]
    · exact absurd (inboxOther.symm.trans at_) (by simp)
  | connected s offer answer connected replied inbox inboxOther =>
    rcases Side.eq_or_other s x with rfl | rfl
    · exact absurd (inbox.symm.trans at_) (by simp)
    · exact absurd (inboxOther.symm.trans at_) (by simp)

end

/-- An application starts or answers, or a message is delivered. -/
def SetupEvent : Event Peers.Action → Prop
  | .act _ (.start _) => True
  | .act _ (.answer _) => True
  | .act _ _ => False
  | .deliver _ => True

theorem step_settling (differ : ∀ s, ids s ≠ ids s.other)
    (fits : ∀ s, Fits (ids s)) (sessid : ∀ s, strNcpy (sess s) = sess s) (event : Event Peers.Action)
    (link link' : Link Peer Letter) (setup : SetupEvent event) (settling : Settling ids sess link)
    (stepped : step (machine ids) event link = some link') : Settling ids sess link' := by
  cases event with
  | act x action =>
    obtain ⟨n, letters, acted, rfl⟩ := step_act stepped
    cases action with
    | start sdp => exact settling_start differ settling acted
    | answer sdp => exact settling_answer settling acted
    | updateReq sdp => exact setup.elim
    | updateResp sdp => exact setup.elim
    | datachan => exact setup.elim
  | deliver x =>
    obtain ⟨letter, rest, at_, rfl⟩ := step_deliver stepped
    exact settling_deliver differ fits sessid settling at_

def Allocated (ids : Side → Ident) (timeoutSetup : Side → Nat) (sessid : Side → Bytes) (conns : Side → Econn) : Prop :=
  ∀ s, alloc (timeoutSetup s) (ids s).userid (ids s).clientid (sessid s) = .ok (conns s)

section
variable {timeoutSetup : Side → Nat} {sessid : Side → Bytes} {conns : Side → Econn}
  (allocated : Allocated ids timeoutSetup sessid conns)
include allocated

theorem allocated_new (s : Side) :
    conns s = zalloc (timeoutSetup s) (ids s).userid (ids s).clientid (sessid s) := by
  have at_ := allocated s
  simp only [alloc] at at_
  split at at_
  · exact absurd at_ (by simp)
  · exact (Except.ok.inj at_).symm

theorem join_settling : Settling ids (fun s => strNcpy (sessid s)) (join conns) := by
  refine ⟨fun s => ?_, .quiet (fun s => ?_) (fun _ => rfl)⟩
  · simp only [join, newPeer, allocated_new allocated]
    exact ⟨rfl, rfl, rfl, .inl rfl, .inl rfl⟩
  · simp only [join, newPeer, allocated_new allocated]
    exact ⟨rfl, rfl, rfl, rfl⟩

end

def Quiet (link : Link Peer Letter) : Prop := ∀ s, link.inbox s = [] ∧ (link.node s).waiting = 0

instance (link : Link Peer Letter) : Decidable (Quiet link) := inferInstanceAs (Decidable (∀ _, _ ∧ _))

/-- What the test of a glare compares, and what came of it. -/
def verdict (conn : Econn) : Ident × Int := (⟨conn.useridSelf, conn.clientid⟩, conn.conflict)

theorem recvMessage_verdict {tx : Option Errno} {conn : Econn} {peer : Ident} {msg : EconnMessage} :
    verdict (conn.recvMessage tx peer.userid peer.clientid msg).conn = verdict conn ∨
      verdict (conn.recvMessage tx peer.userid peer.clientid msg).conn =
        ((verdict conn).1, if wins (verdict conn).1 peer then 1 else -1) := by
  unfold recvMessage
  cases msg.msgType with
  | setup => grind [recvSetup, handleSetupResponse, handleSetupRequest, incoming, quiet,
      verdict, wins]
  | update =>
    left
    grind [recvUpdate, handleUpdateResponse, handleUpdateRequest, quiet, verdict]
  | cancel =>
    left
    grind [recvCancel, close, quiet, verdict]
  | hangup =>
    left
    grind [recvHangup, close, quiet, verdict]

theorem act_verdict {n n' : Peer} {action : Peers.Action} (acted : act n action = some (n', letters)) :
    verdict n'.conn = verdict n.conn := by
  cases action <;>
    grind [act, offering, answering, start, Econn.answer, updateReq, updateResp,
      setDatachanEstablished, sendSetup, quiet, verdict]

/-- A side that saw the other's offer cross its own compared the ids as they are, however long. -/
def Judged (ids : Side → Ident) (s : Side) (conn : Econn) : Prop :=
  verdict conn = (ids s, 0) ∨ verdict conn = (ids s, if wins (ids s) (ids s.other) then 1 else -1)

theorem step_judged (event : Event Peers.Action) (link link' : Link Peer Letter) (_ : True)
    (judged : ∀ s, Judged ids s (link.node s).conn) (stepped : step (machine ids) event link = some link') :
    ∀ s, Judged ids s (link'.node s).conn := by
  have placed : ∀ {x : Side} {n : Peer} {rest letters : List Letter}, Judged ids x n.conn →
      ∀ s, Judged ids s ((put link x n rest letters).node s).conn := by
    intro x n rest letters new s
    rcases Side.eq_or_other x s with rfl | rfl
    · simpa using new
    · simpa using judged x.other
  cases event with
  | act x action =>
    obtain ⟨n, letters, acted, rfl⟩ := step_act stepped
    refine placed ?_
    rw [Judged, act_verdict acted]
    exact judged x
  | deliver x =>
    obtain ⟨letter, rest, at_, rfl⟩ := step_deliver stepped
    refine placed ?_
    simp only [machine, Judged, recv_conn]
    rcases recvMessage_verdict with same | compared
    · rw [same]
      exact judged x
    · have ident : (verdict (link.node x).conn).1 = ids x := by
        rcases judged x with open_ | decided
        · rw [open_]
        · rw [decided]
      rw [compared, ident]
      exact .inr rfl

theorem run_judged {timeoutSetup : Side → Nat} {sessid : Side → Bytes} {conns : Side → Econn}
    (allocated : Allocated ids timeoutSetup sessid conns) {events : List (Event Peers.Action)}
    (ran : run (step (machine ids)) (join conns) events = some link) : ∀ s, Judged ids s (link.node s).conn := by
  refine run_invariant step_judged (fun _ _ => trivial) (fun s => .inl ?_) ran
  simp only [join, newPeer, allocated_new allocated]
  rfl

theorem judged_conflict (differ : ids .left ≠ ids .right) (judged : ∀ s, Judged ids s (link.node s).conn) :
    (¬ ∀ s, (link.node s).conn.conflict = 1) ∧ ¬ ∀ s, (link.node s).conn.conflict = -1 := by
  have opposite : wins (ids .right) (ids .left) = !wins (ids .left) (ids .right) := wins_swap differ
  have verdicts : ∀ s, (link.node s).conn.conflict = 0 ∨
      (link.node s).conn.conflict = if wins (ids s) (ids s.other) then 1 else -1 :=
    fun s => (judged s).imp (congrArg Prod.snd) (congrArg Prod.snd)
  have left := verdicts .left
  have right := verdicts .right
  simp only [Side.other, opposite] at left right
  refine ⟨fun both => ?_, fun both => ?_⟩
  all_goals
    rw [both .left] at left
    rw [both .right] at right
    cases won : wins (ids .left) (ids .right) <;> simp [won] at left right

/-- Once all is quiet nobody has called, or the call is connected. -/
theorem settling_quiet (settling : Settling ids sess link) (quiet : Quiet link) : (∀ s, Idle (link.node s)) ∨
      ∃ s offer answer, Connected sess s (link.node s) offer answer ∧
        Replied sess s.other (link.node s.other) offer answer := by
  cases settling.phase with
  | quiet allIdle empty => exact .inl allIdle
  | placed s offer calling idle inbox inboxOther =>
    exact absurd (inboxOther.symm.trans (quiet s.other).1) (by simp)
  | crossed s offer offerOther winner calling callingOther stale inboxOther =>
    exact absurd (inboxOther.symm.trans (quiet s.other).1) (by simp)
  | shown s offer calling shown stale inboxOther =>
    exact absurd (shown.waiting.symm.trans (quiet s.other).2) (by simp)
  | replied s offer answer calling replied stale isStale inbox inboxOther =>
    exact absurd (inbox.symm.trans (quiet s).1) (by simp)
  | connected s offer answer connected replied inbox inboxOther =>
    exact .inr ⟨s, offer, answer, connected, replied⟩

/-- In every run the two sides never both win and never both lose. In a run that only sets a call up, with ids that are
    not cut, nobody waits for an answer once all is quiet, and if anybody started both sides are answered, know each
    other's session, and one side has answered the last offer of the other, which received that answer. -/
theorem setup_agreement {ids : Side → Ident} {timeoutSetup : Side → Nat} {sessid : Side → Bytes} {conns : Side → Econn}
    (allocated : Allocated ids timeoutSetup sessid conns) (differ : ids .left ≠ ids .right)
    {events : List (Event Peers.Action)} {link : Link Peer Letter}
    (ran : run (step (machine ids)) (join conns) events = some link) :
    (¬ ∀ s, (link.node s).conn.conflict = 1) ∧ (¬ ∀ s, (link.node s).conn.conflict = -1) ∧
    ((∀ event ∈ events, SetupEvent event) → (∀ s, Fits (ids s)) → Quiet link →
      (∀ s, (link.node s).conn.state = .idle ∨ (link.node s).conn.state = .answered) ∧
      ((∃ s, (link.node s).started = true) →
        (∀ s, (link.node s).conn.state = .answered ∧
          (link.node s).conn.sessidRemote = (link.node s.other).conn.sessidLocal) ∧
        ∃ s answer, (link.node s.other).answered = some ((link.node s).offers, (link.node s).offer) ∧
          (link.node s.other).sent = some answer ∧ (link.node s).got = some answer)) := by
  have conflicts := judged_conflict differ (run_judged allocated ran)
  refine ⟨conflicts.1, conflicts.2, fun setup fits quiet => ?_⟩
  have differ' : ∀ s, ids s ≠ ids s.other := by
    intro s
    cases s with
    | left => exact differ
    | right => exact differ.symm
  have settling : Settling ids (fun s => strNcpy (sessid s)) link :=
    run_invariant (step_settling differ' fits (fun s => strNcpy_strNcpy (sessid s))) setup
      (join_settling allocated) ran
  rcases settling_quiet settling quiet with idle | ⟨s, offer, answer, connected, replied⟩
  · refine ⟨fun s => .inl (idle s).state, fun ⟨s, started⟩ => ?_⟩
    exact absurd started (by simp [(idle s).started])
  · have both : ∀ t, (link.node t).conn.state = .answered ∧
        (link.node t).conn.sessidRemote = (link.node t.other).conn.sessidLocal := by
      intro t
      rw [(settling.base t.other).sessid]
      rcases Side.eq_or_other s t with rfl | rfl
      · exact ⟨connected.state, connected.sessidRemote⟩
      · exact ⟨replied.state, replied.sessidRemote⟩
    refine ⟨fun t => .inr (both t).1, fun _ => ⟨both, s, answer, ?_, replied.sent, connected.got⟩⟩
    rw [replied.answered, connected.offers, connected.offer]

/-- Both sides start, the offers cross, and the right side, which loses, answers. -/
def crossing : List (Event Peers.Action) :=
  [.act .left (.start [1]), .act .right (.start [2]), .deliver .left, .deliver .right, .act .right (.answer [3]),
    .deliver .left]

theorem crossing_setup : ∀ event ∈ crossing, SetupEvent event := by
  intro event member
  simp only [crossing, List.mem_cons, List.not_mem_nil, or_false] at member
  rcases member with rfl | rfl | rfl | rfl | rfl | rfl <;> trivial

def sessions : Side → Bytes
  | .left => ascii "s1"
  | .right => ascii "s2"

def alloced (ids : Side → Ident) (s : Side) : Econn :=
  zalloc 60000 (ids s).userid (ids s).clientid (sessions s)

/-- Bob's client wins against a client whose user id is the given one. -/
def bobAgainst (userid : Bytes) : Side → Ident
  | .left => ⟨ascii "bob", ascii "1"⟩
  | .right => ⟨userid, ascii "1"⟩

theorem alloced_allocated {userid : Bytes} (set : userid ≠ []) :
    Allocated (bobAgainst userid) (fun _ => 60000) sessions (alloced (bobAgainst userid)) := by
  intro s
  cases s with
  | left => rfl
  | right => exact if_neg (by simp [bobAgainst, set, ascii])

/-- A user id of 128 bytes is kept without its last byte, and the answer that comes after the dropped offer is taken for
    a stranger's: the winner waits for an answer although nothing is on its way any more. -/
theorem setup_cut_id :
    ∃ userid link, Allocated (bobAgainst userid) (fun _ => 60000) sessions (alloced (bobAgainst userid)) ∧
      bobAgainst userid .left ≠ bobAgainst userid .right ∧ (∀ event ∈ crossing, SetupEvent event) ∧
      run (step (machine (bobAgainst userid))) (join (alloced (bobAgainst userid))) crossing = some link ∧
      Quiet link ∧ (link.node .left).conn.state = .pendingOutgoing := by
  refine ⟨List.replicate 128 97, ?_⟩
  simp only [exists_and_left]
  exact ⟨alloced_allocated (by simp), by decide, crossing_setup, by decide +kernel⟩

/-- The same crossing with short ids connects. -/
theorem setup_agreement_crossed :
    ∃ link, run (step (machine (bobAgainst (ascii "alice")))) (join (alloced (bobAgainst (ascii "alice"))))
        crossing = some link ∧ Quiet link ∧
      ∀ s, (link.node s).conn.state = .answered ∧
        (link.node s).conn.sessidRemote = (link.node s.other).conn.sessidLocal := by
  refine exists_shown (fun link => Quiet link ∧ (link.node .left).started = true) (by decide +kernel) ?_
  rintro link ran ⟨quiet, started⟩
  have fits : ∀ s, Fits (bobAgainst (ascii "alice") s) := by
    intro s
    unfold Fits
    cases s <;> decide
  have agreement := setup_agreement (alloced_allocated (by decide)) (by decide) ran
  exact ⟨quiet, ((agreement.2.2 crossing_setup fits quiet).2 ⟨.left, started⟩).1⟩

end Avs.SetupGlare
