import Avs.Duplex
import Avs.Econn

/-!
Two econns joined by a queue in each direction. A peer is an econn with a record of what its application did
and was told; every message carries the number of the offer it makes or answers. Neither the record nor the
numbers influence the econn.
-/
namespace Avs.Peers
open Duplex

structure Ident where
  userid : Bytes
  clientid : Bytes
  deriving DecidableEq, Repr

/-- A message and the number of the offer it makes or answers. -/
structure Letter where
  msg : EconnMessage
  ticket : Nat
  deriving DecidableEq, Repr

structure Peer where
  conn : Econn
  /-- `econn_start` was called. -/
  started : Bool
  /-- Incoming-call and answer-with-reset callbacks that wait for an answer. -/
  waiting : Nat
  /-- The number of offers sent, and the last one. -/
  offers : Nat
  offer : Bytes
  /-- The offer the application was shown last, with its number. -/
  shown : Nat × Bytes
  /-- The offer the application answered last. -/
  answered : Option (Nat × Bytes)
  /-- The answer sent last, and the answer received last. -/
  sent : Option Bytes
  got : Option Bytes
  deriving DecidableEq, Repr

inductive Action
  | start (sdp : Bytes)
  | answer (sdp : Bytes)
  | updateReq (sdp : Bytes)
  | updateResp (sdp : Bytes)
  | datachan

/-- The peer and its letters after a call that may have sent an offer. -/
def offering (p : Peer) (d : Econn.Done) (sdp : Bytes) : Peer × List Letter :=
  if d.sent = [] then ({ p with conn := d.conn }, [])
  else ({ p with conn := d.conn, offers := p.offers + 1, offer := sdp }, d.sent.map (⟨·, p.offers + 1⟩))

/-- The peer and its letters after a call that may have sent an answer. -/
def answering (p : Peer) (d : Econn.Done) (sdp : Bytes) : Peer × List Letter :=
  if d.sent = [] then ({ p with conn := d.conn }, [])
  else ({ p with conn := d.conn, answered := some p.shown, sent := some sdp }, d.sent.map (⟨·, p.shown.1⟩))

/-- A call of the application. It starts at most once, and answers a call only after a callback that asks for it. -/
def act (p : Peer) : Action → Option (Peer × List Letter)
  | .start sdp => if p.started then none else some (offering { p with started := true } (p.conn.start none sdp) sdp)
  | .answer sdp =>
    if p.waiting = 0 then none
    else some (answering { p with waiting := p.waiting - 1 } (p.conn.answer none sdp) sdp)
  | .updateReq sdp => some (offering p (p.conn.updateReq none sdp) sdp)
  | .updateResp sdp => some (answering p (p.conn.updateResp none sdp) sdp)
  | .datachan => some ({ p with conn := p.conn.setDatachanEstablished.conn }, [])

/-- What a callback tells the application. -/
def note (ticket : Nat) (p : Peer) : EconnCall → Peer
  | .conn sdp _ => { p with waiting := p.waiting + 1, shown := (ticket, sdp) }
  | .answer true sdp => { p with waiting := p.waiting + 1, shown := (ticket, sdp) }
  | .answer false sdp => { p with got := some sdp }
  | .updateReq sdp _ => { p with shown := (ticket, sdp) }
  | .updateResp sdp => { p with got := some sdp }
  | .close _ => p

/-- A letter of the other peer arrives. -/
def recv (sender : Ident) (letter : Letter) (p : Peer) : Peer × List Letter :=
  let d := p.conn.recvMessage none sender.userid sender.clientid letter.msg
  (d.calls.foldl (note letter.ticket) { p with conn := d.conn }, d.sent.map (⟨·, letter.ticket⟩))

def machine (ids : Side → Ident) : Machine Peer Letter Action where
  act := fun _ action p => act p action
  recv := fun s letter p => recv (ids s.other) letter p

def newPeer (conn : Econn) : Peer where
  conn := conn
  started := false
  waiting := 0
  offers := 0
  offer := []
  shown := (0, [])
  answered := none
  sent := none
  got := none

def join (conns : Side → Econn) : Link Peer Letter where
  node := fun s => newPeer (conns s)
  inbox := fun _ => []

theorem note_conn {n : Peer} {ticket : Nat} {calls : List EconnCall} : (calls.foldl (note ticket) n).conn = n.conn := by
  induction calls generalizing n with
  | nil => rfl
  | cons call rest ih =>
    rw [List.foldl_cons, ih]
    unfold note
    split <;> rfl

theorem recv_conn {sender : Ident} {letter : Letter} {n : Peer} :
    (recv sender letter n).1.conn = (n.conn.recvMessage none sender.userid sender.clientid letter.msg).conn := by
  rw [recv, note_conn]

variable {a b : Bytes}

theorem strcmp_eq : Econn.strcmp a b = .eq ↔ a = b := by
  induction a generalizing b with
  | nil => cases b <;> simp [Econn.strcmp]
  | cons x xs ih =>
    cases b with
    | nil => simp [Econn.strcmp]
    | cons y ys =>
      simp only [Econn.strcmp, List.cons.injEq]
      by_cases lt : x < y
      · simp [lt, UInt8.ne_of_lt lt]
      · by_cases gt : y < x
        · simp [lt, gt, (UInt8.ne_of_lt gt).symm]
        · have same : x = y := UInt8.le_antisymm (UInt8.not_lt.mp gt) (UInt8.not_lt.mp lt)
          simp [same, ih]

theorem strcmp_swap : Econn.strcmp b a = (Econn.strcmp a b).swap := by
  induction a generalizing b with
  | nil => cases b <;> rfl
  | cons x xs ih =>
    cases b with
    | nil => rfl
    | cons y ys =>
      simp only [Econn.strcmp]
      by_cases lt : x < y
      · simp [lt, UInt8.lt_asymm lt]
      · by_cases gt : y < x
        · simp [lt, gt]
        · simp [lt, gt, ih]

/-- The peer with the first identity wins against the second. -/
def wins (self peer : Ident) : Bool := Econn.isWinner self.userid self.clientid peer.userid peer.clientid

/-- Of two peers exactly one wins. -/
theorem wins_swap {a b : Ident} (differ : a ≠ b) : wins b a = !wins a b := by
  have split : ¬ (a.userid = b.userid ∧ a.clientid = b.clientid) := by
    rintro ⟨user, client⟩
    cases a
    cases b
    exact differ (by simp_all)
  simp only [wins, Econn.isWinner]
  rw [strcmp_swap]
  cases users : Econn.strcmp a.userid b.userid with
  | lt => rfl
  | gt => rfl
  | eq =>
    simp only [Ordering.swap]
    rw [strcmp_swap]
    cases clients : Econn.strcmp a.clientid b.clientid with
    | lt => rfl
    | gt => rfl
    | eq => exact absurd ⟨strcmp_eq.mp users, strcmp_eq.mp clients⟩ split

end Avs.Peers
