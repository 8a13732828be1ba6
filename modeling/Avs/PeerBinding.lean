import Avs.Ecall

/-!
Whom an ecall takes for its peer. `ecall_msg_recv` notes the sender of the first message it is handed as the
peer, and `recv_setup` notes the sender of a SETUP as the remote of the econn, before either looks whether the
message is one to act on.
-/
namespace Avs
open List Option

/-- The messages of an ecall, by what is done with their type. -/
inductive PeerMessage
  | signal (msg : EconnMessage)
  | propsync (resp : Bool)
  | reject
  /-- ALERT, CONFCONN, CONFPART, CONFSTREAMS and PING, which have a handler each. -/
  | passed
  | unsupported
  deriving DecidableEq, Repr

/-- The handlers that a message has called. -/
inductive PeerCall
  | econn (call : EconnCall)
  | propsync
  | leave
  | passed
  deriving DecidableEq, Repr

namespace Ecall

/-- An ecall with the ids of its peer. -/
structure Peered where
  ecall : Ecall
  useridPeer : Option Bytes
  clientidPeer : Option Bytes
  deriving DecidableEq, Repr

/-- What comes of a message: the call after it, what the econn sent and the handlers called. -/
structure Reception where
  peered : Peered
  sent : List EconnMessage
  calls : List PeerCall
  deriving DecidableEq, Repr

/-- The first lines of `ecall_msg_recv`. -/
def bindPeer (userid clientid : Bytes) (p : Peered) : Peered :=
  { p with useridPeer := p.useridPeer.or (some userid), clientidPeer := p.clientidPeer.or (some clientid) }

/-- The message is one of this user's own. -/
def fromSelf (ec : Ecall) (userid : Bytes) : Prop :=
  strcaseeq (some ec.useridSelf) (some userid) = true ∧ ec.convType = .oneOnOne

instance (ec : Ecall) (userid : Bytes) : Decidable (fromSelf ec userid) := inferInstanceAs (Decidable (_ ∧ _))

/-- What the econn makes of a message, if there is one to make something of it, with the ecall it is made for. -/
def heard (env : Env) (userid clientid : Bytes) (msg : EconnMessage) (ec : Ecall) : Option (Ecall × Econn.Done) :=
  if fromSelf ec userid then
    match ec.econn with
    | none => none
    | some conn =>
      if conn.state = .pendingIncoming ∧ msg.msgType = .setup ∧ msg.resp then
        some (ec, Econn.close env.tx conn (some .EALREADY))
      else none
  else
    match if ec.econn = none ∧ isCreator ec userid clientid msg then createEconn ec else (ec, none) with
    | (_, some _) => none
    | (ec, none) => ec.econn.map (fun conn => (ec, Econn.recvMessage env.tx conn userid clientid msg))

/-- `econn_conn_handler` names the peer of a call whose peer has an empty name. -/
def namePeer (userid : Bytes) (done : Econn.Done) (useridPeer : Option Bytes) : Option Bytes :=
  if useridPeer = some [] ∧ done.calls.any (fun call => call matches .conn _ _) then some userid else useridPeer

def receive (env : Env) (userid clientid : Bytes) (msg : PeerMessage) (p : Peered) : Reception :=
  let p := bindPeer userid clientid p
  match msg with
  | .propsync resp => ⟨{ p with ecall := handlePropsync resp p.ecall }, [], [.propsync]⟩
  | .signal msg =>
    match heard env userid clientid msg p.ecall with
    | none => ⟨p, [], []⟩
    | some (ec, done) =>
      ⟨{ p with ecall := dispatch env done ec, useridPeer := namePeer userid done p.useridPeer }, done.sent,
        done.calls.map .econn⟩
  | .reject => ⟨p, [], if fromSelf p.ecall userid ∧ p.ecall.state = .pendingIncoming then [.leave] else []⟩
  | .passed => ⟨p, [], if ¬ fromSelf p.ecall userid ∧ p.ecall.econn.isSome then [.passed] else []⟩
  | .unsupported => ⟨p, [], []⟩

variable {ec : Ecall} {userid clientid : Bytes} {env : Env} {p : Peered} {conn : Econn}

theorem created_econn {msg : EconnMessage} :
    (if ec.econn = none ∧ isCreator ec userid clientid msg then createEconn ec else (ec, none)) =
      if ec.econn = none ∧ isCreator ec userid clientid msg then
        if ec.clientidSelf = [] then (ec, some .EINVAL)
        else
          ({ ec with econn := some (Econn.zalloc ec.timeoutSetup ec.useridSelf ec.clientidSelf ec.sessid) }, none)
      else (ec, none) := by
  split
  · next creates =>
    have named : ec.useridSelf ≠ [] := by
      have creator := creates.2
      simp only [isCreator, decide_eq_true_eq] at creator
      exact creator.1
    unfold createEconn Econn.alloc
    by_cases anonymous : ec.clientidSelf = []
    · simp [anonymous]
    · simp [anonymous, named]
  · rfl

/-- The signalling messages of `ecall_msg_recv` leave the ecall that `msgRecv` says. -/
theorem receive_msgRecv {msg : EconnMessage} :
    (receive env userid clientid (.signal msg) p).peered.ecall = msgRecv env userid clientid msg p.ecall := by
  have same : (bindPeer userid clientid p).ecall = p.ecall := rfl
  simp only [receive, same, msgRecv, heard, fromSelf, created_econn]
  by_cases self : strcaseeq (some p.ecall.useridSelf) (some userid) = true ∧ p.ecall.convType = .oneOnOne
  · simp only [if_pos self]
    cases found : p.ecall.econn with
    | none => rfl
    | some conn =>
      by_cases taken : conn.state = .pendingIncoming ∧ msg.msgType = .setup ∧ msg.resp = true
      · simp only [if_pos taken]
      · simp only [if_neg taken, same]
  · simp only [if_neg self]
    by_cases creates : p.ecall.econn = none ∧ isCreator p.ecall userid clientid msg = true
    · simp only [if_pos creates]
      by_cases anonymous : p.ecall.clientidSelf = []
      · simp only [if_pos anonymous, same]
      · simp only [if_neg anonymous, map_some]
    · simp only [if_neg creates]
      cases found : p.ecall.econn with
      | none => simp only [map_none, same]
      | some conn => simp only [map_some]

end Ecall

namespace Econn

variable {userid clientid : Bytes} {conn : Econn}

def knows (conn : Econn) (userid clientid : Bytes) : Bool :=
  (checkRemote conn.useridRemote userid).isSome && (checkRemote conn.clientidRemote clientid).isSome

/-- The states, sessions and senders in which a message is acted on. -/
def actsOn (conn : Econn) (userid clientid : Bytes) (msg : EconnMessage) : Bool :=
  match msg.msgType with
  | .setup => conn.knows userid clientid &&
      if msg.resp then conn.state ∈ [.pendingOutgoing, .conflictResolution]
      else conn.state ∈ [.idle, .pendingOutgoing, .answered, .datachanEstablished, .updateSent]
  | .update => sameSession conn msg && strcaseeq (some conn.clientidRemote) (some clientid) &&
      if msg.resp then conn.state = .updateSent
      else conn.state ∈ [.answered, .datachanEstablished, .updateSent]
  | .cancel => strcaseeq (some clientid) (some conn.clientidRemote) && sameSession conn msg &&
      conn.state ∈ [.pendingIncoming, .updateSent, .updateRecv, .answered, .datachanEstablished]
  | .hangup => sameSession conn msg && conn.state ∈ [.datachanEstablished, .hangupSent]

/-- The winner of a glare drops the offer of its peer, and from then on expects the peer's answer. That is no message
    that it ignores. -/
def winsGlare (conn : Econn) (userid clientid : Bytes) (msg : EconnMessage) : Bool :=
  conn.actsOn userid clientid msg && !msg.resp && isWinner conn.useridSelf conn.clientid userid clientid &&
    (msg.msgType = .setup && conn.state = .pendingOutgoing || msg.msgType = .update && conn.state = .updateSent)

/-- The econn as `recv_setup` leaves it to the functions that look at the state. -/
def noteSender (conn : Econn) (userid clientid : Bytes) : Econn :=
  match checkRemote conn.useridRemote userid with
  | none => conn
  | some useridRemote =>
    match checkRemote conn.clientidRemote clientid with
    | none => { conn with useridRemote }
    | some clientidRemote => { conn with useridRemote, clientidRemote }

section
variable {tx : Option Errno} {msg : EconnMessage}

theorem handleSetupResponse_ignored (state : conn.state ∉ [.pendingOutgoing, .conflictResolution]) :
    handleSetupResponse conn msg = quiet conn none := by
  rw [handleSetupResponse, if_neg (by simpa using state)]

theorem handleSetupRequest_ignored
    (state : conn.state ∉ [.idle, .pendingOutgoing, .answered, .datachanEstablished, .updateSent]) :
    handleSetupRequest conn userid clientid msg = quiet conn none := by
  simp only [mem_cons, not_mem_nil, or_false, not_or] at state
  obtain ⟨idle, outgoing, answered, datachan, update⟩ := state
  rw [handleSetupRequest]
  split
  · next at_ => exact absurd at_ idle
  · next at_ => exact absurd at_ answered
  · next at_ => exact absurd at_ datachan
  · next at_ => exact absurd at_ update
  · next at_ => exact absurd at_ outgoing
  · rfl

theorem recvSetup_ignored (setup : msg.msgType = .setup) (ignored : conn.actsOn userid clientid msg = false) :
    recvSetup conn userid clientid msg = quiet (conn.noteSender userid clientid) none := by
  simp only [actsOn, setup] at ignored
  rw [recvSetup, noteSender]
  cases user : checkRemote conn.useridRemote userid with
  | none => rfl
  | some useridRemote =>
    simp only
    cases client : checkRemote conn.clientidRemote clientid with
    | none => rfl
    | some clientidRemote =>
      simp only [knows, user, client, isSome_some, Bool.and_self, Bool.true_and] at ignored
      by_cases resp : msg.resp = true
      · simp only [if_pos resp, decide_eq_false_iff_not] at ignored ⊢
        exact handleSetupResponse_ignored ignored
      · simp only [if_neg resp, decide_eq_false_iff_not] at ignored ⊢
        exact handleSetupRequest_ignored ignored

theorem handleUpdateRequest_ignored (other : strcaseeq (some conn.clientidRemote) (some clientid) = false ∨
    conn.state ∉ [.answered, .datachanEstablished, .updateSent]) :
    handleUpdateRequest conn userid clientid msg = quiet conn none := by
  rw [handleUpdateRequest]
  rcases other with other | state
  · simp [other]
  · simp only [mem_cons, not_mem_nil, or_false, not_or] at state
    obtain ⟨answered, datachan, update⟩ := state
    split
    · split
      · next at_ => exact absurd at_ answered
      · next at_ => exact absurd at_ datachan
      · next at_ => exact absurd at_ update
      · rfl
    · rfl

theorem recvUpdate_ignored (update : msg.msgType = .update) (ignored : conn.actsOn userid clientid msg = false) :
    recvUpdate conn userid clientid msg = quiet conn none := by
  simp only [actsOn, update, Bool.and_eq_false_iff] at ignored
  rw [recvUpdate]
  by_cases session : sameSession conn msg = true
  · rw [if_pos session]
    simp only [session, Bool.true_eq_false, false_or] at ignored
    by_cases resp : msg.resp = true
    · simp only [if_pos resp, decide_eq_false_iff_not] at ignored ⊢
      rw [handleUpdateResponse, if_neg]
      rintro ⟨client, state⟩
      rcases ignored with other | other
      · simp [client] at other
      · exact other state
    · simp only [if_neg resp, decide_eq_false_iff_not] at ignored ⊢
      exact handleUpdateRequest_ignored ignored
  · rw [if_neg session]

theorem recvCancel_ignored (cancel : msg.msgType = .cancel) (ignored : conn.actsOn userid clientid msg = false) :
    recvCancel tx conn clientid msg = quiet conn none := by
  simp only [actsOn, cancel, Bool.and_eq_false_iff, decide_eq_false_iff_not, mem_cons, not_mem_nil,
    or_false, not_or] at ignored
  simp only [recvCancel]
  by_cases client : strcaseeq (some clientid) (some conn.clientidRemote) = true
  · rw [if_pos client]
    simp only [client, Bool.true_eq_false, false_or] at ignored
    rcases ignored with session | ⟨incoming, sent, recv, answered, datachan⟩
    · simp only [session, Bool.false_eq_true, if_false]
      split <;> rfl
    · split
      · next at_ => exact absurd at_ incoming
      · next at_ => exact absurd at_ sent
      · next at_ => exact absurd at_ recv
      · next at_ => exact absurd at_ answered
      · next at_ => exact absurd at_ datachan
      · rfl
  · rw [if_neg client]

theorem recvHangup_ignored (hangup : msg.msgType = .hangup) (ignored : conn.actsOn userid clientid msg = false) :
    recvHangup tx conn msg = quiet conn none := by
  simp only [actsOn, hangup, Bool.and_eq_false_iff, decide_eq_false_iff_not, mem_cons, not_mem_nil,
    or_false, not_or] at ignored
  rw [recvHangup]
  rcases ignored with session | ⟨datachan, sent⟩
  · simp [session]
  · split
    · split
      · next at_ => exact absurd at_ datachan
      · next at_ => exact absurd at_ sent
      · rfl
    · rfl

/-- What an ignored message leaves: the econn as it was, but for the sender of a SETUP. -/
theorem recvMessage_ignored (ignored : conn.actsOn userid clientid msg = false) :
    recvMessage tx conn userid clientid msg =
      quiet (if msg.msgType = .setup then conn.noteSender userid clientid else conn) none := by
  rw [recvMessage]
  cases type : msg.msgType with
  | setup => simpa using recvSetup_ignored type ignored
  | update => simpa using recvUpdate_ignored type ignored
  | cancel => simpa using recvCancel_ignored type ignored
  | hangup => simpa using recvHangup_ignored type ignored

/-- A message that is acted on shows: by a handler, by the state or by a glare that is won. -/
theorem recvMessage_shows (acts : conn.actsOn userid clientid msg = true) :
    conn.winsGlare userid clientid msg = true ∨ (recvMessage tx conn userid clientid msg).calls ≠ [] ∨
      (recvMessage tx conn userid clientid msg).conn.state ≠ conn.state := by
  have glare := acts
  rw [recvMessage]
  cases type : msg.msgType with
  | setup =>
    simp only [actsOn, type, knows, Bool.and_eq_true, isSome_iff_exists] at acts
    obtain ⟨⟨⟨useridRemote, user⟩, clientidRemote, client⟩, state⟩ := acts
    simp only [recvSetup, user, client]
    by_cases resp : msg.resp = true
    · simp only [if_pos resp, decide_eq_true_eq] at state ⊢
      right; left
      rw [handleSetupResponse, if_pos (by simpa using state)]
      simp
    · simp only [if_neg resp, decide_eq_true_eq] at state ⊢
      simp only [handleSetupRequest]
      split
      · right; left; simp [incoming]
      · right; left; simp [incoming]
      · right; left; simp [incoming]
      · right; left; simp [incoming]
      · next outgoing =>
        split
        · next winner =>
          left
          simp [winsGlare, glare, resp, winner, type, outgoing]
        · right; left; simp
      · next idle answered datachan update outgoing =>
        simp only [mem_cons, not_mem_nil, or_false] at state
        exact absurd state (by tauto)
  | update =>
    simp only [actsOn, type, Bool.and_eq_true] at acts
    obtain ⟨⟨session, client⟩, state⟩ := acts
    simp only [recvUpdate, if_pos session]
    by_cases resp : msg.resp = true
    · simp only [if_pos resp, decide_eq_true_eq] at state ⊢
      right; left
      rw [handleUpdateResponse, if_pos ⟨client, state⟩]
      simp
    · simp only [if_neg resp, decide_eq_true_eq] at state ⊢
      simp only [handleUpdateRequest, if_pos client]
      split
      · right; left; simp
      · right; left; simp
      · next sent =>
        split
        · next winner =>
          left
          simp [winsGlare, glare, resp, winner, type, sent]
        · right; left; simp
      · next answered datachan sent =>
        simp only [mem_cons, not_mem_nil, or_false] at state
        exact absurd state (by tauto)
  | cancel =>
    simp only [actsOn, type, Bool.and_eq_true, decide_eq_true_eq] at acts
    obtain ⟨⟨client, session⟩, state⟩ := acts
    right; right
    simp only [recvCancel, if_pos client, if_pos session]
    split <;> simp_all [close]
  | hangup =>
    simp only [actsOn, type, Bool.and_eq_true, decide_eq_true_eq] at acts
    obtain ⟨session, state⟩ := acts
    right; right
    simp only [recvHangup, if_pos session]
    split <;> simp_all [close]

end

/-- Whom an econn talks to and in which session, its direction and its timer. -/
structure Binding where
  useridRemote : Bytes
  clientidRemote : Bytes
  sessidLocal : Bytes
  sessidRemote : Bytes
  dir : EconnDir
  tmrLocal : Option EconnTimer
  deriving DecidableEq, Repr

def binding (conn : Econn) : Binding :=
  ⟨conn.useridRemote, conn.clientidRemote, conn.sessidLocal, conn.sessidRemote, conn.dir, conn.tmrLocal⟩

/-- The sender of a SETUP is another user than the remote, or has no name that is noted. -/
def Named (conn : Econn) (userid clientid : Bytes) : Prop :=
  checkRemote conn.useridRemote userid = none ∨
    (conn.useridRemote = [] → userid = []) ∧ (conn.clientidRemote = [] → clientid = [])

instance (conn : Econn) (userid clientid : Bytes) : Decidable (conn.Named userid clientid) :=
  inferInstanceAs (Decidable (_ ∨ _))

theorem checkRemote_same_iff {remote sender noted : Bytes} (checked : checkRemote remote sender = some noted) :
    noted = remote ↔ (remote = [] → sender = []) := by
  unfold checkRemote at checked
  split at checked
  · next unset =>
    obtain rfl := some.inj checked
    simp [unset, strNcpy, idLen]
  · next given =>
    split at checked
    · obtain rfl := some.inj checked
      simp [given]
    · cases checked

theorem noteSender_binding_iff :
    (conn.noteSender userid clientid).binding = conn.binding ↔ conn.Named userid clientid := by
  rw [noteSender, Named]
  cases user : checkRemote conn.useridRemote userid with
  | none => simp
  | some useridRemote =>
    cases client : checkRemote conn.clientidRemote clientid with
    | none =>
      have given : conn.clientidRemote ≠ [] := by
        rintro unset
        simp [checkRemote, unset] at client
      simp [binding, checkRemote_same_iff user, given]
    | some clientidRemote =>
      simp [binding, checkRemote_same_iff user, checkRemote_same_iff client]

end Econn

namespace Ecall

/-- Whether a message of the type is acted on, by the state of the call, the session and the sender. -/
def actsOn (ec : Ecall) (userid clientid : Bytes) : PeerMessage → Bool
  | .propsync _ => true
  | .signal msg =>
    if fromSelf ec userid then ec.state = .pendingIncoming && msg.msgType = .setup && msg.resp
    else
      match ec.econn with
      | some conn => conn.actsOn userid clientid msg
      | none => isCreator ec userid clientid msg && ec.clientidSelf ≠ []
  | .reject => decide (fromSelf ec userid) && ec.state = .pendingIncoming
  | .passed => !decide (fromSelf ec userid) && ec.econn.isSome
  | .unsupported => false

def winsGlare (ec : Ecall) (userid clientid : Bytes) : PeerMessage → Bool
  | .signal msg => !decide (fromSelf ec userid) && ec.econn.any (·.winsGlare userid clientid msg)
  | _ => false

/-- A message is ignored, for the state, the session or the sender: no handler is called, no message is sent, the state
    stays, and it is no offer that lost a glare. -/
structure Ignored (p : Peered) (userid clientid : Bytes) (msg : PeerMessage) (r : Reception) : Prop where
  calls : r.calls = []
  sent : r.sent = []
  state : r.peered.ecall.state = p.ecall.state
  glare : p.ecall.winsGlare userid clientid msg = false

/-- The peer of the ecall, and the remote, the sessions, the direction and the timer of its econn are what they were. -/
structure Unmoved (p q : Peered) : Prop where
  useridPeer : q.useridPeer = p.useridPeer
  clientidPeer : q.clientidPeer = p.clientidPeer
  econn : q.ecall.econn.map Econn.binding = p.ecall.econn.map Econn.binding

/-- There is no name left to take from the message: the peer of the ecall is known, and so is the remote of its econn if
    the message is a SETUP that gets there. -/
def Bound (p : Peered) (userid clientid : Bytes) (msg : PeerMessage) : Prop :=
  p.useridPeer.isSome ∧ p.clientidPeer.isSome ∧
    match msg with
    | .signal msg => msg.msgType = .setup → ¬ fromSelf p.ecall userid →
        ∀ conn, p.ecall.econn = some conn → conn.Named userid clientid
    | _ => True

section
variable {ec : Ecall} {userid clientid : Bytes} {env : Env} {p : Peered} {conn : Econn} {msg : PeerMessage}

theorem bindPeer_unmoved_iff (p : Peered) (userid clientid : Bytes) :
    Unmoved p (bindPeer userid clientid p) ↔ p.useridPeer.isSome ∧ p.clientidPeer.isSome := by
  constructor
  · rintro ⟨user, client, _⟩
    cases known : p.useridPeer <;> cases known' : p.clientidPeer <;> simp_all [bindPeer]
  · rintro ⟨user, client⟩
    obtain ⟨user', user⟩ := isSome_iff_exists.mp user
    obtain ⟨client', client⟩ := isSome_iff_exists.mp client
    exact ⟨by simp [bindPeer, user], by simp [bindPeer, client], rfl⟩

theorem dispatch_silent {done : Econn.Done} (silent : done.calls = []) : dispatch env done ec = sentBy done ec := by
  rw [dispatch, silent, foldl_nil]

/-- A signalling message that is ignored gets to the econn in use, or to none. -/
theorem heard_ignored {msg : EconnMessage} (ignored : ec.actsOn userid clientid (.signal msg) = false) :
    heard env userid clientid msg ec =
      if fromSelf ec userid then none
      else ec.econn.map (fun conn =>
        (ec, Econn.quiet (if msg.msgType = .setup then conn.noteSender userid clientid else conn) none)) := by
  simp only [heard, created_econn, actsOn] at ignored ⊢
  by_cases self : fromSelf ec userid
  · simp only [if_pos self] at ignored ⊢
    cases found : ec.econn with
    | none => rfl
    | some conn =>
      simp only [state, found, map_some, getD_some, Bool.and_eq_false_iff, decide_eq_false_iff_not]
        at ignored
      refine if_neg ?_
      rintro ⟨at_, setup, resp⟩
      simp [at_, setup, resp] at ignored
  · simp only [if_neg self] at ignored ⊢
    cases found : ec.econn with
    | none =>
      simp only [found, Bool.and_eq_false_iff, decide_eq_false_iff_not, not_not] at ignored
      rcases ignored with other | anonymous
      · simp [other, found]
      · by_cases creator : isCreator ec userid clientid msg = true
        · simp [creator, anonymous]
        · simp [creator, found]
    | some conn =>
      simp only [found] at ignored
      simp [found, Econn.recvMessage_ignored ignored]

theorem heard_shows (env : Env) {msg : EconnMessage} (acts : ec.actsOn userid clientid (.signal msg) = true) :
    ec.winsGlare userid clientid (.signal msg) = true ∨
      ∃ ec' done, heard env userid clientid msg ec = some (ec', done) ∧
        (done.calls ≠ [] ∨ done.conn.state ≠ ec.state) := by
  simp only [heard, created_econn, actsOn, winsGlare] at acts ⊢
  by_cases self : fromSelf ec userid
  · simp only [if_pos self, Bool.and_eq_true, decide_eq_true_eq] at acts ⊢
    obtain ⟨⟨at_, setup⟩, resp⟩ := acts
    cases found : ec.econn with
    | none => simp [state, found] at at_
    | some conn =>
      have incoming : conn.state = .pendingIncoming := by simpa [state, found] using at_
      refine .inr ⟨ec, _, if_pos ⟨incoming, setup, resp⟩, .inr ?_⟩
      simp [Econn.close, at_]
  · simp only [if_neg self] at acts ⊢
    cases found : ec.econn with
    | none =>
      simp only [found, Bool.and_eq_true, decide_eq_true_eq] at acts
      obtain ⟨creator, named⟩ := acts
      have setup : msg.msgType = .setup ∧ msg.resp = false := by
        simp only [isCreator, decide_eq_true_eq] at creator
        simpa using And.intro creator.2.2.2.2 creator.2.2.2.1
      refine .inr ⟨_, _, by simp only [creator, named, and_self, if_true, if_false]; rfl, .inl ?_⟩
      simp [Econn.recvMessage, setup, Econn.recvSetup, Econn.zalloc, Econn.checkRemote, Econn.handleSetupRequest,
        Econn.incoming]
    | some conn =>
      simp only [found] at acts
      rcases Econn.recvMessage_shows acts with glare | shows
      · exact .inl (by simp [self, glare])
      · refine .inr ⟨ec, _, by simp only [reduceCtorEq, false_and, if_false, found, map_some]; rfl, ?_⟩
        simpa [state, found] using shows

theorem not_ignored_of_acts (acts : p.ecall.actsOn userid clientid msg = true) :
    ¬ Ignored p userid clientid msg (receive env userid clientid msg p) := by
  rintro ⟨calls, _, stays, glare⟩
  cases msg with
  | propsync resp => simp [receive] at calls
  | signal msg =>
    rcases heard_shows env acts with won | ⟨ec', done, heard, shows⟩
    · simp [won] at glare
    · have same : (bindPeer userid clientid p).ecall = p.ecall := rfl
      simp only [receive, same, heard] at calls stays
      rcases shows with called | moved
      · exact called (map_eq_nil_iff.mp calls)
      · rw [dispatch_silent (map_eq_nil_iff.mp calls)] at stays
        exact moved (by simpa [state, sentBy] using stays)
  | reject =>
    simp only [actsOn, Bool.and_eq_true, decide_eq_true_eq] at acts
    have same : (bindPeer userid clientid p).ecall = p.ecall := rfl
    simp [receive, same, acts] at calls
  | passed =>
    simp only [actsOn, Bool.and_eq_true, Bool.not_eq_true', decide_eq_false_iff_not] at acts
    have same : (bindPeer userid clientid p).ecall = p.ecall := rfl
    simp [receive, same, acts] at calls
  | unsupported => simp [actsOn] at acts

/-- What an ignored message leaves. -/
theorem receive_ignored (ignored : p.ecall.actsOn userid clientid msg = false) :
    (receive env userid clientid msg p).calls = [] ∧ (receive env userid clientid msg p).sent = [] ∧
      (receive env userid clientid msg p).peered = { bindPeer userid clientid p with
        ecall := match msg with
          | .signal msg =>
            if fromSelf p.ecall userid then p.ecall
            else { p.ecall with econn := p.ecall.econn.map (fun conn =>
              if msg.msgType = .setup then conn.noteSender userid clientid else conn) }
          | _ => p.ecall } := by
  have same : (bindPeer userid clientid p).ecall = p.ecall := rfl
  cases msg with
  | propsync resp => simp [actsOn] at ignored
  | signal msg =>
    simp only [receive, same, heard_ignored ignored]
    by_cases self : fromSelf p.ecall userid
    · simp only [if_pos self]
      exact ⟨trivial, trivial, rfl⟩
    · simp only [if_neg self]
      cases found : p.ecall.econn with
      | none =>
        refine ⟨rfl, rfl, ?_⟩
        simp only [map_none, bindPeer]
        rw [← found]
      | some conn =>
        refine ⟨rfl, rfl, ?_⟩
        simp [dispatch, Econn.quiet, sentBy, namePeer]
  | reject =>
    simp only [actsOn, Bool.and_eq_false_iff, decide_eq_false_iff_not] at ignored
    refine ⟨if_neg ?_, rfl, rfl⟩
    rintro ⟨self, at_⟩
    rcases ignored with other | other
    · exact other self
    · exact other at_
  | passed =>
    simp only [actsOn, Bool.and_eq_false_iff, Bool.not_eq_false', decide_eq_true_eq] at ignored
    refine ⟨if_neg ?_, rfl, rfl⟩
    rintro ⟨other, found⟩
    rcases ignored with self | none
    · exact other self
    · exact absurd found (by simp [same, none])
  | unsupported => exact ⟨rfl, rfl, rfl⟩

theorem noteSender_state : (conn.noteSender userid clientid).state = conn.state := by
  unfold Econn.noteSender
  split
  · rfl
  · split <;> rfl

theorem ignored_of_not_acts (ignored : p.ecall.actsOn userid clientid msg = false) :
    Ignored p userid clientid msg (receive env userid clientid msg p) := by
  obtain ⟨calls, sent, left⟩ := receive_ignored ignored
  refine ⟨calls, sent, ?_, ?_⟩
  · rw [left]
    cases msg with
    | signal msg =>
      simp only [state]
      split
      · rfl
      · cases p.ecall.econn with
        | none => rfl
        | some conn =>
          simp only [map_some, getD_some]
          split
          · exact noteSender_state
          · rfl
    | _ => rfl
  · cases msg with
    | signal msg =>
      by_cases self : fromSelf p.ecall userid
      · simp [winsGlare, self]
      · cases found : p.ecall.econn with
        | none => simp [winsGlare, found]
        | some conn =>
          have conn_ignored : conn.actsOn userid clientid msg = false := by simpa [actsOn, self, found] using ignored
          simp [winsGlare, found, Econn.winsGlare, conn_ignored]
    | _ => rfl

/-- An ignored message changes nothing if and only if there is no name left to take from it. -/
theorem ignored_unmoved_iff (env : Env) (p : Peered) (userid clientid : Bytes) (msg : PeerMessage) :
    (Ignored p userid clientid msg (receive env userid clientid msg p) →
      Unmoved p (receive env userid clientid msg p).peered) ↔
    p.ecall.actsOn userid clientid msg = true ∨ Bound p userid clientid msg := by
  by_cases acts : p.ecall.actsOn userid clientid msg = true
  · exact iff_of_true (fun ignored => absurd ignored (not_ignored_of_acts acts)) (.inl acts)
  · have ignored : p.ecall.actsOn userid clientid msg = false := by simpa using acts
    have peers := bindPeer_unmoved_iff p userid clientid
    obtain ⟨_, _, left⟩ := receive_ignored ignored
    simp only [ignored_of_not_acts ignored, true_imp_iff, ignored, Bool.false_eq_true, false_or]
    rw [left]
    constructor
    · rintro ⟨user, client, econn⟩
      obtain ⟨knownUser, knownClient⟩ := peers.mp ⟨user, client, rfl⟩
      refine ⟨knownUser, knownClient, ?_⟩
      cases msg with
      | signal msg =>
        intro setup other conn found
        rw [← Econn.noteSender_binding_iff]
        simpa [other, found, setup] using econn
      | _ => trivial
    · rintro ⟨knownUser, knownClient, named⟩
      obtain ⟨user, client, _⟩ := peers.mpr ⟨knownUser, knownClient⟩
      refine ⟨user, client, ?_⟩
      cases msg with
      | signal msg =>
        simp only
        split
        · rfl
        · next other =>
          cases found : p.ecall.econn with
          | none => rfl
          | some conn =>
            simp only [map_some, some.injEq]
            split
            · next setup => exact Econn.noteSender_binding_iff.mpr (named setup other conn found)
            · rfl
      | _ => rfl

end

/-- Alice calls from one of their clients and has no answer yet. -/
def calling : Peered :=
  let env : Env := ⟨false, true, false, ascii "offer", false, none⟩
  ⟨(start env .normal false
    (alloc .oneOnOne .normal 60000 (ascii "alice") (ascii "1") (ascii "a1") false)).1, none, none⟩

/-- Another client of Alice's calls somebody as well. Its SETUP is ignored, and this client takes Alice for its peer. -/
theorem stray_setup_binds : ¬ ∀ (env : Env) (p : Peered) (userid clientid : Bytes) (msg : PeerMessage),
    Ignored p userid clientid msg (receive env userid clientid msg p) →
      Unmoved p (receive env userid clientid msg p).peered := by
  intro keeps
  have at_ := (keeps ⟨false, true, false, [], false, none⟩ calling (ascii "alice") (ascii "2")
    (.signal ⟨.setup, ascii "a2", false, ascii "other offer"⟩) ⟨by decide, by decide, by decide, by decide⟩).useridPeer
  exact absurd at_ (by decide)

end Ecall

end Avs
