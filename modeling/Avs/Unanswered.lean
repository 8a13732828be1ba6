import Avs.DirectCalls
import Avs.EconnLife

/-!
The handlers that an ecall calls, as the call object of `Avs.DirectCalls`. A call that rings is answered by
the application only: what the peer, the timers and the flow do leaves it unanswered or closes it.
-/
namespace Avs
open List Option

variable {err : Option Errno} {userid clientid : Bytes} {ec : Ecall}

namespace Econn

variable {tx : Option Errno} {conn : Econn}

theorem close_calls : (close tx conn err).calls = [] ∨ ∃ told, (close tx conn err).calls = [.close told] := by
  by_cases first : conn.closeh
  · exact .inr ⟨err, if_pos first⟩
  · exact .inl (if_neg first)

/-- An econn that rings, or is at its end, is closed by a message or stays as it is. -/
theorem recvMessage_ringing {msg : EconnMessage} (state : conn.state = .pendingIncoming ∨ conn.state = .terminating) :
    ((recvMessage tx conn userid clientid msg).calls = [] ∨
        ∃ err, (recvMessage tx conn userid clientid msg).calls = [.close err]) ∧
      ((recvMessage tx conn userid clientid msg).conn.state = .pendingIncoming ∨
        (recvMessage tx conn userid clientid msg).conn.state = .terminating) := by
  by_cases acts : conn.actsOn userid clientid msg = true
  · -- The one message that is acted on is the CANCEL of a call that rings.
    have cancel : msg.msgType = .cancel := by
      cases type : msg.msgType <;> rcases state with at_ | at_ <;> simp [actsOn, type, at_] at acts ⊢
    simp only [actsOn, cancel, Bool.and_eq_true, decide_eq_true_eq] at acts
    obtain ⟨⟨client, session⟩, -⟩ := acts
    rcases state with at_ | at_
    · simp only [recvMessage, cancel, recvCancel, client, session, at_, if_true]
      exact ⟨close_calls, .inr rfl⟩
    · simp only [recvMessage, cancel, recvCancel, client, at_, if_true]
      exact ⟨.inl rfl, .inr at_⟩
  · rw [recvMessage_ignored (Bool.eq_false_iff.mpr acts)]
    refine ⟨.inl rfl, ?_⟩
    have same : (if msg.msgType = .setup then conn.noteSender userid clientid else conn).state = conn.state := by
      split
      · exact Ecall.noteSender_state
      · rfl
    simp only [quiet, same]
    exact state

/-- A new econn takes the sender of a SETUP for its peer. -/
theorem recvMessage_zalloc {timeoutSetup : Nat} {useridSelf client sessid : Bytes}
    {msg : EconnMessage} (setup : msg.msgType = .setup) (request : msg.resp = false) :
    recvMessage tx (zalloc timeoutSetup useridSelf client sessid) userid clientid msg =
      incoming { zalloc timeoutSetup useridSelf client sessid with
        useridRemote := strNcpy userid, clientidRemote := strNcpy clientid } msg false := by
  have empty : ∀ sender, checkRemote [] sender = some (strNcpy sender) := fun sender => if_pos rfl
  rw [recvMessage, setup]
  dsimp only [recvSetup, zalloc]
  rw [empty, empty]
  dsimp only
  rw [request]
  rfl

end Econn

namespace Ecall

variable {env : Env} {ec' : Ecall} {callType : CallType} {audioCbr : Bool} {done : Econn.Done}

theorem generateOffer_closeh : (generateOffer env ec).1.closeh = ec.closeh := by
  rw [generateOffer]
  split
  · rw [offerAndConnect]
    cases ec.econn <;> rfl
  · split <;> rfl

theorem generateOrGatherAnswer_closeh (env : Env) (ec : Ecall) :
    (generateOrGatherAnswer env ec).1.closeh = ec.closeh := by
  dsimp only [generateOrGatherAnswer]
  split
  · rw [generateAnswer]
    cases ec.econn with
    | none => rfl
    | some conn => dsimp only; split <;> rfl
  · split <;> rfl

theorem answer_closeh : (answer env callType audioCbr ec).1.closeh = ec.closeh := by
  have answered := generateOrGatherAnswer_closeh env
    (updateMuteProps env { ec with callType := callType, audioCbr := audioCbr })
  rw [answer]
  split
  · rfl
  · split
    · rfl
    · split
      · rfl
      · generalize generateOrGatherAnswer env
          (updateMuteProps env { ec with callType := callType, audioCbr := audioCbr }) = result at answered
        obtain ⟨done, err⟩ := result
        cases err <;> exact answered

theorem start_closeh : (start env callType audioCbr ec).1.closeh = ec.closeh := by
  rw [start]
  cases ec.econn with
  | some conn =>
    dsimp only
    split
    · exact answer_closeh
    · rfl
  | none =>
    dsimp only [createEconn]
    cases Econn.alloc ec.timeoutSetup ec.useridSelf ec.clientidSelf ec.sessid with
    | error err => rfl
    | ok conn =>
      refine generateOffer_closeh.trans ?_
      dsimp only
      split <;> rfl

theorem restart_closeh : (restart env callType ec).1.closeh = ec.closeh := by
  have restarted : (if ec.convType = .conference then (ec, none)
      else generateOffer env { allocFlow { ec with callType, update := true } ec.audioCbr with
        async := .asyncNone }).1.closeh = ec.closeh := by
    split
    · rfl
    · exact generateOffer_closeh
  rw [restart]
  cases ec.state <;> first | exact restarted | rfl

theorem end_closeh : (end_ env ec).closeh = ec.closeh := by
  rw [end_]
  cases ec.econn <;> rfl

theorem setVideoSendState_closeh {vstate : VideoState} : (setVideoSendState env vstate ec).closeh = ec.closeh := by
  rw [setVideoSendState]
  split
  · rfl
  · split
    · rfl
    · rw [followVideoState]
      split
      · exact restart_closeh
      · split <;> rfl

/-- The call was not answered, and the econn waits to be or is at its end. -/
structure Unanswered (ec : Ecall) : Prop where
  answered : ec.answered = false
  async : ec.async = .asyncNone
  state : ec.state = .pendingIncoming ∨ ec.state = .terminating

section
variable (un : Unanswered ec)
include un

theorem Unanswered.of_eq (answered : ec'.answered = ec.answered) (async : ec'.async = ec.async)
    (state : ec'.state = ec.state) : Unanswered ec' :=
  ⟨answered.trans un.answered, async.trans un.async, by rw [state]; exact un.state⟩

theorem Unanswered.not_answered : ec.state ≠ .answered := by
  rcases un.state with at_ | at_ <;> simp [at_]

theorem Unanswered.not_established : ec.state ≠ .datachanEstablished := by
  rcases un.state with at_ | at_ <;> simp [at_]

theorem Unanswered.econn : ∃ conn, ec.econn = some conn ∧ conn.state = ec.state := by
  cases found : ec.econn with
  | none =>
    have idle : ec.state = .idle := by rw [Ecall.state, found]; rfl
    rcases un.state with at_ | at_ <;> cases idle.symm.trans at_
  | some conn => exact ⟨conn, rfl, by rw [Ecall.state, found]; rfl⟩

theorem Unanswered.close : Unanswered (close ec) := un.of_eq rfl rfl rfl

theorem Unanswered.dispatch (calls : done.calls = [] ∨ ∃ err, done.calls = [.close err])
    (state : done.conn.state = .pendingIncoming ∨ done.conn.state = .terminating) :
    Unanswered (dispatch env done ec) := by
  have sent : Unanswered (sentBy done ec) := ⟨un.answered, un.async, state⟩
  rw [Ecall.dispatch]
  rcases calls with silent | ⟨err, closes⟩
  · rw [silent]
    exact sent
  · rw [closes]
    exact sent.close

theorem Unanswered.restart (callType : CallType) : (restart env callType ec).1 = ec := by
  rw [Ecall.restart]
  rcases un.state with at_ | at_ <;> rw [at_]

theorem Unanswered.setVideoSendState (vstate : VideoState) : Unanswered (setVideoSendState env vstate ec) := by
  have taken : Unanswered (takeVideoState vstate ec) := un.of_eq rfl rfl rfl
  rw [Ecall.setVideoSendState]
  split
  · exact un
  · split
    · exact un.of_eq rfl rfl rfl
    · rw [followVideoState]
      split
      · rw [taken.restart]
        exact taken
      · split
        · exact taken.of_eq rfl rfl rfl
        · exact taken

theorem Unanswered.handlePropsync (resp : Bool) : Unanswered (handlePropsync resp ec) := by
  dsimp only [Ecall.handlePropsync]
  split <;> exact un.of_eq rfl rfl rfl

theorem Unanswered.connHandler (sdp : Bytes) : Unanswered (connHandler env sdp false ec) := by
  simp only [Ecall.connHandler, Bool.false_eq_true, false_or, not_false_eq_true, and_true, if_false]
  split <;> split <;> exact un.of_eq rfl rfl rfl

theorem Unanswered.end_ : Unanswered (end_ env ec) := by
  obtain ⟨conn, found, state⟩ := un.econn
  rw [Ecall.end_, found]
  refine ⟨un.answered, un.async, .inr ?_⟩
  show (Econn.end_ env.tx conn).conn.state = .terminating
  rw [Econn.end_.eq_def, state]
  rcases un.state with at_ | at_
  · rw [at_]
    rfl
  · rw [at_]
    exact state.trans at_

theorem Unanswered.failWith (err : Option Errno) : Unanswered (failWith env err ec) := by
  obtain ⟨conn, found, state⟩ := un.econn
  have marked : Unanswered { ec with econn := ec.econn.map (fun conn => { conn with err := err }) } := by
    refine un.of_eq rfl rfl ?_
    rw [Ecall.state, Ecall.state, found]
    rfl
  rw [Ecall.failWith, if_pos (by rw [found]; rfl)]
  exact marked.end_

theorem Unanswered.concludeUpdate : Unanswered (concludeUpdate env ec) := by
  dsimp only [Ecall.concludeUpdate]
  split <;> split <;> exact un.of_eq rfl rfl rfl

theorem Unanswered.replayGlare : Unanswered (replayGlare env ec) := by
  have replayed : Unanswered { ec with updateGlare := false } := un.of_eq rfl rfl rfl
  rw [Ecall.replayGlare]
  split
  · exact replayed.setVideoSendState _
  · exact un

theorem Unanswered.channelEstabHandler (flow : Nat) : Unanswered (channelEstabHandler env flow ec) := by
  obtain ⟨conn, found, state⟩ := un.econn
  have still : Econn.setDatachanEstablished conn = Econn.quiet conn none :=
    if_neg (by rw [state]; exact un.not_answered)
  have replaced : Unanswered { ec with
      oldflow := none, econn := ec.econn.map (fun conn => (Econn.setDatachanEstablished conn).conn) } := by
    refine un.of_eq rfl rfl ?_
    rw [Ecall.state, Ecall.state, found]
    simp [still, Econn.quiet]
  dsimp only [Ecall.channelEstabHandler]
  split
  · exact un
  · split
    · have undelayed : Unanswered { ec with
          oldflow := none, econn := ec.econn.map (fun conn => (Econn.setDatachanEstablished conn).conn),
          delayedRestart := false } := replaced.of_eq rfl rfl rfl
      rw [undelayed.restart]
      exact undelayed
    · exact replaced.concludeUpdate.replayGlare

theorem Unanswered.closeHandler (flow : Nat) (err : Option Errno) : Unanswered (closeHandler env flow err ec) := by
  rw [Ecall.closeHandler]
  split
  · exact un.of_eq rfl rfl rfl
  · split
    · exact un
    · rw [if_neg (fun retries => un.not_answered retries.1)]
      exact un.failWith err

theorem Unanswered.econnTimeout : Unanswered (econnTimeout env ec) := by
  obtain ⟨conn, found, -⟩ := un.econn
  rw [Ecall.econnTimeout, found]
  dsimp only
  cases conn.tmrLocal with
  | none => exact un
  | some timer => cases timer <;> exact un.dispatch Econn.close_calls (.inr rfl)

/-- Nothing from outside answers the call. -/
theorem step_unanswered {event : Event} (outside : DirectCalls.outside event = true)
    (stepped : step (event, env) ec = some ec') : Unanswered ec' := by
  obtain rfl := some.inj stepped
  cases event with
  | start _ _ | answer _ _ | end_ | msgRecv _ _ _ => cases outside
  | setVideoSendState vstate => exact un.setVideoSendState vstate
  | restart callType =>
    show Unanswered (restart env callType ec).1
    rw [un.restart]
    exact un
  | propsync resp => exact un.handlePropsync resp
  | muted =>
    show Unanswered (updateMuteState env ec)
    dsimp only [updateMuteState]
    split <;> exact un.of_eq rfl rfl rfl
  | gathered flow =>
    show Unanswered (gatherHandler env flow ec)
    rw [gatherHandler, un.async]
    split
    · exact un
    · split <;> exact un
  | channelEstab flow => exact un.channelEstabHandler flow
  | channelClose flow =>
    show Unanswered (channelCloseHandler env flow ec)
    rw [channelCloseHandler, if_neg un.not_established]
    split
    · exact un
    · exact un.close
  | flowRestart flow forceCbr =>
    show Unanswered (restartHandler env flow forceCbr ec)
    rw [restartHandler]
    split
    · exact un
    · rw [if_neg (fun forced => un.not_answered forced.1), if_neg un.not_established]
      exact un
  | flowClose flow err => exact un.closeHandler flow err
  | connectionTimeout mediaEstabh =>
    show Unanswered (connectionTimeoutHandler env mediaEstabh ec)
    rw [connectionTimeoutHandler, un.restart, if_pos (show mediaEstabh = true from outside)]
    split <;> exact un
  | mediaStartTimeout => exact un.failWith _
  | econnTimeout => exact un.econnTimeout

end

/-- An econn that hears a message calls one handler at most, of an ecall in which the flags are as they were. -/
theorem heard_calls {msg : EconnMessage} (hears : heard env userid clientid msg ec = some (ec', done)) :
    ec'.closeh = ec.closeh ∧ ec'.propsRemote = ec.propsRemote ∧ ec'.answered = ec.answered ∧
      (done.calls = [] ∨ ∃ call, done.calls = [call]) := by
  have single : ∀ conn : Econn, (Econn.recvMessage env.tx conn userid clientid msg).calls = [] ∨
      ∃ call, (Econn.recvMessage env.tx conn userid clientid msg).calls = [call] := by
    intro conn
    have received := @Econn.recvMessage_received conn env.tx userid clientid msg
    rcases (Econn.received_outcome received).handlers with ⟨silent, -⟩ | ⟨err, closes, -⟩ | ⟨call, calls, -⟩
    · exact .inl silent
    · exact .inr ⟨_, closes⟩
    · exact .inr ⟨call, calls⟩
  rw [heard] at hears
  split at hears
  · cases found : ec.econn with
    | none =>
      rw [found] at hears
      cases hears
    | some conn =>
      rw [found] at hears
      dsimp only at hears
      split at hears
      · cases hears
        refine ⟨rfl, rfl, rfl, ?_⟩
        rcases Econn.close_calls with silent | ⟨told, calls⟩
        · exact .inl silent
        · exact .inr ⟨_, calls⟩
      · cases hears
  · rw [created_econn] at hears
    split at hears
    · next none_ =>
      split at none_
      · split at none_ <;> cases none_
        cases hears
      · cases none_
    · next made =>
      obtain ⟨conn, -, same⟩ := map_eq_some_iff.mp hears
      obtain ⟨rfl, rfl⟩ := Prod.mk.inj same
      split at made
      · split at made
        · cases made
        · obtain ⟨rfl, -⟩ := Prod.mk.inj made
          exact ⟨rfl, rfl, rfl, single conn⟩
      · obtain ⟨rfl, -⟩ := Prod.mk.inj made
        exact ⟨rfl, rfl, rfl, single conn⟩

theorem heard_unanswered (un : Unanswered ec) {msg : EconnMessage}
    (hears : heard env userid clientid msg ec = some (ec', done)) :
    (done.calls = [] ∨ ∃ err, done.calls = [.close err]) ∧ Unanswered (Ecall.dispatch env done ec') := by
  obtain ⟨conn, found, state⟩ := un.econn
  have isState : conn.state = .pendingIncoming ∨ conn.state = .terminating := by
    rw [state]
    exact un.state
  rw [heard, found] at hears
  split at hears
  · dsimp only at hears
    split at hears
    · cases hears
      exact ⟨Econn.close_calls, un.dispatch Econn.close_calls (.inr rfl)⟩
    · cases hears
  · rw [if_neg (by simp)] at hears
    dsimp only at hears
    rw [found] at hears
    cases hears
    obtain ⟨calls, still⟩ := Econn.recvMessage_ringing isState
    exact ⟨calls, un.dispatch calls still⟩

/-- The econn that is made for the SETUP of another user has it come in. -/
theorem heard_fresh {signal : EconnMessage} (env : Env) (none_ : ec.econn = none)
    (isSelf : ec.useridSelf ≠ []) (named : ec.clientidSelf ≠ []) (isSender : userid ≠ [])
    (other : strcaseeq (some ec.useridSelf) (some userid) = false) (setup : signal.msgType = .setup)
    (request : signal.resp = false) :
    ∃ made conn, heard env userid clientid signal ec =
      some ({ ec with econn := some made }, Econn.incoming conn signal false) := by
  have foreign : ¬ fromSelf ec userid := by
    intro own
    rw [own.1] at other
    cases other
  have creates : isCreator ec userid clientid signal = true := by
    refine decide_eq_true ⟨isSelf, isSender, .inl ?_, ?_, setup⟩
    · rw [other]
      decide
    · rw [request]
      decide
  rw [heard, if_neg foreign, created_econn, if_pos ⟨none_, creates⟩, if_neg named]
  exact ⟨_, _, congrArg (fun done => some (_, done)) (Econn.recvMessage_zalloc setup request)⟩

theorem dispatch_single {call : EconnCall} (calls : done.calls = [call]) :
    Ecall.dispatch env done ec = handle env (sentBy done ec) call := by
  rw [Ecall.dispatch, calls, foldl_cons, foldl_nil]

/-- A call that comes in is not closed by it, but if the properties of its peer are there. -/
theorem connHandler_closeh (sdp : Bytes) (unknown : ec.propsRemote = false) :
    (connHandler env sdp false ec).closeh = ec.closeh := by
  simp only [connHandler, Bool.false_eq_true, false_or, not_false_eq_true, and_true, if_false]
  split
  · split
    · next known =>
      have known : ec.propsRemote = true := known
      rw [unknown] at known
      cases known
    · rfl
  · rw [if_neg (by rw [unknown]; decide)]

theorem handlePropsync_closeh {resp : Bool} : (handlePropsync resp ec).closeh = ec.closeh := by
  dsimp only [handlePropsync]
  split <;> rfl

theorem answerHandler_closeh (sdp : Bytes) : (answerHandler env false sdp ec).closeh = ec.closeh := by
  rw [answerHandler, if_neg (by decide)]
  split <;> rfl

end Ecall

namespace DirectCalls

open Ecall (Peered Unanswered)

variable {o : Outside} {p before after : Peered} {msg : EconnFmt.Message}

theorem closeUpcalls_same (same : after.ecall.closeh = before.ecall.closeh) : closeUpcalls o before after = [] := by
  refine if_neg ?_
  rintro ⟨held, gone⟩
  rw [same, held] at gone
  cases gone

theorem closeUpcalls_cases : closeUpcalls o before after = [] ∨ ∃ err msgTime userid clientid,
      closeUpcalls o before after = [.close err msgTime userid clientid] := by
  rw [closeUpcalls]
  split
  · exact .inr ⟨_, _, _, _, rfl⟩
  · exact .inl rfl

/-- The handlers a message can have called. -/
inductive Replied (p : Peered) (userid clientid : Bytes) (msg : EconnFmt.Message) (ups : List Upcall) : Prop
  | nothing (none_ : ups = [])
  | start (msgTime : UInt32) (video : Bool)
      (one : ups = [.start msgTime userid clientid video true .oneOnOne])
  | answer (one : ups = [.answer])
  | leave (one : ups = [.leave .rejected 0]) (reject : msg.payload.msgType = some .reject)
      (self : Ecall.fromSelf p.ecall userid) (ringing : p.ecall.state = .pendingIncoming)
  | close (err : Option Errno) (msgTime : UInt32) (peer client : Option Bytes)
      (one : ups = [.close err msgTime peer client])

theorem replied_close : Replied p userid clientid msg (closeUpcalls o before after) := by
  rcases closeUpcalls_cases with none_ | ⟨err, msgTime, peer, client, one⟩
  · exact .nothing none_
  · exact .close err msgTime peer client one

theorem peerMessage_reject (isReject : peerMessage msg = .reject) : msg.payload.msgType = some .reject := by
  rw [peerMessage] at isReject
  cases found : msg.payload <;> rw [found] at isReject <;> first | rfl | cases isReject

/-- A message has one handler called at most. -/
theorem msgRecv_replied {msg : EconnFmt.Message} :
    Replied p userid clientid msg (msgRecv o userid clientid msg p).upcalls := by
  have unchanged : closeUpcalls o p (Ecall.bindPeer userid clientid p) = [] := closeUpcalls_same rfl
  simp only [msgRecv]
  cases isMessage : peerMessage msg with
  | propsync resp => exact .nothing (closeUpcalls_same Ecall.handlePropsync_closeh)
  | unsupported => exact .nothing unchanged
  | passed =>
    refine .nothing ?_
    simp only [Ecall.receive, unchanged, append_nil]
    split <;> rfl
  | reject =>
    simp only [Ecall.receive, unchanged, append_nil]
    split
    · next self => exact .leave rfl (peerMessage_reject isMessage) self.1 self.2
    · exact .nothing rfl
  | signal signal =>
    simp only [Ecall.receive]
    cases hears : Ecall.heard o.env userid clientid signal (Ecall.bindPeer userid clientid p).ecall with
    | none => exact .nothing unchanged
    | some result =>
      obtain ⟨ec, done⟩ := result
      obtain ⟨closeh, propsRemote, answered, calls⟩ := Ecall.heard_calls hears
      have closeh : ec.closeh = p.ecall.closeh := closeh
      dsimp only
      rcases calls with silent | ⟨call, one⟩
      · rw [silent, Ecall.dispatch_silent silent]
        exact .nothing (closeUpcalls_same closeh)
      · rw [one, Ecall.dispatch_single one, map_singleton, flatMap_singleton]
        cases call with
        | conn sdp reset =>
          cases reset with
          | true => exact replied_close
          | false =>
            cases known : p.ecall.propsRemote with
            | true =>
              rw [show upcalls p.ecall userid clientid msg (.econn (.conn sdp false)) = [] from if_pos known]
              exact replied_close
            | false =>
              have same := @Ecall.connHandler_closeh (Ecall.sentBy done ec) o.env sdp (propsRemote.trans known)
              rw [closeUpcalls_same (show _ = _ from same.trans closeh), append_nil]
              exact .start _ _ (if_neg (by rw [known]; decide))
        | answer reset sdp =>
          cases reset with
          | true => exact replied_close
          | false =>
            have same := @Ecall.answerHandler_closeh (Ecall.sentBy done ec) o.env sdp
            rw [closeUpcalls_same (show _ = _ from same.trans closeh), append_nil, upcalls]
            split
            · exact .nothing rfl
            · exact .answer rfl
        | updateReq sdp shouldReset => exact replied_close
        | updateResp sdp => exact replied_close
        | close err => exact replied_close

/-- The handlers that report the end of a call. -/
def Upcall.ends : Upcall → Bool
  | .leave _ _ | .close _ _ _ _ => true
  | _ => false

theorem closeUpcalls_ends (o : Outside) (before after : Peered) :
    ∀ up ∈ closeUpcalls o before after, Upcall.ends up = true := by
  intro up member
  rcases closeUpcalls_cases with none_ | ⟨err, msgTime, peer, client, one⟩
  · rw [none_] at member
    cases member
  · rw [one, mem_singleton] at member
    rw [member]
    rfl

/-- A message leaves the call unanswered, and what it reports is its end. -/
theorem msgRecv_unanswered (un : Unanswered p.ecall) : Unanswered (msgRecv o userid clientid msg p).icall.ecall ∧
      ∀ up ∈ (msgRecv o userid clientid msg p).upcalls, Upcall.ends up = true := by
  have ends := closeUpcalls_ends o p
  simp only [msgRecv, mem_append]
  cases isMessage : peerMessage msg with
  | propsync resp =>
    refine ⟨un.handlePropsync resp, fun up member => ends _ up (member.resolve_left ?_)⟩
    simp [Ecall.receive, upcalls]
  | unsupported => exact ⟨un, fun up member => ends _ up (member.resolve_left (by simp [Ecall.receive]))⟩
  | passed =>
    refine ⟨un, fun up member => ends _ up (member.resolve_left ?_)⟩
    simp only [Ecall.receive]
    split <;> simp [upcalls]
  | reject =>
    refine ⟨un, fun up member => member.elim ?_ (ends _ up)⟩
    simp only [Ecall.receive]
    split
    · intro member
      simp only [flatMap_singleton, upcalls, mem_singleton] at member
      rw [member]
      rfl
    · simp
  | signal signal =>
    simp only [Ecall.receive]
    cases hears : Ecall.heard o.env userid clientid signal (Ecall.bindPeer userid clientid p).ecall with
    | none => exact ⟨un, fun up member => ends _ up (member.resolve_left (by simp))⟩
    | some result =>
      have un : Unanswered (Ecall.bindPeer userid clientid p).ecall := un
      obtain ⟨calls, still⟩ := Ecall.heard_unanswered un hears
      refine ⟨still, fun up member => ends _ up (member.resolve_left ?_)⟩
      rcases calls with silent | ⟨err, closes⟩
      · simp [silent]
      · simp [closes, upcalls]

/-- A new ecall announces the SETUP of another user, and rings. -/
theorem msgRecv_fresh (none_ : p.ecall.econn = none) (named : p.ecall.clientidSelf ≠ [])
    (unknown : p.ecall.propsRemote = false) (unanswered : p.ecall.answered = false)
    (still : p.ecall.async = .asyncNone) (creator : Calls.isCreator p.ecall.useridSelf userid msg = true) :
    (∃ msgTime video,
      (msgRecv o userid clientid msg p).upcalls = [.start msgTime userid clientid video true .oneOnOne]) ∧
    Unanswered (msgRecv o userid clientid msg p).icall.ecall := by
  simp only [Calls.isCreator, decide_eq_true_eq] at creator
  obtain ⟨isSelf, isSender, other, request, setup⟩ := creator
  have isMessage : ∃ signal, peerMessage msg = .signal signal ∧ signal.msgType = .setup ∧ signal.resp = false := by
    cases isPayload : msg.payload <;> rw [isPayload] at setup <;> try cases setup
    rw [peerMessage, isPayload]
    exact ⟨_, rfl, rfl, request⟩
  obtain ⟨signal, isMessage, isSetup, isRequest⟩ := isMessage
  obtain ⟨made, conn, hears⟩ := @Ecall.heard_fresh userid clientid p.ecall signal o.env none_ isSelf named isSender
    other isSetup isRequest
  simp only [msgRecv, isMessage, Ecall.receive, Ecall.bindPeer, hears]
  rw [Ecall.dispatch_single rfl]
  let sent := Ecall.sentBy (Econn.incoming conn signal false) { p.ecall with econn := some made }
  have rings : Unanswered sent := ⟨unanswered, still, .inl rfl⟩
  refine ⟨⟨.ofBitVec msg.time, offersVideo msg, ?_⟩, ?_⟩
  · rw [closeUpcalls_same (@Ecall.connHandler_closeh sent o.env signal.sdp unknown), append_nil]
    show [PeerCall.econn (.conn signal.sdp false)].flatMap _ = _
    rw [flatMap_singleton, upcalls, if_neg (by rw [unknown]; decide)]
  · exact rings.connHandler signal.sdp

theorem replied_silent (same : ec.closeh = p.ecall.closeh) : (replied o p ec err).upcalls = [] :=
  closeUpcalls_same same

end DirectCalls

end Avs
