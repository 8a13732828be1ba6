import Avs.Runs
import Avs.Ecall

/-!
The video state of an ecall against the application's requests. During the setup of a call and during an
update `ecall_set_video_send_state` keeps a request for later, and `channel_estab_handler` replays it. A
request that is not kept leaves an older one waiting, which then comes after it.
-/
namespace Avs.Ecall
open Runs

/-- The part of an ecall a request is about. -/
structure Video where
  convType : ConvType
  vstate : VideoState
  glareVstate : VideoState
  updateGlare : Bool
  videosend : String
  screensend : String

def video (ec : Ecall) : Video :=
  ⟨ec.convType, ec.vstate, ec.glareVstate, ec.updateGlare, ec.props.videosend, ec.props.screensend⟩

variable {env : Env} {done : Econn.Done} {ec ec' : Ecall} {last vstate : VideoState} {err : Option Errno}
  {callType : CallType} {audioCbr reset : Bool} {sdp : Bytes} {flow : Nat}

theorem sentBy_video : video (sentBy done ec) = video ec := rfl

/-- What a call leaves alone is alone in each branch on its result. -/
theorem video_of_result {called : Ecall × Option Errno}
    (kept : video called.1 = video ec) (result : called = (ec', err)) : video ec' = video ec := by
  rw [result] at kept
  exact kept

theorem closeOnErr_video {result : Ecall × Option Errno} : video (closeOnErr result) = video result.1 := by
  unfold closeOnErr
  split
  · rfl
  · rfl

theorem createEconn_video (ec : Ecall) : video (createEconn ec).1 = video ec := by
  unfold createEconn
  split
  · rfl
  · rfl

theorem offerAndConnect_video (env : Env) (ec : Ecall) : video (offerAndConnect env ec).1 = video ec := by
  unfold offerAndConnect
  split
  · rfl
  · rfl

theorem generateOffer_video : video (generateOffer env ec).1 = video ec := by
  unfold generateOffer
  split
  · exact offerAndConnect_video env ec
  · split
    · rfl
    · rfl

theorem generateAnswer_video (ec : Ecall) : video (generateAnswer env ec).1 = video ec := by
  unfold generateAnswer
  split
  · rfl
  · split
    · rfl
    · rfl

theorem generateOrGatherAnswer_video (env : Env) (ec : Ecall) : video (generateOrGatherAnswer env ec).1 = video ec := by
  unfold generateOrGatherAnswer
  simp only
  split
  · exact generateAnswer_video { ec with offer := none }
  · split
    · rfl
    · rfl

theorem answer_video : video (answer env callType audioCbr ec).1 = video ec := by
  have answered := generateOrGatherAnswer_video env
    (updateMuteProps env { ec with callType := callType, audioCbr := audioCbr })
  unfold answer
  split
  · rfl
  · split
    · rfl
    · split
      · rfl
      · split
        · next result => exact (video_of_result answered result :)
        · next result => exact (video_of_result answered result :)

theorem restart_video : video (restart env callType ec).1 = video ec := by
  unfold restart
  split
  all_goals first
    | rfl
    | split
      · rfl
      · exact generateOffer_video

theorem end_video : video (end_ env ec) = video ec := by
  unfold end_
  split
  · rfl
  · rfl

theorem connHandler_video : video (connHandler env sdp reset ec) = video ec := by
  have flow : video (if reset = true ∨ ec.flow = none then allocFlow ec false else ec) = video ec := by
    split
    · rfl
    · rfl
  unfold connHandler
  simp only
  generalize (if reset = true ∨ ec.flow = none then allocFlow ec false else ec) = ec₁ at flow ⊢
  split
  · exact flow
  · split
    · rw [closeOnErr_video, answer_video]
      exact flow
    · exact flow

theorem answerHandler_video : video (answerHandler env reset sdp ec) = video ec := by
  have answered := generateOrGatherAnswer_video env { allocFlow ec false with async := .asyncNone, offer := some sdp }
  unfold answerHandler
  split
  · split
    · next result => exact (video_of_result answered result :)
    · next result => exact (video_of_result answered result :)
  · split
    · rfl
    · rfl

theorem updateReqHandler_video : video (updateReqHandler env sdp ec) = video ec := by
  unfold updateReqHandler
  simp only
  rw [closeOnErr_video, generateOrGatherAnswer_video]
  split
  · rfl
  · rfl

theorem updateRespHandler_video : video (updateRespHandler ec) = video ec := by
  unfold updateRespHandler
  split
  · rfl
  · rfl

theorem handle_video {call : EconnCall} : video (handle env ec call) = video ec := by
  cases call with
  | conn sdp reset => exact connHandler_video
  | answer reset sdp => exact answerHandler_video
  | updateReq sdp shouldReset => exact updateReqHandler_video
  | updateResp sdp => exact updateRespHandler_video
  | close err => rfl

theorem dispatch_video : video (dispatch env done ec) = video ec := by
  have all : ∀ (calls : List EconnCall) (ec : Ecall), video (calls.foldl (handle env) ec) = video ec := by
    intro calls
    induction calls with
    | nil => intro ec; rfl
    | cons call rest ih =>
      intro ec
      rw [List.foldl_cons, ih, handle_video]
  rw [dispatch, all, sentBy_video]

theorem msgRecv_video {useridSender clientidSender : Bytes} {msg : EconnMessage} :
    video (msgRecv env useridSender clientidSender msg ec) = video ec := by
  have created : ∀ b : Prop, [Decidable b] → video (if b then createEconn ec else (ec, none)).1 = video ec := by
    intro b _
    split
    · exact createEconn_video ec
    · rfl
  unfold msgRecv
  split
  · split
    · rfl
    · split
      · exact dispatch_video
      · rfl
  · have made := created (ec.econn = none ∧ isCreator ec useridSender clientidSender msg = true)
    split
    · next result => exact (video_of_result made result :)
    · rename_i result
      rw [result] at made
      split
      · exact made
      · rw [dispatch_video]
        exact made

theorem handlePropsync_video {resp : Bool} : video (handlePropsync resp ec) = video ec := by
  unfold handlePropsync
  simp only
  split
  · rfl
  · rfl

theorem updateMuteState_video : video (updateMuteState env ec) = video ec := by
  unfold updateMuteState
  simp only
  split
  · rfl
  · rfl

theorem gatherHandler_video : video (gatherHandler env flow ec) = video ec := by
  have offered := offerAndConnect_video env ec
  have answered : video (if ec.econnPending then generateAnswer env ec else (ec, some .EPROTO)).1 = video ec := by
    split
    · exact generateAnswer_video ec
    · rfl
  unfold gatherHandler
  split
  · rfl
  · split
    · rfl
    · split
      · rfl
      · rfl
      · split
        · next result => exact (video_of_result offered result :)
        · next result => exact (video_of_result offered result :)
      · split
        · next result => exact (video_of_result answered result :)
        · next result => exact (video_of_result answered result :)

theorem channelCloseHandler_video : video (channelCloseHandler env flow ec) = video ec := by
  unfold channelCloseHandler
  split
  · rfl
  · split
    · exact restart_video
    · rfl

theorem restartHandler_video {forceCbr : Bool} : video (restartHandler env flow forceCbr ec) = video ec := by
  unfold restartHandler
  split
  · rfl
  · split
    · rfl
    · split
      · exact restart_video
      · rfl

theorem failWith_video : video (failWith env err ec) = video ec := by
  unfold failWith
  split
  · exact end_video
  · rfl

theorem closeHandler_video : video (closeHandler env flow err ec) = video ec := by
  unfold closeHandler
  split
  · rfl
  · split
    · rfl
    · split
      · exact restart_video
      · exact failWith_video

theorem connectionTimeoutHandler_video {mediaEstabh : Bool} :
    video (connectionTimeoutHandler env mediaEstabh ec) = video ec := by
  unfold connectionTimeoutHandler
  split
  · exact restart_video
  · split
    · rfl
    · rfl

theorem econnTimeout_video : video (econnTimeout env ec) = video ec := by
  unfold econnTimeout
  split
  · rfl
  · split
    · rfl
    · exact dispatch_video

/-- The video part follows the request made last: it is the video state, or it waits; and the properties are those of
    the video state. -/
structure Follows (last : VideoState) (v : Video) : Prop where
  oneOnOne : v.convType = .oneOnOne
  strings : (v.videosend, v.screensend) = vstateStrings v.vstate
  asked : if v.updateGlare then v.glareVstate = last else v.vstate = last

theorem start_follows
    (follows : Follows last (video ec)) : Follows last (video (start env callType audioCbr ec).1) := by
  unfold start
  split
  · split
    · rw [answer_video]
      exact follows
    · exact follows
  · have created := createEconn_video { ec with callType := callType }
    split
    · rename_i result
      rw [result] at created
      exact created ▸ follows
    · rename_i ec₁ result
      rw [result] at created
      have follows : Follows last (video ec₁) := created ▸ follows
      rw [generateOffer_video]
      split
      · rename_i started
        have same : ec₁.props.videosend = "true" := by
          have := congrArg Prod.fst follows.strings
          rw [show (video ec₁).vstate = .started from started.2] at this
          exact this
        have strings : ("true", ec₁.props.screensend) = vstateStrings ec₁.vstate := by
          rw [← same]
          exact follows.strings
        exact ⟨follows.oneOnOne, strings, follows.asked⟩
      · exact follows

theorem followVideoState_video : video (followVideoState env ec) = video ec := by
  unfold followVideoState
  split
  · exact restart_video
  · split
    · rfl
    · rfl

/-- The video state an event asks for. -/
def request : Event → Option VideoState
  | .setVideoSendState vstate => some vstate
  | _ => none

/-- A request made while another waits is kept in its place, or is for the same video state. -/
def InTurn (event : Event × Env) (ec : Ecall) : Prop :=
  ∀ vstate ∈ request event.1, ec.updateGlare = true → vstate = ec.glareVstate ∨ ec.vstate ≠ vstate ∧ Glare ec

theorem setVideoSendState_follows (oneOnOne : ec.convType = .oneOnOne)
    (strings : (ec.props.videosend, ec.props.screensend) = vstateStrings ec.vstate)
    (inTurn : ec.updateGlare = true → vstate = ec.glareVstate ∨ ec.vstate ≠ vstate ∧ Glare ec) :
    Follows vstate (video (setVideoSendState env vstate ec)) := by
  -- What is not kept leaves an older request waiting, which must be for the same state.
  have waiting : (ec.vstate ≠ vstate ∧ Glare ec → False) →
      ∀ now, now = vstate → if ec.updateGlare then ec.glareVstate = vstate else now = vstate := by
    intro unkept now isNow
    split
    · rename_i waits
      rcases inTurn waits with same | kept
      · exact same.symm
      · exact (unkept kept).elim
    · exact isNow
  unfold setVideoSendState
  split
  · rename_i same
    exact ⟨oneOnOne, strings, waiting (fun kept => kept.1 same) ec.vstate same⟩
  · split
    · exact ⟨oneOnOne, strings, rfl⟩
    · rename_i notGlare
      rw [followVideoState_video]
      exact ⟨oneOnOne, rfl, waiting (fun kept => notGlare kept.2) vstate rfl⟩

theorem concludeUpdate_video : video (concludeUpdate env ec) = video ec := by
  unfold concludeUpdate
  cases env.audioCbr with
  | true =>
    simp only [if_true]
    split
    · rfl
    · rfl
  | false =>
    simp only [Bool.false_eq_true, if_false]
    split
    · rfl
    · rfl

theorem replayGlare_follows (follows : Follows last (video ec)) : Follows last (video (replayGlare env ec)) := by
  unfold replayGlare
  split
  · rename_i waits
    have asked : ec.glareVstate = last := by
      have := follows.asked
      rwa [if_pos (show (video ec).updateGlare = true from waits)] at this
    rw [← asked]
    exact setVideoSendState_follows follows.oneOnOne follows.strings (fun waits => by cases waits)
  · exact follows

theorem channelEstabHandler_follows (env : Env) (flow : Nat)
    (follows : Follows last (video ec)) : Follows last (video (channelEstabHandler env flow ec)) := by
  unfold channelEstabHandler
  split
  · exact follows
  · simp only
    split
    · rw [restart_video]
      exact follows
    · refine replayGlare_follows ?_
      rw [concludeUpdate_video]
      exact follows

theorem generateOffer_update : (generateOffer env ec).1.update = ec.update := by
  unfold generateOffer offerAndConnect
  split
  · split
    · rfl
    · rfl
  · split
    · rfl
    · rfl

/-- A restart that leaves the data channel in use leaves an update pending. -/
theorem restart_update (oneOnOne : ec.convType = .oneOnOne)
    (inUse : (restart env callType ec).1.state = .datachanEstablished) : (restart env callType ec).1.update = true := by
  have begun : (generateOffer env { allocFlow { ec with callType := callType, update := true } ec.audioCbr with
      async := .asyncNone }).1.update = true := generateOffer_update
  have notConference : ¬ ec.convType = .conference := by simp [oneOnOne]
  unfold restart at inUse ⊢
  split at inUse
  case h_5 _ elsewhere _ _ => exact absurd inUse elsewhere
  all_goals
    simp only [notConference, if_false]
    exact begun

/-- What the video state calls for is done: no request waits, and the peer was told the properties. -/
def Settled (ec : Ecall) : Prop := ec.updateGlare = false ∧ ec.announced = some ec.props

/-- `concludeUpdate` field by field, where the data channel is in use. -/
theorem concludeUpdate_eq (inUse : ec.state = .datachanEstablished) : ∃ props, concludeUpdate env ec =
      { ec with props := props, announced := some props, update := false, numRetries := 0 } := by
  unfold concludeUpdate
  cases env.audioCbr with
  | true =>
    have inUse' : state { ec with props := { ec.props with audiocbr := "true" } } = .datachanEstablished := inUse
    simp only [if_true, inUse']
    exact ⟨_, rfl⟩
  | false =>
    simp only [Bool.false_eq_true, if_false, inUse, if_true]
    exact ⟨_, rfl⟩

theorem followVideoState_settled (oneOnOne : ec.convType = .oneOnOne)
    (idle : ec.updateGlare = false) (inUse : (followVideoState env ec).state = .datachanEstablished)
    (noUpdate : (followVideoState env ec).update = false) : Settled (followVideoState env ec) := by
  unfold followVideoState at inUse noUpdate ⊢
  split at inUse
  · rename_i replaced
    rw [if_pos replaced] at noUpdate
    rw [restart_update oneOnOne inUse] at noUpdate
    cases noUpdate
  · rename_i kept
    rw [if_neg kept] at noUpdate ⊢
    split at inUse
    · rename_i told
      rw [if_pos told]
      exact ⟨idle, rfl⟩
    · rename_i untold
      rw [if_neg untold] at noUpdate
      exact absurd ⟨by simp [noUpdate], inUse⟩ untold

theorem setVideoSendState_settled (oneOnOne : ec.convType = .oneOnOne)
    (settled : ec.state = .datachanEstablished → Settled ec) (idle : ec.updateGlare = false)
    (inUse : (setVideoSendState env vstate ec).state = .datachanEstablished)
    (noUpdate : (setVideoSendState env vstate ec).update = false) : Settled (setVideoSendState env vstate ec) := by
  unfold setVideoSendState at inUse noUpdate ⊢
  split at inUse
  · rename_i same
    rw [if_pos same]
    exact settled inUse
  · rename_i other
    rw [if_neg other] at noUpdate ⊢
    split at inUse
    · rename_i glare
      rw [if_pos glare] at noUpdate
      have inUse : ec.state = .datachanEstablished := inUse
      have noUpdate : ec.update = false := noUpdate
      simp [Glare, inUse, noUpdate] at glare
    · rename_i notGlare
      rw [if_neg notGlare] at noUpdate ⊢
      exact followVideoState_settled oneOnOne idle inUse noUpdate

theorem replayGlare_settled (oneOnOne : ec.convType = .oneOnOne)
    (announced : ec.state = .datachanEstablished → ec.announced = some ec.props)
    (inUse : (replayGlare env ec).state = .datachanEstablished) (noUpdate : (replayGlare env ec).update = false) :
    Settled (replayGlare env ec) := by
  unfold replayGlare at inUse noUpdate ⊢
  split at inUse
  · rename_i waits
    rw [if_pos waits] at noUpdate ⊢
    exact setVideoSendState_settled oneOnOne (fun inUse => ⟨rfl, announced inUse⟩) rfl inUse noUpdate
  · rename_i idle
    rw [if_neg idle]
    exact ⟨by simpa using idle, announced inUse⟩

theorem concludeUpdate_state : (concludeUpdate env ec).state = ec.state := by
  have told : ∀ ec : Ecall, state (if ec.state = .datachanEstablished then sendPropsync ec else ec) = ec.state := by
    intro ec
    split
    · rfl
    · rfl
  unfold concludeUpdate
  cases env.audioCbr with
  | true => exact told { ec with props := { ec.props with audiocbr := "true" } }
  | false => exact told ec

theorem channelEstabHandler_settled (oneOnOne : ec.convType = .oneOnOne)
    (isFlow : ec.flow = some flow) (inUse : (channelEstabHandler env flow ec).state = .datachanEstablished)
    (noUpdate : (channelEstabHandler env flow ec).update = false) : Settled (channelEstabHandler env flow ec) := by
  unfold channelEstabHandler at inUse noUpdate ⊢
  simp only [isFlow, ne_eq, not_true_eq_false, if_false] at inUse noUpdate ⊢
  split at inUse
  · rename_i delayed
    rw [if_pos delayed] at noUpdate
    have pending := restart_update (by exact oneOnOne) inUse
    rw [pending] at noUpdate
    cases noUpdate
  · rename_i undelayed
    rw [if_neg undelayed] at noUpdate ⊢
    refine replayGlare_settled ?_ ?_ inUse noUpdate
    · exact (congrArg Video.convType concludeUpdate_video).trans oneOnOne
    · intro inUse
      rw [concludeUpdate_state] at inUse
      obtain ⟨props, concluded⟩ := concludeUpdate_eq inUse
      rw [concluded]

/-- The request made last, or what held before any. -/
def lastRequest (first : VideoState) (events : List (Event × Env)) : VideoState :=
  events.foldl (fun last event => (request event.1).getD last) first

theorem step_follows {event : Event × Env} (inTurn : InTurn event ec) (follows : Follows last (video ec))
    (stepped : step event ec = some ec') : Follows (lastRequest last [event]) (video ec') := by
  obtain ⟨event, env⟩ := event
  obtain rfl := Option.some.inj stepped
  -- An event that leaves the video part alone is no request.
  have aside : ∀ {ec' : Ecall}, video ec' = video ec → Follows last (video ec') := fun same => same ▸ follows
  cases event with
  | setVideoSendState vstate =>
    exact setVideoSendState_follows follows.oneOnOne follows.strings (inTurn vstate rfl)
  | start callType audioCbr => exact start_follows follows
  | answer callType audioCbr => exact aside answer_video
  | restart callType => exact aside restart_video
  | end_ => exact aside end_video
  | msgRecv useridSender clientidSender msg => exact aside msgRecv_video
  | propsync resp => exact aside handlePropsync_video
  | muted => exact aside updateMuteState_video
  | gathered flow => exact aside gatherHandler_video
  | channelEstab flow => exact channelEstabHandler_follows env flow follows
  | channelClose flow => exact aside channelCloseHandler_video
  | flowRestart flow forceCbr => exact aside restartHandler_video
  | flowClose flow err => exact aside closeHandler_video
  | connectionTimeout mediaEstabh => exact aside connectionTimeoutHandler_video
  | mediaStartTimeout => exact aside failWith_video
  | econnTimeout => exact aside econnTimeout_video

theorem alloc_follows (callType : CallType) (timeoutSetup : Nat) (useridSelf clientidSelf sessid : Bytes)
    (muted : Bool) : let ec := alloc .oneOnOne callType timeoutSetup useridSelf clientidSelf sessid muted
    Follows ec.vstate (video ec) := by
  intro ec
  refine ⟨rfl, ?_, rfl⟩
  cases callType with
  | normal => rfl
  | video => rfl
  | forcedAudio => rfl

/-- In a call between two clients in which every request made while another waits takes its place, each data channel
    that is established, with no update pending after it, leaves the video state of the last request and its properties
    with the peer. -/
theorem last_request_wins (callType : CallType) (timeoutSetup : Nat) (useridSelf clientidSelf sessid : Bytes)
    (muted : Bool) (events : List (Event × Env)) (flow : Nat) (env : Env) (start ec ec' : Ecall)
    (starts : start = alloc .oneOnOne callType timeoutSetup useridSelf clientidSelf sessid muted)
    (ran : run step start events = some ec) (inTurn : Throughout step start events InTurn)
    (isFlow : ec.flow = some flow) (established : step (.channelEstab flow, env) ec = some ec')
    (inUse : ec'.state = .datachanEstablished) (noUpdate : ec'.update = false) :
    ec'.vstate = lastRequest start.vstate events ∧
      (ec'.props.videosend, ec'.props.screensend) = vstateStrings (lastRequest start.vstate events) ∧
      ec'.announced = some ec'.props := by
  have follows : Follows (lastRequest start.vstate events) (video ec) := by
    refine @run_history _ _ step InTurn start
      (fun events ec => Follows (lastRequest start.vstate events) (video ec)) ?_ ?_ events ec inTurn ran
    · exact starts ▸ alloc_follows callType timeoutSetup useridSelf clientidSelf sessid muted
    · intro front event mid mid' _ inTurn follows stepped
      rw [lastRequest, List.foldl_append]
      exact step_follows inTurn follows stepped
  obtain rfl := Option.some.inj established
  have settled := channelEstabHandler_settled follows.oneOnOne isFlow inUse noUpdate
  have follows := channelEstabHandler_follows env flow follows
  have isLast : (channelEstabHandler env flow ec).vstate = lastRequest start.vstate events := by
    have := follows.asked
    rwa [if_neg (by simp [video, settled.1])] at this
  exact ⟨isLast, follows.strings.trans (congrArg vstateStrings isLast), settled.2⟩

/-! Alice calls Bob, who answers; the flow has video and is gathered at once. -/

def plainEnv : Env := ⟨true, true, false, ascii "sdp", false, none⟩

def aliceCall : Ecall := alloc .oneOnOne .normal 60000 (ascii "alice") (ascii "a1") (ascii "s1") false

def bobAnswers : Event := .msgRecv (ascii "bob") (ascii "b1") ⟨.setup, ascii "s2", true, ascii "sdp"⟩

/-- Alice turns the camera on while the call is set up, and off again: the second request is for the state of the moment
    and is dropped, the first one is replayed when the data channel is there. -/
theorem late_camera : ∃ ec, run step aliceCall
        [(.start .normal false, plainEnv), (.setVideoSendState .started, plainEnv),
          (.setVideoSendState .stopped, plainEnv), (bobAnswers, plainEnv), (.channelEstab 0, plainEnv)] = some ec ∧
      ec.state = .datachanEstablished ∧ ec.update = false ∧ ec.vstate = .started ∧
      ec.announced.map (·.videosend) = some "true" := by
  exact exists_shown (fun ec => ec.state = .datachanEstablished ∧ ec.update = false ∧ ec.vstate = .started ∧
    ec.announced.map (·.videosend) = some "true") (by decide +kernel) fun _ _ shown => shown

instance (event : Event × Env) (ec : Ecall) : Decidable (InTurn event ec) :=
  inferInstanceAs (Decidable (∀ vstate ∈ request event.1, _ → _))

def pausedSetup : List (Event × Env) :=
  [(.start .normal false, plainEnv), (.setVideoSendState .started, plainEnv),
    (.setVideoSendState .paused, plainEnv), (bobAnswers, plainEnv)]

/-- Two requests during the setup: the second takes the place of the first. -/
theorem last_request_wins_paused :
    ∃ ec, run step aliceCall (pausedSetup ++ [(.channelEstab 0, plainEnv)]) = some ec ∧
      ec.vstate = .paused ∧ ec.announced.map (·.videosend) = some "paused" := by
  have shown : ∃ ec, run (guarded step InTurn) aliceCall pausedSetup = some ec ∧ ec.flow = some 0 ∧
      ∃ ec', step (.channelEstab 0, plainEnv) ec = some ec' ∧ ec'.state = .datachanEstablished ∧
        ec'.update = false := by
    decide +kernel
  obtain ⟨ec, ran, flow, ec', established, state, update⟩ := shown
  obtain ⟨inTurn, ran⟩ := run_guarded ran
  obtain ⟨vstate, strings, announced⟩ := last_request_wins .normal 60000 (ascii "alice") (ascii "a1") (ascii "s1") false
    pausedSetup 0 plainEnv aliceCall ec ec' rfl ran inTurn flow established state update
  refine ⟨ec', run_append.mpr ⟨ec, ran, by rw [run, established]; rfl⟩, vstate, ?_⟩
  rw [announced, Option.map_some]
  exact congrArg some (congrArg Prod.fst strings)

end Avs.Ecall
