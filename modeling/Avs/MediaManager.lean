import Avs.Base
import Avs.Runs

/-!
The media manager: the one object of a client that plays its sounds, chooses the route of its audio and holds
its microphone. Commands are put into one queue; a thread takes the messages off the queue and handles them
one after the other.

What the platform answers during the handling of a message is a `Platform`, and the calls it gets are in the
log. A post from another thread or from within a called function falls between two messages here, since no
handler reads the queue and each posts at most once. The message that ends the thread is left out.
-/
namespace Avs.MediaManager

inductive CallState
  | normal | outgoingAudioCall | outgoingVideoCall | incomingAudioCall | incomingVideoCall
  | incall | invideocall | roaming | hold | resume | error | unknown
  deriving DecidableEq, Repr

inductive SysState
  | unknown | normal | incoming | enteringCall | incall | exitingCall
  deriving DecidableEq, Repr

inductive Auplay
  | earpiece | speaker | headset | bt | lineout | spdif | unknown
  deriving DecidableEq, Repr

inductive RouteUpdate
  | headsetPlugged | headsetUnplugged | btDeviceConnected | btDeviceDisconnected | deviceChanged
  | speakerEnableRequest | speakerDisableRequest
  deriving DecidableEq, Repr

inductive PlaybackMode
  | none | mixing | exclusive
  deriving DecidableEq, Repr

/-- `struct sound`, as far as it is registered. -/
structure Sound where
  name : Bytes
  mixing : Bool
  incall : Bool
  intensity : Int
  priority : Int
  isCallMedia : Bool
  deriving DecidableEq, Repr

/-- A call of an incoming-call handler that is put into the queue. -/
structure Incoming where
  convid : Bytes
  msgTime : UInt32
  userid : Bytes
  clientid : Bytes
  videoCall : Int
  shouldRing : Int
  convType : Int
  deriving DecidableEq, Repr

/-- The messages of the queue, by `mm_marshal_id`. -/
inductive Message
  | playMedia (name : Bytes)
  | pauseMedia (name : Bytes)
  | stopMedia (name : Bytes)
  | callState (state : CallState)
  | enableSpeaker (val : Bool)
  | headsetConnected (val : Bool)
  | btDeviceConnected (val : Bool)
  | deviceChanged
  | registerMedia (sound : Sound)
  | deregisterMedia (name : Bytes)
  | setIntensity (intensity : Int)
  | setUserStartAudio (val : Bool)
  | enterCall | exitCall
  | audioAlloc | audioRelease | audioReset
  | sysIncoming | sysEnteredCall | sysLeftCall
  | invokeIncomingh (call : Option Incoming)
  | startRecording | stopRecording
  deriving DecidableEq, Repr

/-- What the manager calls: its users, the platform and the audio device. -/
inductive Output
  | mcatChanged (users : List Nat) (state : CallState)
  | routeChanged (users : List Nat) (route : Auplay)
  | incoming | enterCall | exitCall
  | playSound (name : Bytes) (sync delayed : Bool)
  | pauseSound (name : Bytes)
  | stopSound (name : Bytes)
  | stopDelayedPlay
  | enableRoute (route : Auplay)
  | confirmRoute (route : Auplay)
  | registerMedia (sound : Sound)
  | unregisterMedia (name : Bytes)
  | setMuted (muted : Bool)
  | incomingh (call : Incoming)
  | startRecording | stopRecording
  deriving DecidableEq, Repr

structure Router where
  preferLoudspeaker : Bool
  btDeviceIsConnected : Bool
  wiredHsIsConnected : Bool
  curRoute : Auplay
  deriving DecidableEq, Repr

/-- `struct mediamgr`: a registered user and whether it has a route handler. -/
structure User where
  id : Nat
  routeChangedH : Bool
  deriving DecidableEq, Repr

/-- The part of `struct mm` that follows the call, with its users. An audio object is known by a number, and `asked`
    counts how often the in-call action asks for one. -/
structure Call where
  mq : List Message
  callState : CallState
  holdState : CallState
  sysState : SysState
  audioStarted : Bool
  shouldReset : Bool
  allocPending : Bool
  playReady : Bool
  aio : Option Nat
  mml : List User
  asked : Nat
  deriving DecidableEq, Repr

/-- `struct mm`, with the log of its calls. -/
structure Mm extends Call where
  speakerOverride : Bool
  router : Router
  intensityThres : Int
  userStartsAudio : Bool
  log : List Output
  deriving DecidableEq, Repr

/-- What the platform and the audio device answer while a message is handled. -/
structure Platform where
  android : Bool
  getRoute : Auplay
  /-- `dict_lookup` in the sounds the platform has registered. -/
  sound : Bytes → Option Sound
  /-- The registered sounds that are playing. -/
  playing : List Sound
  audioIsActivated : Bool
  /-- `audio_io_alloc`; without an object where audio is not built in. -/
  audioIoAlloc : Except Errno (Option Nat)
  audioIoReset : Int

namespace Mm

def emit (out : Output) (s : Mm) : Mm := { s with log := s.log ++ [out] }

def post (msg : Message) (s : Mm) : Mm := { s with mq := s.mq ++ [msg] }

def fireCallbackInternal (state : CallState) (s : Mm) : Mm :=
  s.emit (.mcatChanged (s.mml.map User.id) (if state = .normal then s.callState else state))

def fireCallback (s : Mm) : Mm := s.fireCallbackInternal .normal

/-- `mediamgr_post_media_cmd`: a second allocation is not posted while one is pending. -/
def postMediaCmd (cmd : Message) (s : Mm) : Mm :=
  match cmd with
  | .audioAlloc => if s.allocPending then s else post .audioAlloc { s with allocPending := true }
  | _ => s.post cmd

def stopAllMedia (p : Platform) (s : Mm) : Mm :=
  { s with log := s.log ++ .stopDelayedPlay :: p.playing.map (fun snd => .stopSound snd.name) }

/-- `check_play_mode`, applied to the sounds that are playing until one is not mixing. -/
def checkPlayMode : PlaybackMode → List Sound → PlaybackMode
  | mode, [] => mode
  | _, snd :: rest => if snd.mixing then checkPlayMode .mixing rest else .exclusive

def canPlaySound (p : Platform) (toPlay : Sound) (s : Mm) : Bool :=
  let incall := s.callState = .incall || s.callState = .invideocall
  if toPlay.intensity > s.intensityThres then false
  else if !toPlay.incall && incall then false
  else if toPlay.priority > 0 then true
  else
    match checkPlayMode .none p.playing with
    | .none => true
    | .exclusive => false
    | .mixing => toPlay.mixing

def playSound (p : Platform) (name : Bytes) (sync delayed : Bool) (s : Mm) : Mm :=
  match p.sound name with
  | none => s
  | some snd => if s.canPlaySound p snd then s.emit (.playSound snd.name sync delayed) else s

def getWantedRoute (s : Mm) : Auplay :=
  if s.router.preferLoudspeaker then .speaker
  else if s.router.wiredHsIsConnected then .headset
  else if s.router.btDeviceIsConnected then .bt
  else .earpiece

def satisfyRoute (route : Auplay) (s : Mm) : Mm :=
  match route with
  | .headset | .earpiece | .speaker | .bt => s.emit (.enableRoute route)
  | .lineout | .spdif | .unknown => s

def preferLoudspeaker (prefer : Bool) (s : Mm) : Mm :=
  { s with router := { s.router with preferLoudspeaker := prefer } }

def enableSpeaker (p : Platform) (enable : Bool) (s : Mm) : Mm :=
  if s.speakerOverride then s
  else
    let s := s.preferLoudspeaker enable
    if s.getWantedRoute ≠ p.getRoute then s.satisfyRoute s.getWantedRoute else s

/-- What `update_route` makes of an event: the router and the route that is wanted, unless it is left to
    `get_wanted_route`. -/
def routeEvent (p : Platform) (event : RouteUpdate) (s : Mm) : Router × Auplay :=
  let r := s.router
  let video := s.callState = .invideocall
  match event with
  | .headsetPlugged => ({ r with wiredHsIsConnected := true, preferLoudspeaker := false }, .headset)
  | .headsetUnplugged =>
    ({ r with wiredHsIsConnected := false, preferLoudspeaker := if video then true else r.preferLoudspeaker },
      if r.btDeviceIsConnected ∧ p.getRoute ≠ .speaker then .bt else .unknown)
  | .btDeviceConnected =>
    ({ r with btDeviceIsConnected := true, preferLoudspeaker := false },
      if s.callState = .incall ∨ video then .bt else .unknown)
  | .btDeviceDisconnected =>
    ({ r with btDeviceIsConnected := false, preferLoudspeaker := if video then true else r.preferLoudspeaker },
      if r.wiredHsIsConnected ∧ p.getRoute ≠ .speaker then .headset else .unknown)
  | .deviceChanged =>
    (r,
      if p.getRoute = .speaker ∧ r.preferLoudspeaker = false then .earpiece
      else if p.getRoute = .earpiece ∧ r.preferLoudspeaker then .speaker
      else p.getRoute)
  | .speakerEnableRequest | .speakerDisableRequest => (r, .unknown)

/-- The end of `update_route`: the route is changed, or the users are told of it. -/
def settleRoute (p : Platform) (wanted : Auplay) (s : Mm) : Mm :=
  if p.getRoute ≠ wanted then s.satisfyRoute wanted
  else
    (s.emit (.routeChanged ((s.mml.filter User.routeChangedH).map User.id) p.getRoute)).emit
      (.confirmRoute p.getRoute)

def updateRoute (p : Platform) (event : RouteUpdate) (s : Mm) : Mm :=
  let s' := { s with router := { (s.routeEvent p event).1 with curRoute := p.getRoute } }
  s'.settleRoute p (if (s.routeEvent p event).2 = .unknown then s'.getWantedRoute else (s.routeEvent p event).2)

def setVideoRoute (p : Platform) (s : Mm) : Mm :=
  let s := s.preferLoudspeaker (!(p.android && (s.router.btDeviceIsConnected || s.router.wiredHsIsConnected)))
  match p.getRoute with
  | .headset | .bt | .lineout | .spdif => s
  | .earpiece | .speaker | .unknown => if s.router.preferLoudspeaker then s.enableSpeaker p true else s

/-- The loudspeaker for a ringing video call, unless something is plugged in. -/
def ringSpeaker (p : Platform) (s : Mm) : Mm :=
  if !s.router.btDeviceIsConnected && !s.router.wiredHsIsConnected then s.enableSpeaker p true else s

def enterIncoming (s : Mm) : Mm := if s.sysState = .normal then s.emit .incoming else s

def enterCall (s : Mm) : Mm :=
  let s := { s with playReady := true }
  match s.sysState with
  | .normal | .incoming | .exitingCall => emit .enterCall { s with sysState := .enteringCall }
  | .enteringCall | .incall => s.emit .enterCall
  | .unknown => s

def exitCall (s : Mm) : Mm :=
  match s.sysState with
  | .incall | .incoming | .enteringCall =>
    emit .exitCall { s with sysState := .exitingCall, speakerOverride := false }
  | .unknown | .normal | .exitingCall => s

/-- The beginning of `incall_action`. -/
def readyMedia (p : Platform) (s : Mm) : Mm :=
  if s.callState = .invideocall then (s.stopAllMedia p).setVideoRoute p else s.stopAllMedia p

/-- The sound of a call that has become ready, once. -/
def readyToTalk (p : Platform) (s : Mm) : Mm :=
  if s.playReady then playSound p (ascii "ready_to_talk") true false { s with playReady := false } else s

def incallAction (p : Platform) (s : Mm) : Mm :=
  if p.audioIsActivated || s.audioStarted then
    postMediaCmd .audioAlloc { (s.readyMedia p).readyToTalk p with asked := s.asked + 1 }
  else s.readyMedia p

def handleIncall (p : Platform) (hold : Bool) (s : Mm) : Mm :=
  let s := if s.callState = .invideocall then s.preferLoudspeaker true else s
  if hold then s.enterCall
  else
    match s.sysState with
    | .incall => s.incallAction p
    | .enteringCall => s
    | .unknown | .normal | .incoming | .exitingCall => s.enterCall

def audioAlloc (p : Platform) (s : Mm) : Mm :=
  if s.aio.isSome then s.fireCallback
  else
    match p.audioIoAlloc with
    | .error _ => { s.fireCallbackInternal .error with allocPending := false }
    | .ok aio => { fireCallback { s with aio := aio } with allocPending := false }

def audioRelease (s : Mm) : Mm := { s with aio := none, allocPending := false }

def audioReset (p : Platform) (s : Mm) : Mm :=
  if s.aio.isSome then
    if p.audioIoReset < 0 then s.fireCallbackInternal .error else s
  else s.enterCall

def fireWithAudio (s : Mm) : Mm := if s.aio.isSome then s.fireCallback else s

def sysIncomingHandler (s : Mm) : Mm := { s with sysState := .incoming }

/-- `sys_entered_call_handler` once the call that was asked for is entered. -/
def enteredCall (p : Platform) (s : Mm) : Mm :=
  match s.callState with
  | .outgoingAudioCall => s.playSound p (ascii "ringing_from_me") false true
  | .outgoingVideoCall => (s.ringSpeaker p).playSound p (ascii "ringing_from_me_video") false true
  | .incall | .invideocall => s.incallAction p
  | .resume =>
    let s := if s.aio.isSome then s.fireCallback else s.postMediaCmd .audioAlloc
    { s with callState := s.holdState }
  | .normal => s.exitCall
  | .incomingAudioCall | .incomingVideoCall | .roaming | .hold | .error | .unknown => s

def sysEnteredCallHandler (p : Platform) (s : Mm) : Mm :=
  if s.sysState = .incall ∧ (s.callState = .incall ∨ s.callState = .invideocall) then
    if s.aio.isSome then s.fireCallback else s.incallAction p
  else if s.sysState = .incall ∧ s.callState ≠ .resume then s
  else if s.sysState ≠ .enteringCall then s
  else enteredCall p { s with sysState := .incall }

def sysLeftCallHandler (p : Platform) (s : Mm) : Mm :=
  if s.sysState = .enteringCall then s
  else
    let s := { s with sysState := .normal }
    if s.callState = .normal then
      updateRoute p .deviceChanged { s.preferLoudspeaker false with speakerOverride := false }
    else s

/-- How `call_state_handler` leaves the call of the platform. -/
def leaveCall (p : Platform) (old : CallState) (s : Mm) : Mm :=
  match s.sysState with
  | .normal => s
  | .incall =>
    if old = .incall ∨ old = .invideocall then (s.playSound p (ascii "talk_later") true false).exitCall
    else s.exitCall
  | .unknown | .incoming | .enteringCall | .exitingCall => s.exitCall

/-- `call_state_handler`, to the normal state. -/
def toNormal (p : Platform) (s : Mm) : Mm :=
  let released := (stopAllMedia p { s with speakerOverride := false, callState := .normal }).audioRelease
  (leaveCall p s.callState { released.emit (.setMuted false) with audioStarted := false }).preferLoudspeaker false

def toOutgoingAudio (p : Platform) (s : Mm) : Mm :=
  match s.callState with
  | .normal => enterCall { s with callState := .outgoingAudioCall }
  | .resume => enterCall { s with holdState := .outgoingAudioCall }
  | .hold => if s.sysState = .incall then s.playSound p (ascii "ringing_from_me") false true else s
  | _ => s

def toOutgoingVideo (p : Platform) (s : Mm) : Mm :=
  let s := s.preferLoudspeaker true
  match s.callState with
  | .normal => enterCall { s with callState := .outgoingVideoCall }
  | .resume => enterCall { s with holdState := .outgoingVideoCall }
  | .hold =>
    if s.sysState = .incall then (s.ringSpeaker p).playSound p (ascii "ringing_from_me_video") false true else s
  | _ => s

def toIncomingAudio (s : Mm) : Mm :=
  match s.callState with
  | .normal => enterIncoming { s with callState := .incomingAudioCall }
  | .resume => enterIncoming { s with holdState := .incomingAudioCall }
  | _ => s

/-- `call_state_handler`, to an incoming call with video: the platform is told in any state. -/
def toIncomingVideo (s : Mm) : Mm :=
  match s.callState with
  | .normal => enterIncoming { s with callState := .incomingVideoCall }
  | .resume => enterIncoming { s with holdState := .incomingVideoCall }
  | _ => s.enterIncoming

/-- `call_state_handler`, to a call, with video or not. -/
def toIncall (p : Platform) (new : CallState) (s : Mm) : Mm :=
  let s' := { s with callState := new }
  match s.callState with
  | .incall => fireWithAudio (if new = .invideocall then s'.setVideoRoute p else s')
  | .invideocall => s'.fireWithAudio
  | _ => s'.handleIncall p (decide (s.callState = .hold))

def toHold (s : Mm) : Mm :=
  fireCallback { s with holdState := s.callState, shouldReset := true, callState := .hold }

def toResume (s : Mm) : Mm :=
  if s.callState = .hold then
    let s := { s with callState := .resume }
    if s.holdState = .incall ∨ s.holdState = .invideocall then
      if s.sysState = .incall then { s.fireWithAudio with callState := s.holdState } else s.enterCall
    else s
  else s

def callStateHandler (p : Platform) (new : CallState) (s : Mm) : Mm :=
  if new = s.callState then
    if new = .invideocall ∨ new = .incall then s.fireWithAudio else s
  else
    match new with
    | .normal => s.toNormal p
    | .outgoingAudioCall => s.toOutgoingAudio p
    | .outgoingVideoCall => s.toOutgoingVideo p
    | .incomingAudioCall => s.toIncomingAudio
    | .incomingVideoCall => s.toIncomingVideo
    | .incall | .invideocall => s.toIncall p new
    | .hold => s.toHold
    | .resume => s.toResume
    | .roaming | .error | .unknown => s

def mqueueHandler (p : Platform) (msg : Message) (s : Mm) : Mm :=
  match msg with
  | .playMedia name => s.playSound p name false false
  | .pauseMedia name => ((p.sound name).map (fun snd => s.emit (.pauseSound snd.name))).getD s
  | .stopMedia name => ((p.sound name).map (fun snd => s.emit (.stopSound snd.name))).getD s
  | .callState state => s.callStateHandler p state
  | .enableSpeaker val => { enableSpeaker p val { s with speakerOverride := false } with speakerOverride := true }
  | .headsetConnected val => s.updateRoute p (if val then .headsetPlugged else .headsetUnplugged)
  | .btDeviceConnected val => s.updateRoute p (if val then .btDeviceConnected else .btDeviceDisconnected)
  | .deviceChanged => s.updateRoute p .deviceChanged
  | .registerMedia snd => s.emit (.registerMedia snd)
  | .deregisterMedia name => s.emit (.unregisterMedia name)
  | .setIntensity intensity => { s with intensityThres := intensity }
  | .setUserStartAudio val => { s with userStartsAudio := val }
  | .enterCall => s.enterCall
  | .exitCall => s.exitCall
  | .audioAlloc => s.audioAlloc p
  | .audioRelease => s.audioRelease
  | .audioReset => s.audioReset p
  | .sysIncoming => s.sysIncomingHandler
  | .sysEnteredCall => s.sysEnteredCallHandler p
  | .sysLeftCall => s.sysLeftCallHandler p
  | .invokeIncomingh call => (call.map (fun c => s.emit (.incomingh c))).getD s
  | .startRecording => s.emit .startRecording
  | .stopRecording => s.emit .stopRecording

end Mm

inductive SoundMode
  | all | some | none
  deriving DecidableEq, Repr

/-- The functions `mediamgr_...` of the interface, by their names, and the handling of the message at the head of the
    queue. -/
inductive Action
  | alloc (user : User)
  | dealloc (id : Nat)
  | registerRouteChangeH (id : Nat)
  | playMedia (name : Bytes)
  | pauseMedia (name : Bytes)
  | stopMedia (name : Bytes)
  | setCallState (state : CallState)
  | enableSpeaker (enable : Bool)
  | overrideSpeaker (speaker : Bool)
  | headsetConnected (connected : Bool)
  | btDeviceConnected (connected : Bool)
  | deviceChanged
  | updateRoute (p : Platform)
  | registerMedia (sound : Sound)
  | unregisterMedia (name : Bytes)
  | setSoundMode (mode : SoundMode)
  | setUserStartsAudio (enable : Bool)
  | enterCall | exitCall
  | audioRelease | audioReset | audioStart
  | sysIncoming | sysEnteredCall | sysLeftCall
  | holdAndResume
  | invokeIncomingh (call : Option Incoming)
  | startRecording | stopRecording
  | handle (p : Platform)

def isInternal (name : Bytes) : Bool :=
  name = ascii "ringing_from_me" || name = ascii "ringing_from_me_video" || name = ascii "ready_to_talk" ||
    name = ascii "talk_later"

/-- A name as it is copied into a message, which has room for 128 bytes. -/
def mediaName (name : Bytes) : Bytes := name.take 127

def SoundMode.intensity : SoundMode → Int
  | .all => 100
  | .some => 50
  | .none => 0

/-- One action. Without a message there is nothing to handle, and the manager ends with its last user. -/
def step (a : Action) (s : Mm) : Option Mm :=
  match a with
  | .alloc user => some { s with mml := s.mml ++ [user] }
  | .dealloc id =>
    let rest := s.mml.filter (fun user => user.id ≠ id)
    if rest = [] then none else some { s with mml := rest }
  | .registerRouteChangeH id =>
    some { s with mml := s.mml.map (fun user => if user.id = id then { user with routeChangedH := true } else user) }
  | .playMedia name => some (if isInternal name then s else s.postMediaCmd (.playMedia (mediaName name)))
  | .pauseMedia name => some (if isInternal name then s else s.postMediaCmd (.pauseMedia (mediaName name)))
  | .stopMedia name => some (if isInternal name then s else s.postMediaCmd (.stopMedia (mediaName name)))
  | .setCallState state => some (s.post (.callState state))
  | .enableSpeaker enable => some (s.post (.enableSpeaker enable))
  | .overrideSpeaker speaker => some (s.preferLoudspeaker speaker)
  | .headsetConnected connected => some (s.post (.headsetConnected connected))
  | .btDeviceConnected connected => some (s.post (.btDeviceConnected connected))
  | .deviceChanged => some (s.post .deviceChanged)
  | .updateRoute p => some (s.updateRoute p .deviceChanged)
  | .registerMedia sound => some (s.post (.registerMedia { sound with name := mediaName sound.name }))
  | .unregisterMedia name => some (s.post (.deregisterMedia (mediaName name)))
  | .setSoundMode mode => some (s.post (.setIntensity mode.intensity))
  | .setUserStartsAudio enable => some (s.post (.setUserStartAudio enable))
  | .enterCall => some (s.postMediaCmd .enterCall)
  | .exitCall => some (s.postMediaCmd .exitCall)
  | .audioRelease => some (s.postMediaCmd .audioRelease)
  | .audioReset => some (Mm.postMediaCmd .audioReset { s with shouldReset := false })
  | .audioStart => some { s with audioStarted := true }
  | .sysIncoming => some (s.postMediaCmd .sysIncoming)
  | .sysEnteredCall => some (s.postMediaCmd .sysEnteredCall)
  | .sysLeftCall => some (s.postMediaCmd .sysLeftCall)
  | .holdAndResume =>
    some (if s.callState = .incall ∨ s.callState = .invideocall then (s.post (.callState .hold)).post (.callState .resume)
      else s)
  | .invokeIncomingh call => some (s.post (.invokeIncomingh call))
  | .startRecording => some (s.post .startRecording)
  | .stopRecording => some (s.postMediaCmd .stopRecording)
  | .handle p =>
    match s.mq with
    | [] => none
    | msg :: rest => some (Mm.mqueueHandler p msg { s with mq := rest })

/-- `mediamgr_alloc` of the first user, with the thread started. -/
def start (user : User) : Mm where
  mq := []
  callState := .normal
  holdState := .normal
  sysState := .normal
  audioStarted := false
  shouldReset := false
  allocPending := false
  playReady := false
  aio := none
  mml := [user]
  asked := 0
  speakerOverride := false
  router := ⟨false, false, false, .unknown⟩
  intensityThres := 100
  userStartsAudio := false
  log := []

/-- A platform without sounds, on which audio is active and an audio object is always given. -/
def granting (aio : Nat) : Platform where
  android := false
  getRoute := .earpiece
  sound := fun _ => none
  playing := []
  audioIsActivated := true
  audioIoAlloc := .ok (some aio)
  audioIoReset := 0

namespace Mm

variable {s : Mm} {p : Platform}

@[simp] theorem emit_toCall {out : Output} : (s.emit out).toCall = s.toCall := rfl

@[simp] theorem fireCallbackInternal_toCall {state : CallState} :
    (s.fireCallbackInternal state).toCall = s.toCall := rfl

@[simp] theorem fireCallback_toCall : s.fireCallback.toCall = s.toCall := rfl

@[simp] theorem stopAllMedia_toCall : (s.stopAllMedia p).toCall = s.toCall := rfl

@[simp] theorem preferLoudspeaker_toCall {prefer : Bool} : (s.preferLoudspeaker prefer).toCall = s.toCall := rfl

@[simp] theorem playSound_toCall {name : Bytes} {sync delayed : Bool} :
    (s.playSound p name sync delayed).toCall = s.toCall := by
  unfold playSound
  cases p.sound name with
  | none => rfl
  | some snd => by_cases plays : s.canPlaySound p snd = true <;> simp [plays]

@[simp] theorem satisfyRoute_toCall {route : Auplay} : (s.satisfyRoute route).toCall = s.toCall := by
  cases route <;> rfl

@[simp] theorem enableSpeaker_toCall {enable : Bool} : (s.enableSpeaker p enable).toCall = s.toCall := by
  simp only [enableSpeaker]
  split
  · rfl
  · split <;> simp

@[simp] theorem settleRoute_toCall {wanted : Auplay} : (s.settleRoute p wanted).toCall = s.toCall := by
  unfold settleRoute
  split <;> simp

@[simp] theorem updateRoute_toCall {event : RouteUpdate} : (s.updateRoute p event).toCall = s.toCall := by
  simp only [updateRoute, settleRoute_toCall]

@[simp] theorem setVideoRoute_toCall : (s.setVideoRoute p).toCall = s.toCall := by
  simp only [setVideoRoute]
  cases p.getRoute <;> simp only [preferLoudspeaker_toCall] <;> split <;> simp

@[simp] theorem ringSpeaker_toCall : (s.ringSpeaker p).toCall = s.toCall := by
  unfold ringSpeaker
  split <;> simp

@[simp] theorem enterIncoming_toCall : s.enterIncoming.toCall = s.toCall := by
  unfold enterIncoming
  split <;> simp

@[simp] theorem fireWithAudio_toCall : s.fireWithAudio.toCall = s.toCall := by
  unfold fireWithAudio
  split <;> simp

end Mm

end Avs.MediaManager
