import Avs.Keystore
import Avs.Userlist
import Avs.BigEndian

/-!
The conference call of `src/ccall/ccall.c`: its state machine, the user list and the keystore it drives, the
messages it sends and the timers it sets.

The inner call (`ecall`) and the configuration report through events, in any order; a timer that is set may
fire at any moment, or never; what the send handlers and the inner call answer comes from `Env`, by the
position in the log of what went out. A function returns nothing where the code follows a null or dangling
pointer or fails an assertion. Allocation succeeds, and urls are not empty. Video streams, metrics, the
display and the messages on the data channel are left out.
-/
namespace Avs

/-- `enum ccall_state`, without the `NONE` that is never set. -/
inductive CcallState
  | idle | incoming | connsent | setuprecv | connecting | connected | active | terminating
  | waitconfig | waitconfigOutgoing | waitnetwork
  deriving DecidableEq, Repr

inductive CcallTimer
  | connect | sendCheck | ongoing | rotateKey | rotateMls | ring | sftReject | decryptCheck | keepalive
  | alone | duration | term
  deriving DecidableEq, Repr

inductive StopRinging
  | none | answered | rejected
  deriving DecidableEq, Repr

inductive ConfconnStatus
  | ok | rejectedBlacklist | rejectedAuthInvalid | rejectedAuthExpired | rejectedAuthLimit | rejectedAuthCantstart
  deriving DecidableEq, Repr

/-- The `ICALL_REASON_` codes the leave handler is given. -/
inductive Reason
  | normal | error | timeout | stillOngoing | authFailed | authFailedStart | outdatedClient | nooneJoined
  | everyoneLeft | duration
  deriving DecidableEq, Repr

/-- What CONFSTART and CONFCHECK carry. -/
structure ConfInfo where
  timestamp : UInt64
  seqno : UInt32
  secret : Bytes
  sftUrl : Bytes
  sftTuple : Option Bytes
  sftl : List Bytes
  deriving DecidableEq, Repr

/-- The conference messages between clients. -/
inductive Message
  | confStart (resp : Bool) (info : ConfInfo)
  | confCheck (resp : Bool) (info : ConfInfo)
  | confKey (resp : Bool) (keyl : List (UInt32 × Bytes))
  | confEnd (resp : Bool) (sessid : Bytes)
  | reject (resp : Bool)
  deriving DecidableEq, Repr

inductive MsgType
  | confStart | confCheck | confKey | confEnd | reject
  deriving DecidableEq, Repr

inductive SftMessage
  | confConn (update : Bool) (sftUrl sftTuple : Option Bytes) (login : Option (Bytes × Bytes))
  | setup
  | update
  deriving DecidableEq, Repr

/-- What goes out: the messages with the answer of their handler, and the calls of the application, the configuration
    and the inner call. -/
inductive Output
  | send (msg : Message) (targets : Option (List Target)) (myClientsOnly : Bool) (err : Option Errno)
  | sft (url : Bytes) (msg : SftMessage) (err : Option Errno)
  | configRequest (err : Option Errno)
  | starth (userid clientid : Bytes) (shouldRing : Bool)
  | closeh (err : Option Errno)
  | leaveh (reason : Reason)
  | groupChangedh
  | reqClientsh
  | reqNewEpochh
  | ecallEnd (ecall : Nat)
  | ecallMsgRecv (ecall : Nat)
  deriving DecidableEq, Repr

structure SftServer where
  url : Bytes
  username : Bytes
  credential : Bytes
  deriving DecidableEq, Repr

structure CallConfig where
  sftservers : List SftServer
  sftserversAll : List SftServer
  federating : Bool
  deriving DecidableEq, Repr

/-- `struct join_elem`, as far as joining depends on it. -/
structure JoinElem where
  retryAttempt : Bool
  deriving DecidableEq, Repr

structure Confpart where
  timestamp : UInt64
  seqno : UInt32
  shouldStart : Bool
  entropy : Bytes
  partl : List Part
  sftl : List Bytes
  deriving DecidableEq, Repr

/-- What the code calls and does not look into. -/
structure Env where
  hkdf : Hkdf
  hashUser : UserHash
  hashConv : (secret convid : Bytes) → Bytes
  /-- `randombytes_buf`, by the number of earlier draws. -/
  random : Nat → Key
  /-- What a handler answers, by the number of outputs before. -/
  answers : Nat → Option Errno
  /-- `ecall_get_econn` is not null, by the number of outputs before. -/
  hasEconn : Nat → Bool

structure Ccall where
  convidReal : Bytes
  convidHash : Bytes
  userl : Userlist
  /-- Null until the first CONFPART. -/
  confpartData : Option Bytes
  state : CcallState
  isMlsCall : Bool
  primarySftUrl : Option Bytes
  sftUrl : Option Bytes
  sftTuple : Option Bytes
  sftl : List Bytes
  secret : Bytes
  sftTimestamp : UInt64
  sftSeqno : UInt32
  ecall : Option Nat
  nextEcall : Nat
  isCaller : Bool
  isRinging : Bool
  stopRingingReason : StopRinging
  keystore : Keystore
  someoneJoined : Bool
  someoneLeft : Bool
  becameKg : Bool
  requestKey : Bool
  reconnectAttempts : UInt32
  expectedPing : UInt32
  receivedConfpart : Bool
  error : Option Errno
  confconnStatus : ConfconnStatus
  epochStartTs : UInt64
  meeting : Bool
  meetingDuration : Int32
  cfg : CallConfig
  je : Option JoinElem
  timers : List CcallTimer
  now : UInt64
  draws : Nat
  out : List Output

namespace Ccall

def maxReconnectAttempts : UInt32 := 2
def maxMissingPings : UInt32 := 4
def mlsKeyAge : UInt64 := 60000
def reqNewEpochTimeout : UInt64 := 82800000
def confstartTimeoutS : UInt32 := 120
def shouldRingTimeout : UInt32 := 30000

def tmrStart (cc : Ccall) (t : CcallTimer) : Ccall := { cc with timers := t :: cc.timers.filter (· ≠ t) }

/-- `tmr_cancel` of some timers. -/
def tmrCancel (cc : Ccall) (ts : List CcallTimer) : Ccall := { cc with timers := cc.timers.filter (· ∉ ts) }

def tell (cc : Ccall) (o : Output) : Ccall := { cc with out := cc.out ++ [o] }

def isKg (cc : Ccall) : Bool := cc.userl.isKeygeneratorMe

/-- `copy_sft`: the url with a slash at its end. -/
def copySft (url : Bytes) : Bytes := if url.getLast? = some 47 then url else url ++ [47]

/-- `sfts_equal`: equal but for one slash at the end. -/
def sftsEqual (a b : Bytes) : Bool := copySft a = copySft b

def setSecret (env : Env) (cc : Ccall) (secret : Bytes) : Ccall :=
  let convidHash := env.hashConv secret cc.convidReal
  { cc with
    secret := secret
    convidHash := convidHash
    userl := cc.userl.setSecret env.hashUser secret
    keystore := (cc.keystore.setSalt (some convidHash) cc.now).ks }

/-- `ccall_alloc`, with the random secret it draws. -/
def alloc (env : Env) (convid useridSelf clientid secret : Bytes) (isMlsCall meeting : Bool) (now : UInt64) : Ccall :=
  setSecret env
    { convidReal := convid, convidHash := [], userl := Userlist.alloc useridSelf clientid, confpartData := none,
      state := .idle, isMlsCall := isMlsCall, primarySftUrl := none, sftUrl := none, sftTuple := none, sftl := [],
      secret := [], sftTimestamp := 0, sftSeqno := 0, ecall := none, nextEcall := 0, isCaller := false,
      isRinging := false, stopRingingReason := .none, keystore := Keystore.alloc (!isMlsCall) now,
      someoneJoined := false, someoneLeft := false, becameKg := false, requestKey := false, reconnectAttempts := 0,
      expectedPing := 0, receivedConfpart := false, error := none, confconnStatus := .ok, epochStartTs := 0,
      meeting := meeting, meetingDuration := 0, cfg := ⟨[], [], false⟩, je := none, timers := [], now := now,
      draws := 0, out := [] } secret

/-- The `switch` of `set_state`. -/
def enter (cc : Ccall) : CcallState → Ccall
  | .idle =>
    { cc with
      sftUrl := none
      sftTimestamp := 0
      userl := cc.userl.resetKeygenerator
      receivedConfpart := false
      keystore := cc.keystore.reset }.tmrCancel
        [.rotateKey, .rotateMls, .sendCheck, .connect, .decryptCheck, .keepalive, .alone, .duration]
  | .incoming =>
    ({ cc with
      sftUrl := none
      userl := cc.userl.resetKeygenerator
      receivedConfpart := false
      keystore := cc.keystore.resetKeys }.tmrCancel
        [.rotateKey, .rotateMls, .sendCheck, .decryptCheck, .keepalive, .alone]).tmrStart .ongoing
  | .waitconfig | .waitconfigOutgoing =>
    ({ cc with
      sftUrl := none
      userl := cc.userl.resetKeygenerator
      receivedConfpart := false
      keystore := cc.keystore.resetKeys }.tmrCancel
        [.rotateKey, .rotateMls, .sendCheck, .decryptCheck, .keepalive, .alone, .ring]).tmrStart .connect
  | .connsent =>
    -- A reconnect keeps the keys, and the key generator stays.
    let fresh := !cc.isMlsCall && cc.reconnectAttempts = 0
    let cc := { cc with
      receivedConfpart := false
      keystore := if fresh then cc.keystore.resetKeys else cc.keystore }
    let cc := if fresh then cc.tmrCancel [.rotateMls] else cc
    (cc.tmrCancel [.rotateKey, .sendCheck, .decryptCheck, .keepalive, .alone]).tmrStart .connect
  | .connected => cc.tmrCancel [.connect]
  | .active =>
    let cc := ((({ cc with expectedPing := 0 }).tmrCancel [.connect]).tmrStart .decryptCheck).tmrStart .keepalive
    if cc.reconnectAttempts > 0 && cc.isKg then cc.tmrStart .sendCheck else cc
  | .terminating => cc.tmrCancel [.sendCheck, .connect, .keepalive, .alone, .duration]
  | .setuprecv | .connecting | .waitnetwork => cc

def setState (cc : Ccall) (state : CcallState) : Ccall :=
  let entered := enter { cc with state := state } state
  if state ≠ cc.state ∧ (state = .active ∨ cc.state = .active) then entered.tell .groupChangedh else entered

/-- The description of the conference that CONFSTART and CONFCHECK carry; there is none without a primary SFT. -/
def confInfo (cc : Ccall) : Except Errno ConfInfo :=
  match cc.primarySftUrl with
  | none => .error .EINVAL
  | some url => .ok {
      timestamp := cc.sftTimestamp
      seqno := cc.sftSeqno
      secret := cc.secret
      sftUrl := url
      sftTuple := cc.sftTuple
      sftl := if cc.sftl.isEmpty then [url] else cc.sftl }

/-- The keys a CONFKEY response carries: the current one and the next one, if any. -/
def confKeys (ks : Keystore) : Option (Except Errno (List (UInt32 × Bytes))) :=
  match ks.getCurrentSessionKey, ks.getNextSessionKey with
  | some (.ok key0), some (.ok key1) => some (.ok [(key0.1, key0.2.toList), (key1.1, key1.2.toList)])
  | some (.ok key0), some (.error _) => some (.ok [(key0.1, key0.2.toList)])
  | some (.error err), _ => some (.error err)
  | _, _ => none

def allocMessage (cc : Ccall) (type : MsgType) (resp : Bool) : Option (Except Errno Message) :=
  match type with
  | .confStart => some ((confInfo cc).map (.confStart resp))
  | .confCheck => some ((confInfo cc).map (.confCheck resp))
  | .confKey =>
    if cc.isMlsCall then some (.error .EINVAL)
    else if resp then (confKeys cc.keystore).map (·.map (.confKey true))
    else some (.ok (.confKey false []))
  | .confEnd => some (.ok (.confEnd resp cc.convidHash))
  | .reject => some (.ok (.reject resp))

/-- `ccall_send_msg_i`; no caller looks at what it returns. -/
def sendMsgI (env : Env) (cc : Ccall) (type : MsgType) (resp : Bool) (targets : Option (List Target))
    (myClientsOnly : Bool) : Option Ccall :=
  (allocMessage cc type resp).map (fun made => match made with
    | .error _ => cc
    | .ok msg => cc.tell (.send msg targets myClientsOnly (env.answers cc.out.length)))

def sendMsg (env : Env) (cc : Ccall) (type : MsgType) (resp : Bool) (targets : Option (List Target)) :
    Option Ccall :=
  sendMsgI env cc type resp targets false

def sendMsgSft (env : Env) (cc : Ccall) (sftUrl : Option Bytes) (msg : SftMessage) : Ccall × Option Errno :=
  match sftUrl with
  | none => (cc, some .EINVAL)
  | some url =>
    let err := env.answers cc.out.length
    let cc := cc.tell (.sft (copySft url ++ ascii "sft/" ++ cc.convidHash) msg err)
    if err.isNone ∧ (msg = .setup ∨ msg = .update) ∧ cc.state ≠ .active then (setState cc .connecting, err)
    else (cc, err)

/-- `ccall_send_conf_conn`; the server is the entry of the configuration for the url, if there is one. -/
def sendConfConn (env : Env) (cc : Ccall) (sftUrl : Bytes) (sfti : Option SftServer) (update : Bool) :
    Ccall × Option Errno :=
  let url := copySft sftUrl
  let primary := if cc.primarySftUrl = some url then none else cc.primarySftUrl
  let login := sfti.bind (fun s =>
    if s.username.isEmpty ∨ s.credential.isEmpty then none else some (s.username, s.credential))
  sendMsgSft env cc (some url) (.confConn update primary (if primary.isSome then cc.sftTuple else none) login)

/-- `ccall_send_keys`; the flags of the targets are cleared before the message is made. -/
def sendKeys (env : Env) (cc : Ccall) (sendToAll : Bool) : Option Ccall :=
  if !cc.isMlsCall && cc.isKg && cc.state = .active then
    let (userl, targets) := cc.userl.getKeyTargets sendToAll
    let cc := { cc with userl := userl }
    if targets.isEmpty then some cc else sendMsg env cc .confKey true (some targets)
  else some cc

def freshIndex (cc : Ccall) (isFirst : Bool) : UInt32 :=
  if isFirst then 0
  else (cc.keystore.getMaxKey ||| 0xFFFF) + 1 + (if cc.becameKg then 0x10000 else 0)

def generateSessionKey (env : Env) (cc : Ccall) (isFirst : Bool) : Option Ccall :=
  match cc.keystore.setFreshSessionKey env.hkdf cc.now (freshIndex cc isFirst) (env.random cc.draws).toList
      cc.confpartData with
  | none => none
  | some done =>
    let cc := { cc with becameKg := false, draws := cc.draws + 1, keystore := done.ks }
    if done.err.isSome then some cc else sendKeys env cc true

def rotateKeyTimeout (env : Env) (cc : Ccall) : Option Ccall :=
  if cc.state = .active && cc.isKg && !cc.isMlsCall then
    match cc.keystore.rotate env.hkdf (fun _ => cc.now) with
    | none => none
    | some done =>
      let cc := { cc with keystore := done.ks }
      if cc.someoneLeft then
        (generateSessionKey env cc false).map (fun cc => { cc with someoneLeft := false }.tmrStart .rotateKey)
      else some (cc.tmrStart .rotateKey)
  else some cc

/-- `ccall_rotate_mls_timeout`, with its assertion on the clock. -/
def rotateMlsTimeout (cc : Ccall) : Option Ccall :=
  if cc.state = .active && cc.isMlsCall then
    if cc.now > mlsKeyAge then
      (cc.keystore.rotateByTime (cc.now - mlsKeyAge)).map (fun (done, more) =>
        let cc := { cc with keystore := done.ks }
        if more then cc.tmrStart .rotateMls else cc)
    else none
  else some cc

/-- `ccall_request_keys` of a key generator, which may be this client. -/
def requestKeysFrom (env : Env) (cc : Ccall) (kg : Option UserInfo) (isMe : Bool) : Option Ccall :=
  match kg with
  | none => some cc
  | some kg =>
    if cc.isMlsCall || isMe || kg.useridReal.isNone || kg.clientidReal.isNone then some cc
    else sendMsg env cc .confKey false (some [⟨kg.useridReal, kg.clientidReal⟩])

def requestKeys (env : Env) (cc : Ccall) : Option Ccall :=
  requestKeysFrom env cc cc.userl.getKeygenerator cc.isKg

def syncMediaKeys (cc : Ccall) : Option Ccall :=
  let minKey := cc.userl.getKeyIndex
  if minKey = 0 then some cc
  else match cc.keystore.getCurrent with
    | none => none
    | some (.error _) => some cc
    | some (.ok (curr, _)) =>
      rotateMlsTimeout (if minKey > curr then { cc with keystore := (cc.keystore.setCurrent minKey).ks } else cc)

def setMediaKey (env : Env) (cc : Ccall) (epochid : UInt32) (key : Bytes) : Option Ccall :=
  if !cc.isMlsCall then some cc
  else match cc.keystore.setSessionKey env.hkdf cc.now epochid key with
    | none => none
    | some done =>
      let cc := { cc with keystore := done.ks }
      if done.err.isSome then some cc
      else (syncMediaKeys { cc with epochStartTs := cc.now, userl := cc.userl.setLatestEpoch epochid }).bind
        rotateMlsTimeout

def sendCheckTimeout (env : Env) (cc : Ccall) : Option Ccall :=
  let checked := if cc.state = .active && cc.isKg then
      (sendMsg env cc .confCheck true none).map (fun cc =>
        if cc.isMlsCall && cc.epochStartTs > 0 && cc.now - cc.epochStartTs ≥ reqNewEpochTimeout
        then cc.tell .reqNewEpochh else cc)
    else some cc
  checked.map (·.tmrStart .sendCheck)

def kgChangeHandler (env : Env) (cc : Ccall) (keygenerator : UserInfo) (isMe : Bool) : Option Ccall :=
  if isMe then
    let keyed := if cc.isMlsCall then some cc
      else match cc.keystore.getCurrent with
        | none => none
        | some (.error _) => (generateSessionKey env cc true).map (·.tmrStart .rotateKey)
        | some (.ok _) => some ({ cc with becameKg := true }.tmrStart .rotateKey)
    keyed.map (·.tmrStart .sendCheck)
  else
    let asked := if cc.requestKey then
        (requestKeysFrom env cc (some keygenerator) false).map (fun cc => { cc with requestKey := false })
      else some cc
    asked.map (·.tmrCancel [.sendCheck, .rotateKey])

/-- A handler call of the user list; the decoders belong to the inner call. -/
def userCall (env : Env) (cc : Ccall) : UserCall → Option Ccall
  | .add _ | .sync => some cc
  | .remove _ _ => some { cc with someoneLeft := true }
  | .kgChange kg isMe _ => kgChangeHandler env cc kg isMe

def userCalls (env : Env) : List UserCall → Ccall → Option Ccall
  | [], cc => some cc
  | call :: rest, cc => (userCall env cc call).bind (userCalls env rest)

def ecallEnd (cc : Ccall) : Ccall :=
  match cc.ecall with
  | none => cc
  | some ecall => cc.tell (.ecallEnd ecall)

/-- The reason `ccall_end_with_err` gives for an error. -/
def endReason : Errno → Reason
  | .ETIMEDOUT => .timeout
  | .ENOONEJOINED => .nooneJoined
  | .EEVERYONELEFT => .everyoneLeft
  | .EDURATION => .duration
  | .EACCES => .authFailed
  | _ => .error

def endWithErr (env : Env) (cc : Ccall) (err : Errno) : Ccall :=
  let cc := { cc with error := some err }
  let cc := match cc.state with
    | .idle => setState cc .idle
    | .connsent | .incoming | .waitconfig | .waitconfigOutgoing | .waitnetwork =>
      (setState cc .idle).tell (.leaveh (endReason err))
    | .terminating => cc
    | .setuprecv | .connecting | .connected | .active =>
      let cc := setState cc .terminating
      if err = Errno.EDURATION then cc.tell (.leaveh .duration) else cc
  let cc := { cc with userl := cc.userl.incallClear false false }
  if cc.ecall.isSome ∧ env.hasEconn cc.out.length then ecallEnd cc else setState cc .idle

def getSftInfo (cc : Ccall) (sftUrl : Bytes) : Option SftServer :=
  cc.cfg.sftserversAll.find? (fun s => sftsEqual sftUrl s.url)

/-- `ccall_can_connect_sft`; a configuration without servers allows them all. -/
def canConnectSft (cc : Ccall) (sftUrl : Bytes) : Bool :=
  cc.cfg.sftserversAll.isEmpty || (getSftInfo cc sftUrl).isSome

/-- `ccall_reconnect`; `again` is a reconnect that the SFT asked for. -/
def reconnect (env : Env) (cc : Ccall) (again : Bool) : Ccall :=
  if cc.state = .connsent then cc
  else if cc.reconnectAttempts ≥ maxReconnectAttempts then
    (endWithErr env cc .ETIMEDOUT).tell (.leaveh .stillOngoing)
  else
    let cc := setState { cc with
      reconnectAttempts := cc.reconnectAttempts + 1
      expectedPing := 0
      userl := cc.userl.incallClear true again } .connsent
    match cc.sftUrl with
    | none => cc
    | some url => (sendConfConn env cc url (getSftInfo cc url) true).1

def stopOthersRingingI (env : Env) (cc : Ccall) : Option Ccall :=
  let stop := fun type =>
    let cc := { cc with stopRingingReason := .none }
    let targets := cc.userl.getMyClients
    if cc.isMlsCall || !targets.isEmpty then sendMsgI env cc type true (some targets) true else some cc
  match cc.stopRingingReason with
  | .answered => stop .confStart
  | .rejected => stop .reject
  | .none => some cc

def stopOthersRinging (env : Env) (cc : Ccall) : Option Ccall :=
  if cc.isMlsCall then stopOthersRingingI env cc else some (cc.tell .reqClientsh)

def reqCfgJoin (env : Env) (cc : Ccall) (retryAttempt isOutgoing : Bool) : Ccall × Option Errno :=
  let cc := setState cc (if isOutgoing then .waitconfigOutgoing else .waitconfig)
  let err := env.answers cc.out.length
  ({ cc with je := some ⟨retryAttempt⟩ }.tell (.configRequest err), err)

/-- What the parts of `config_update_handler` leave at its label `out`: the state, `err`, and whether the join element
    is to be released. -/
structure Joined where
  cc : Ccall
  err : Option Errno
  derefJe : Bool

/-- The loop over the SFTs of the conference: at most three connect. The second component is `connected`. -/
def joinListed (env : Env) : List Bytes → Ccall → Nat → Option Errno → Ccall × Nat × Option Errno
  | [], cc, connected, err => (cc, connected, err)
  | url :: rest, cc, connected, err =>
    let (cc, connected, err) :=
      if canConnectSft cc url then
        let (cc, err) := sendConfConn env cc url (getSftInfo cc url) false
        (cc, if err.isNone then connected + 1 else connected, err)
      else (cc, connected, err)
    if connected ≥ 3 then (cc, connected, err) else joinListed env rest cc connected err

/-- The server a url of the configuration is connected with: its own entry, the first entry with the url put in, or the
    url's server. -/
def sftFor (cc : Ccall) (server : SftServer) : SftServer :=
  match getSftInfo cc server.url with
  | some si => si
  | none => match cc.cfg.sftserversAll.head? with
    | some si => { si with url := server.url }
    | none => server

def joinConfigured (env : Env) : List SftServer → Ccall → Option Errno → Ccall × Option Errno
  | [], cc, err => (cc, err)
  | server :: rest, cc, _ =>
    let sfti := sftFor cc server
    let (cc, err) := sendConfConn env cc sfti.url (some sfti) false
    joinConfigured env rest cc err

/-- No SFT of the conference may be joined and the configuration is not federating: the configuration is asked for once
    more. -/
def joinRetry (env : Env) (cc : Ccall) (je : JoinElem) : Joined :=
  if je.retryAttempt then ⟨endWithErr env cc .EACCES, some .EACCES, true⟩
  else
    let (cc, err) := reqCfgJoin env cc true (cc.state = .waitconfigOutgoing)
    if err.isSome then ⟨cc, err, true⟩ else ⟨cc, some .EAGAIN, false⟩

/-- `config_update_handler` after the SFTs of the conference were tried. -/
def joinElsewhere (env : Env) (cc : Ccall) (je : JoinElem) (waiting : CcallState) (err : Option Errno) : Joined :=
  if waiting = .waitconfig ∧ !cc.cfg.federating then joinRetry env cc je
  else
    let (cc, err) := joinConfigured env (cc.cfg.sftservers.take 3) cc err
    ⟨cc, err, true⟩

/-- `config_update_handler` before its label `out`. -/
def joinSft (env : Env) (cc : Ccall) (je : JoinElem) : Joined :=
  if cc.cfg.sftservers.isEmpty then ⟨endWithErr env cc .ENOTSUP, none, true⟩
  else if cc.state ≠ .waitconfig ∧ cc.state ≠ .waitconfigOutgoing then ⟨cc, none, true⟩
  else if cc.state = .waitconfig ∧ !cc.sftl.isEmpty then
    let (cc', connected, err) := joinListed env cc.sftl cc 0 none
    if connected > 0 then ⟨cc', err, true⟩ else joinElsewhere env cc' je cc.state err
  else match cc.primarySftUrl with
    | some url =>
      if cc.state = .waitconfig ∧ canConnectSft cc url then
        let (cc, err) := sendConfConn env cc url (getSftInfo cc url) false
        ⟨cc, err, true⟩
      else joinElsewhere env cc je cc.state none
    | none => joinElsewhere env cc je cc.state none

def configUpdateHandler (env : Env) (cc : Ccall) (je : JoinElem) : Option Ccall :=
  let joined := joinSft env cc je
  let settled := if joined.err.isNone then stopOthersRinging env (setState joined.cc .connsent) else some joined.cc
  settled.map (fun cc => if joined.derefJe then { cc with je := none } else cc)

end Ccall

end Avs
