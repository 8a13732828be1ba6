import Avs.Base
import Mathlib.Data.List.Sort

/-!
The user list of `src/userlist/userlist.c`: the participants of a conference as the SFT lists them, by hashed
ids, joined with the clients the application approves, by real ids, and the election of the key generator
among them.

A user lives at an address, so that `keygenerator`, a pointer, stays the same user while the list is sorted
and ids are set. Users are never freed. The handlers run in the order of the returned `calls`. Only the key
generator handler of the callers changes the list, and that call is the last one before the final sort, so
`updateBeforeSort` is the list as that handler sees it. Allocation succeeds, and the hash of `hash_user` is a
parameter.
-/
namespace Avs

/-- `struct userinfo`, without the video and audio activity it keeps for display. -/
structure UserInfo where
  addr : Nat
  useridReal : Option Bytes
  useridHash : Option Bytes
  clientidReal : Option Bytes
  clientidHash : Option Bytes
  ssrca : UInt32
  ssrcv : UInt32
  inSubconv : Bool
  wasInSubconv : Bool
  firstEpoch : UInt32
  latestEpoch : UInt32
  needsKey : Bool
  incallNow : Bool
  incallPrev : Bool
  wasSeApproved : Bool
  seApproved : Bool
  forceDecoder : Bool
  listpos : UInt32
  muted : Bool
  deriving DecidableEq, Repr

/-- A pointer to a `userinfo` of the list. -/
inductive UserRef
  | self
  | user (addr : Nat)
  deriving DecidableEq, Repr

structure Userlist where
  users : List UserInfo
  self : UserInfo
  keygenerator : Option UserRef
  nextAddr : Nat
  deriving DecidableEq, Repr

inductive MutedState
  | unknown | muted | unmuted
  deriving DecidableEq, Repr

/-- `struct econn_group_part`, as the user list reads it. -/
structure Part where
  userid : Bytes
  clientid : Bytes
  mutedState : MutedState
  ssrca : UInt32
  ssrcv : UInt32
  deriving DecidableEq, Repr

/-- `struct icall_client`, as the user list reads it. -/
structure Client where
  userid : Bytes
  clientid : Bytes
  inSubconv : Bool
  deriving DecidableEq, Repr

structure Target where
  userid : Option Bytes
  clientid : Option Bytes
  deriving DecidableEq, Repr

/-- A call of one of the list's handlers. -/
inductive UserCall
  | add (user : UserInfo)
  | remove (user : UserInfo) (callVstateh : Bool)
  | sync
  | kgChange (keygenerator : UserInfo) (isMe isFirst : Bool)
  deriving DecidableEq, Repr

/-- `hash_user` of non-null ids: the hash of secret, user id and client id. -/
abbrev UserHash := (secret userid clientid : Bytes) → Bytes

namespace Userlist

def listPosNone : UInt32 := 0xFFFFFFFF

/-- `mem_zalloc` of a `userinfo`: its position is 0, not `LIST_POS_NONE`. -/
def zalloc (addr : Nat) : UserInfo where
  addr := addr
  useridReal := none
  useridHash := none
  clientidReal := none
  clientidHash := none
  ssrca := 0
  ssrcv := 0
  inSubconv := false
  wasInSubconv := false
  firstEpoch := 0
  latestEpoch := 0
  needsKey := false
  incallNow := false
  incallPrev := false
  wasSeApproved := false
  seApproved := false
  forceDecoder := false
  listpos := 0
  muted := false

def alloc (useridSelf clientidSelf : Bytes) : Userlist where
  users := []
  self := { zalloc 0 with useridReal := some useridSelf, clientidReal := some clientidSelf }
  keygenerator := none
  nextAddr := 1

def findByReal (list : Userlist) (userid clientid : Option Bytes) : Option UserInfo :=
  if userid.isNone || clientid.isNone then none
  else list.users.find? (fun u => u.useridReal.isSome && u.clientidReal.isSome &&
    strcaseeq u.useridReal userid && strcaseeq u.clientidReal clientid)

def findByHash (list : Userlist) (userid clientid : Option Bytes) : Option UserInfo :=
  if userid.isNone || clientid.isNone then none
  else list.users.find? (fun u => u.useridHash.isSome && u.clientidHash.isSome &&
    strcaseeq u.useridHash userid && strcaseeq u.clientidHash clientid)

def isKeygeneratorMe (list : Userlist) : Bool := list.keygenerator = some .self

/-- What a pointer to a user points at. -/
def deref (list : Userlist) : UserRef → Option UserInfo
  | .self => some list.self
  | .user a => list.users.find? (fun u => u.addr = a)

def getKeygenerator (list : Userlist) : Option UserInfo := list.keygenerator.bind list.deref

def resetKeygenerator (list : Userlist) : Userlist := { list with keygenerator := none }

/-- `hash_userinfo`. A user without real ids loses its user id hash, since `hash_user` refuses null ids. -/
def hashUserinfo (hash : UserHash) (secret : Bytes) (info : UserInfo) : UserInfo :=
  { info with
    useridHash := match info.useridReal, info.clientidReal with
      | some userid, some clientid => some (hash secret userid clientid)
      | _, _ => none
    clientidHash := some (ascii "_") }

def setSecret (hash : UserHash) (list : Userlist) (secret : Bytes) : Userlist :=
  { list with
    self := hashUserinfo hash secret list.self
    users := list.users.map (hashUserinfo hash secret) }

/-- `track_keygenerator_change`: the handler call, if any. -/
def trackKeygeneratorChange (list : Userlist) (prev : Option UserRef) : List UserCall :=
  if list.keygenerator = none ∨ list.keygenerator = prev then []
  else match getKeygenerator list with
    | none => []
    | some kg => [.kgChange kg (isKeygeneratorMe list) (prev = none)]

def modify (list : Userlist) (a : Nat) (f : UserInfo → UserInfo) : Userlist :=
  { list with users := list.users.map (fun u => if u.addr = a then f u else u) }

def append (list : Userlist) (u : UserInfo) : Userlist :=
  { list with users := list.users ++ [u], nextAddr := list.nextAddr + 1 }

def isSelf (list : Userlist) (p : Part) : Bool :=
  strcaseeq list.self.useridHash (some p.userid) && strcaseeq list.self.clientidHash (some p.clientid)

def findPart (list : Userlist) (p : Part) : Option UserInfo := findByHash list (some p.userid) (some p.clientid)

def eligible (list : Userlist) (p : Part) : Bool := isSelf list p || (findPart list p).any (·.seApproved)

/-- `find_first_approved`, as a position of the list. -/
def findFirstApproved (list : Userlist) (partlist : List Part) : Option Nat := partlist.findIdx? (eligible list)

/-- The locals and outputs of `userlist_update_from_sftlist`; `place` is where `le` is in the list. Every participant
    takes a position, so the local `listpos` is `place`, cut to 32 bits. -/
structure SftUpdate where
  list : Userlist
  place : Nat
  changed : Bool
  selfChanged : Bool
  missing : Bool
  sync : Bool
  calls : List UserCall

def clearCall (u : UserInfo) : UserInfo :=
  { u with incallPrev := u.incallNow, incallNow := false, listpos := listPosNone }

/-- The part of the loop over the participants that is about this client. -/
def takeSelf (first : Option Nat) (s : SftUpdate) (p : Part) : SftUpdate :=
  { s with
    list := { s.list with
      keygenerator := if first = some s.place then some .self else s.list.keygenerator
      self := { s.list.self with ssrca := p.ssrca, ssrcv := p.ssrcv, listpos := s.place.toUInt32 } }
    selfChanged := s.list.self.ssrca ≠ p.ssrca || s.list.self.ssrcv ≠ p.ssrcv
    place := s.place + 1 }

/-- The mute flag a participant reports for a user. -/
def mutedBy (p : Part) (u : UserInfo) : Bool :=
  match p.mutedState with
  | .unknown => u.muted
  | .muted => true
  | .unmuted => false

/-- The streams of a user that was in the call changed. -/
def moved (p : Part) (u : UserInfo) : Bool := u.incallPrev && (u.ssrca ≠ p.ssrca || u.ssrcv ≠ p.ssrcv)

/-- A known user as a participant at a position lists it. A user whose streams changed counts as joining again. -/
def listedAs (p : Part) (pos : UInt32) (u : UserInfo) : UserInfo :=
  { u with
    incallPrev := u.incallPrev && !moved p u
    incallNow := true
    ssrca := p.ssrca
    ssrcv := p.ssrcv
    muted := mutedBy p u
    listpos := pos }

/-- The part of the loop that is about a known user. -/
def takeFound (first : Option Nat) (s : SftUpdate) (p : Part) (u : UserInfo) : SftUpdate :=
  { s with
    list := { s.list.modify u.addr (listedAs p s.place.toUInt32) with
      keygenerator := if first = some s.place then some (.user u.addr) else s.list.keygenerator }
    calls := if moved p u then s.calls ++ [.remove u (p.ssrcv = 0)] else s.calls
    sync := s.sync || moved p u
    changed := s.changed || moved p u || mutedBy p u ≠ u.muted
    place := s.place + 1 }

/-- The part of the loop that is about a participant no user is known for. -/
def takeMissing (s : SftUpdate) (p : Part) : SftUpdate :=
  { s with
    list := s.list.append { zalloc s.list.nextAddr with
      useridHash := some p.userid
      clientidHash := some p.clientid
      ssrca := p.ssrca
      ssrcv := p.ssrcv
      incallNow := true
      listpos := s.place.toUInt32 }
    missing := true
    place := s.place + 1 }

/-- The body of the loop over the participants. -/
def takePart (first : Option Nat) (s : SftUpdate) (p : Part) : SftUpdate :=
  if isSelf s.list p then takeSelf first s p
  else match findPart s.list p with
    | some u => takeFound first s p u
    | none => takeMissing s p

/-- An approved user is in the call and was not, or has to be announced again. -/
def joins (u : UserInfo) : Bool := u.seApproved && (u.forceDecoder || (u.incallNow && !u.incallPrev))

def leaves (u : UserInfo) : Bool := u.seApproved && !joins u && !u.incallNow && u.incallPrev

def hasStream (u : UserInfo) : Bool := u.ssrca ≠ 0 || u.ssrcv ≠ 0

/-- The body of the loop over the users: its effect on a user. -/
def settle (u : UserInfo) : UserInfo :=
  if joins u then { u with forceDecoder := false, needsKey := true }
  else if leaves u then { u with ssrca := 0, ssrcv := 0 }
  else u

/-- The body of the loop over the users: its handler calls. -/
def settleCalls (u : UserInfo) : List UserCall :=
  if joins u then (if hasStream u then [.add u] else [])
  else if leaves u then [.remove u true]
  else []

def beginSft (list : Userlist) : Userlist :=
  { list with
    self := { list.self with listpos := listPosNone }
    keygenerator := none
    users := list.users.map clearCall }

/-- The loop over the participants; `selfChanged` is what the caller's variable held. -/
def takeParts (list : Userlist) (partlist : List Part) (selfChanged : Bool) : SftUpdate :=
  partlist.foldl (takePart (findFirstApproved list partlist))
    { list := list, place := 0, changed := false, selfChanged := selfChanged, missing := false,
      sync := false, calls := [] }

/-- `userlist_update_from_sftlist` up to the final sort. -/
def updateBeforeSort (list : Userlist) (partlist : List Part) (selfChanged : Bool) : SftUpdate :=
  let s := takeParts (beginSft list) partlist selfChanged
  let users := s.list.users
  let settled := { s.list with users := users.map settle }
  let sync := s.sync || users.any (fun u => (joins u && hasStream u) || leaves u)
  { s with
    list := settled
    changed := s.changed || users.any (fun u => joins u || leaves u)
    sync := sync
    calls := s.calls ++ users.flatMap settleCalls ++ (if sync then [.sync] else []) ++
      trackKeygeneratorChange settled list.keygenerator }

/-- `list_sort` by `userlist_sort_h`. -/
def sort (list : Userlist) : Userlist :=
  { list with users := list.users.insertionSort (fun a b => a.listpos ≤ b.listpos) }

def updateFromSftlist (list : Userlist) (partlist : List Part) (selfChanged : Bool) : SftUpdate :=
  let s := updateBeforeSort list partlist selfChanged
  { s with list := s.list.sort }

/-- The locals and outputs of `userlist_update_from_selist`. -/
structure SeUpdate where
  list : Userlist
  changed : Bool
  removed : Bool
  sync : Bool
  calls : List UserCall

def clearApproval (u : UserInfo) : UserInfo :=
  { u with wasSeApproved := u.seApproved, seApproved := false, wasInSubconv := u.inSubconv, inSubconv := false }

/-- The end of the loop body: the client's user is approved. -/
def approve (epoch : UInt32) (cli : Client) (u : UserInfo) : UserInfo :=
  { u with
    seApproved := true
    inSubconv := cli.inSubconv
    firstEpoch := if cli.inSubconv && u.firstEpoch = 0 then epoch else u.firstEpoch }

def nameUser (epoch : UInt32) (cli : Client) (u : UserInfo) : UserInfo :=
  { u with useridReal := some cli.userid, clientidReal := some cli.clientid, firstEpoch := epoch }

/-- The part of the loop that approves a user known by hash only. It becomes key generator only when it stands first in
    the list of the SFT. -/
def admitUser (epoch : UInt32) (prev : Option UserRef) (s : SeUpdate) (cli : Client) (user : UserInfo) : SeUpdate :=
  let named := s.list.modify user.addr (nameUser epoch cli)
  let list := if user.listpos = 0 then { named with keygenerator := some (.user user.addr) } else named
  let kgCalls := if user.listpos = 0 then trackKeygeneratorChange list prev else []
  let addCalls := if hasStream user then [.add (nameUser epoch cli user)] else []
  { s with
    list := list.modify user.addr (fun u => approve epoch cli { u with needsKey := true, forceDecoder := false })
    changed := true
    sync := s.sync || hasStream user
    calls := s.calls ++ addCalls ++ kgCalls }

/-- The part of the loop that adds a user for a client. -/
def addClient (epoch : UInt32) (s : SeUpdate) (cli : Client) (u : UserInfo) : SeUpdate :=
  { s with list := s.list.append (approve epoch cli u), changed := true }

/-- The body of the loop over the approved clients. -/
def takeClient (hash : UserHash) (secret : Bytes) (epoch : UInt32) (prev : Option UserRef) (s : SeUpdate)
    (cli : Client) : SeUpdate :=
  if strcaseeq s.list.self.useridReal (some cli.userid) && strcaseeq s.list.self.clientidReal (some cli.clientid)
  then s
  else match findByReal s.list (some cli.userid) (some cli.clientid) with
    | some user =>
      { s with list := s.list.modify user.addr (fun u => approve epoch cli (hashUserinfo hash secret u)) }
    | none =>
      let u := hashUserinfo hash secret { zalloc s.list.nextAddr with
        useridReal := some cli.userid, clientidReal := some cli.clientid }
      match findByHash s.list u.useridHash u.clientidHash with
      | some user => if user.seApproved then addClient epoch s cli u else admitUser epoch prev s cli user
      | none => addClient epoch s cli u

def approvalChanged (u : UserInfo) : Bool :=
  (!u.inSubconv && u.wasInSubconv) || u.seApproved ≠ u.wasSeApproved

def beginSe (list : Userlist) : Userlist := { list with users := list.users.map clearApproval }

def takeClients (hash : UserHash) (list : Userlist) (clientl : List Client) (epoch : UInt32) (secret : Bytes) :
    SeUpdate :=
  clientl.foldl (takeClient hash secret epoch list.keygenerator)
    { list := list, changed := false, removed := false, sync := false, calls := [] }

def endSe (u : UserInfo) : UserInfo := if u.inSubconv then u else { u with firstEpoch := 0 }

def updateFromSelist (hash : UserHash) (list : Userlist) (clientl : List Client) (epoch : UInt32) (secret : Bytes) :
    SeUpdate :=
  let s := takeClients hash (beginSe list) clientl epoch secret
  let users := s.list.users
  { list := { s.list with users := users.map endSe }
    changed := s.changed || users.any approvalChanged
    removed := users.any approvalChanged
    sync := s.sync
    calls := s.calls ++ (if s.sync then [.sync] else []) }

def setLatestEpoch (list : Userlist) (epoch : UInt32) : Userlist :=
  { list with self := { list.self with latestEpoch := epoch } }

/-- `userlist_get_key_index`: the lowest epoch that this client and every user in the call have reached; 0 stands for an
    epoch not known. -/
def getKeyIndex (list : Userlist) : UInt32 :=
  list.users.foldl (fun minKey u =>
    if u.seApproved && u.inSubconv && u.incallNow && u.latestEpoch > 0 &&
      (minKey = 0 || u.latestEpoch < minKey) then u.latestEpoch else minKey) list.self.latestEpoch

def incallClear (list : Userlist) (forceDecoder again : Bool) : Userlist :=
  { list with users := list.users.map (fun u =>
      let incallNow := u.incallNow && forceDecoder
      { u with
        incallNow := incallNow
        forceDecoder := incallNow
        incallPrev := false
        ssrca := if again then u.ssrca else 0
        ssrcv := if again then u.ssrcv else 0 }) }

def incallCount (list : Userlist) : Nat := list.users.countP (·.incallNow)

/-- A user the keys are sent to. -/
def keyTarget (sendToAll : Bool) (u : UserInfo) : Bool :=
  u.incallNow && u.seApproved && (u.needsKey || sendToAll)

/-- `userlist_get_key_targets`: the flags are cleared before anything is sent. -/
def getKeyTargets (list : Userlist) (sendToAll : Bool) : Userlist × List Target :=
  ({ list with users := list.users.map (fun u => if keyTarget sendToAll u then { u with needsKey := false } else u) },
    (list.users.filter (keyTarget sendToAll)).map (fun u => ⟨u.useridReal, u.clientidReal⟩))

/-- `userlist_get_my_clients`: the other clients of this user. -/
def getMyClients (list : Userlist) : List Target :=
  (list.users.filter (fun u => strcaseeq u.useridReal list.self.useridReal &&
    !strcaseeq u.clientidReal list.self.clientidReal)).map (fun u => ⟨u.useridReal, u.clientidReal⟩)

end Userlist

end Avs
