import Avs.Wcall

/-!
How the servers of a configuration reach the call object that `wcall_add` makes. One error variable is set by
the allocation of the object, by each server that is added and by the local address of the media, each
overwriting what was there before. What can fail to be allocated is a parameter. The vectors of the
configuration are as long as their counts.
-/
namespace Avs.ServerLists
open List

open EconnFmt (IceServer)

def maxTurnServers : Nat := 16

inductive Kind
  | ecall | egcall | ccall
  deriving DecidableEq, Repr

/-- The kind of object that `wcall_add` makes for a type of conversation. -/
def kindOf : ConvType → Kind
  | .oneOnOne => .ecall
  | .group => .egcall
  | .conference | .conferenceMls => .ccall

/-- A call object with its TURN servers. -/
structure CallObject where
  kind : Kind
  turnv : List IceServer
  fits : turnv.length ≤ maxTurnServers

def CallObject.append (object : CallObject) (srv : IceServer) (room : object.turnv.length < maxTurnServers) :
    CallObject where
  kind := object.kind
  turnv := object.turnv ++ [srv]
  fits := by
    rw [length_append, length_singleton]
    exact room

/-- What an instance has and what can be allocated for a call. `objectErr` is the error where a part of the call object
    cannot. -/
structure Setting where
  msys : Bool
  mediaLaddr : Bool
  wcallAllocated : Bool
  objectErr : Option Errno
  laddrAllocated : Bool

def ecallAddTurnserver (srv : IceServer) (object : CallObject) : CallObject × Option Errno :=
  if room : object.turnv.length < maxTurnServers then
    if (ascii "turns:").isPrefixOf srv.url.val then (object, none)
    else (object.append srv room, none)
  else (object, none)

def addOrRefuse (srv : IceServer) (object : CallObject) : CallObject × Option Errno :=
  if room : object.turnv.length < maxTurnServers then (object.append srv room, none)
  else (object, some .EOVERFLOW)

def egcallAddTurnserver : IceServer → CallObject → CallObject × Option Errno := addOrRefuse

def ccallAddTurnserver : IceServer → CallObject → CallObject × Option Errno := addOrRefuse

/-- `add_turnserver` of the object. -/
def addTurnserver (srv : IceServer) (object : CallObject) : CallObject × Option Errno :=
  match object.kind with
  | .ecall => ecallAddTurnserver srv object
  | .egcall => egcallAddTurnserver srv object
  | .ccall => ccallAddTurnserver srv object

/-- `add_sft` of the object, which does nothing in a conference and is missing elsewhere. -/
def addSft (_ : IceServer) (_ : CallObject) : Option Errno := none

def setQualityInterval (_ : CallObject) : Option Errno := none

/-- `set_media_laddr` of the object; the others have none. -/
def setMediaLaddr (setting : Setting) (object : CallObject) : Option Errno :=
  match object.kind with
  | .ecall => if setting.laddrAllocated then none else some .ENOMEM
  | .egcall | .ccall => none

/-- The allocations at the front of `wcall_add`, up to `ecall_alloc`, `egcall_alloc` or `ccall_alloc`. -/
def allocate (setting : Setting) (kind : Kind) (convid : Bytes) : Except Errno CallObject :=
  if setting.wcallAllocated = false then .error .EINVAL
  else if kind = .ecall ∧ (setting.msys = false ∨ convid = []) then .error .EINVAL
  else
    match setting.objectErr with
    | some err => .error err
    | none => .ok ⟨kind, [], Nat.zero_le _⟩

def addTurnservers (turnv : List IceServer) (start : CallObject × Option Errno) : CallObject × Option Errno :=
  turnv.foldl (fun added srv => addTurnserver srv added.1) start

def addSfts (sftv : List IceServer) (object : CallObject) (err : Option Errno) : Option Errno :=
  sftv.foldl (fun _ sft => addSft sft object) err

/-- What `wcall_add` makes of its call object and leaves in its error variable. -/
def equip (setting : Setting) (config : Config.CallConfig) (object : CallObject) : CallObject × Option Errno :=
  let added := addTurnservers (config.servers .ice).entries (object, setQualityInterval object)
  let err := addSfts (config.servers .sft).entries added.1 added.2
  (added.1, if setting.mediaLaddr then setMediaLaddr setting added.1 else err)

/-- A call object with the servers of a configuration, or the error `wcall_add` returns. -/
def objectAlloc (setting : Setting) (config : Config.CallConfig) (convType : ConvType) (convid : Bytes) (_ : Bool) :
    Except Errno CallObject :=
  match allocate setting (kindOf convType) convid with
  | .error err => .error err
  | .ok object =>
    match equip setting config object with
    | (object, none) => .ok object
    | (_, some err) => .error err

def serving (setting : Setting) (icall : Icall CallObject) : Icall CallObject :=
  { icall with alloc := objectAlloc setting }

/-- The conversation has a call, an argument is invalid or something cannot be allocated. -/
inductive Excused (setting : Setting) (calls : Calls CallObject) (convid : Bytes) (convType : ConvType) : Prop
  | present (found : (calls.lookup convid).isSome)
  | invalid (kind : kindOf (Calls.legacyType calls.cfg.config convType) = .ecall)
      (argument : setting.msys = false ∨ convid = [])
  | wcall (failed : setting.wcallAllocated = false)
  | object (failed : setting.objectErr ≠ none)
  | laddr (kind : kindOf (Calls.legacyType calls.cfg.config convType) = .ecall) (given : setting.mediaLaddr = true)
      (failed : setting.laddrAllocated = false)

/-- A group call with more TURN servers than it has room for, and nothing to add behind them. -/
def Overfull (setting : Setting) (config : Config.CallConfig) (convType : ConvType) : Prop :=
  kindOf (Calls.legacyType config convType) = .egcall ∧ maxTurnServers < (config.servers .ice).count ∧
    (config.servers .sft).count = 0 ∧ setting.mediaLaddr = false

variable {config : Config.CallConfig}

section
variable {turnv : List IceServer} {object : CallObject} {setting : Setting} {srv : IceServer}

theorem addTurnserver_kind (object : CallObject) : (addTurnserver srv object).1.kind = object.kind := by
  have refusing : (addOrRefuse srv object).1.kind = object.kind := by
    unfold addOrRefuse
    split <;> rfl
  unfold addTurnserver
  split
  · unfold ecallAddTurnserver
    split
    · split <;> rfl
    · rfl
  · exact refusing
  · exact refusing

theorem addTurnservers_kind (start : CallObject × Option Errno) :
    (addTurnservers turnv start).1.kind = start.1.kind := by
  induction turnv generalizing start with
  | nil => rfl
  | cons srv rest ih => exact (ih _).trans (addTurnserver_kind start.1)

theorem addTurnservers_ecall (kind : object.kind = .ecall) : (addTurnservers turnv (object, none)).2 = none := by
  induction turnv generalizing object with
  | nil => rfl
  | cons srv rest ih =>
    have taken : addTurnserver srv object = ((addTurnserver srv object).1, none) := by
      rw [addTurnserver, kind]
      simp only [ecallAddTurnserver]
      split
      · split <;> rfl
      · rfl
    rw [addTurnservers, foldl_cons, taken]
    exact ih ((addTurnserver_kind object).trans kind)

theorem addTurnserver_group (kind : object.kind ≠ .ecall) : addTurnserver srv object = addOrRefuse srv object := by
  cases is : object.kind with
  | ecall => exact absurd is kind
  | egcall => rw [addTurnserver, is]; rfl
  | ccall => rw [addTurnserver, is]; rfl

theorem addTurnservers_full (kind : object.kind ≠ .ecall) (full : ¬ object.turnv.length < maxTurnServers) :
    addTurnservers turnv (object, some .EOVERFLOW) = (object, some .EOVERFLOW) := by
  induction turnv with
  | nil => rfl
  | cons srv rest ih =>
    rw [addTurnservers, foldl_cons, addTurnserver_group kind, addOrRefuse, dif_neg full]
    exact ih

/-- The others refuse it, and the last server decides. -/
theorem addTurnservers_group (kind : object.kind ≠ .ecall) : (addTurnservers turnv (object, none)).2 =
      if object.turnv.length + turnv.length ≤ maxTurnServers then none else some .EOVERFLOW := by
  induction turnv generalizing object with
  | nil => rw [length_nil, Nat.add_zero, if_pos object.fits]; rfl
  | cons srv rest ih =>
    rw [addTurnservers, foldl_cons, addTurnserver_group kind, addOrRefuse]
    by_cases room : object.turnv.length < maxTurnServers
    · rw [dif_pos room]
      refine (@ih (object.append srv room) kind).trans ?_
      rw [CallObject.append, length_append, length_singleton, length_cons, Nat.add_assoc,
        Nat.add_comm 1]
    · rw [dif_neg room, if_neg (by simp only [length_cons]; omega)]
      exact congrArg Prod.snd (addTurnservers_full kind room)

theorem addSfts_eq {sftv : List IceServer} (object : CallObject) (err : Option Errno) :
    addSfts sftv object err = if sftv = [] then err else none := by
  induction sftv generalizing err with
  | nil => rfl
  | cons sft rest ih =>
    rw [addSfts, foldl_cons, if_neg (by simp)]
    refine (ih _).trans ?_
    rw [addSft, ite_self]

theorem equip_err (new : object.turnv = []) : (equip setting config object).2 =
      if setting.mediaLaddr then (if object.kind = .ecall ∧ setting.laddrAllocated = false then some .ENOMEM else none)
      else if object.kind ≠ .ecall ∧ maxTurnServers < (config.servers .ice).entries.length ∧
          (config.servers .sft).entries = [] then some .EOVERFLOW
      else none := by
  have laddr : setMediaLaddr setting (addTurnservers (config.servers .ice).entries (object, none)).1 =
      if object.kind = .ecall ∧ setting.laddrAllocated = false then some .ENOMEM else none := by
    unfold setMediaLaddr
    rw [addTurnservers_kind]
    cases object.kind <;> cases setting.laddrAllocated <;> simp
  simp only [equip, setQualityInterval, laddr, addSfts_eq]
  by_cases given : setting.mediaLaddr = true
  · rw [if_pos given, if_pos given]
  · rw [if_neg given, if_neg given]
    by_cases kind : object.kind = .ecall
    · rw [addTurnservers_ecall kind, ite_self, if_neg (fun overfull => overfull.1 kind)]
    · rw [addTurnservers_group kind, new, length_nil, Nat.zero_add]
      by_cases fits : (config.servers .ice).entries.length ≤ maxTurnServers
      · rw [if_pos fits, ite_self, if_neg (by omega)]
      · rw [if_neg fits]
        simp [kind, Nat.lt_of_not_le fits]

end

section
variable {setting : Setting} {calls : Calls CallObject} {convid : Bytes} {convType : ConvType}

/-- Where there is no excuse, the error variable decides. -/
theorem wcallAdd_err (icall : Icall CallObject) (meeting : Bool) (ready : ¬ Excused setting calls convid convType) :
    (∃ err, calls.wcallAdd (serving setting icall) convid convType meeting = .error err) ↔
      (equip setting calls.cfg.config
        ⟨kindOf (Calls.legacyType calls.cfg.config convType), [], Nat.zero_le _⟩).2 ≠ none := by
  have absent : ¬ (calls.lookup convid).isSome := fun found => ready (.present found)
  have allocated : setting.wcallAllocated ≠ false := fun failed => ready (.wcall failed)
  have object : setting.objectErr = none := by
    by_contra failed
    exact ready (.object failed)
  have valid : ¬ (kindOf (Calls.legacyType calls.cfg.config convType) = .ecall ∧
      (setting.msys = false ∨ convid = [])) := fun invalid => ready (.invalid invalid.1 invalid.2)
  rw [Calls.wcallAdd, if_neg absent]
  simp only [serving, objectAlloc, allocate, if_neg allocated, if_neg valid, object]
  rcases equipped : equip setting calls.cfg.config
    ⟨kindOf (Calls.legacyType calls.cfg.config convType), [], Nat.zero_le _⟩ with ⟨made, _ | err⟩
  · simp
  · simp

theorem sft_of_ccall (kind : kindOf (Calls.legacyType config convType) = .ccall) : (config.servers .sft).count ≠ 0 := by
  intro without
  unfold Calls.legacyType at kind
  cases convType <;> simp [without, kindOf] at kind

end

/-- Server lists prevent a call if and only if it is one of a group with more TURN servers than it has room for, no SFT
    and no local address, with nothing else against it. -/
theorem server_lists_excused_iff (setting : Setting) (icall : Icall CallObject) (calls : Calls CallObject)
    (convid : Bytes) (convType : ConvType) (meeting : Bool)
    (consistent : ∀ kind, (calls.cfg.config.servers kind).Consistent) :
    (∀ err, calls.wcallAdd (serving setting icall) convid convType meeting = .error err →
        Excused setting calls convid convType) ↔
      (Overfull setting calls.cfg.config convType → Excused setting calls convid convType) := by
  by_cases excused : Excused setting calls convid convType
  · exact iff_of_true (fun _ _ => excused) (fun _ => excused)
  · have empty : (calls.cfg.config.servers .sft).entries = [] ↔ (calls.cfg.config.servers .sft).count = 0 := by
      rw [consistent .sft, length_eq_zero_iff]
    have turns : (calls.cfg.config.servers .ice).count = (calls.cfg.config.servers .ice).entries.length :=
      consistent .ice
    have decides := wcallAdd_err icall meeting excused
    rw [equip_err rfl] at decides
    simp only [← turns, empty] at decides
    simp only [excused, imp_false, ← not_exists, decides, Overfull]
    cases kind : kindOf (Calls.legacyType calls.cfg.config convType) with
    | ecall =>
      have laddr : setting.mediaLaddr = true → setting.laddrAllocated ≠ false :=
        fun given failed => excused (.laddr kind given failed)
      cases given : setting.mediaLaddr with
      | true => simp [laddr given]
      | false => simp
    | egcall => cases setting.mediaLaddr <;> simp
    | ccall => cases setting.mediaLaddr <;> simp [sft_of_ccall kind]

def plain : Setting := ⟨true, false, true, none, true⟩

def idle : Icall CallObject where
  alloc _ _ _ _ := .error .ENOSYS
  start _ _ _ object := ⟨object, [], none⟩
  answer _ _ object := ⟨object, [], none⟩
  end_ object := ⟨object, [], none⟩
  reject object := ⟨object, [], none⟩
  setVideoSendState _ object := ⟨object, [], none⟩
  setDuration _ object := ⟨object, [], none⟩
  msgRecv _ _ _ _ _ object := ⟨object, [], none⟩

/-- A configuration of TURN servers only. -/
def relays (n : Nat) : Config.CallConfig where
  servers kind :=
    match kind with
    | .ice => ⟨some (List.replicate n ⟨Chars.strNcpy (some (ascii "turn:a")), Chars.strNcpy none,
        Chars.strNcpy none⟩), n⟩
    | .sft | .sftAll | .sftIce => ⟨none, 0⟩
  isFederating := false

def silent (n : Nat) : Calls CallObject where
  userid := ascii "alice"
  clientid := ascii "1"
  cfg := { Config.configAlloc true with config := relays n }
  callConfig := true
  processingNotifications := false
  pendingEventl := []
  durationl := []
  wcalls := []
  out := []

theorem relays_consistent {n : Nat} (kind : ServerKind) : ((relays n).servers kind).Consistent := by
  cases kind <;> simp [relays, ServerList.Consistent, ServerList.entries]

/-- A group call with 16 TURN servers is made. -/
theorem sixteen_relays : (∀ kind, ((silent 16).cfg.config.servers kind).Consistent) ∧
      ∀ err, (silent 16).wcallAdd (serving plain idle) (ascii "one") .group false = .error err →
        Excused plain (silent 16) (ascii "one") .group :=
  ⟨relays_consistent, (server_lists_excused_iff plain idle (silent 16) (ascii "one") .group false
    relays_consistent).mpr (fun overfull => absurd overfull.2.1 (by decide))⟩

/-- A group call with 17 TURN servers fails. -/
theorem seventeen_relays : ¬ ∀ err, (silent 17).wcallAdd (serving plain idle) (ascii "one") .group false = .error err →
      Excused plain (silent 17) (ascii "one") .group := by
  intro excused
  cases excused .EOVERFLOW rfl with
  | present found => cases found
  | invalid kind _ => exact absurd kind (by decide)
  | wcall failed => cases failed
  | object failed => exact failed rfl
  | laddr kind _ _ => exact absurd kind (by decide)

end Avs.ServerLists
