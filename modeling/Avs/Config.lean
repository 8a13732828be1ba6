import Avs.EconnFmt
import Avs.LibreFormats
import Avs.Runs

/-!
The call configuration of `src/config/config.c`: four lists of servers, replaced one after the other from the
JSON of a response, and the timer that asks for the next one.

`config_update` frees a list before it decodes the new one, keeps the old count where the decoder fails, and
stops at the first list that is refused with the earlier ones replaced. The flag and the timer of the refresh
are left alone by a response without a body, and the timer by one whose JSON does not parse and by a request
that is refused.
-/
namespace Avs
open List Option Runs

open Avs.EconnFmt (IceServer iceserversDecode)

/-- A vector of servers, which may be missing, and its count. -/
structure ServerList where
  vec : Option (List IceServer)
  count : Nat

/-- The lists of `struct call_config`. -/
inductive ServerKind
  | ice | sft | sftAll | sftIce
  deriving DecidableEq, Repr

/-- The member of the JSON object a list is read from. -/
def ServerKind.key : ServerKind → String
  | .ice => "ice_servers"
  | .sft => "sft_servers"
  | .sftAll => "sft_servers_all"
  | .sftIce => "sft_ice_servers"

/-- An empty array is an error for all lists but the last, where it is only logged. -/
def ServerKind.needed : ServerKind → Bool
  | .sftIce => false
  | _ => true

/-- The lists that are replaced before a list. -/
def ServerKind.before : ServerKind → List ServerKind
  | .ice => []
  | .sft => [.ice]
  | .sftAll => [.ice, .sft]
  | .sftIce => [.ice, .sft, .sftAll]

def ServerList.entries (list : ServerList) : List IceServer := list.vec.getD []

def ServerList.Consistent (list : ServerList) : Prop := list.count = list.entries.length

instance (list : ServerList) : Decidable list.Consistent := inferInstanceAs (Decidable (_ = _))

def ServerList.Same (a b : ServerList) : Prop := a.count = b.count ∧ a.entries = b.entries

structure Config.CallConfig where
  servers : ServerKind → ServerList
  isFederating : Bool

/-- `struct config`. The timer is the moment it is due at, if it is running. -/
structure Config where
  /-- Whether a request handler was given. -/
  reqh : Bool
  tmr : Option Nat
  expiresTs : Nat
  isUpdating : Bool
  config : Config.CallConfig

namespace Config

open Avs.Jzon

/-- The getters of the four lists: the pointer and the count, or nothing for a count of zero. -/
def getServers (kind : ServerKind) (config : CallConfig) : Option (Option (List IceServer) × Nat) :=
  if (config.servers kind).count = 0 then none
  else some ((config.servers kind).vec, (config.servers kind).count)

def setServers (config : CallConfig) (kind : ServerKind) (list : ServerList) : CallConfig :=
  { config with servers := fun k => if k = kind then list else config.servers k }

/-- One list of `config_update`: the old vector is freed first, and a decoder that fails sets neither the vector nor the
    count. -/
def updateServers (jobj : Json) (kind : ServerKind) (config : CallConfig) : CallConfig × Option Errno :=
  match jzonArray jobj kind.key with
  | .error _ => (config, none)
  | .ok jarr =>
    match iceserversDecode jarr with
    | .error err => (setServers config kind ⟨none, (config.servers kind).count⟩, some err)
    | .ok servers =>
      (setServers config kind ⟨some servers, servers.length⟩,
        if kind.needed ∧ servers.length = 0 then some .ENOENT else none)

/-- The flag of the JSON object, or whether there are SFTs of other domains. -/
def federating (jobj : Json) (config : CallConfig) : Bool :=
  match jzonBool jobj "is_federating" with
  | .ok given => given
  | .error _ => 0 < (config.servers .sftAll).count

def updateFederating (jobj : Json) (config : CallConfig) : CallConfig × Option Errno :=
  ({ config with isFederating := federating jobj config }, none)

/-- Steps up to the first that fails, which is where the code jumps to its end. What was done until then stays. -/
def inOrder : List (CallConfig → CallConfig × Option Errno) → CallConfig → CallConfig × Option Errno
  | [], config => (config, none)
  | step :: rest, config =>
    match step config with
    | (config', some err) => (config', some err)
    | (config', none) => inOrder rest config'

/-- The part of `config_update` that fills the lists. -/
def updateLists (jobj : Json) : CallConfig → CallConfig × Option Errno :=
  inOrder [updateServers jobj .ice, updateServers jobj .sft, updateServers jobj .sftAll, updateFederating jobj,
    updateServers jobj .sftIce]

def configAlloc (reqh : Bool) : Config :=
  { reqh, tmr := none, expiresTs := 0, isUpdating := false, config := ⟨fun _ => ⟨none, 0⟩, false⟩ }

/-- `do_request`, which is `config_start`, `config_request` and the handler of the timer, with the answer of the request
    handler. -/
def doRequest (answer : Option Errno) (cfg : Config) : Config × Option Errno :=
  if cfg.reqh then ({ cfg with tmr := none, isUpdating := true }, answer) else ({ cfg with tmr := none }, none)

def configStop (cfg : Config) : Config := { cfg with tmr := none }

def configNeedsUpdate (now : Nat) (cfg : Config) : Bool := cfg.isUpdating || cfg.expiresTs ≤ now

/-- The arguments of `config_update`. -/
structure Response where
  err : Option Errno
  body : Option Bytes

def expiryMin : Nat := 300

def expiryMax : Nat := 3600

/-- The time to live, within its limits; it is zero before that where none is given. -/
def readTtl (jobj : Json) : Nat :=
  match jzonInt jobj "ttl" with
  | .ok ttl => max (min ttl.toNat expiryMax) expiryMin
  | .error _ => expiryMin

/-- What a call of `config_update` leaves: the configuration, its result, and what it handed to the update handlers. -/
structure Updated where
  cfg : Config
  result : Option Errno
  notified : Option CallConfig

def configUpdate (libre : Libre) (now : Nat) (r : Response) (cfg : Config) : Updated :=
  match r.body with
  | none => ⟨cfg, some .EINVAL, none⟩
  | some text =>
    match r.err with
    | some _ => ⟨{ cfg with isUpdating := false, tmr := some (now + 60 * 1000) }, none, none⟩
    | none =>
      match jzonDecode libre text with
      | .error err => ⟨{ cfg with isUpdating := false }, some err, none⟩
      | .ok jobj =>
        let ttl := readTtl jobj
        let expiresTs := now + ttl * 1000
        match updateLists jobj cfg.config with
        | (config, some err) =>
          ⟨{ cfg with isUpdating := false, expiresTs, config, tmr := some (now + 60 * 1000) }, some err, none⟩
        | (config, none) =>
          ⟨{ cfg with isUpdating := false, expiresTs, config, tmr := some (now + ttl * 9 / 10 * 1000) }, none,
            some config⟩

variable {err : Errno} {jobj : Json} {libre : Libre} {now : Nat} {cfg : Config} {r : Response}

section
variable {text : Bytes}

theorem configUpdate_unparsed (decoded : jzonDecode libre text = .error err) :
    configUpdate libre now ⟨none, some text⟩ cfg = ⟨{ cfg with isUpdating := false }, some err, none⟩ := by
  simp only [configUpdate, decoded]

/-- What the two exits after the lists have in common. -/
structure Parsed (jobj : Json) (cfg : Config) (u : Updated) : Prop where
  reqh : u.cfg.reqh = cfg.reqh
  config : u.cfg.config = (updateLists jobj cfg.config).1
  result : u.result = (updateLists jobj cfg.config).2
  isUpdating : u.cfg.isUpdating = false
  tmr : u.cfg.tmr.isSome

theorem configUpdate_parsed (decoded : jzonDecode libre text = .ok jobj) :
    Parsed jobj cfg (configUpdate libre now ⟨none, some text⟩ cfg) := by
  rcases updated : updateLists jobj cfg.config with ⟨config, _ | err⟩
  · constructor <;> simp only [configUpdate, decoded, updated, isSome_some]
  · constructor <;> simp only [configUpdate, decoded, updated, isSome_some]

end

/-- What is to be true after a call that returned `err`. -/
structure Sound (before after : CallConfig) (err : Option Errno) : Prop where
  consistent : ∀ kind, (after.servers kind).Consistent
  unchanged : err ≠ none →
    (∀ kind, (after.servers kind).Same (before.servers kind)) ∧ after.isFederating = before.isFederating

/-- The servers the object gives for a list, if it has an array for it. -/
def given (jobj : Json) (kind : ServerKind) : Option (Except Errno (List IceServer)) :=
  match jzonArray jobj kind.key with
  | .error _ => none
  | .ok jarr => some (iceserversDecode jarr)

/-- The error for the servers the object gives. -/
def refusal (jobj : Json) (kind : ServerKind) : Option Errno :=
  match given jobj kind with
  | none => none
  | some (.error err) => some err
  | some (.ok servers) => if kind.needed ∧ servers.length = 0 then some .ENOENT else none

def newList (jobj : Json) (kind : ServerKind) (old : ServerList) : ServerList :=
  match given jobj kind with
  | none => old
  | some (.error _) => ⟨none, old.count⟩
  | some (.ok servers) => ⟨some servers, servers.length⟩

/-- The object brings nothing new for a list: servers that cannot be decoded for an empty list, or the ones it has. -/
def NothingNew (jobj : Json) (kind : ServerKind) (old : ServerList) : Prop :=
  match given jobj kind with
  | none => True
  | some (.error _) => old.count = 0
  | some (.ok servers) => old.entries = servers

/-- The first list that is refused is empty, and the object brings nothing new before it. -/
def Harmless (jobj : Json) (config : CallConfig) : Prop :=
  ∀ kind, refusal jobj kind ≠ none → (∀ k ∈ kind.before, refusal jobj k = none) →
    (∀ k ∈ kind.before ++ [kind], NothingNew jobj k (config.servers k)) ∧
      (kind = .sftIce → federating jobj config = config.isFederating)

/-- The condition on a response: only one with a body that parses, and without an error, comes to the lists. -/
def HarmlessResponse (libre : Libre) (r : Response) (config : CallConfig) : Prop :=
  match r.body, r.err with
  | some text, none =>
    match jzonDecode libre text with
    | .ok jobj => Harmless jobj config
    | .error _ => True
  | _, _ => True

section
variable {config : CallConfig} {kind : ServerKind} {old : ServerList}

theorem updateServers_eq : updateServers jobj kind config =
      (setServers config kind (newList jobj kind (config.servers kind)), refusal jobj kind) := by
  have same : setServers config kind (config.servers kind) = config := by
    obtain ⟨servers, isFederating⟩ := config
    simp only [setServers, CallConfig.mk.injEq, and_true]
    funext k
    by_cases it : k = kind
    · rw [if_pos it, it]
    · rw [if_neg it]
  simp only [updateServers, newList, refusal, given]
  cases jzonArray jobj kind.key with
  | error err => simp only [same]
  | ok jarr =>
    simp only
    cases iceserversDecode jarr with
    | error err => rfl
    | ok servers => rfl

theorem newList_consistent (fine : refusal jobj kind = none)
    (consistent : old.Consistent) : (newList jobj kind old).Consistent := by
  unfold refusal at fine
  unfold newList
  split
  · exact consistent
  · next err failed =>
    rw [failed] at fine
    cases fine
  · rfl

theorem newList_same_iff (consistent : old.Consistent) :
    (newList jobj kind old).Consistent ∧ (newList jobj kind old).Same old ↔ NothingNew jobj kind old := by
  unfold ServerList.Consistent at consistent
  unfold newList NothingNew
  split
  · exact ⟨fun _ => trivial, fun _ => ⟨consistent, rfl, rfl⟩⟩
  · constructor
    · rintro ⟨counted, _⟩
      exact counted
    · intro empty
      rw [empty] at consistent
      exact ⟨empty, rfl, (length_eq_zero_iff.mp consistent.symm).symm⟩
  · constructor
    · rintro ⟨_, _, same⟩
      exact same.symm
    · rintro rfl
      exact ⟨rfl, consistent.symm, rfl⟩

theorem refused_first : (∀ kind, refusal jobj kind = none) ∨
      ∃ kind, refusal jobj kind ≠ none ∧ ∀ k ∈ kind.before, refusal jobj k = none := by
  by_cases ice : refusal jobj .ice = none
  · by_cases sft : refusal jobj .sft = none
    · by_cases sftAll : refusal jobj .sftAll = none
      · by_cases sftIce : refusal jobj .sftIce = none
        · left
          rintro (_ | _ | _ | _) <;> assumption
        · exact .inr ⟨.sftIce, sftIce, by simp [ServerKind.before, ice, sft, sftAll]⟩
      · exact .inr ⟨.sftAll, sftAll, by simp [ServerKind.before, ice, sft]⟩
    · exact .inr ⟨.sft, sft, by simp [ServerKind.before, ice]⟩
  · exact .inr ⟨.ice, ice, by simp [ServerKind.before]⟩

theorem refused_unique {a b : ServerKind} (refusedA : refusal jobj a ≠ none)
    (takenA : ∀ k ∈ a.before, refusal jobj k = none) (refusedB : refusal jobj b ≠ none)
    (takenB : ∀ k ∈ b.before, refusal jobj k = none) : a = b := by
  have order : a ∈ b.before ∨ a = b ∨ b ∈ a.before := by
    cases a <;> cases b <;> decide
  rcases order with earlier | same | later
  · exact absurd (takenB a earlier) refusedA
  · exact same
  · exact absurd (takenA b later) refusedB

/-- The lists after the steps of some of them. -/
def replaced (jobj : Json) (config : CallConfig) (kinds : List ServerKind) (kind : ServerKind) : ServerList :=
  if kind ∈ kinds then newList jobj kind (config.servers kind) else config.servers kind

theorem replaced_nil : replaced jobj config [] = config.servers := by
  funext kind
  simp [replaced]

theorem updateServers_replaced {kinds : List ServerKind} (fresh : kind ∉ kinds) {isFederating : Bool} :
    updateServers jobj kind ⟨replaced jobj config kinds, isFederating⟩ =
      (⟨replaced jobj config (kinds ++ [kind]), isFederating⟩, refusal jobj kind) := by
  rw [updateServers_eq]
  simp only [setServers, Prod.mk.injEq, CallConfig.mk.injEq, and_true]
  funext k
  by_cases it : k = kind
  · simp [replaced, it, fresh]
  · simp [replaced, it]

def federatingAfter (jobj : Json) (config : CallConfig) : Bool :=
  federating jobj ⟨replaced jobj config [.ice, .sft, .sftAll], config.isFederating⟩

theorem updateLists_refused (refused : refusal jobj kind = some err)
    (taken : ∀ k ∈ kind.before, refusal jobj k = none) :
    updateLists jobj config =
      (⟨replaced jobj config (kind.before ++ [kind]),
        if kind = .sftIce then federatingAfter jobj config else config.isFederating⟩, some err) := by
  have start : config = ⟨replaced jobj config [], config.isFederating⟩ := by rw [replaced_nil]
  rw [updateLists]
  cases kind with
  | ice =>
    nth_rewrite 1 [start]
    simp [inOrder, updateServers_replaced, refused, ServerKind.before]
  | sft =>
    simp only [ServerKind.before, mem_singleton, forall_eq] at taken
    nth_rewrite 1 [start]
    simp [inOrder, updateServers_replaced, refused, taken, ServerKind.before]
  | sftAll =>
    simp only [ServerKind.before, mem_cons, not_mem_nil, or_false, forall_eq_or_imp, forall_eq] at taken
    nth_rewrite 1 [start]
    simp [inOrder, updateServers_replaced, refused, taken, ServerKind.before]
  | sftIce =>
    simp only [ServerKind.before, mem_cons, not_mem_nil, or_false, forall_eq_or_imp, forall_eq] at taken
    nth_rewrite 1 [start]
    simp [inOrder, updateServers_replaced, refused, taken, ServerKind.before, updateFederating, federatingAfter]

theorem updateLists_taken (taken : ∀ kind, refusal jobj kind = none) : updateLists jobj config =
      (⟨fun kind => newList jobj kind (config.servers kind), federatingAfter jobj config⟩, none) := by
  have start : config = ⟨replaced jobj config [], config.isFederating⟩ := by rw [replaced_nil]
  rw [updateLists]
  nth_rewrite 1 [start]
  simp [inOrder, updateServers_replaced, taken, updateFederating, federatingAfter]
  funext kind
  cases kind <;> simp [replaced]

theorem federatingAfter_eq (same : (newList jobj .sftAll (config.servers .sftAll)).Same (config.servers .sftAll)) :
    federatingAfter jobj config = federating jobj config := by
  simp [federatingAfter, federating, replaced, same.1]

/-- The lists are updated soundly exactly when the object is harmless. -/
theorem updateLists_sound_iff (consistent : ∀ kind, (config.servers kind).Consistent) :
    Sound config (updateLists jobj config).1 (updateLists jobj config).2 ↔ Harmless jobj config := by
  rcases refused_first with taken | ⟨kind, refused, taken⟩
  · rw [updateLists_taken taken]
    constructor
    · intro _ kind refused
      exact absurd (taken kind) refused
    · intro _
      exact ⟨fun kind => newList_consistent (taken kind) (consistent kind), fun failed => absurd rfl failed⟩
  · obtain ⟨err, code⟩ := ne_none_iff_exists'.mp refused
    rw [updateLists_refused code taken]
    constructor
    · intro sound other otherRefused otherTaken
      obtain rfl := refused_unique otherRefused otherTaken refused taken
      obtain ⟨same, sameFlag⟩ := sound.unchanged (some_ne_none err)
      have nothing : ∀ k ∈ other.before ++ [other], NothingNew jobj k (config.servers k) := by
        intro k member
        have consistentAfter := sound.consistent k
        have sameAfter := same k
        simp only [replaced, if_pos member] at consistentAfter sameAfter
        exact (newList_same_iff (consistent k)).mp ⟨consistentAfter, sameAfter⟩
      refine ⟨nothing, ?_⟩
      rintro rfl
      have sameAll := ((newList_same_iff (consistent .sftAll)).mpr (nothing .sftAll (by simp [ServerKind.before]))).2
      rw [← federatingAfter_eq sameAll]
      exact sameFlag
    · intro harmless
      obtain ⟨nothing, flag⟩ := harmless kind refused taken
      have kept : ∀ k, (replaced jobj config (kind.before ++ [kind]) k).Consistent ∧
          (replaced jobj config (kind.before ++ [kind]) k).Same (config.servers k) := by
        intro k
        unfold replaced
        split
        · next member => exact (newList_same_iff (consistent k)).mpr (nothing k member)
        · exact ⟨consistent k, rfl, rfl⟩
      refine ⟨fun k => (kept k).1, fun _ => ⟨fun k => (kept k).2, ?_⟩⟩
      by_cases last : kind = .sftIce
      · subst last
        have sameAll := (newList_same_iff (consistent .sftAll)).mpr (nothing .sftAll (by simp [ServerKind.before]))
        rw [if_pos rfl, federatingAfter_eq sameAll.2]
        exact flag rfl
      · rw [if_neg last]

end

/-- A call of `config_update` on a consistent configuration is sound exactly when the response is harmless. -/
theorem configUpdate_sound_iff (consistent : ∀ kind, (cfg.config.servers kind).Consistent) :
    Sound cfg.config (configUpdate libre now r cfg).cfg.config (configUpdate libre now r cfg).result ↔
      HarmlessResponse libre r cfg.config := by
  have untouched : ∀ err, Sound cfg.config cfg.config err :=
    fun err => ⟨consistent, fun _ => ⟨fun _ => ⟨rfl, rfl⟩, rfl⟩⟩
  obtain ⟨_ | err, _ | text⟩ := r
  · exact iff_of_true (untouched _) trivial
  · unfold HarmlessResponse
    simp only
    cases decoded : jzonDecode libre text with
    | error err =>
      rw [configUpdate_unparsed decoded]
      exact iff_of_true (untouched _) trivial
    | ok jobj =>
      have parsed : Parsed jobj cfg (configUpdate libre now ⟨none, some text⟩ cfg) := configUpdate_parsed decoded
      rw [parsed.config, parsed.result]
      exact updateLists_sound_iff consistent
  · exact iff_of_true (untouched _) trivial
  · exact iff_of_true (untouched _) trivial

def receive (libre : Libre) (call : Nat × Response) (cfg : Config) : Option Config :=
  some (configUpdate libre call.1 call.2 cfg).cfg

/-- A sequence of responses leaves consistent lists after each, and the configuration as it was where the call returns
    an error, exactly when each of them is harmless for the configuration it finds. -/
theorem updates_consistent_iff (libre : Libre) (reqh : Bool) (calls : List (Nat × Response)) :
    Throughout (receive libre) (configAlloc reqh) calls (fun call cfg =>
        Sound cfg.config (configUpdate libre call.1 call.2 cfg).cfg.config
          (configUpdate libre call.1 call.2 cfg).result) ↔
      Throughout (receive libre) (configAlloc reqh) calls (fun call cfg =>
        HarmlessResponse libre call.2 cfg.config) := by
  refine @throughout_congr _ _ (receive libre) _ (fun cfg => ∀ kind, (cfg.config.servers kind).Consistent)
    (configAlloc reqh) _ ?_ ?_ ?_ calls
  · intro call cfg consistent
    exact configUpdate_sound_iff consistent
  · intro call cfg cfg' sound _ received
    obtain rfl := some.inj received
    exact sound.consistent
  · intro kind
    rfl

/-- One ICE server, and one without a url. -/
def turnText : Bytes := ascii "\x7b\"ice_servers\":[\x7b\"urls\":\"turn:a\"\x7d]\x7d"

def turnMembers : Odict := [("ice_servers", .array [.object [("urls", .string (ascii "turn:a"))]])]

def namelessText : Bytes := ascii "\x7b\"ice_servers\":[\x7b\x7d]\x7d"

def namelessMembers : Odict := [("ice_servers", .array [.object []])]

/-- A server without a url costs the configuration the vector of its ICE servers, with their count left. -/
theorem updates_lose_vector : let libre := knowing [(turnText, turnMembers), (namelessText, namelessMembers)]
    ∃ cfg, receive libre (0, ⟨none, some turnText⟩) (configAlloc true) = some cfg ∧
      (configUpdate libre 5 ⟨none, some namelessText⟩ cfg).result = some .EPROTO ∧
      getServers .ice (configUpdate libre 5 ⟨none, some namelessText⟩ cfg).cfg.config = some (none, 1) ∧
      ¬ Sound cfg.config (configUpdate libre 5 ⟨none, some namelessText⟩ cfg).cfg.config
        (configUpdate libre 5 ⟨none, some namelessText⟩ cfg).result := by
  intro libre
  refine ⟨_, rfl, rfl, rfl, ?_⟩
  intro sound
  exact absurd (sound.consistent .ice) (by decide)

/-- What happens to a configuration. The answer is that of the request handler. -/
inductive Event
  /-- `config_start` and `config_request`. -/
  | request (answer : Option Errno)
  | response (now : Nat) (r : Response)
  | fire (answer : Option Errno)
  | stop

/-- A configuration with the number of requests whose response is outstanding. -/
structure Course where
  cfg : Config
  outstanding : Nat
  stopped : Bool

def started : Course := ⟨configAlloc true, 0, false⟩

def request (answer : Option Errno) (s : Course) : Course :=
  { s with
    cfg := (doRequest answer s.cfg).1
    outstanding := if s.cfg.reqh ∧ answer = none then s.outstanding + 1 else s.outstanding }

/-- The timer fires only while it runs. -/
def refreshStep (libre : Libre) : Event → Course → Option Course
  | .request answer, s => some (request answer s)
  | .response now r, s => some { s with cfg := (configUpdate libre now r s.cfg).cfg, outstanding := s.outstanding - 1 }
  | .fire answer, s => if s.cfg.tmr.isSome then some (request answer s) else none
  | .stop, s => some { s with cfg := configStop s.cfg, stopped := true }

def Course.Refreshing (s : Course) : Prop := s.cfg.isUpdating = false ∧ s.cfg.tmr.isSome

/-- The refresh goes on: unless it was stopped, a request is outstanding or the timer runs. -/
def Course.Settled (s : Course) : Prop := s.stopped = false → s.outstanding = 0 → s.Refreshing

def parses (libre : Libre) (text : Bytes) : Bool :=
  match jzonDecode libre text with
  | .ok _ => true
  | .error _ => false

/-- A refused request finds another one outstanding; a response without a body finds another one outstanding or the
    refresh going on, and one that does not parse finds another one outstanding or the timer running. -/
def Event.Tolerable (libre : Libre) (s : Course) : Event → Prop
  | .request answer => answer = none ∨ 0 < s.outstanding
  | .response _ ⟨_, none⟩ => 1 < s.outstanding ∨ s.Refreshing
  | .response _ ⟨none, some text⟩ => parses libre text ∨ 1 < s.outstanding ∨ s.cfg.tmr.isSome
  | .response _ ⟨some _, some _⟩ => True
  | .fire answer => answer = none ∨ 0 < s.outstanding
  | .stop => True

instance (s : Course) : Decidable s.Refreshing := inferInstanceAs (Decidable (_ ∧ _))

instance (libre : Libre) (s : Course) (e : Event) : Decidable (e.Tolerable libre s) := by
  unfold Event.Tolerable
  split <;> infer_instance

section
variable {s : Course} {s' : Course} {answer : Option Errno} {e : Event}

theorem request_settled_iff (handler : s.cfg.reqh = true) :
    (request answer s).Settled ↔ s.stopped ∨ answer = none ∨ 0 < s.outstanding := by
  unfold Course.Settled Course.Refreshing request doRequest
  cases s.stopped with
  | true => simp
  | false =>
    by_cases accepted : answer = none
    · simp [handler, accepted]
    · simp [handler, accepted, Nat.pos_iff_ne_zero]

theorem settled_pred_iff {outstanding : Nat} {stopped : Bool} : (Course.mk cfg (outstanding - 1) stopped).Settled ↔
      stopped ∨ 1 < outstanding ∨ cfg.isUpdating = false ∧ cfg.tmr.isSome := by
  unfold Course.Settled Course.Refreshing
  by_cases more : 1 < outstanding
  · have some_ : outstanding - 1 ≠ 0 := by omega
    simp [more, some_]
  · have last : outstanding - 1 = 0 := by omega
    cases stopped <;> simp [more, last]

theorem response_settled_iff : (Course.mk (configUpdate libre now r s.cfg).cfg (s.outstanding - 1) s.stopped).Settled ↔
      s.stopped ∨ (Event.response now r).Tolerable libre s := by
  rw [settled_pred_iff]
  obtain ⟨_ | err, _ | text⟩ := r
  · rfl
  · simp only [Event.Tolerable, parses]
    cases decoded : jzonDecode libre text with
    | error err => simp [configUpdate_unparsed decoded]
    | ok jobj =>
      have parsed : Parsed jobj s.cfg (configUpdate libre now ⟨none, some text⟩ s.cfg) := configUpdate_parsed decoded
      simp [parsed.isUpdating, parsed.tmr]
  · rfl
  · simp [configUpdate, Event.Tolerable]

/-- A step of a course that has a request handler settles it exactly when it is tolerable. -/
theorem refreshStep_settled_iff (handler : s.cfg.reqh = true) (stepped : refreshStep libre e s = some s') :
    s'.Settled ↔ s.stopped ∨ e.Tolerable libre s := by
  cases e with
  | request answer =>
    obtain rfl := some.inj stepped
    exact request_settled_iff handler
  | fire answer =>
    simp only [refreshStep] at stepped
    split at stepped
    · obtain rfl := some.inj stepped
      exact request_settled_iff handler
    · cases stepped
  | stop =>
    obtain rfl := some.inj stepped
    simp [Course.Settled, Event.Tolerable]
  | response now r =>
    obtain rfl := some.inj stepped
    exact response_settled_iff

theorem request_reqh : (request answer s).cfg.reqh = s.cfg.reqh := by
  unfold request doRequest
  split <;> rfl

theorem configUpdate_reqh : (configUpdate libre now r cfg).cfg.reqh = cfg.reqh := by
  obtain ⟨_ | err, _ | text⟩ := r
  · rfl
  · cases decoded : jzonDecode libre text with
    | error err => rw [configUpdate_unparsed decoded]
    | ok jobj => exact (configUpdate_parsed decoded).reqh
  · rfl
  · rfl

theorem refreshStep_reqh (stepped : refreshStep libre e s = some s') : s'.cfg.reqh = s.cfg.reqh := by
  cases e with
  | request answer =>
    obtain rfl := some.inj stepped
    exact request_reqh
  | response now r =>
    obtain rfl := some.inj stepped
    exact configUpdate_reqh
  | fire answer =>
    simp only [refreshStep] at stepped
    split at stepped
    · obtain rfl := some.inj stepped
      exact request_reqh
    · cases stepped
  | stop =>
    obtain rfl := some.inj stepped
    rfl

/-- After every event of a run the refresh goes on, unless it was stopped, exactly when every event until then is
    tolerable. -/
theorem refresh_settled_iff (libre : Libre) (events : List Event) (last : Course)
    (ran : run (refreshStep libre) started events = some last) :
    (∀ front e back s, events = front ++ e :: back → run (refreshStep libre) started (front ++ [e]) = some s →
        s.Settled) ↔
      Throughout (refreshStep libre) started events (fun e s => s.stopped ∨ e.Tolerable libre s) := by
  -- No event takes the request handler away, so the steps can be judged one by one.
  have handler : ∀ {front s}, run (refreshStep libre) started front = some s → s.cfg.reqh = true := by
    intro front s reached
    refine @run_invariant _ _ _ (fun s : Course => s.cfg.reqh = true) (fun _ => True) ?_ front started s ?_ rfl
      reached
    · intro e s s' _ handler stepped
      rw [refreshStep_reqh stepped, handler]
    · intro _ _
      trivial
  constructor
  · intro settled front e back mid split reached
    rw [split] at ran
    obtain ⟨mid', reached', rest⟩ := run_append.mp ran
    obtain rfl := some.inj (reached.symm.trans reached')
    obtain ⟨next, stepped, _⟩ := run_cons.mp rest
    refine (refreshStep_settled_iff (handler reached) stepped).mp (settled front e back next split ?_)
    exact run_append.mpr ⟨mid, reached, run_cons.mpr ⟨next, stepped, rfl⟩⟩
  · intro tolerable front e back s split reached
    obtain ⟨mid, before, rest⟩ := run_append.mp reached
    obtain ⟨next, stepped, same⟩ := run_cons.mp rest
    obtain rfl := some.inj same
    exact (refreshStep_settled_iff (handler before) stepped).mpr (tolerable front e back mid split before)

end

def refreshes : List Event :=
  [.request none, .response 0 ⟨none, some turnText⟩, .fire none, .response 9 ⟨some .ETIMEDOUT, some []⟩]

theorem refreshes_settled : ∃ s, run (refreshStep (knowing [(turnText, turnMembers)])) started refreshes = some s ∧
      s.cfg.tmr = some 60009 ∧ s.Settled := by
  refine exists_guarded (fun e s => s.stopped ∨ e.Tolerable (knowing [(turnText, turnMembers)]) s)
    (fun s => s.cfg.tmr = some 60009) (by decide +kernel) fun s tolerable reached due => ⟨due, ?_⟩
  exact (refresh_settled_iff _ refreshes s reached).mpr tolerable
    [.request none, .response 0 ⟨none, some turnText⟩, .fire none] _ [] s rfl reached

/-- A response without a body leaves the flag set and no timer running. -/
theorem refresh_stalls :
    ∃ s, run (refreshStep (knowing [])) started [.request none, .response 0 ⟨some .ETIMEDOUT, none⟩] = some s ∧
      s.cfg.isUpdating = true ∧ s.cfg.tmr = none ∧ ¬ s.Settled := by
  refine ⟨_, rfl, rfl, rfl, ?_⟩
  intro settled
  exact absurd (settled rfl rfl) (by decide)

end Config

end Avs
