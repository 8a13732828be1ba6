import Avs.Roster
import Avs.Runs

/-!
The update of the approved clients. A client is the user with its real ids, the user the SFT listed with its
hash, or a new one; `approvedAs` says which, from the list before the update, and `updateFromSelist_approved`
that those are the users approved after it. The loop over the clients approves one user for each of them
(`Approves`) and keeps the list well-formed (`Approving`).
-/
namespace Avs.Userlist
open List

variable {p : Part} {list : Userlist} {f : UserInfo → UserInfo} {names : Naming} {userid clientid : Bytes}
  {u v : UserInfo} {clientl : List Client} {epoch : UInt32} {cli : Client}

/-- The hashed ids of the user a client is known as by its real ids. -/
def knownAs (list : Userlist) (cli : Client) : Option (Option Bytes × Option Bytes) :=
  (findByReal list (some cli.userid) (some cli.clientid)).map hashId

/-- The hashed ids under which an update with the approved clients `clientl` approves one of them: those it is known as,
    or those of the first of the clients with its ids. -/
def approvedAs (names : Naming) (list : Userlist) (clientl : List Client) (cli : Client) :
    Option (Option Bytes × Option Bytes) :=
  (knownAs list cli).or ((clientl.find? (fun c => clientId c = clientId cli)).map (fun c => names.hashed (idsOf c)))

theorem knownAs_iff (valid : WellFormed names list) {id : Option Bytes × Option Bytes} :
    knownAs list cli = some id ↔
      ∃ u ∈ list.users, u.useridReal.isSome ∧ realId u = clientId cli ∧ hashId u = id := by
  rw [knownAs, Option.map_eq_some_iff]
  constructor
  · rintro ⟨u, found, hashed⟩
    obtain ⟨member, real, same⟩ := findByReal_some found
    exact ⟨u, member, real, same, hashed⟩
  · rintro ⟨u, member, real, same, hashed⟩
    rcases Option.eq_none_or_eq_some (findByReal list (some cli.userid) (some cli.clientid)) with absent | ⟨v, found⟩
    · exact absurd same (findByReal_none valid absent u member real)
    · obtain ⟨memberV, realV, sameV⟩ := findByReal_some found
      have addr := valid.unique v memberV u member realV real (sameV.trans same.symm)
      exact ⟨v, found, addr_unique valid memberV member addr ▸ hashed⟩

theorem knownAs_congr (list : Userlist) {c : Client} (same : clientId c = clientId cli) :
    knownAs list c = knownAs list cli := by
  rw [knownAs, knownAs, findByReal_eq, findByReal_eq, same]

theorem approvedAs_snoc {done : List Client} {c : Client} : approvedAs names list (done ++ [cli]) c =
      (approvedAs names list done c).or
        (if clientId cli = clientId c then some (names.hashed (idsOf cli)) else none) := by
  rw [approvedAs, approvedAs, Option.or_assoc, List.find?_append, List.find?_singleton]
  congr 1
  by_cases same : clientId cli = clientId c <;> cases done.find? (fun c' => clientId c' = clientId c) <;> simp [same]

/-- What the loop over the approved clients does with one of them: it approves one user, `v`, and leaves the others. -/
structure Approves (names : Naming) (cli : Client) (s s' : SeUpdate) (v : UserInfo) : Prop where
  valid : WellFormed names s'.list
  self : s'.list.self = s.list.self
  member : v ∈ s'.list.users
  real : v.useridReal.isSome ∧ realId v = clientId cli
  approved : v.seApproved = true
  others : ∀ w, w.addr ≠ v.addr → (w ∈ s'.list.users ↔ w ∈ s.list.users)
  same : ∀ u ∈ s.list.users, u.addr = v.addr → hashId u = hashId v ∧ (u.useridReal.isSome → realId u = clientId cli)
  spelling : (knownAs s.list cli).or (some (names.hashed (idsOf cli))) = some (hashId v)
  keygenerator :
    (s'.list.keygenerator = s.list.keygenerator ∧
      ∀ u ∈ s.list.users, u.addr = v.addr → u.useridReal = none → u.listpos ≠ 0) ∨
    (s'.list.keygenerator = some (.user v.addr) ∧
      ∃ u ∈ s.list.users, u.addr = v.addr ∧ u.useridReal = none ∧ u.listpos = 0)

/-- What holds in the loop over the approved clients once `done` of them are taken. The key generator is still the old
    one, and then no user at position 0 has been named, or it is such a user, approved in this loop. -/
structure Approving (names : Naming) (start : Userlist) (done : List Client) (s : SeUpdate) : Prop where
  valid : WellFormed names s.list
  self : Same s.list.self start.self
  stays : ∀ u ∈ start.users, ∃ v ∈ s.list.users, v.addr = u.addr ∧ hashId v = hashId u
  unnamed : ∀ v ∈ s.list.users, v.useridReal = none → v ∈ start.users
  approved : ∀ v ∈ s.list.users, v.useridReal.isSome → (v.seApproved = true ↔ ∃ cli ∈ done, clientId cli = realId v)
  known : ∀ cli, clientId cli ≠ realId start.self → knownAs s.list cli = approvedAs names start done cli
  keygenerator :
    (s.list.keygenerator = start.keygenerator ∧
      ∀ u ∈ start.users, u.useridReal = none → u.listpos = 0 → u ∈ s.list.users) ∨
    (∃ u ∈ start.users, u.useridReal = none ∧ u.listpos = 0 ∧ s.list.keygenerator = some (.user u.addr) ∧
      ∃ v ∈ s.list.users, v.addr = u.addr ∧ hashId v = hashId u ∧ v.seApproved = true)

section
variable {start : Userlist} {s s' : SeUpdate} {prev : Option UserRef} {user : UserInfo} {done : List Client}

theorem approves_knownAs (valid : WellFormed names s.list) (approves : Approves names cli s s' v) (c : Client) :
    knownAs s'.list c =
      (knownAs s.list c).or (if clientId cli = clientId c then some (names.hashed (idsOf cli)) else none) := by
  by_cases same : clientId cli = clientId c
  · rw [if_pos same, knownAs_congr s.list same.symm, approves.spelling, knownAs_iff approves.valid]
    exact ⟨v, approves.member, approves.real.1, approves.real.2.trans same, rfl⟩
  · rw [if_neg same, Option.or_none]
    ext id
    rw [knownAs_iff approves.valid, knownAs_iff valid]
    refine exists_congr (fun w => ?_)
    by_cases here : w.addr = v.addr
    · refine iff_of_false ?_ ?_
      · rintro ⟨member, -, real, -⟩
        rw [addr_unique approves.valid member approves.member here, approves.real.2] at real
        exact same real
      · rintro ⟨member, named, real, -⟩
        exact same (((approves.same w member here).2 named).symm.trans real)
    · rw [approves.others w here]

theorem approves_approving (approving : Approving names start done s) (approves : Approves names cli s s' v) :
    Approving names start (done ++ [cli]) s' where
  valid := approves.valid
  self := approves.self ▸ approving.self
  stays := by
    intro u old
    obtain ⟨w, at_, addr, hashed⟩ := approving.stays u old
    by_cases here : w.addr = v.addr
    · exact ⟨v, approves.member, here.symm.trans addr, (approves.same w at_ here).1.symm.trans hashed⟩
    · exact ⟨w, (approves.others w here).mpr at_, addr, hashed⟩
  unnamed := by
    intro w member none_
    have away : w.addr ≠ v.addr := by
      intro here
      rw [addr_unique approves.valid member approves.member here] at none_
      exact absurd approves.real.1 (by simp [none_])
    exact approving.unnamed w ((approves.others w away).mp member) none_
  approved := by
    intro w member named
    by_cases here : w.addr = v.addr
    · obtain rfl := addr_unique approves.valid member approves.member here
      exact iff_of_true approves.approved ⟨cli, by simp, approves.real.2.symm⟩
    · have apart : clientId cli ≠ realId w := fun same =>
        here (approves.valid.unique w member v approves.member named approves.real.1 (approves.real.2.trans same).symm)
      simp [approving.approved w ((approves.others w here).mp member) named, apart]
  known := fun c other => by
    rw [approves_knownAs approving.valid approves c, approving.known c other, approvedAs_snoc]
  keygenerator := by
    rcases approves.keygenerator with ⟨same, later⟩ | ⟨taken, u, at_, addr, none_, pos⟩
    · rw [same]
      rcases approving.keygenerator with ⟨kept, untouched⟩ | ⟨u, old, none_, pos, kg, w, at_, addr, hashed, ok⟩
      · refine .inl ⟨kept, fun u old none_ pos => ?_⟩
        have at_ := untouched u old none_ pos
        exact (approves.others u (fun here => later u at_ here none_ pos)).mpr at_
      · refine .inr ⟨u, old, none_, pos, kg, ?_⟩
        by_cases here : w.addr = v.addr
        · exact ⟨v, approves.member, here.symm.trans addr, (approves.same w at_ here).1.symm.trans hashed,
            approves.approved⟩
        · exact ⟨w, (approves.others w here).mpr at_, addr, hashed, ok⟩
    · exact .inr ⟨u, approving.unnamed u at_ none_, none_, pos, addr ▸ taken, v, approves.member, addr.symm,
        (approves.same u at_ addr).1.symm, approves.approved⟩

theorem hashId_hashUserinfo (real : u.useridReal = some userid) (realClient : u.clientidReal = some clientid) :
    hashId (hashUserinfo names.hash names.secret u) = names.hashed (userid, clientid) := by
  simp only [hashId, hashUserinfo, real, realClient, Naming.hashed]

theorem hashId_rehashed (named : Named names u) : hashId (hashUserinfo names.hash names.secret u) = hashId u := by
  obtain ⟨ids, -, real, realClient, hashed⟩ := named
  exact (hashId_hashUserinfo real realClient).trans hashed.symm

/-- A user of the list is approved for a client that no other user has the real ids of. -/
theorem approves_modify (valid : WellFormed names s.list) (member : user ∈ s.list.users)
    (users : s'.list.users = s.list.users.map (fun u => if u.addr = user.addr then f u else u))
    (self : s'.list.self = s.list.self) (next : s'.list.nextAddr = s.list.nextAddr)
    (addr : (f user).addr = user.addr) (hashed : hashId (f user) = hashId user) (named : Named names (f user))
    (real : realId (f user) = clientId cli) (approved : (f user).seApproved = true)
    (only : ∀ w ∈ s.list.users, w.useridReal.isSome → realId w = clientId cli → w.addr = user.addr)
    (was : user.useridReal.isSome → realId user = clientId cli) (other : realId s.list.self ≠ clientId cli)
    (spelling : (knownAs s.list cli).or (some (names.hashed (idsOf cli))) = some (hashId user))
    (kg : s'.list.keygenerator =
      if user.useridReal = none ∧ user.listpos = 0 then some (.user user.addr) else s.list.keygenerator) :
    Approves names cli s s' (f user) := by
  have at_ : ∀ w ∈ s.list.users, w.addr = user.addr → w = user := fun w old same => addr_unique valid old member same
  have image : ∀ w, w ∈ s'.list.users ↔ w = f user ∨ (w ∈ s.list.users ∧ w.addr ≠ user.addr) := by
    intro w
    rw [users, mem_map]
    constructor
    · rintro ⟨u, old, rfl⟩
      split
      · next here => exact .inl (at_ u old here ▸ rfl)
      · next away => exact .inr ⟨old, away⟩
    · rintro (rfl | ⟨old, away⟩)
      · exact ⟨user, member, if_pos rfl⟩
      · exact ⟨w, old, if_neg away⟩
  refine ⟨?_, self, (image _).mpr (.inl rfl), ⟨named.real, real⟩, approved, ?_, ?_, hashed ▸ spelling, ?_⟩
  · refine wellFormed_map valid users (self ▸ Same.refl _) next ?_ ?_ ?_
    · intro u old
      split
      · next here => rw [at_ u old here]; exact ⟨addr, hashed⟩
      · exact ⟨rfl, rfl⟩
    · refine reals_named valid.toReals self user.addr only other (fun w new _ => ?_)
      rcases (image w).mp new with rfl | ⟨old, -⟩
      · exact .inl ⟨addr, real⟩
      · exact .inr old
    · intro u old
      split
      · next here => rw [at_ u old here]; exact .inl named
      · exact valid.named u old
  · intro w away
    rw [image, ← addr]
    refine ⟨fun or => (or.resolve_left (fun same => away (same ▸ rfl))).1, fun old => .inr ⟨old, away⟩⟩
  · intro u old here
    rw [at_ u old (here.trans addr)]
    exact ⟨hashed.symm, was⟩
  · rw [kg, addr]
    by_cases first : user.useridReal = none ∧ user.listpos = 0
    · rw [if_pos first]
      exact .inr ⟨rfl, user, member, rfl, first⟩
    · rw [if_neg first]
      refine .inl ⟨rfl, fun u old here none_ pos => ?_⟩
      rw [at_ u old here] at none_ pos
      exact first ⟨none_, pos⟩

theorem admitUser_list (epoch : UInt32) (prev : Option UserRef) (s : SeUpdate) (cli : Client) (user : UserInfo) :
    (admitUser epoch prev s cli user).list = { s.list with
      users := s.list.users.map (fun u => if u.addr = user.addr then
        approve epoch cli { nameUser epoch cli u with needsKey := true, forceDecoder := false } else u)
      keygenerator := if user.listpos = 0 then some (.user user.addr) else s.list.keygenerator } := by
  have twice : ∀ u : UserInfo,
      (if (if u.addr = user.addr then nameUser epoch cli u else u).addr = user.addr then
        approve epoch cli { (if u.addr = user.addr then nameUser epoch cli u else u) with
          needsKey := true, forceDecoder := false }
        else if u.addr = user.addr then nameUser epoch cli u else u) =
      if u.addr = user.addr then
        approve epoch cli { nameUser epoch cli u with needsKey := true, forceDecoder := false } else u := by
    intro u
    by_cases same : u.addr = user.addr
    · simp only [if_pos same, nameUser]
    · simp only [if_neg same]
  by_cases first : user.listpos = 0
  · simp only [admitUser, if_pos first, modify, map_map, Function.comp_def, twice]
  · simp only [admitUser, if_neg first, modify, map_map, Function.comp_def, twice]

theorem admitUser_users (unique : ∀ u ∈ s.list.users, u.addr = user.addr → u = user)
    (new : v ∈ (admitUser epoch prev s cli user).list.users) :
    (v ∈ s.list.users ∧ v.addr ≠ user.addr) ∨
      v = approve epoch cli { nameUser epoch cli user with needsKey := true, forceDecoder := false } := by
  rw [admitUser_list] at new
  obtain ⟨u, old, rfl⟩ := mem_map.mp new
  split
  · next here => exact .inr (unique u old here ▸ rfl)
  · next away => exact .inl ⟨old, away⟩

def clientUser (names : Naming) (list : Userlist) (cli : Client) : UserInfo :=
  hashUserinfo names.hash names.secret { zalloc list.nextAddr with
    useridReal := some cli.userid, clientidReal := some cli.clientid }

/-- What the loop does with a client: it is this client, a user with its real ids is approved, a user with its hash is
    named, or it is added. -/
inductive Taken (names : Naming) (epoch : UInt32) (prev : Option UserRef) (s : SeUpdate) (cli : Client) :
    SeUpdate → Prop
  | own (mine : realId s.list.self = clientId cli) : Taken names epoch prev s cli s
  | known (user : UserInfo) (member : user ∈ s.list.users) (named : Named names user)
      (same : realId user = clientId cli) :
      Taken names epoch prev s cli
        { s with list := s.list.modify user.addr (fun u => approve epoch cli (hashUserinfo names.hash names.secret u)) }
  | admitted (user : UserInfo) (member : user ∈ s.list.users) (unnamed : Unnamed user)
      (hashed : hashId user = names.hashed (idsOf cli)) (other : realId s.list.self ≠ clientId cli)
      (missing : ∀ v ∈ s.list.users, v.useridReal.isSome → realId v ≠ clientId cli) :
      Taken names epoch prev s cli (admitUser epoch prev s cli user)
  | added (new : ∀ v ∈ s.list.users, hashId v ≠ names.hashed (idsOf cli))
      (notSelf : names.hashed (idsOf cli) ≠ hashId s.list.self) (other : realId s.list.self ≠ clientId cli)
      (missing : ∀ v ∈ s.list.users, v.useridReal.isSome → realId v ≠ clientId cli) :
      Taken names epoch prev s cli (addClient epoch s cli (clientUser names s.list cli))

theorem takeClient_taken (covered : idsOf cli ∈ names.ids) (valid : WellFormed names s.list) :
    Taken names epoch prev s cli (takeClient names.hash names.secret epoch prev s cli) := by
  have own : (strcaseeq s.list.self.useridReal (some cli.userid) &&
      strcaseeq s.list.self.clientidReal (some cli.clientid)) = true ↔ realId s.list.self = clientId cli := by
    simp [strcaseeq_iff, realId, clientId]
  have spelt : ∀ {u : UserInfo}, Named names u → hashId u = names.hashed (idsOf cli) → realId u = clientId cli := by
    rintro u ⟨ids, known, real, realClient, hashed⟩ same
    obtain rfl := names.hashed_inj known covered (hashed.symm.trans same)
    rw [realId, real, realClient]
    rfl
  rw [takeClient]
  simp only [own]
  split
  · next mine => exact .own mine
  · next other =>
    split
    · next user found =>
      obtain ⟨member, real, same⟩ := findByReal_some found
      exact .known user member (named_of_real valid member real) same
    · next absent =>
      have missing := findByReal_none valid absent
      -- a user with the client's hash would be known by the client's real ids, were it named
      have unnamed : ∀ v ∈ s.list.users, hashId v = names.hashed (idsOf cli) → Unnamed v := fun v member same =>
        (valid.named v member).resolve_left (fun named => missing v member named.real (spelt named same))
      have notSelf : names.hashed (idsOf cli) ≠ hashId s.list.self :=
        fun same => other (spelt valid.selfNamed same.symm)
      have lookup : findByHash s.list (some (names.hash names.secret cli.userid cli.clientid)) (some (ascii "_")) =
          s.list.users.find? (fun u => hashId u = names.hashed (idsOf cli)) := findByHash_eq
      simp only [hashUserinfo]
      rw [lookup]
      split
      · next user found =>
        have holds := List.find?_some found
        have same := of_decide_eq_true holds
        have member := mem_of_find?_eq_some found
        rw [if_neg (by simp [(unnamed user member same).2])]
        exact .admitted user member (unnamed user member same) same other missing
      · next absent =>
        refine .added (fun v member same => ?_) notSelf other missing
        exact List.find?_eq_none.mp absent v member (decide_eq_true same)

theorem knownAs_none (valid : WellFormed names s.list)
    (missing : ∀ v ∈ s.list.users, v.useridReal.isSome → realId v ≠ clientId cli) : knownAs s.list cli = none := by
  rw [Option.eq_none_iff_forall_ne_some]
  intro id known
  obtain ⟨u, member, real, same, -⟩ := (knownAs_iff valid).mp known
  exact missing u member real same

theorem addClient_approves (valid : WellFormed names s.list) (covered : idsOf cli ∈ names.ids)
    (new : ∀ v ∈ s.list.users, hashId v ≠ names.hashed (idsOf cli))
    (notSelf : names.hashed (idsOf cli) ≠ hashId s.list.self) (other : realId s.list.self ≠ clientId cli)
    (missing : ∀ v ∈ s.list.users, v.useridReal.isSome → realId v ≠ clientId cli) :
    Approves names cli s (addClient epoch s cli (clientUser names s.list cli))
      (approve epoch cli (clientUser names s.list cli)) := by
  have fresh : ∀ w ∈ s.list.users, w.addr ≠ s.list.nextAddr := fun w old => Nat.ne_of_lt (valid.below w old)
  refine ⟨?_, rfl, mem_append_right _ (mem_singleton.mpr rfl), ⟨rfl, rfl⟩, rfl, ?_, ?_, ?_, ?_⟩
  · refine wellFormed_append valid rfl new notSelf ?_ (.inl ⟨idsOf cli, covered, rfl, rfl, rfl⟩)
    refine reals_named valid.toReals rfl s.list.nextAddr ?_ other ?_
    · exact fun u old named same => absurd same (missing u old named)
    · intro w member _
      rcases mem_append.mp member with old | added
      · exact .inr old
      · rw [mem_singleton.mp added]
        exact .inl ⟨rfl, rfl⟩
  · intro w away
    refine ⟨fun member => ?_, fun old => mem_append_left _ old⟩
    rcases mem_append.mp member with old | added
    · exact old
    · exact absurd (congrArg (·.addr) (mem_singleton.mp added)) away
  · exact fun u old here => absurd here (fresh u old)
  · rw [knownAs_none valid missing]
    rfl
  · exact .inl ⟨rfl, fun u old here => absurd here (fresh u old)⟩

theorem taken_approving (covered : idsOf cli ∈ names.ids) (approving : Approving names start done s)
    (taken : Taken names epoch prev s cli s') : Approving names start (done ++ [cli]) s' := by
  have valid := approving.valid
  cases taken with
  | own mine =>
    have own : realId start.self = clientId cli := approving.self.real.symm.trans mine
    refine { approving with approved := fun v member named => ?_, known := fun c other => ?_ }
    · have apart : clientId cli ≠ realId v := mine ▸ (valid.other v member named).symm
      simp [approving.approved v member named, apart]
    · rw [approving.known c other, approvedAs_snoc, if_neg (own ▸ other.symm), Option.or_none]
  | known user member named same =>
    have rehashed := hashId_rehashed named
    refine approves_approving approving (approves_modify valid member rfl rfl rfl rfl rehashed ?_ same rfl ?_
      (fun _ => same) ?_ ?_ ?_)
    · obtain ⟨ids, known, real, realClient, hashed⟩ := named
      exact ⟨ids, known, real, realClient, rehashed.trans hashed⟩
    · exact fun w old real at_ => valid.unique w old user member real named.real (at_.trans same.symm)
    · exact fun own => valid.other user member named.real (same.trans own.symm)
    · rw [(knownAs_iff valid).mpr ⟨user, member, named.real, same, rfl⟩]
      rfl
    · exact (if_neg (fun first => by simpa [first.1] using named.real)).symm
  | admitted user member unnamed hashed other missing =>
    have list := admitUser_list epoch prev s cli user
    refine approves_approving approving (approves_modify valid member (congrArg (·.users) list)
      (congrArg (·.self) list) (congrArg (·.nextAddr) list) rfl rfl ⟨idsOf cli, covered, rfl, rfl, hashed⟩ rfl rfl ?_
      ?_ other ?_ ?_)
    · exact fun w old real same => absurd same (missing w old real)
    · exact fun real => absurd real (by simp [unnamed.1])
    · rw [knownAs_none valid missing, hashed]
      rfl
    · rw [list]
      simp [unnamed.1]
  | added new notSelf other missing =>
    exact approves_approving approving (addClient_approves valid covered new notSelf other missing)

end

theorem takeClient_approving {start : Userlist} {s : SeUpdate} {prev : Option UserRef} {done : List Client}
    (covered : idsOf cli ∈ names.ids) (approving : Approving names start done s) :
    Approving names start (done ++ [cli]) (takeClient names.hash names.secret epoch prev s cli) :=
  taken_approving covered approving (takeClient_taken covered approving.valid)

theorem beginSe_approving (valid : WellFormed names list) : Approving names (beginSe list) []
      { list := beginSe list, changed := false, removed := false, sync := false, calls := [] } where
  valid := by
    refine wellFormed_map valid rfl (Same.refl _) rfl (fun _ _ => ⟨rfl, rfl⟩) ?_ ?_
    · refine reals_kept valid.toReals rfl (fun v member _ => ?_)
      obtain ⟨u, old, rfl⟩ := mem_map.mp member
      exact ⟨u, old, rfl, rfl, rfl⟩
    · intro u member
      exact (valid.named u member).imp id (fun unnamed => ⟨unnamed.1, rfl⟩)
  self := Same.refl _
  stays := fun u member => ⟨u, member, rfl, rfl⟩
  unnamed := fun _ member _ => member
  approved := by
    intro v member _
    obtain ⟨u, -, rfl⟩ := mem_map.mp member
    simp [clearApproval]
  known := fun cli _ => by simp [approvedAs]
  keygenerator := .inl ⟨rfl, fun _ member _ _ => member⟩

theorem takeClients_approving (valid : WellFormed names list) (covered : ∀ cli ∈ clientl, idsOf cli ∈ names.ids)
    (epoch : UInt32) :
    Approving names (beginSe list) clientl (takeClients names.hash (beginSe list) clientl epoch names.secret) := by
  refine Runs.foldl_taken _ (fun done cli rest s whole approving => ?_) (beginSe_approving valid)
  exact takeClient_approving (covered cli (by simp [whole])) approving

theorem endSe_same (u : UserInfo) : Same (endSe u) u := by
  unfold endSe
  split
  · exact Same.refl u
  · exact ⟨rfl, rfl, rfl, rfl, rfl⟩

/-- An update with the approved clients `clientl` approves the user with these hashed ids. -/
def approves (names : Naming) (list : Userlist) (clientl : List Client) (id : Option Bytes × Option Bytes) : Bool :=
  clientl.any (fun cli => clientId cli ≠ realId list.self && approvedAs names list clientl cli = some id)

/-- A participant that is this client, or that an update with the approved clients `clientl` approves. -/
def eligibleWith (names : Naming) (list : Userlist) (clientl : List Client) (p : Part) : Bool :=
  isSelf list p || approves names list clientl (partId p)

theorem knownAs_beginSe : knownAs (beginSe list) cli = knownAs list cli := by
  rw [knownAs, knownAs, findByReal_eq, findByReal_eq, beginSe, List.find?_map, Option.map_map]
  rfl

section
variable (valid : WellFormed names list) (covered : ∀ cli ∈ clientl, idsOf cli ∈ names.ids) (epoch : UInt32)
include valid covered

theorem updateFromSelist_valid :
    WellFormed names (updateFromSelist names.hash list clientl epoch names.secret).list :=
  wellFormed_same (takeClients_approving valid covered epoch).valid rfl (Same.refl _) rfl endSe_same

/-- Who is approved after an update of the approved clients. -/
theorem updateFromSelist_approved {id : Option Bytes × Option Bytes} :
    approves names list clientl id = true ↔
      ∃ v ∈ (updateFromSelist names.hash list clientl epoch names.secret).list.users,
        hashId v = id ∧ v.seApproved = true := by
  have approving := takeClients_approving valid covered epoch
  have other : realId (takeClients names.hash (beginSe list) clientl epoch names.secret).list.self =
      realId list.self := approving.self.real
  have known : ∀ cli, clientId cli ≠ realId list.self →
      knownAs (takeClients names.hash (beginSe list) clientl epoch names.secret).list cli =
        approvedAs names list clientl cli := by
    intro cli away
    rw [approving.known cli away, approvedAs, knownAs_beginSe, approvedAs]
  simp only [approves, any_eq_true, Bool.and_eq_true, decide_eq_true_eq]
  constructor
  · rintro ⟨cli, member, away, named⟩
    rw [← known cli away, knownAs_iff approving.valid] at named
    obtain ⟨v, at_, real, same, hashed⟩ := named
    refine ⟨endSe v, mem_map_of_mem at_, (endSe_same v).hash.trans hashed, ?_⟩
    exact (endSe_same v).approved.trans ((approving.approved v at_ real).mpr ⟨cli, member, same.symm⟩)
  · rintro ⟨w, member, hashed, ok⟩
    obtain ⟨v, at_, rfl⟩ := mem_map.mp member
    rw [(endSe_same v).approved] at ok
    have named : Named names v :=
      (approving.valid.named v at_).resolve_right (fun unnamed => by simp [unnamed.2] at ok)
    obtain ⟨cli, heard, same⟩ := (approving.approved v at_ named.real).mp ok
    have away : clientId cli ≠ realId list.self := by
      rw [same, ← other]
      exact approving.valid.other v at_ named.real
    refine ⟨cli, heard, away, ?_⟩
    rw [← known cli away, knownAs_iff approving.valid]
    exact ⟨v, at_, named.real, same.symm, (endSe_same v).hash.symm.trans hashed⟩

theorem eligible_approved (p : Part) :
    eligible (updateFromSelist names.hash list clientl epoch names.secret).list p =
      eligibleWith names list clientl p := by
  have approving := takeClients_approving valid covered epoch
  have self : isSelf (updateFromSelist names.hash list clientl epoch names.secret).list p = isSelf list p :=
    isSelf_same approving.self
  rw [eligible, eligibleWith, self]
  congr 1
  rw [Bool.eq_iff_iff, updateFromSelist_approved valid covered epoch, Option.any_eq_true]
  refine exists_congr (fun v => ?_)
  rw [findPart_iff (updateFromSelist_valid valid covered epoch), and_assoc]

end

end Avs.Userlist
