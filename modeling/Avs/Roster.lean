import Avs.Userlist

/-!
Who is who in the user list. Lookups compare the hashed ids of a user without regard to case; this module says
when two users are one (`Same`), what a user list must satisfy for lookups to be unambiguous (`WellFormed`),
and that lookups then depend only on which users are in the list.
-/
namespace Avs.Userlist
open List

theorem strcaseeq_iff {a b : Option Bytes} : strcaseeq a b = true ↔ fold a = fold b := by
  simp [strcaseeq]

/-- The hashed ids of a user as lookups compare them. -/
def hashId (u : UserInfo) : Option Bytes × Option Bytes := (fold u.useridHash, fold u.clientidHash)

def partId (p : Part) : Option Bytes × Option Bytes := (fold (some p.userid), fold (some p.clientid))

/-- The real ids of a user, and of a client, as lookups compare them. -/
def realId (u : UserInfo) : Option Bytes × Option Bytes := (fold u.useridReal, fold u.clientidReal)

def clientId (cli : Client) : Option Bytes × Option Bytes := (fold (some cli.userid), fold (some cli.clientid))

/-- The ids of a client as the application spells them. -/
def idsOf (cli : Client) : Bytes × Bytes := (cli.userid, cli.clientid)

/-- A hash with its secret, and the ids it is used on: it tells any two of them apart, even without regard to case. -/
structure Naming where
  hash : UserHash
  secret : Bytes
  ids : List (Bytes × Bytes)
  injective : ∀ a ∈ ids, ∀ b ∈ ids, fold (some (hash secret a.1 a.2)) = fold (some (hash secret b.1 b.2)) → a = b

/-- The hashed ids `hash_userinfo` gives to real ids. -/
def Naming.hashed (names : Naming) (ids : Bytes × Bytes) : Option Bytes × Option Bytes :=
  (fold (some (names.hash names.secret ids.1 ids.2)), fold (some (ascii "_")))

theorem Naming.hashed_inj {names : Naming} {a b : Bytes × Bytes} (knownA : a ∈ names.ids) (knownB : b ∈ names.ids)
    (same : names.hashed a = names.hashed b) : a = b :=
  names.injective a knownA b knownB (congrArg Prod.fst same)

variable {p : Part} {u v : UserInfo} {f : UserInfo → UserInfo} {list list' : Userlist} {names : Naming} {cli : Client}

theorem isSelf_iff : isSelf list p = true ↔ hashId list.self = partId p := by
  simp [isSelf, strcaseeq_iff, hashId, partId]

theorem findByHash_eq {userid clientid : Bytes} : findByHash list (some userid) (some clientid) =
      list.users.find? (fun u => hashId u = (fold (some userid), fold (some clientid))) := by
  simp only [findByHash, Option.isNone_some, Bool.or_self, Bool.false_eq_true, if_false]
  congr 1
  funext u
  rw [Bool.eq_iff_iff]
  cases userHash : u.useridHash <;> cases clientHash : u.clientidHash <;>
    simp [strcaseeq, hashId, fold, userHash, clientHash]

theorem findPart_eq : findPart list p = list.users.find? (fun u => hashId u = partId p) :=
  findByHash_eq

/-- Two states of one user, with the same ids and approval. -/
structure Same (u v : UserInfo) : Prop where
  addr : u.addr = v.addr
  hash : hashId u = hashId v
  userid : u.useridReal = v.useridReal
  clientid : u.clientidReal = v.clientidReal
  approved : u.seApproved = v.seApproved

theorem Same.refl (u : UserInfo) : Same u u := ⟨rfl, rfl, rfl, rfl, rfl⟩

theorem Same.real (same : Same u v) : realId u = realId v := by rw [realId, realId, same.userid, same.clientid]

theorem isSelf_same (self : Same list'.self list.self) : isSelf list' p = isSelf list p := by
  rw [Bool.eq_iff_iff, isSelf_iff, isSelf_iff, self.hash]

/-- A user whose real ids are known; its hashed ids are theirs. -/
def Named (names : Naming) (u : UserInfo) : Prop :=
  ∃ ids ∈ names.ids, u.useridReal = some ids.1 ∧ u.clientidReal = some ids.2 ∧ hashId u = names.hashed ids

/-- A user only the SFT has listed; it cannot be approved. -/
def Unnamed (u : UserInfo) : Prop := u.useridReal = none ∧ u.seApproved = false

/-- Users at different addresses, at addresses already handed out. -/
structure Addressed (list : Userlist) : Prop where
  distinct : (list.users.map (·.addr)).Nodup
  below : ∀ u ∈ list.users, u.addr < list.nextAddr

/-- No two users have the same real ids, and none has those of this client. -/
structure Reals (list : Userlist) : Prop where
  unique : ∀ u ∈ list.users, ∀ v ∈ list.users, u.useridReal.isSome → v.useridReal.isSome → realId u = realId v →
    u.addr = v.addr
  other : ∀ u ∈ list.users, u.useridReal.isSome → realId u ≠ realId list.self

/-- Lookups are unambiguous, real ids go with their hashes, and only users with real ids are approved. -/
structure WellFormed (names : Naming) (list : Userlist) : Prop extends Addressed list, Reals list where
  hashes : (list.users.map hashId).Nodup
  notSelf : ∀ u ∈ list.users, hashId u ≠ hashId list.self
  selfNamed : Named names list.self
  named : ∀ u ∈ list.users, Named names u ∨ Unnamed u

theorem Named.real (named : Named names u) : u.useridReal.isSome := by
  obtain ⟨ids, -, real, -⟩ := named
  simp [real]

theorem named_same (same : Same u v) (named : Named names v) : Named names u := by
  obtain ⟨ids, known, real, realClient, hashed⟩ := named
  exact ⟨ids, known, same.userid.trans real, same.clientid.trans realClient, same.hash.trans hashed⟩

theorem unnamed_same (same : Same u v) (unnamed : Unnamed v) : Unnamed u :=
  ⟨same.userid.trans unnamed.1, same.approved.trans unnamed.2⟩

section
variable (addressed : Addressed list)
include addressed

theorem addressed_addrs (users : list'.users.map (·.addr) = list.users.map (·.addr))
    (next : list'.nextAddr = list.nextAddr) : Addressed list' := by
  refine ⟨users ▸ addressed.distinct, ?_⟩
  intro u member
  have listed : u.addr ∈ list.users.map (·.addr) := users ▸ mem_map_of_mem member
  obtain ⟨v, old, same⟩ := mem_map.mp listed
  rw [← same, next]
  exact addressed.below v old

theorem addressed_map (keeps : ∀ u ∈ list.users, (f u).addr = u.addr)
    (users : list'.users = list.users.map f) (next : list'.nextAddr = list.nextAddr) : Addressed list' := by
  refine addressed_addrs addressed ?_ next
  rw [users, map_map]
  exact map_congr_left keeps

theorem addressed_perm (users : list'.users.Perm list.users) (next : list'.nextAddr = list.nextAddr) :
    Addressed list' :=
  ⟨(users.map _).nodup_iff.mpr addressed.distinct, fun u member => next ▸ addressed.below u (users.mem_iff.mp member)⟩

theorem addressed_append (at_ : u.addr = list.nextAddr) : Addressed (list.append u) := by
  constructor
  · simp only [append, map_append, map_cons, map_nil]
    refine nodup_append.mpr ⟨addressed.distinct, nodup_singleton _, ?_⟩
    intro a old b new same
    obtain ⟨v, member, rfl⟩ := mem_map.mp old
    have less := addressed.below v member
    rw [mem_singleton.mp new, at_] at same
    omega
  · intro v member
    rcases mem_append.mp member with old | new
    · exact Nat.lt_succ_of_lt (addressed.below v old)
    · rw [mem_singleton.mp new, at_]
      exact Nat.lt_succ_self _

end

theorem reals_kept (reals : Reals list) (self : realId list'.self = realId list.self)
    (kept : ∀ v ∈ list'.users, v.useridReal.isSome → ∃ u ∈ list.users, v.addr = u.addr ∧
      v.useridReal = u.useridReal ∧ v.clientidReal = u.clientidReal) : Reals list' := by
  constructor
  · intro v memberV w memberW namedV namedW same
    obtain ⟨u, oldU, addrU, useridU, clientidU⟩ := kept v memberV namedV
    obtain ⟨x, oldX, addrX, useridX, clientidX⟩ := kept w memberW namedW
    rw [addrU, addrX]
    refine reals.unique u oldU x oldX (useridU ▸ namedV) (useridX ▸ namedW) ?_
    rwa [realId, realId, useridU, clientidU, useridX, clientidX] at same
  · intro v memberV namedV same
    obtain ⟨u, oldU, -, useridU, clientidU⟩ := kept v memberV namedV
    refine reals.other u oldU (useridU ▸ namedV) ?_
    rwa [self, realId, useridU, clientidU] at same

/-- The user at one address takes real ids that nobody else has. -/
theorem reals_named (reals : Reals list) (self : list'.self = list.self) (new : Nat)
    (only : ∀ u ∈ list.users, u.useridReal.isSome → realId u = clientId cli → u.addr = new)
    (other : realId list.self ≠ clientId cli)
    (kept : ∀ v ∈ list'.users, v.useridReal.isSome → (v.addr = new ∧ realId v = clientId cli) ∨ v ∈ list.users) :
    Reals list' := by
  constructor
  · intro v memberV w memberW namedV namedW same
    rcases kept v memberV namedV with ⟨addrV, realV⟩ | oldV
    · rcases kept w memberW namedW with ⟨addrW, -⟩ | oldW
      · exact addrV.trans addrW.symm
      · exact addrV.trans (only w oldW namedW (same.symm.trans realV)).symm
    · rcases kept w memberW namedW with ⟨addrW, realW⟩ | oldW
      · exact (only v oldV namedV (same.trans realW)).trans addrW.symm
      · exact reals.unique v oldV w oldW namedV namedW same
  · intro v memberV namedV same
    rw [self] at same
    rcases kept v memberV namedV with ⟨-, realV⟩ | oldV
    · exact other (same.symm.trans realV)
    · exact reals.other v oldV namedV same

section
variable (valid : WellFormed names list)
include valid

/-- What a change of the users keeps when it keeps addresses and hashed ids. -/
theorem wellFormed_map (users : list'.users = list.users.map f)
    (self : Same list'.self list.self) (next : list'.nextAddr = list.nextAddr)
    (keeps : ∀ u ∈ list.users, (f u).addr = u.addr ∧ hashId (f u) = hashId u) (reals : Reals list')
    (named : ∀ u ∈ list.users, Named names (f u) ∨ Unnamed (f u)) : WellFormed names list' where
  toAddressed := addressed_map valid.toAddressed (fun u member => (keeps u member).1) users next
  toReals := reals
  hashes := by
    have same : list.users.map (hashId ∘ f) = list.users.map hashId :=
      map_congr_left (fun u member => (keeps u member).2)
    rw [users, map_map, same]
    exact valid.hashes
  notSelf := by
    rw [users, self.hash]
    intro v member
    obtain ⟨u, old, rfl⟩ := mem_map.mp member
    rw [(keeps u old).2]
    exact valid.notSelf u old
  selfNamed := named_same self valid.selfNamed
  named := by
    rw [users]
    intro v member
    obtain ⟨u, old, rfl⟩ := mem_map.mp member
    exact named u old

theorem wellFormed_same (users : list'.users = list.users.map f) (self : Same list'.self list.self)
    (next : list'.nextAddr = list.nextAddr) (keeps : ∀ u, Same (f u) u) : WellFormed names list' := by
  refine wellFormed_map valid users self next (fun u _ => ⟨(keeps u).addr, (keeps u).hash⟩) ?_ ?_
  · refine reals_kept valid.toReals self.real ?_
    rw [users]
    intro v member _
    obtain ⟨u, old, rfl⟩ := mem_map.mp member
    exact ⟨u, old, (keeps u).addr, (keeps u).userid, (keeps u).clientid⟩
  · intro u member
    exact (valid.named u member).imp (named_same (keeps u)) (unnamed_same (keeps u))

theorem wellFormed_perm (users : list'.users.Perm list.users)
    (self : Same list'.self list.self) (next : list'.nextAddr = list.nextAddr) : WellFormed names list' where
  toAddressed := addressed_perm valid.toAddressed users next
  toReals := reals_kept valid.toReals self.real
    (fun v member _ => ⟨v, users.mem_iff.mp member, rfl, rfl, rfl⟩)
  hashes := (users.map _).nodup_iff.mpr valid.hashes
  notSelf := fun u member => self.hash ▸ valid.notSelf u (users.mem_iff.mp member)
  selfNamed := named_same self valid.selfNamed
  named := fun u member => valid.named u (users.mem_iff.mp member)

theorem wellFormed_append (addr : u.addr = list.nextAddr)
    (new : ∀ v ∈ list.users, hashId v ≠ hashId u) (notSelf : hashId u ≠ hashId list.self)
    (reals : Reals (list.append u)) (named : Named names u ∨ Unnamed u) : WellFormed names (list.append u) where
  toAddressed := addressed_append valid.toAddressed addr
  toReals := reals
  hashes := by
    simp only [append, map_append, map_cons, map_nil]
    refine nodup_append.mpr ⟨valid.hashes, nodup_singleton _, ?_⟩
    intro a memberA b memberB
    obtain ⟨v, memberV, rfl⟩ := mem_map.mp memberA
    rw [mem_singleton.mp memberB]
    exact new v memberV
  notSelf := by
    intro v member
    rcases mem_append.mp member with old | new
    · exact valid.notSelf v old
    · rw [mem_singleton.mp new]
      exact notSelf
  selfNamed := valid.selfNamed
  named := by
    intro v member
    rcases mem_append.mp member with old | new
    · exact valid.named v old
    · rw [mem_singleton.mp new]
      exact named

theorem named_of_real (member : u ∈ list.users) (real : u.useridReal.isSome) : Named names u := by
  refine (valid.named u member).resolve_right (fun unnamed => ?_)
  simp [unnamed.1] at real

theorem hashId_unique (memberU : u ∈ list.users) (memberV : v ∈ list.users) (same : hashId u = hashId v) : u = v :=
  inj_on_of_nodup_map valid.hashes memberU memberV same

theorem addr_unique (memberU : u ∈ list.users) (memberV : v ∈ list.users) (same : u.addr = v.addr) : u = v :=
  inj_on_of_nodup_map valid.distinct memberU memberV same

end

theorem findPart_some (found : findPart list p = some u) : u ∈ list.users ∧ hashId u = partId p := by
  rw [findPart_eq] at found
  have holds := List.find?_some found
  exact ⟨mem_of_find?_eq_some found, of_decide_eq_true holds⟩

theorem findPart_none (missing : findPart list p = none) : ∀ u ∈ list.users, hashId u ≠ partId p := by
  rw [findPart_eq, List.find?_eq_none] at missing
  intro u member same
  exact missing u member (decide_eq_true same)

theorem findPart_iff (valid : WellFormed names list) :
    findPart list p = some u ↔ u ∈ list.users ∧ hashId u = partId p := by
  refine ⟨findPart_some, fun ⟨member, same⟩ => ?_⟩
  rcases Option.eq_none_or_eq_some (findPart list p) with missing | ⟨v, found⟩
  · exact absurd same (findPart_none missing u member)
  · obtain ⟨memberV, sameV⟩ := findPart_some found
    rw [found, hashId_unique valid member memberV (same.trans sameV.symm)]

theorem deref_user (valid : WellFormed names list) (member : u ∈ list.users) :
    list.deref (.user u.addr) = some u := by
  rcases Option.eq_none_or_eq_some (list.deref (.user u.addr)) with missing | ⟨v, found⟩
  · simp only [deref, List.find?_eq_none] at missing
    exact absurd (decide_eq_true rfl) (missing u member)
  · have holds := List.find?_some found
    have addr : v.addr = u.addr := of_decide_eq_true holds
    rw [found, addr_unique valid (mem_of_find?_eq_some found) member addr]

theorem findByReal_eq : findByReal list (some cli.userid) (some cli.clientid) =
      list.users.find? (fun u => u.useridReal.isSome && u.clientidReal.isSome && decide (realId u = clientId cli)) := by
  simp only [findByReal, Option.isNone_some, Bool.or_self, Bool.false_eq_true, if_false]
  congr 1
  funext u
  rw [Bool.eq_iff_iff]
  simp [strcaseeq, realId, clientId, and_assoc]

theorem findByReal_some (found : findByReal list (some cli.userid) (some cli.clientid) = some u) :
    u ∈ list.users ∧ u.useridReal.isSome ∧ realId u = clientId cli := by
  rw [findByReal_eq] at found
  have holds := List.find?_some found
  simp only [Bool.and_eq_true, decide_eq_true_eq] at holds
  exact ⟨mem_of_find?_eq_some found, holds.1.1, holds.2⟩

theorem findByReal_none (valid : WellFormed names list)
    (missing : findByReal list (some cli.userid) (some cli.clientid) = none) :
    ∀ u ∈ list.users, u.useridReal.isSome → realId u ≠ clientId cli := by
  rw [findByReal_eq, List.find?_eq_none] at missing
  intro u member known same
  obtain ⟨ids, -, real, realClient, -⟩ := named_of_real valid member known
  exact missing u member (by simp [same, real, realClient])

theorem settle_same (u : UserInfo) : Same (settle u) u := by
  unfold settle
  split
  · exact ⟨rfl, rfl, rfl, rfl, rfl⟩
  · split
    · exact ⟨rfl, rfl, rfl, rfl, rfl⟩
    · exact Same.refl u

theorem settle_listpos (u : UserInfo) : (settle u).listpos = u.listpos := by
  unfold settle
  split
  · rfl
  · split <;> rfl

theorem settle_now (u : UserInfo) : (settle u).incallNow = u.incallNow := by
  unfold settle
  split
  · rfl
  · split <;> rfl

theorem modify_same (keeps : ∀ u, Same (f u) u) {a : Nat} (u : UserInfo) : Same (if u.addr = a then f u else u) u := by
  split
  · exact keeps u
  · exact Same.refl u

end Avs.Userlist
