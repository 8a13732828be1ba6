import Avs.Election

/-!
The integrity of the user list. The SFT lists users by hashed ids, the application approves them by real ids,
and a user known from one side is joined with the other once its hash is computed. No user is in the list
twice and none is this client (`Integrity`), and after an update from the SFT the users of the call are the
participants it listed, in their order and before all others (`Mirrors`). Ids are compared without regard to
case; a user that the SFT listed first keeps the SFT's spelling of its hash.
-/
namespace Avs.Userlist
open List Option

/-- No two users have the same real ids or the same hashed ids, none is this client, and a user with real ids has their
    hash. -/
structure Integrity (names : Naming) (list : Userlist) : Prop where
  reals : list.users.Pairwise (fun u v => u.useridReal.isSome → realId u ≠ realId v)
  hashes : list.users.Pairwise (fun u v => hashId u ≠ hashId v)
  notSelf : ∀ u ∈ list.users, hashId u ≠ hashId list.self ∧ realId u ≠ realId list.self
  named : ∀ u ∈ list.users, u.useridReal.isSome → Named names u

/-- The users of the call are the participants of the SFT's list other than this client, at their positions, and the
    other users come after them. Positions are 32 bits wide, and the last of them marks a user that is not listed. -/
structure Mirrors (list : Userlist) (partlist : List Part) : Prop where
  incall : ∀ id, (∃ u ∈ list.users, u.incallNow = true ∧ hashId u = id) ↔
    ∃ p ∈ partlist, isSelf list p = false ∧ partId p = id
  placed : partlist.length ≤ UInt32.size → ∀ u ∈ list.users, u.incallNow = true →
    (partlist[u.listpos.toNat]?).map partId = some (hashId u)
  sorted : list.users.Pairwise (fun u v => u.listpos ≤ v.listpos)
  after : partlist.length ≤ listPosNone.toNat →
    list.users.Pairwise (fun u v => v.incallNow = true → u.incallNow = true)

/-- A user with real ids has their hash to the letter. -/
def Carries (names : Naming) (u : UserInfo) : Prop :=
  ∀ userid clientid, u.useridReal = some userid → u.clientidReal = some clientid →
    u.useridHash = some (names.hash names.secret userid clientid) ∧ u.clientidHash = some (ascii "_")

/-- The SFT spells the hashes of clients as they do. -/
def Spelled (names : Naming) (partlist : List Part) : Prop :=
  ∀ p ∈ partlist, ∀ ids ∈ names.ids, partId p = names.hashed ids →
    p.userid = names.hash names.secret ids.1 ids.2 ∧ p.clientid = ascii "_"

def Spells (names : Naming) : Update → Prop
  | .sft partlist _ => Spelled names partlist
  | .se _ _ => True

instance (names : Naming) (update : Update) : Decidable (Spells names update) := by
  unfold Spells Spelled
  split <;> infer_instance

variable {partlist : List Part} {u v : UserInfo} {p : Part} {selfChanged : Bool} {s : SftUpdate} {names : Naming}
  {list : Userlist} {userid clientid : Bytes} {clientl : List Client} {epoch : UInt32} {updates : List Update}

theorem placedIn_short (placed : PlacedIn partlist u) (short : partlist.length ≤ UInt32.size)
    (now : u.incallNow = true) :
    (partlist[u.listpos.toNat]?).map partId = some (hashId u) := by
  obtain ⟨i, here, pos⟩ := placed.1 now
  obtain ⟨q, found, -⟩ := map_eq_some_iff.mp here
  obtain ⟨below, -⟩ := List.getElem?_eq_some_iff.mp found
  rw [pos, Nat.toUInt32_eq, UInt32.toNat_ofNat_of_lt' (Nat.lt_of_lt_of_le below short), here]

theorem pairwise_listed {users : List UserInfo} (placed : ∀ u ∈ users, PlacedIn partlist u)
    (sorted : users.Pairwise (fun u v => u.listpos ≤ v.listpos)) (short : partlist.length ≤ listPosNone.toNat) :
    users.Pairwise (fun u v => v.incallNow = true → u.incallNow = true) := by
  refine sorted.imp_of_mem (fun {u v} memberU memberV le now => ?_)
  by_contra absent
  have last : u.listpos = listPosNone := (placed u memberU).2 (by simpa using absent)
  have here := placedIn_short (placed v memberV) (Nat.le_trans short (by decide)) now
  obtain ⟨q, found, -⟩ := map_eq_some_iff.mp here
  obtain ⟨below, -⟩ := List.getElem?_eq_some_iff.mp found
  have le := UInt32.le_iff_toNat_le.mp le
  rw [last] at le
  omega

/-- After an update from the SFT the list mirrors what the SFT listed. -/
theorem updateFromSftlist_mirrors (valid : WellFormed names list) :
    Mirrors (updateFromSftlist list partlist selfChanged).list partlist := by
  have listed : Listed names (updateFromSftlist list partlist selfChanged).list partlist :=
    updateFromSftlist_listed valid
  have sorted : (updateFromSftlist list partlist selfChanged).list.users.Pairwise
      (fun u v => u.listpos ≤ v.listpos) :=
    pairwise_insertionSort (fun a b : UserInfo => a.listpos ≤ b.listpos) _
  generalize (updateFromSftlist list partlist selfChanged).list = after at listed sorted
  refine ⟨fun id => ⟨?_, ?_⟩, fun short u member => placedIn_short (listed.placed u member) short, sorted,
    pairwise_listed listed.placed sorted⟩
  · rintro ⟨u, member, now, rfl⟩
    obtain ⟨i, here, -⟩ := (listed.placed u member).1 now
    obtain ⟨q, found, same⟩ := map_eq_some_iff.mp here
    refine ⟨q, mem_of_getElem? found, ?_, same⟩
    rw [Bool.eq_false_iff]
    exact fun mine => listed.valid.notSelf u member (same.symm.trans (isSelf_iff.mp mine).symm)
  · rintro ⟨q, at_, notMe, rfl⟩
    rcases listed.known q at_ with mine | ⟨u, member, same, now⟩
    · exact absurd (isSelf_iff.mpr mine.symm) (by simp [notMe])
    · exact ⟨u, member, now, same⟩

/-- If a user has the hash of some ids, it has it to the letter. -/
def Spelt (names : Naming) (u : UserInfo) : Prop :=
  ∀ ids ∈ names.ids, hashId u = names.hashed ids →
    u.useridHash = some (names.hash names.secret ids.1 ids.2) ∧ u.clientidHash = some (ascii "_")

theorem spelt_congr (userid : v.useridHash = u.useridHash) (clientid : v.clientidHash = u.clientidHash)
    (spelt : Spelt names u) : Spelt names v := by
  rwa [Spelt, hashId, userid, clientid, ← hashId]

theorem spelt_hashed {ids : Bytes × Bytes} (known : ids ∈ names.ids) (real : u.useridReal = some ids.1)
    (realClient : u.clientidReal = some ids.2) : Spelt names (hashUserinfo names.hash names.secret u) := by
  intro ids' known' same
  rw [hashId_hashUserinfo real realClient] at same
  obtain rfl := names.hashed_inj known known' same
  simp [hashUserinfo, real, realClient]

theorem spelt_modify {f : UserInfo → UserInfo} {a : Nat} (spelt : ∀ u ∈ list.users, Spelt names u)
    (changed : ∀ u ∈ list.users, u.addr = a → Spelt names (f u)) :
    ∀ v ∈ (list.modify a f).users, Spelt names v := by
  intro v member
  obtain ⟨u, old, rfl⟩ := List.mem_map.mp member
  split
  · next here => exact changed u old here
  · exact spelt u old

theorem takePart_spelt {first : Option Nat} (spelt : ∀ u ∈ s.list.users, Spelt names u) (spelled : Spelled names [p]) :
    ∀ u ∈ (takePart first s p).list.users, Spelt names u := by
  unfold takePart
  split
  · exact spelt
  · split
    · exact spelt_modify spelt (fun u old _ => spelt_congr rfl rfl (spelt u old))
    · intro u member
      rcases mem_append.mp member with old | added
      · exact spelt u old
      · rw [mem_singleton.mp added]
        intro ids known same
        obtain ⟨hashed, client⟩ := spelled p (by simp) ids known same
        exact ⟨congrArg some hashed, congrArg some client⟩

theorem updateFromSftlist_spelt (spelt : ∀ u ∈ list.users, Spelt names u) (spelled : Spelled names partlist) :
    ∀ u ∈ (updateFromSftlist list partlist selfChanged).list.users, Spelt names u := by
  have taken : ∀ u ∈ (takeParts (beginSft list) partlist selfChanged).list.users, Spelt names u := by
    refine List.foldlRecOn (motive := fun s : SftUpdate => ∀ u ∈ s.list.users, Spelt names u) partlist _ ?_
      (fun _ spelt p member => takePart_spelt spelt (fun q same => spelled q (mem_singleton.mp same ▸ member)))
    intro v member
    obtain ⟨u, old, rfl⟩ := List.mem_map.mp member
    exact spelt_congr rfl rfl (spelt u old)
  intro w member
  obtain ⟨v, at_, rfl⟩ := List.mem_map.mp ((mem_insertionSort _).mp member)
  unfold settle
  split
  · exact spelt_congr rfl rfl (taken v at_)
  · split
    · exact spelt_congr rfl rfl (taken v at_)
    · exact taken v at_

theorem taken_spelt {s s' : SeUpdate} {cli : Client} {prev : Option UserRef} (covered : idsOf cli ∈ names.ids)
    (valid : WellFormed names s.list) (spelt : ∀ u ∈ s.list.users, Spelt names u)
    (taken : Taken names epoch prev s cli s') : ∀ u ∈ s'.list.users, Spelt names u := by
  cases taken with
  | own mine => exact spelt
  | known user member named same =>
    refine spelt_modify spelt (fun u old here => ?_)
    obtain rfl := addr_unique valid old member here
    obtain ⟨ids, known, real, realClient, -⟩ := named
    exact spelt_congr rfl rfl (spelt_hashed known real realClient)
  | admitted user member unnamed hashed other missing =>
    intro w new
    rcases admitUser_users (fun u old here => addr_unique valid old member here) new with ⟨old, -⟩ | rfl
    · exact spelt w old
    · exact spelt_congr rfl rfl (spelt user member)
  | added new notSelf other missing =>
    intro w member
    rcases mem_append.mp member with old | added
    · exact spelt w old
    · rw [mem_singleton.mp added]
      exact spelt_congr rfl rfl (spelt_hashed (u := { zalloc s.list.nextAddr with
        useridReal := some cli.userid, clientidReal := some cli.clientid }) covered rfl rfl)

theorem updateFromSelist_spelt (covered : ∀ cli ∈ clientl, idsOf cli ∈ names.ids) (valid : WellFormed names list)
    (spelt : ∀ u ∈ list.users, Spelt names u) :
    ∀ u ∈ (updateFromSelist names.hash list clientl epoch names.secret).list.users, Spelt names u := by
  have taken :
      Approving names (beginSe list) clientl (takeClients names.hash (beginSe list) clientl epoch names.secret) ∧
        ∀ u ∈ (takeClients names.hash (beginSe list) clientl epoch names.secret).list.users, Spelt names u := by
    refine Runs.foldl_taken
      (fun done s => Approving names (beginSe list) done s ∧ ∀ u ∈ s.list.users, Spelt names u)
      (fun done cli rest s whole both => ?_) ⟨beginSe_approving valid, fun v member => ?_⟩
    · have known := covered cli (by simp [whole])
      exact ⟨takeClient_approving known both.1,
        taken_spelt known both.1.valid both.2 (takeClient_taken known both.1.valid)⟩
    · obtain ⟨u, old, rfl⟩ := List.mem_map.mp member
      exact spelt_congr rfl rfl (spelt u old)
  intro w member
  obtain ⟨v, at_, rfl⟩ := List.mem_map.mp member
  unfold endSe
  split
  · exact taken.2 v at_
  · exact spelt_congr rfl rfl (taken.2 v at_)

theorem viewAfter_spelt (covers : Covers names userid clientid updates)
    (spells : ∀ update ∈ updates, Spells names update) :
    ∀ u ∈ (viewAfter names userid clientid updates).list.users, Spelt names u := by
  refine (List.foldlRecOn
    (motive := fun view : View => WellFormed names view.list ∧ ∀ u ∈ view.list.users, Spelt names u) updates _
    ⟨start_valid covers.1, fun _ member => absurd member not_mem_nil⟩ (fun view both update member => ?_)).2
  refine ⟨step_valid (covers.2 update member) both.1, ?_⟩
  cases update with
  | sft partlist selfChanged => exact updateFromSftlist_spelt both.2 (spells _ member)
  | se clientl epoch => exact updateFromSelist_spelt (covers.2 _ member) both.1 both.2

theorem carries_spelt (named : u.useridReal.isSome → Named names u) (spelt : Spelt names u) : Carries names u := by
  intro userid clientid real realClient
  obtain ⟨ids, known, real', realClient', hashed⟩ := named (by simp [real])
  obtain rfl : userid = ids.1 := some.inj (real.symm.trans real')
  obtain rfl : clientid = ids.2 := some.inj (realClient.symm.trans realClient')
  exact spelt ids known hashed

theorem wellFormed_integrity (valid : WellFormed names list) : Integrity names list := by
  have some_of_real : ∀ {u v : UserInfo}, realId u = realId v → u.useridReal.isSome → v.useridReal.isSome := by
    intro u v same real
    have folded : fold u.useridReal = fold v.useridReal := congrArg Prod.fst same
    cases known : v.useridReal with
    | some userid => rfl
    | none => simp [known, fold, isSome_iff_ne_none.mp real] at folded
  refine ⟨?_, pairwise_map.mp valid.hashes, ?_, fun u member => named_of_real valid member⟩
  · refine (valid.distinct.of_map _).pairwise_of_forall_ne (fun u memberU v memberV apart real same => apart ?_)
    exact addr_unique valid memberU memberV
      (valid.unique u memberU v memberV real (some_of_real same real) same)
  · intro u member
    refine ⟨valid.notSelf u member, fun same => ?_⟩
    exact valid.other u member (some_of_real same.symm valid.selfNamed.real) same

/-- After every run of updates with one secret the list has its integrity, with hashes to the letter where the SFT
    spells them so, and after an update from the SFT it mirrors the SFT's list. -/
theorem list_integrity (names : Naming) (userid clientid : Bytes) (updates : List Update)
    (covers : Covers names userid clientid updates) :
    Integrity names (viewAfter names userid clientid updates).list ∧
      ((∀ update ∈ updates, Spells names update) →
        ∀ u ∈ (viewAfter names userid clientid updates).list.users, Carries names u) ∧
      ∀ front partlist selfChanged, updates = front ++ [.sft partlist selfChanged] →
        Mirrors (viewAfter names userid clientid updates).list partlist := by
  have integrity := wellFormed_integrity (viewAfter_valid covers)
  refine ⟨integrity, fun spells u member => ?_, ?_⟩
  · exact carries_spelt (integrity.named u member) (viewAfter_spelt covers spells u member)
  · rintro front partlist selfChanged rfl
    rw [viewAfter_snoc]
    exact updateFromSftlist_mirrors (viewAfter_valid (covers_front (prefix_append _ _) covers))

/-- Bob is listed before being approved, and listed again after: Bob has the position of the list, and carries the hash
    to the letter. -/
theorem list_integrity_bob : let updates := [.sft bobThenAlice false, .se [bobClient] 1, .sft bobThenAlice false]
    let list := (viewAfter spelling (ascii "alice") (ascii "1") updates).list
    Integrity spelling list ∧ Mirrors list bobThenAlice ∧ (∀ u ∈ list.users, Carries spelling u) ∧
      list.users.map (fun u => (u.useridReal, u.incallNow, u.listpos)) = [(some (ascii "bob"), true, 0)] := by
  intro updates list
  obtain ⟨integrity, carries, mirrors⟩ :=
    list_integrity spelling (ascii "alice") (ascii "1") updates (by decide +kernel)
  exact ⟨integrity, mirrors [.sft bobThenAlice false, .se [bobClient] 1] _ false rfl, carries (by decide +kernel),
    by decide +kernel⟩

end Avs.Userlist
