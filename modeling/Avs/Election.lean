import Avs.Approval
import Mathlib.Data.List.Find
import Mathlib.Data.List.Induction

/-!
The election of the key generator: the first participant of the SFT's list that is this client or an approved
user (`elect`). The update of the approved clients only patches the pointer when it approves the first listed
participant for the first time.
-/
namespace Avs.Userlist
open List Option

/-- The pointer to the user a listed participant is. -/
def refOf (list : Userlist) (p : Part) : Option UserRef :=
  if isSelf list p then some .self else (findPart list p).map (fun u => .user u.addr)

def elect (list : Userlist) (partlist : List Part) : Option UserRef :=
  (partlist.find? (eligible list)).bind (refOf list)

/-- Two lists find the same participants eligible, and the same users for them. -/
structure Agrees (list list' : Userlist) : Prop where
  eligible : ∀ p, eligible list' p = eligible list p
  ref : ∀ p, Userlist.eligible list p → refOf list' p = refOf list p

theorem Agrees.refl (list : Userlist) : Agrees list list := ⟨fun _ => rfl, fun _ _ => rfl⟩

theorem Agrees.trans {a b c : Userlist} (first : Agrees a b) (second : Agrees b c) : Agrees a c where
  eligible := fun p => (second.eligible p).trans (first.eligible p)
  ref := fun p holds => (second.ref p ((first.eligible p).trans holds)).trans (first.ref p holds)

variable {p : Part} {list' : Userlist} {list : Userlist} {partlist done : List Part} {f : UserInfo → UserInfo}
  {names : Naming} {userid clientid : Bytes} {u v : UserInfo} {clientl : List Client} {epoch : UInt32} {cli : Client}

theorem elect_agrees (agrees : Agrees list list') : elect list' partlist = elect list partlist := by
  have same : eligible list' = eligible list := funext agrees.eligible
  rw [elect, elect, same]
  rcases eq_none_or_eq_some (partlist.find? (eligible list)) with missing | ⟨p, found⟩
  · rw [missing]
    rfl
  · rw [found]
    exact agrees.ref p (List.find?_some found)

theorem agrees_map (users : list'.users = list.users.map f)
    (self : Same list'.self list.self) (keeps : ∀ u, Same (f u) u) : Agrees list list' := by
  have found : ∀ p, findPart list' p = (findPart list p).map f := by
    intro p
    have same : (fun u => decide (hashId u = partId p)) ∘ f = fun u => decide (hashId u = partId p) := by
      funext u
      simp [(keeps u).hash]
    rw [findPart_eq, findPart_eq, users, List.find?_map, same]
  constructor
  · intro p
    rw [eligible, eligible, isSelf_same self, found]
    cases findPart list p <;> simp [(keeps _).approved]
  · intro p _
    rw [refOf, refOf, isSelf_same self, found]
    cases findPart list p <;> simp [(keeps _).addr]

theorem agrees_perm (valid : WellFormed names list) (valid' : WellFormed names list')
    (users : list'.users.Perm list.users) (self : Same list'.self list.self) : Agrees list list' := by
  have found : ∀ p, findPart list' p = findPart list p := by
    intro p
    ext u
    rw [findPart_iff valid, findPart_iff valid', users.mem_iff]
  constructor
  · intro p
    rw [eligible, eligible, isSelf_same self, found]
  · intro p _
    rw [refOf, refOf, isSelf_same self, found]

theorem eligible_some (holds : eligible list p = true) (notMe : ¬ isSelf list p) :
    ∃ u, findPart list p = some u ∧ u.seApproved = true := by
  rw [eligible, Bool.or_eq_true] at holds
  exact (any_eq_true _ _).mp (holds.resolve_left notMe)

theorem agrees_append (unapproved : u.seApproved = false) : Agrees list (list.append u) := by
  have self : ∀ p, isSelf (list.append u) p = isSelf list p := fun _ => rfl
  have found : ∀ p, findPart (list.append u) p =
      (findPart list p).or (if hashId u = partId p then some u else none) := by
    intro p
    simp [findPart_eq, append, List.find?_append, List.find?_singleton]
  constructor
  · intro p
    rw [eligible, eligible, self, found]
    cases findPart list p with
    | none => by_cases match_ : hashId u = partId p <;> simp [match_, unapproved]
    | some v => simp
  · intro p holds
    rw [refOf, refOf, self, found]
    by_cases me : isSelf list p
    · rw [if_pos me, if_pos me]
    · obtain ⟨v, at_, -⟩ := eligible_some holds me
      simp [at_]

theorem elect_snoc : elect list (done ++ [p]) =
      if done.find? (eligible list) = none ∧ eligible list p then refOf list p else elect list done := by
  rw [elect, elect, List.find?_append]
  cases done.find? (eligible list) with
  | some q => simp
  | none => by_cases holds : eligible list p <;> simp [holds]

/-- A user of the call stands where the SFT's list has it, cut to the width of a position; the others stand nowhere. -/
def PlacedIn (done : List Part) (u : UserInfo) : Prop :=
  (u.incallNow = true → ∃ i : Nat, (done[i]?).map partId = some (hashId u) ∧ u.listpos = i.toUInt32) ∧
    (u.incallNow = false → u.listpos = listPosNone)

theorem placedIn_snoc (placed : PlacedIn done u) : PlacedIn (done ++ [p]) u := by
  refine ⟨fun now => ?_, placed.2⟩
  obtain ⟨i, here, pos⟩ := placed.1 now
  obtain ⟨q, found, same⟩ := map_eq_some_iff.mp here
  obtain ⟨below, -⟩ := List.getElem?_eq_some_iff.mp found
  exact ⟨i, by rwa [List.getElem?_append_left below], pos⟩

theorem placedIn_last (now : u.incallNow = true)
    (pos : u.listpos = done.length.toUInt32) (same : hashId u = partId p) : PlacedIn (done ++ [p]) u :=
  ⟨fun _ => ⟨done.length, by simp [same], pos⟩, fun absent => absurd (now.symm.trans absent) (by simp)⟩

/-- What holds in the loop over the participants once `done` of them are taken. -/
structure Taking (names : Naming) (start : Userlist) (done : List Part) (s : SftUpdate) : Prop where
  valid : WellFormed names s.list
  self : Same s.list.self start.self
  agrees : Agrees start s.list
  place : s.place = done.length
  elected : s.list.keygenerator = elect start done
  known : ∀ p ∈ done, partId p = hashId s.list.self ∨ ∃ u ∈ s.list.users, hashId u = partId p ∧ u.incallNow = true
  placed : ∀ u ∈ s.list.users, PlacedIn done u

section
variable {start : Userlist} {s : SftUpdate} {first : Option Nat}

theorem listedAs_same (pos : UInt32) (u : UserInfo) : Same (listedAs p pos u) u := ⟨rfl, rfl, rfl, rfl, rfl⟩

section
variable (taking : Taking names start done s)
include taking

theorem takeSelf_taking
    (isFirst : first = some done.length ↔ done.find? (eligible start) = none ∧ eligible start p)
    (me : isSelf s.list p) : Taking names start (done ++ [p]) (takeSelf first s p) where
  valid := wellFormed_same (f := id) taking.valid (by simp [takeSelf]) ⟨rfl, rfl, rfl, rfl, rfl⟩ rfl Same.refl
  self := ⟨taking.self.addr, taking.self.hash, taking.self.userid, taking.self.clientid, taking.self.approved⟩
  agrees := taking.agrees.trans (agrees_map (f := id) (by simp [takeSelf]) ⟨rfl, rfl, rfl, rfl, rfl⟩ Same.refl)
  place := by simp [takeSelf, taking.place]
  elected := by
    have self : isSelf start p := (isSelf_same taking.self).symm.trans me
    simp only [takeSelf, elect_snoc, taking.place, isFirst, taking.elected, refOf, self, if_true]
  known := by
    intro q member
    rcases mem_append.mp member with old | new
    · exact taking.known q old
    · exact .inl (mem_singleton.mp new ▸ (isSelf_iff.mp me).symm)
  placed := fun u member => placedIn_snoc (taking.placed u member)

theorem takeFound_taking
    (isFirst : first = some done.length ↔ done.find? (eligible start) = none ∧ eligible start p)
    (notMe : ¬ isSelf s.list p) (found : findPart s.list p = some u) :
    Taking names start (done ++ [p]) (takeFound first s p u) := by
  obtain ⟨memberU, hashU⟩ := findPart_some found
  have keeps : ∀ v, Same (if v.addr = u.addr then listedAs p s.place.toUInt32 v else v) v :=
    modify_same (listedAs_same s.place.toUInt32)
  refine ⟨?_, taking.self, ?_, ?_, ?_, ?_, ?_⟩
  · exact wellFormed_same taking.valid rfl (Same.refl _) rfl keeps
  · exact taking.agrees.trans (agrees_map rfl (Same.refl _) keeps)
  · simp [takeFound, taking.place]
  · simp only [takeFound, elect_snoc, taking.place, isFirst, taking.elected]
    split
    · next holds =>
      rw [← taking.agrees.ref p holds.2, refOf, if_neg notMe, found]
      rfl
    · rfl
  · intro q member
    rcases mem_append.mp member with old | new
    · refine (taking.known q old).imp id ?_
      rintro ⟨v, at_, same, now⟩
      refine ⟨_, mem_map_of_mem at_, (keeps v).hash.trans same, ?_⟩
      split
      · rfl
      · exact now
    · rw [mem_singleton.mp new]
      exact .inr ⟨_, mem_map_of_mem memberU, (keeps u).hash.trans hashU, by rw [if_pos rfl]; rfl⟩
  · intro v' member
    obtain ⟨v, memberV, rfl⟩ := mem_map.mp member
    split
    · next same =>
      rw [addr_unique taking.valid memberV memberU same]
      exact placedIn_last rfl (congrArg Nat.toUInt32 taking.place) hashU
    · exact placedIn_snoc (taking.placed v memberV)

theorem takeMissing_taking (notMe : ¬ isSelf s.list p) (missing : findPart s.list p = none) :
    Taking names start (done ++ [p]) (takeMissing s p) := by
  have new : ∀ v ∈ s.list.users, hashId v ≠ partId p := findPart_none missing
  have ineligible : ¬ eligible start p := by
    rw [← taking.agrees.eligible p]
    simp [eligible, notMe, missing]
  refine ⟨?_, taking.self, ?_, ?_, ?_, ?_, ?_⟩
  · refine wellFormed_append taking.valid rfl new (fun same => notMe (isSelf_iff.mpr same.symm)) ?_ (.inr ⟨rfl, rfl⟩)
    refine reals_kept taking.valid.toReals rfl (fun v member named => ?_)
    rcases mem_append.mp member with old | added
    · exact ⟨v, old, rfl, rfl, rfl⟩
    · rw [mem_singleton.mp added] at named
      exact absurd named (by simp [zalloc])
  · exact taking.agrees.trans (agrees_append rfl)
  · simp [takeMissing, taking.place]
  · rw [elect_snoc, if_neg (fun holds => ineligible holds.2)]
    exact taking.elected
  · intro q member
    rcases mem_append.mp member with old | added
    · refine (taking.known q old).imp id ?_
      rintro ⟨v, at_, same⟩
      exact ⟨v, mem_append_left _ at_, same⟩
    · rw [mem_singleton.mp added]
      exact .inr ⟨_, mem_append_right _ (mem_singleton.mpr rfl), rfl, rfl⟩
  · intro v member
    rcases mem_append.mp member with old | added
    · exact placedIn_snoc (taking.placed v old)
    · rw [mem_singleton.mp added]
      exact placedIn_last rfl (congrArg Nat.toUInt32 taking.place) rfl

theorem takePart_taking
    (isFirst : first = some done.length ↔ done.find? (eligible start) = none ∧ eligible start p) :
    Taking names start (done ++ [p]) (takePart first s p) := by
  rw [takePart]
  split
  · next me => exact takeSelf_taking taking isFirst me
  · next notMe =>
    split
    · next found => exact takeFound_taking taking isFirst notMe found
    · next missing => exact takeMissing_taking taking notMe missing

end

theorem findIdx?_at {α : Type*} (q : α → Bool) (before : List α) (a : α) (rest : List α) :
    (before ++ a :: rest).findIdx? q = some before.length ↔ before.find? q = none ∧ q a := by
  rw [List.findIdx?_eq_some_iff_getElem, List.find?_eq_none]
  constructor
  · rintro ⟨_, holds, earlier⟩
    refine ⟨fun x member => ?_, by simpa using holds⟩
    obtain ⟨i, lt, rfl⟩ := getElem_of_mem member
    simpa [getElem_append_left lt] using earlier i lt
  · rintro ⟨none, holds⟩
    refine ⟨by simp, by simpa using holds, fun j lt => ?_⟩
    simpa [getElem_append_left lt] using none _ (getElem_mem lt)

theorem takePart_first {rest : List Part} (whole : partlist = done ++ p :: rest) (taking : Taking names start done s) :
    Taking names start (done ++ [p]) (takePart (findFirstApproved start partlist) s p) :=
  takePart_taking taking (by rw [whole]; exact findIdx?_at (eligible start) done p rest)

end

theorem clearCall_same (u : UserInfo) : Same (clearCall u) u := ⟨rfl, rfl, rfl, rfl, rfl⟩

theorem beginSft_taking (valid : WellFormed names list) (selfChanged : Bool) :
    Taking names (beginSft list) []
      { list := beginSft list, place := 0, changed := false, selfChanged := selfChanged, missing := false,
        sync := false, calls := [] } where
  valid := wellFormed_same valid rfl ⟨rfl, rfl, rfl, rfl, rfl⟩ rfl clearCall_same
  self := Same.refl _
  agrees := Agrees.refl _
  place := rfl
  elected := rfl
  known := fun _ member => absurd member not_mem_nil
  placed := by
    intro v member
    obtain ⟨u, -, rfl⟩ := mem_map.mp member
    exact ⟨fun now => absurd now (by simp [clearCall]), fun _ => rfl⟩

/-- What an update from the SFT's list leaves. -/
structure Listed (names : Naming) (list : Userlist) (partlist : List Part) : Prop where
  valid : WellFormed names list
  elected : list.keygenerator = elect list partlist
  known : ∀ p ∈ partlist, partId p = hashId list.self ∨ ∃ u ∈ list.users, hashId u = partId p ∧ u.incallNow = true
  placed : ∀ u ∈ list.users, PlacedIn partlist u

theorem updateFromSftlist_listed (valid : WellFormed names list) {selfChanged : Bool} :
    Listed names (updateFromSftlist list partlist selfChanged).list partlist := by
  have taken : Taking names (beginSft list) partlist (takeParts (beginSft list) partlist selfChanged) :=
    Runs.foldl_taken _ (fun _ _ _ _ whole taking => takePart_first whole taking) (beginSft_taking valid selfChanged)
  unfold updateFromSftlist updateBeforeSort sort
  generalize takeParts (beginSft list) partlist selfChanged = s at taken
  have settled : WellFormed names { s.list with users := s.list.users.map settle } :=
    wellFormed_same taken.valid rfl (Same.refl _) rfl settle_same
  have sorted : ((s.list.users.map settle).insertionSort (fun a b => a.listpos ≤ b.listpos)).Perm
      (s.list.users.map settle) := perm_insertionSort _ _
  have valid' : WellFormed names { s.list with
      users := (s.list.users.map settle).insertionSort (fun a b => a.listpos ≤ b.listpos) } :=
    wellFormed_perm settled sorted (Same.refl _) rfl
  have kept : Agrees s.list { s.list with users := s.list.users.map settle } :=
    agrees_map rfl (Same.refl _) settle_same
  refine ⟨valid', ?_, ?_, ?_⟩
  · have agrees := (taken.agrees.trans kept).trans (agrees_perm settled valid' sorted (Same.refl _))
    rw [elect_agrees agrees]
    exact taken.elected
  · intro p member
    refine (taken.known p member).imp id ?_
    rintro ⟨u, at_, same, now⟩
    exact ⟨settle u, sorted.mem_iff.mpr (mem_map_of_mem at_), (settle_same u).hash.trans same,
      (settle_now u).trans now⟩
  · intro w member
    obtain ⟨u, at_, rfl⟩ := mem_map.mp (sorted.mem_iff.mp member)
    rw [PlacedIn, settle_now, settle_listpos, (settle_same u).hash]
    exact taken.placed u at_

/-- No participant is listed twice, and there are no more of them than positions. -/
def Distinct (partlist : List Part) : Prop := (partlist.map partId).Nodup ∧ partlist.length ≤ UInt32.size

theorem toUInt32_zero {i : Nat} (below : i < UInt32.size) : i.toUInt32 = 0 ↔ i = 0 := by
  rw [← UInt32.toNat_inj, Nat.toUInt32_eq, UInt32.toNat_ofNat_of_lt' below]
  rfl

theorem listed_head (listed : Listed names list partlist) (distinct : Distinct partlist) (member : u ∈ list.users) :
    u.listpos = 0 ↔ partlist.head?.map partId = some (hashId u) := by
  rw [List.head?_eq_getElem?]
  cases now : u.incallNow with
  | true =>
    obtain ⟨i, here, pos⟩ := (listed.placed u member).1 now
    obtain ⟨q, found, -⟩ := map_eq_some_iff.mp here
    obtain ⟨below, -⟩ := List.getElem?_eq_some_iff.mp found
    rw [pos, toUInt32_zero (Nat.lt_of_lt_of_le below distinct.2), ← here, ← List.getElem?_map, ← List.getElem?_map,
      eq_comm (a := (partlist.map partId)[0]?), List.getElem?_inj (by simpa using below) distinct.1]
  | false =>
    refine iff_of_false (by simp [(listed.placed u member).2 now, listPosNone]) (fun head => ?_)
    obtain ⟨q, found, same⟩ := map_eq_some_iff.mp head
    rcases listed.known q (mem_of_getElem? found) with mine | ⟨v, at_, hashed, now'⟩
    · exact listed.valid.notSelf u member (same.symm.trans mine)
    · rw [hashId_unique listed.valid at_ member (hashed.trans same), now] at now'
      exact absurd now' (by simp)

/-- The user a pointer points at, by its hashed ids. -/
def refId (list : Userlist) (ref : Option UserRef) : Option (Option Bytes × Option Bytes) :=
  (ref.bind list.deref).map hashId

def keygeneratorId (list : Userlist) : Option (Option Bytes × Option Bytes) := refId list list.keygenerator

theorem refId_elect (valid : WellFormed names list) :
    refId list (elect list partlist) = (partlist.find? (eligible list)).map partId := by
  rw [refId, elect]
  rcases eq_none_or_eq_some (partlist.find? (eligible list)) with missing | ⟨p, found⟩
  · rw [missing]
    rfl
  · have holds := List.find?_some found
    rw [found]
    by_cases me : isSelf list p
    · simp [refOf, me, deref, isSelf_iff.mp me]
    · obtain ⟨u, at_, -⟩ := eligible_some holds me
      obtain ⟨member, hashed⟩ := findPart_some at_
      simp [refOf, me, at_, deref_user valid member, hashed]

theorem refOf_congr {q : Part} (same : partId p = partId q) : refOf list p = refOf list q := by
  have self : isSelf list p = isSelf list q := by rw [Bool.eq_iff_iff, isSelf_iff, isSelf_iff, same]
  rw [refOf, refOf, findPart_eq, findPart_eq, same, self]

/-- Two lists with the same users, one of which may have more, elect the same user exactly when their first eligible
    participants are the same. -/
theorem elect_eq_iff (valid : WellFormed names list) (valid' : WellFormed names list')
    (self : Same list'.self list.self)
    (stays : ∀ u ∈ list.users, ∃ v ∈ list'.users, v.addr = u.addr ∧ hashId v = hashId u) :
    elect list' partlist = elect list partlist ↔
      (partlist.find? (eligible list')).map partId = (partlist.find? (eligible list)).map partId := by
  have refs : ∀ p, eligible list p → refOf list' p = refOf list p ∧
      refId list' (refOf list p) = refId list (refOf list p) := by
    intro p holds
    by_cases me : isSelf list p
    · simp [refOf, isSelf_same self, me, refId, deref, self.hash]
    · obtain ⟨u, at_, -⟩ := eligible_some holds me
      obtain ⟨member, hashed⟩ := findPart_some at_
      obtain ⟨v, memberV, addr, hashedV⟩ := stays u member
      have found : findPart list' p = some v := (findPart_iff valid').mpr ⟨memberV, hashedV.trans hashed⟩
      have deref : list'.deref (.user u.addr) = some v := addr ▸ deref_user valid' memberV
      simp [refOf, isSelf_same self, me, at_, found, addr, refId, deref, deref_user valid member, hashedV]
  rw [← refId_elect valid, ← refId_elect valid']
  rcases eq_none_or_eq_some (partlist.find? (eligible list)) with missing | ⟨p, found⟩
  · have none_ : elect list partlist = none := by rw [elect, missing]; rfl
    rw [none_]
    refine ⟨fun same => by rw [same]; rfl, fun same => ?_⟩
    rw [refId_elect valid'] at same
    rw [elect, map_eq_none_iff.mp same]
    rfl
  · obtain ⟨ref, id⟩ := refs p (List.find?_some found)
    have elected : elect list partlist = refOf list p := by rw [elect, found]; rfl
    rw [elected]
    refine ⟨fun same => by rw [same, id], fun same => ?_⟩
    rw [← elected, refId_elect valid, refId_elect valid', found] at same
    obtain ⟨q, found', hashed⟩ := map_eq_some_iff.mp same
    rw [elect, found', ← ref]
    exact refOf_congr hashed

theorem elect_head (valid : WellFormed names list) (member : v ∈ list.users) (approved : v.seApproved = true)
    (head : partlist.head?.map partId = some (hashId v)) : elect list partlist = some (.user v.addr) := by
  obtain ⟨p, first, same⟩ := map_eq_some_iff.mp head
  obtain ⟨rest, rfl⟩ := List.head?_eq_some_iff.mp first
  have notMe : ¬ isSelf list p := fun me => valid.notSelf v member (same.symm.trans (isSelf_iff.mp me).symm)
  have found : findPart list p = some v := (findPart_iff valid).mpr ⟨member, same.symm⟩
  have holds : eligible list p = true := by simp [eligible, found, approved]
  simp [elect, holds, refOf, notMe, found]

/-- A well-formed list in which a user that is not named yet stands first exactly when the first participant of the
    SFT's last list is that user. -/
structure Tracked (names : Naming) (list : Userlist) (partlist : List Part) : Prop where
  valid : WellFormed names list
  head : ∀ u ∈ list.users, u.useridReal = none → (u.listpos = 0 ↔ partlist.head?.map partId = some (hashId u))

inductive Update
  | sft (partlist : List Part) (selfChanged : Bool)
  | se (clientl : List Client) (epoch : UInt32)

/-- A client's user list and the list the SFT sent it last. -/
structure View where
  list : Userlist
  last : List Part

def start (names : Naming) (userid clientid : Bytes) : View :=
  ⟨setSecret names.hash (alloc userid clientid) names.secret, []⟩

def step (names : Naming) (view : View) : Update → View
  | .sft partlist selfChanged => ⟨(updateFromSftlist view.list partlist selfChanged).list, partlist⟩
  | .se clientl epoch => ⟨(updateFromSelist names.hash view.list clientl epoch names.secret).list, view.last⟩

def viewAfter (names : Naming) (userid clientid : Bytes) (updates : List Update) : View :=
  updates.foldl (step names) (start names userid clientid)

/-- The naming covers the ids of an update. -/
def Covered (names : Naming) : Update → Prop
  | .sft _ _ => True
  | .se clientl _ => ∀ cli ∈ clientl, idsOf cli ∈ names.ids

/-- The naming covers the ids that occur in a run. -/
def Covers (names : Naming) (userid clientid : Bytes) (updates : List Update) : Prop :=
  (userid, clientid) ∈ names.ids ∧ ∀ update ∈ updates, Covered names update

/-- An update whose participants, if it lists any, are distinct. -/
def Listable : Update → Prop
  | .sft partlist _ => Distinct partlist
  | .se _ _ => True

/-- No list of the SFT repeats a participant. -/
def DistinctThroughout (updates : List Update) : Prop := ∀ update ∈ updates, Listable update

instance : DecidablePred (Covered names)
  | .sft _ _ => inferInstanceAs (Decidable True)
  | .se clientl _ => inferInstanceAs (Decidable (∀ cli ∈ clientl, idsOf cli ∈ names.ids))

instance : DecidablePred Listable
  | .sft partlist _ => inferInstanceAs (Decidable ((partlist.map partId).Nodup ∧ partlist.length ≤ UInt32.size))
  | .se _ _ => inferInstanceAs (Decidable True)

instance (updates : List Update) : Decidable (Covers names userid clientid updates) :=
  inferInstanceAs (Decidable (_ ∧ ∀ update ∈ updates, Covered names update))

instance (updates : List Update) : Decidable (DistinctThroughout updates) :=
  inferInstanceAs (Decidable (∀ update ∈ updates, Listable update))

/-- The key generator is the first listed participant that is this client or approved, and none when there is no such
    participant. -/
def Right (view : View) : Prop := view.list.keygenerator = elect view.list view.last

/-- With the approved clients `clientl`, the first listed participant is approved for the first time, or the first
    participant that is this client or approved stays the same. -/
def FirstKept (names : Naming) (view : View) (clientl : List Client) : Prop :=
  (∃ u ∈ view.list.users, u.useridReal = none ∧ u.listpos = 0 ∧ approves names view.list clientl (hashId u) = true) ∨
    (view.last.find? (eligibleWith names view.list clientl)).map partId =
      (view.last.find? (eligible view.list)).map partId

/-- Every update of the approved clients keeps the first eligible participant, or admits the first listed one. -/
def FirstKeptThroughout (names : Naming) (userid clientid : Bytes) (updates : List Update) : Prop :=
  ∀ front clientl epoch, front ++ [.se clientl epoch] <+: updates →
    FirstKept names (viewAfter names userid clientid front) clientl

section
variable {updates : List Update} {view : View} {update : Update}

theorem viewAfter_snoc : viewAfter names userid clientid (updates ++ [update]) =
      step names (viewAfter names userid clientid updates) update := by
  simp [viewAfter]

theorem start_valid (covered : (userid, clientid) ∈ names.ids) :
    WellFormed names (start names userid clientid).list where
  distinct := nodup_nil
  below := fun _ member => absurd member not_mem_nil
  unique := fun _ member => absurd member not_mem_nil
  other := fun _ member => absurd member not_mem_nil
  hashes := nodup_nil
  notSelf := fun _ member => absurd member not_mem_nil
  selfNamed := ⟨(userid, clientid), covered, rfl, rfl, rfl⟩
  named := fun _ member => absurd member not_mem_nil

theorem step_valid (covered : Covered names update) (valid : WellFormed names view.list) :
    WellFormed names (step names view update).list := by
  cases update with
  | sft partlist selfChanged => exact (updateFromSftlist_listed valid).valid
  | se clientl epoch => exact updateFromSelist_valid valid covered epoch

theorem viewAfter_valid (covers : Covers names userid clientid updates) :
    WellFormed names (viewAfter names userid clientid updates).list :=
  List.foldlRecOn (motive := fun view : View => WellFormed names view.list) updates _ (start_valid covers.1)
    (fun _ valid _ member => step_valid (covers.2 _ member) valid)

theorem covers_front {front : List Update} (ahead : front <+: updates) (covers : Covers names userid clientid updates) :
    Covers names userid clientid front :=
  ⟨covers.1, fun update member => covers.2 update (ahead.subset member)⟩

theorem updateFromSelist_tracked (tracked : Tracked names list partlist)
    (covered : ∀ cli ∈ clientl, idsOf cli ∈ names.ids) (epoch : UInt32) :
    Tracked names (updateFromSelist names.hash list clientl epoch names.secret).list partlist := by
  refine ⟨updateFromSelist_valid tracked.valid covered epoch, ?_⟩
  intro w member unnamed
  obtain ⟨v, at_, rfl⟩ := mem_map.mp member
  rw [(endSe_same v).userid] at unnamed
  obtain ⟨u, old, rfl⟩ :=
    mem_map.mp ((takeClients_approving tracked.valid covered epoch).unnamed v at_ unnamed)
  have pos : (endSe (clearApproval u)).listpos = u.listpos := by
    unfold endSe
    split <;> rfl
  rw [pos, (endSe_same _).hash]
  exact tracked.head u old unnamed

theorem viewAfter_tracked (covers : Covers names userid clientid updates) (distinct : DistinctThroughout updates) :
    Tracked names (viewAfter names userid clientid updates).list (viewAfter names userid clientid updates).last := by
  refine List.foldlRecOn (motive := fun view : View => Tracked names view.list view.last) updates _
    ⟨start_valid covers.1, fun _ member => absurd member not_mem_nil⟩ (fun view tracked update member => ?_)
  cases update with
  | sft partlist selfChanged =>
    have listed : Listed names (updateFromSftlist view.list partlist selfChanged).list partlist :=
      updateFromSftlist_listed tracked.valid
    exact ⟨listed.valid, fun u at_ _ => listed_head listed (distinct _ member) at_⟩
  | se clientl epoch => exact updateFromSelist_tracked tracked (covers.2 _ member) epoch

/-- After an update of the approved clients from a right election, the election is right exactly when the first
    participant is admitted or the first eligible one stays the same. -/
theorem updateFromSelist_right (tracked : Tracked names view.list view.last)
    (covered : ∀ cli ∈ clientl, idsOf cli ∈ names.ids) (right : Right view) :
    Right (step names view (.se clientl epoch)) ↔ FirstKept names view clientl := by
  have approving := takeClients_approving tracked.valid covered epoch
  have valid' := updateFromSelist_valid tracked.valid covered epoch
  have image : ∀ v ∈ (takeClients names.hash (beginSe view.list) clientl epoch names.secret).list.users,
      endSe v ∈ (step names view (.se clientl epoch)).list.users := fun v member => mem_map_of_mem member
  have kept : elect (step names view (.se clientl epoch)).list view.last = elect view.list view.last ↔
      (view.last.find? (eligibleWith names view.list clientl)).map partId =
        (view.last.find? (eligible view.list)).map partId := by
    rw [← funext (eligible_approved tracked.valid covered epoch)]
    refine elect_eq_iff tracked.valid valid' approving.self (fun u old => ?_)
    obtain ⟨v, at_, addr, hashed⟩ := approving.stays (clearApproval u) (mem_map_of_mem old)
    exact ⟨endSe v, image v at_, (endSe_same v).addr.trans addr, (endSe_same v).hash.trans hashed⟩
  rw [FirstKept, ← kept, Right]
  have approved : ∀ {id}, approves names view.list clientl id = true ↔ _ :=
    updateFromSelist_approved tracked.valid covered epoch
  rcases approving.keygenerator with ⟨same, untouched⟩ | ⟨u', old', unnamed, pos, same, v, at_, addr, hashed, ok⟩
  · have notAdmitted : ¬ ∃ u ∈ view.list.users, u.useridReal = none ∧ u.listpos = 0 ∧
        approves names view.list clientl (hashId u) = true := by
      rintro ⟨u, old, unnamed, pos, admits⟩
      obtain ⟨v, at_, hashed, ok⟩ := approved.mp admits
      have still := image _ (untouched (clearApproval u) (mem_map_of_mem old) unnamed pos)
      rw [hashId_unique valid' at_ still (hashed.trans (endSe_same (clearApproval u)).hash.symm),
        (endSe_same _).approved] at ok
      exact absurd ok (by simp [clearApproval])
    have before : (step names view (.se clientl epoch)).list.keygenerator = elect view.list view.last :=
      same.trans right
    rw [before]
    exact ⟨fun same => .inr same.symm, fun or => (or.resolve_left notAdmitted).symm⟩
  · obtain ⟨u, old, rfl⟩ := mem_map.mp old'
    have hashed' : hashId (endSe v) = hashId u := (endSe_same v).hash.trans hashed
    have ok' : (endSe v).seApproved = true := (endSe_same v).approved.trans ok
    have elected : elect (step names view (.se clientl epoch)).list view.last = some (.user (endSe v).addr) :=
      elect_head valid' (image v at_) ok' (hashed' ▸ (tracked.head u old unnamed).mp pos)
    refine iff_of_true ?_ (.inl ⟨u, old, unnamed, pos, approved.mpr ⟨endSe v, image v at_, hashed', ok'⟩⟩)
    exact same.trans (by rw [show (step names view (.se clientl epoch)).last = view.last from rfl, elected,
      (endSe_same v).addr, addr])

/-- The election is right after every update exactly when every update of the approved clients keeps the first eligible
    participant or admits the first listed one. -/
theorem right_throughout_iff (covers : Covers names userid clientid updates) (distinct : DistinctThroughout updates) :
    (∀ front, front <+: updates → Right (viewAfter names userid clientid front)) ↔
      FirstKeptThroughout names userid clientid updates := by
  have tracked : ∀ front, front <+: updates → Tracked names (viewAfter names userid clientid front).list
      (viewAfter names userid clientid front).last := fun front ahead =>
    viewAfter_tracked (covers_front ahead covers) (fun update member => distinct update (ahead.subset member))
  constructor
  · intro right front clientl epoch ahead
    have shorter : front <+: updates := (prefix_append _ _).trans ahead
    have after := right _ ahead
    rw [viewAfter_snoc] at after
    exact (updateFromSelist_right (tracked front shorter) (covers.2 (.se clientl epoch) (ahead.subset (by simp)))
      (right front shorter)).mp after
  · intro kept front
    induction front using List.reverseRecOn with
    | nil => exact fun _ => rfl
    | append_singleton front update ih =>
      intro ahead
      have shorter : front <+: updates := (prefix_append _ _).trans ahead
      rw [viewAfter_snoc]
      cases update with
      | sft partlist selfChanged => exact (updateFromSftlist_listed (tracked front shorter).valid).elected
      | se clientl epoch =>
        exact (updateFromSelist_right (tracked front shorter) (covers.2 (.se clientl epoch) (ahead.subset (by simp)))
          (ih shorter)).mpr (kept front clientl epoch ahead)

end

/-- Every run keeps the election right exactly as long as each update of the approved clients keeps the first eligible
    participant or admits the first listed one; two clients with such runs that have the SFT's list in common and agree
    on who is eligible have the same key generator. -/
theorem keygenerator_elected_iff (names : Naming) :
    (∀ userid clientid updates, Covers names userid clientid updates → DistinctThroughout updates →
      ((∀ front, front <+: updates → Right (viewAfter names userid clientid front)) ↔
        FirstKeptThroughout names userid clientid updates)) ∧
    (∀ userid clientid userid' clientid' updates updates',
      Covers names userid clientid updates → Covers names userid' clientid' updates' →
      DistinctThroughout updates → FirstKeptThroughout names userid clientid updates →
      DistinctThroughout updates' → FirstKeptThroughout names userid' clientid' updates' →
      (viewAfter names userid clientid updates).last = (viewAfter names userid' clientid' updates').last →
      (∀ p ∈ (viewAfter names userid clientid updates).last,
        eligible (viewAfter names userid clientid updates).list p =
          eligible (viewAfter names userid' clientid' updates').list p) →
      keygeneratorId (viewAfter names userid clientid updates).list =
        keygeneratorId (viewAfter names userid' clientid' updates').list) := by
  refine ⟨fun _ _ _ covers distinct => right_throughout_iff covers distinct, ?_⟩
  intro userid clientid userid' clientid' updates updates' covers covers' distinct kept distinct' kept' sameList agree
  have right := (right_throughout_iff covers distinct).mpr kept updates (prefix_refl _)
  have right' := (right_throughout_iff covers' distinct').mpr kept' updates' (prefix_refl _)
  rw [keygeneratorId, keygeneratorId, right, right', refId_elect (viewAfter_valid covers),
    refId_elect (viewAfter_valid covers'), ← sameList, List.find?_congr agree]

/-- A hash that only spells the ids out: two bytes below 16 for each byte, and the byte 16 between the ids. -/
def spellHash : UserHash := fun _ userid clientid =>
  userid.flatMap (fun b => [b / 16, b % 16]) ++ 16 :: clientid.flatMap (fun b => [b / 16, b % 16])

/-- The spelled ids of Alice and Bob. -/
def spelling : Naming where
  hash := spellHash
  secret := []
  ids := [(ascii "alice", ascii "1"), (ascii "bob", ascii "1")]
  injective := by decide +kernel

def spellPart (userid clientid : String) (ssrca ssrcv : UInt32) : Part :=
  ⟨spellHash [] (ascii userid) (ascii clientid), ascii "_", .unknown, ssrca, ssrcv⟩

def bobThenAlice : List Part := [spellPart "bob" "1" 10 11, spellPart "alice" "1" 20 21]

def bobClient : Client := ⟨ascii "bob", ascii "1", true⟩

/-- Bob is approved, leads the SFT's list and is elected; then the approved clients no longer include Bob, and Bob stays
    key generator although Alice, whose list this is, is now the first participant that may be. -/
theorem keygenerator_stale : let updates := [.se [bobClient] 1, .sft bobThenAlice false, .se [] 2]
    Covers spelling (ascii "alice") (ascii "1") updates ∧ DistinctThroughout updates ∧
      (viewAfter spelling (ascii "alice") (ascii "1") updates).list.keygenerator = some (.user 1) ∧
      elect (viewAfter spelling (ascii "alice") (ascii "1") updates).list bobThenAlice = some .self ∧
      ¬ Right (viewAfter spelling (ascii "alice") (ascii "1") updates) := by
  unfold Right
  decide +kernel

/-- Bob leads the SFT's list before being approved, and is key generator as soon as the first list of approved clients
    names them. -/
theorem keygenerator_admitted : let updates := [.sft bobThenAlice false, .se [bobClient] 1]
    Right (viewAfter spelling (ascii "alice") (ascii "1") updates) ∧
      (viewAfter spelling (ascii "alice") (ascii "1") updates).list.keygenerator = some (.user 1) := by
  intro updates
  have kept : FirstKeptThroughout spelling (ascii "alice") (ascii "1") updates := by
    intro front clientl epoch ahead
    obtain ⟨rfl, rfl, rfl⟩ : front = [.sft bobThenAlice false] ∧ clientl = [bobClient] ∧ epoch = 1 := by
      rcases front with _ | ⟨first, _ | ⟨second, rest⟩⟩
      · simp [updates] at ahead
      · simpa [updates] using ahead
      · simp [updates] at ahead
    unfold FirstKept
    decide +kernel
  exact ⟨((keygenerator_elected_iff spelling).1 _ _ updates (by decide +kernel) (by decide +kernel)).mpr kept updates
    (prefix_refl _), by decide +kernel⟩

end Avs.Userlist
