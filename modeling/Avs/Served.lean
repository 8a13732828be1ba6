import Avs.Approval

/-!
The users a key generator takes to have its keys: approved, in the call, and with `needs_key` cleared
(`Served`). The updates of the user list make no user served that was not served before (`Inherits`), but for
a user that is approved again while it is in the call (`Reapproves`).
-/
namespace Avs.Userlist
open List

section
variable {list : Userlist} {list' : Userlist} {f : UserInfo → UserInfo} {a : Nat} {u : UserInfo} {hash : UserHash}
  {secret : Bytes} {forceDecoder again selfChanged : Bool} {first : Option Nat} {s : SftUpdate} {p : Part}
  {partlist : List Part} {epoch : UInt32} {prev : Option UserRef} {cli : Client} {clientl : List Client}

section
variable (addressed : Addressed list)
include addressed

theorem addressed_modify (keeps : ∀ u, (f u).addr = u.addr) : Addressed (list.modify a f) := by
  refine addressed_map (f := fun u => if u.addr = a then f u else u) addressed (fun u _ => ?_) rfl rfl
  split
  · exact keeps u
  · rfl

theorem addressed_sort : Addressed list.sort := addressed_perm addressed (perm_insertionSort _ _) rfl

theorem setSecret_addressed : Addressed (list.setSecret hash secret) :=
  addressed_map (f := hashUserinfo hash secret) addressed (fun _ _ => rfl) rfl rfl

theorem incallClear_addressed : Addressed (list.incallClear forceDecoder again) := by
  refine addressed_addrs addressed ?_ rfl
  simp [incallClear]

theorem getKeyTargets_addressed {sendToAll : Bool} : Addressed (list.getKeyTargets sendToAll).1 := by
  refine addressed_map (f := fun u => if keyTarget sendToAll u then { u with needsKey := false } else u)
    addressed (fun u _ => ?_) rfl rfl
  split <;> rfl

end

theorem takePart_addressed (addressed : Addressed s.list) : Addressed (takePart first s p).list := by
  unfold takePart
  split
  · exact ⟨addressed.distinct, addressed.below⟩
  · split
    · rename_i u _
      have listed : Addressed (s.list.modify u.addr (listedAs p s.place.toUInt32)) :=
        addressed_modify addressed (fun _ => rfl)
      exact ⟨listed.distinct, listed.below⟩
    · exact addressed_append addressed rfl

theorem updateBeforeSort_addressed (addressed : Addressed list) :
    Addressed (list.updateBeforeSort partlist selfChanged).list := by
  have taken : Addressed (takeParts (beginSft list) partlist selfChanged).list :=
    List.foldlRecOn (motive := fun s : SftUpdate => Addressed s.list) partlist _
      (addressed_map (f := clearCall) addressed (fun _ _ => rfl) rfl rfl)
      (fun _ addressed _ _ => takePart_addressed addressed)
  exact addressed_map taken (fun u _ => (settle_same u).addr) rfl rfl

theorem takeClient_addressed {s : SeUpdate}
    (addressed : Addressed s.list) : Addressed (takeClient hash secret epoch prev s cli).list := by
  unfold takeClient
  split
  · exact addressed
  · split
    · exact addressed_modify addressed (fun _ => rfl)
    · simp only
      split
      · split
        · exact addressed_append addressed rfl
        · rename_i user _ _
          have named : Addressed (s.list.modify user.addr (nameUser epoch cli)) :=
            addressed_modify addressed (fun _ => rfl)
          refine addressed_modify ?_ (fun _ => rfl)
          split
          · exact ⟨named.distinct, named.below⟩
          · exact named
      · exact addressed_append addressed rfl

theorem beginSe_addressed (addressed : Addressed list) : Addressed (beginSe list) :=
  addressed_map (f := clearApproval) addressed (fun _ _ => rfl) rfl rfl

theorem updateFromSelist_addressed
    (addressed : Addressed list) : Addressed (list.updateFromSelist hash clientl epoch secret).list := by
  have taken : Addressed (takeClients hash (beginSe list) clientl epoch secret).list :=
    List.foldlRecOn (motive := fun s : SeUpdate => Addressed s.list) clientl _ (beginSe_addressed addressed)
      (fun _ addressed _ _ => takeClient_addressed addressed)
  exact addressed_map taken (fun u _ => (endSe_same u).addr) rfl rfl

def target (u : UserInfo) : Target := ⟨u.useridReal, u.clientidReal⟩

structure Served (u : UserInfo) : Prop where
  approved : u.seApproved = true
  incall : u.incallNow = true
  keyed : u.needsKey = false

/-- Every user served after was served before. -/
def Inherits (list list' : Userlist) : Prop :=
  ∀ u' ∈ list'.users, Served u' → ∃ u ∈ list.users, Served u ∧ target u = target u'

/-- A user of the list before an update from the SFT, as the update carries it along. -/
def Carried (list : Userlist) (u' : UserInfo) : Prop :=
  ∃ u ∈ list.users, target u = target u' ∧ u.seApproved = u'.seApproved ∧ u.needsKey = u'.needsKey ∧
    (u'.incallPrev = true → u.incallNow = true)

theorem takePart_carried (carried : ∀ u' ∈ s.list.users, u'.seApproved = true → Carried list u') :
    ∀ u' ∈ (takePart first s p).list.users, u'.seApproved = true → Carried list u' := by
  unfold takePart
  split
  · exact carried
  · split
    · intro u' member approved
      obtain ⟨v, old, rfl⟩ := mem_map.mp member
      split at approved
      · rename_i found same
        obtain ⟨u, held, ids, approval, flag, prev⟩ := carried v old approved
        refine ⟨u, held, ?_⟩
        rw [if_pos same]
        exact ⟨ids, approval, flag, fun both => prev (Bool.and_elim_left both)⟩
      · rename_i found same
        rw [if_neg same]
        exact carried v old approved
    · intro u' member approved
      rcases mem_append.mp member with old | new
      · exact carried u' old approved
      · obtain rfl := mem_singleton.mp new
        simp [zalloc] at approved

theorem settle_served (served : Served (settle u)) : Served u ∧ u.incallPrev = true ∧ target (settle u) = target u := by
  unfold settle at served ⊢
  split at served
  · exact absurd served.keyed (by simp)
  · rename_i stays
    rw [if_neg stays]
    split at served
    · rename_i left
      have gone : u.incallNow = true := served.incall
      simp [leaves, gone] at left
    · rename_i notLeft
      rw [if_neg notLeft]
      refine ⟨served, ?_, rfl⟩
      simp only [joins, served.approved, served.incall, Bool.true_and, Bool.or_eq_true, not_or] at stays
      simpa using stays.2

/-- An update from the SFT makes nobody served: a user that joins needs the keys. -/
theorem updateBeforeSort_inherits : Inherits list (list.updateBeforeSort partlist selfChanged).list := by
  have carried : ∀ u' ∈ (takeParts (beginSft list) partlist selfChanged).list.users, u'.seApproved = true →
      Carried list u' := by
    refine List.foldlRecOn (motive := fun s : SftUpdate => ∀ u' ∈ s.list.users, u'.seApproved = true → Carried list u')
      partlist _ ?_ (fun _ carried _ _ => takePart_carried carried)
    intro u' member _
    obtain ⟨u, old, rfl⟩ := mem_map.mp member
    exact ⟨u, old, rfl, rfl, rfl, id⟩
  intro u' member served
  obtain ⟨v, old, rfl⟩ := mem_map.mp member
  obtain ⟨served', was, same⟩ := settle_served served
  obtain ⟨u, held, ids, approval, flag, prev⟩ := carried v old served'.approved
  exact ⟨u, held, ⟨approval.trans served'.approved, prev was, flag.trans served'.keyed⟩, ids.trans same.symm⟩

/-- A user whose real ids are known, in the call but not approved, is approved. -/
def Reapproves (list list' : Userlist) : Prop :=
  ∃ u ∈ list.users, u.incallNow = true ∧ u.useridReal.isSome ∧ u.seApproved = false ∧
    ∃ u' ∈ list'.users, u'.addr = u.addr ∧ u'.seApproved = true

instance (list list' : Userlist) : Decidable (Reapproves list list') := by
  unfold Reapproves
  infer_instance

/-- A user of the list before an update of the approved clients, as the update carries it along; it is approved by its
    real ids only. -/
def Kept (list : Userlist) (u' : UserInfo) : Prop :=
  ∃ u ∈ list.users, u'.addr = u.addr ∧ target u = target u' ∧ u.incallNow = u'.incallNow ∧ u.needsKey = u'.needsKey ∧
    (u'.seApproved = true → u'.useridReal.isSome)

theorem takeClient_kept {s : SeUpdate} (addressed : Addressed s.list)
    (kept : ∀ u' ∈ s.list.users, u'.incallNow = true → u'.needsKey = false → Kept list u') :
    ∀ u' ∈ (takeClient hash secret epoch prev s cli).list.users, u'.incallNow = true → u'.needsKey = false →
      Kept list u' := by
  have added : ∀ {u : UserInfo}, u.incallNow = false → ∀ u' ∈ s.list.users ++ [approve epoch cli u],
      u'.incallNow = true → u'.needsKey = false → Kept list u' := by
    intro u out u' member incall keyed
    rcases mem_append.mp member with old | new
    · exact kept u' old incall keyed
    · rw [mem_singleton.mp new] at incall
      exact absurd (out.symm.trans incall) (by simp)
  unfold takeClient
  split
  · exact kept
  · split
    · rename_i user found
      obtain ⟨held, named, -⟩ := findByReal_some found
      intro u' member incall keyed
      obtain ⟨v, old, rfl⟩ := mem_map.mp member
      split at incall
      · rename_i same
        obtain rfl := inj_on_of_nodup_map addressed.distinct old held same
        simp only [if_true] at keyed ⊢
        obtain ⟨u, listed, addr, ids, now, flag, -⟩ := kept v old incall keyed
        exact ⟨u, listed, addr, ids, now, flag, fun _ => named⟩
      · rename_i other
        rw [if_neg other] at keyed ⊢
        exact kept v old incall keyed
    · simp only
      split
      · split
        · exact added rfl
        · rename_i user _ _
          intro u' member incall keyed
          simp only [admitUser, modify] at member
          obtain ⟨v, old, rfl⟩ := mem_map.mp member
          split at keyed
          · simp [approve] at keyed
          · rename_i other
            rw [if_neg other] at incall ⊢
            have old : v ∈ (s.list.modify user.addr (nameUser epoch cli)).users := by
              split at old
              · exact old
              · exact old
            obtain ⟨w, listed, rfl⟩ := mem_map.mp old
            by_cases same : w.addr = user.addr
            · rw [if_pos same] at other
              exact absurd same other
            · rw [if_neg same] at incall keyed ⊢
              exact kept w listed incall keyed
      · exact added rfl

theorem endSe_flags :
    target (endSe u) = target u ∧ (endSe u).incallNow = u.incallNow ∧ (endSe u).needsKey = u.needsKey := by
  unfold endSe
  split
  · exact ⟨rfl, rfl, rfl⟩
  · exact ⟨rfl, rfl, rfl⟩

/-- An update of the approved clients makes nobody served but by a second approval. -/
theorem updateFromSelist_inherits (addressed : Addressed list)
    (once : ¬ Reapproves list (list.updateFromSelist hash clientl epoch secret).list) :
    Inherits list (list.updateFromSelist hash clientl epoch secret).list := by
  have kept : Addressed (takeClients hash (beginSe list) clientl epoch secret).list ∧
      ∀ u' ∈ (takeClients hash (beginSe list) clientl epoch secret).list.users, u'.incallNow = true →
        u'.needsKey = false → Kept list u' := by
    refine List.foldlRecOn (motive := fun s : SeUpdate => Addressed s.list ∧ ∀ u' ∈ s.list.users,
      u'.incallNow = true → u'.needsKey = false → Kept list u') clientl _ ⟨beginSe_addressed addressed, ?_⟩
      (fun _ both _ _ => ⟨takeClient_addressed both.1, takeClient_kept both.1 both.2⟩)
    intro u' member _ _
    obtain ⟨u, old, rfl⟩ := mem_map.mp member
    exact ⟨u, old, rfl, rfl, rfl, rfl, by simp [clearApproval]⟩
  intro u' member served
  have last := member
  obtain ⟨v, old, rfl⟩ := mem_map.mp member
  obtain ⟨ids, now, flag⟩ := endSe_flags
  obtain ⟨u, held, addr', ids', now', flag', named⟩ := kept.2 v old (now ▸ served.incall) (flag ▸ served.keyed)
  have incall : u.incallNow = true := now'.trans (now ▸ served.incall)
  refine ⟨u, held, ⟨?_, incall, flag'.trans (flag ▸ served.keyed)⟩, ids'.trans ids.symm⟩
  cases approved : u.seApproved with
  | true => rfl
  | false =>
    have real : u.useridReal = v.useridReal := congrArg Target.userid ids'
    exact absurd ⟨u, held, incall, real ▸ named ((endSe_same v).approved ▸ served.approved), approved, endSe v, last,
      (endSe_same v).addr.trans addr', served.approved⟩ once

theorem inherits_map (users : list'.users = list.users.map f)
    (served : ∀ u, Served (f u) → Served u ∧ target u = target (f u)) : Inherits list list' := by
  intro u' member isServed
  obtain ⟨u, old, rfl⟩ := mem_map.mp (users ▸ member)
  obtain ⟨was, ids⟩ := served u isServed
  exact ⟨u, old, was, ids⟩

theorem inherits_users (users : ∀ u ∈ list'.users, u ∈ list.users) : Inherits list list' :=
  fun u member served => ⟨u, users u member, served, rfl⟩

theorem incallClear_inherits : Inherits list (list.incallClear forceDecoder again) := by
  refine inherits_map rfl (fun u served => ⟨⟨served.approved, ?_, served.keyed⟩, rfl⟩)
  exact Bool.and_elim_left served.incall

theorem askKey_inherits : Inherits list (list.modify a (fun u => { u with needsKey := true })) := by
  refine inherits_map rfl (fun u served => ?_)
  split at served
  · exact absurd served.keyed (by simp)
  · rename_i other
    rw [if_neg other]
    exact ⟨served, rfl⟩

theorem sort_inherits : Inherits list list.sort :=
  inherits_users (fun _ member => (perm_insertionSort _ _).mem_iff.mp member)

end

end Avs.Userlist
