import Avs.Roster

/-!
Who is in the call. Only an update from the SFT and `userlist_incall_clear` change that: after the first
somebody is in the call exactly when the SFT lists a participant that is not this client
(`updateBeforeSort_someoneIn`), and the second takes everybody out, or nobody where the decoders are forced.
-/
namespace Avs.Userlist
open List

/-- A user of the list is in the call. -/
def someoneIn (list : Userlist) : Bool := list.users.any (·.incallNow)

variable {list list' : Userlist} {f : UserInfo → UserInfo} {hash : UserHash} {secret : Bytes} {epoch : UInt32}
  {p : Part} {partlist : List Part} {first : Option Nat}

theorem incallCount_eq_zero : list.incallCount = 0 ↔ someoneIn list = false := by
  simp [incallCount, someoneIn, countP_eq_zero, any_eq_false]

theorem someoneIn_map (users : list'.users = list.users.map f)
    (keeps : ∀ u, (f u).incallNow = u.incallNow) : someoneIn list' = someoneIn list := by
  simp only [someoneIn, users, any_map, Function.comp_def, keeps]

theorem modify_someoneIn {a : Nat}
    (keeps : ∀ u, (f u).incallNow = u.incallNow) : someoneIn (list.modify a f) = someoneIn list := by
  refine someoneIn_map rfl (fun u => ?_)
  split
  · exact keeps u
  · rfl

theorem setSecret_someoneIn : someoneIn (list.setSecret hash secret) = someoneIn list :=
  someoneIn_map rfl (fun _ => rfl)

theorem getKeyTargets_someoneIn {sendToAll : Bool} : someoneIn (list.getKeyTargets sendToAll).1 = someoneIn list := by
  refine someoneIn_map rfl (fun u => ?_)
  split <;> rfl

theorem sort_someoneIn : someoneIn list.sort = someoneIn list := by
  rw [someoneIn, someoneIn, Bool.eq_iff_iff, any_eq_true, any_eq_true]
  simp only [sort, mem_insertionSort]

/-- `userlist_incall_clear` takes everybody out, unless the decoders are forced. -/
theorem incallClear_someoneIn {forceDecoder again : Bool} :
    someoneIn (list.incallClear forceDecoder again) = (someoneIn list && forceDecoder) := by
  cases forceDecoder with
  | true =>
    rw [Bool.and_true]
    exact someoneIn_map rfl (fun u => Bool.and_true _)
  | false => simp [someoneIn, incallClear]

theorem takeClient_someoneIn {prev : Option UserRef}
    {s : SeUpdate} {cli : Client} : someoneIn (takeClient hash secret epoch prev s cli).list = someoneIn s.list := by
  have added : ∀ u : UserInfo, u.incallNow = false → someoneIn (addClient epoch s cli u).list = someoneIn s.list := by
    intro u absent
    simp [someoneIn, addClient, append, approve, absent]
  unfold takeClient
  split
  · rfl
  · split
    · exact modify_someoneIn (fun _ => rfl)
    · simp only
      split
      · split
        · exact added _ rfl
        · refine (modify_someoneIn ?_).trans ?_
          · exact fun _ => rfl
          · split
            · exact modify_someoneIn (fun _ => rfl)
            · exact modify_someoneIn (fun _ => rfl)
      · exact added _ rfl

/-- Approving clients brings nobody into the call, and takes nobody out. -/
theorem updateFromSelist_someoneIn {clientl : List Client}
    : someoneIn (list.updateFromSelist hash clientl epoch secret).list = someoneIn list := by
  have taken : ∀ (rest : List Client) (s : SeUpdate),
      someoneIn (rest.foldl (takeClient hash secret epoch (beginSe list).keygenerator) s).list = someoneIn s.list := by
    intro rest
    induction rest with
    | nil => exact fun _ => rfl
    | cons cli rest ih => exact fun s => (ih _).trans takeClient_someoneIn
  have ended : ∀ u, (endSe u).incallNow = u.incallNow := by
    intro u
    unfold endSe
    split <;> rfl
  refine (someoneIn_map rfl ended).trans ((taken clientl _).trans ?_)
  exact someoneIn_map rfl (fun _ => rfl)

/-- A participant of a list is not this client. -/
def listsOthers (list : Userlist) (partlist : List Part) : Bool := partlist.any (fun p => !isSelf list p)

/-- The hashed ids of this client stay the same. -/
def SameSelf (list list' : Userlist) : Prop :=
  list'.self.useridHash = list.self.useridHash ∧ list'.self.clientidHash = list.self.clientidHash

theorem isSelf_sameSelf (same : SameSelf list list') : isSelf list' p = isSelf list p := by
  rw [isSelf, isSelf, same.1, same.2]

theorem listsOthers_sameSelf (same : SameSelf list list') : listsOthers list' partlist = listsOthers list partlist := by
  simp only [listsOthers, isSelf_sameSelf same]

/-- An entry of the SFT brings its participant into the call, unless it is this client. -/
theorem takePart_someoneIn {s : SftUpdate} : SameSelf s.list (takePart first s p).list ∧
      someoneIn (takePart first s p).list = (someoneIn s.list || !isSelf s.list p) := by
  unfold takePart
  split
  · next me => exact ⟨⟨rfl, rfl⟩, by rw [me, Bool.not_true, Bool.or_false]; rfl⟩
  · next notMe =>
    rw [Bool.eq_false_iff.mpr notMe, Bool.not_false, Bool.or_true]
    split
    · next u found =>
      refine ⟨⟨rfl, rfl⟩, any_eq_true.mpr ⟨_, mem_map_of_mem (findPart_some found).1, ?_⟩⟩
      rw [if_pos rfl]
      rfl
    · exact ⟨⟨rfl, rfl⟩, any_eq_true.mpr ⟨_, mem_append_right _ (mem_singleton_self _), rfl⟩⟩

theorem takeParts_someoneIn {rest : List Part} : ∀ s : SftUpdate, SameSelf s.list (rest.foldl (takePart first) s).list ∧
      someoneIn (rest.foldl (takePart first) s).list = (someoneIn s.list || listsOthers s.list rest) := by
  induction rest with
  | nil => exact fun s => ⟨⟨rfl, rfl⟩, (Bool.or_false _).symm⟩
  | cons p rest ih =>
    intro s
    obtain ⟨same, now⟩ := takePart_someoneIn
    obtain ⟨same', now'⟩ := ih (takePart first s p)
    refine ⟨⟨same'.1.trans same.1, same'.2.trans same.2⟩, ?_⟩
    rw [foldl_cons, now', now, listsOthers_sameSelf same, Bool.or_assoc]
    rfl

/-- After an update from the SFT somebody is in the call if the SFT lists another participant. -/
theorem updateBeforeSort_someoneIn {selfChanged : Bool} :
    someoneIn (list.updateBeforeSort partlist selfChanged).list = listsOthers list partlist := by
  have cleared : someoneIn (beginSft list) = false := by simp [someoneIn, beginSft, clearCall]
  refine (someoneIn_map rfl settle_now).trans ?_
  refine (takeParts_someoneIn _).2.trans ?_
  simp only [cleared, Bool.false_or]
  exact listsOthers_sameSelf ⟨rfl, rfl⟩

end Avs.Userlist
