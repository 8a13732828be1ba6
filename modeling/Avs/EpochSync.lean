import Avs.KeyOrder

/-!
The epoch synchronisation of an MLS call (`ccall_sync_media_keys`): the current key moves to the lowest epoch
that this client and the users in the call have reached (`Agreed`), if a key is held for it and it is ahead.
Then `ccall_rotate_mls_timeout` makes a key current that was held for `MLS_KEY_AGE`, whatever the users have
reported.
-/
namespace Avs.Userlist
open List Option Keystore

/-- A user whose epoch `userlist_get_key_index` counts. -/
def Counts (u : UserInfo) : Prop :=
  u.seApproved = true ∧ u.inSubconv = true ∧ u.incallNow = true ∧ u.latestEpoch ≠ 0

instance (u : UserInfo) : Decidable (Counts u) := inferInstanceAs (Decidable (_ ∧ _ ∧ _ ∧ _))

/-- An epoch that this client has reached, if it has one, and every user that counts, and that one of them is at. -/
structure Agreed (list : Userlist) (epoch : UInt32) : Prop where
  own : list.self.latestEpoch ≠ 0 → epoch ≤ list.self.latestEpoch
  users : ∀ u ∈ list.users, Counts u → epoch ≤ u.latestEpoch
  met : list.self.latestEpoch = epoch ∨ ∃ u ∈ list.users, Counts u ∧ u.latestEpoch = epoch

instance (list : Userlist) (epoch : UInt32) : Decidable (Agreed list epoch) :=
  decidable_of_iff (_ ∧ _ ∧ _) ⟨fun ⟨own, users, met⟩ => ⟨own, users, met⟩, fun ⟨own, users, met⟩ => ⟨own, users, met⟩⟩

/-- The body of the loop of `userlist_get_key_index`. -/
def lowest (minKey : UInt32) (u : UserInfo) : UInt32 :=
  if u.seApproved && u.inSubconv && u.incallNow && u.latestEpoch > 0 && (minKey = 0 || u.latestEpoch < minKey)
  then u.latestEpoch else minKey

theorem lowest_spec {minKey : UInt32} {u : UserInfo} : (minKey ≠ 0 → lowest minKey u ≠ 0 ∧ lowest minKey u ≤ minKey) ∧
      (Counts u → lowest minKey u ≠ 0 ∧ lowest minKey u ≤ u.latestEpoch) ∧
      (lowest minKey u = minKey ∨ (Counts u ∧ lowest minKey u = u.latestEpoch)) := by
  have positive : u.latestEpoch > 0 ↔ u.latestEpoch ≠ 0 := UInt32.pos_iff_ne_zero
  unfold lowest
  split
  · next lower =>
    simp only [Bool.and_eq_true, Bool.or_eq_true, decide_eq_true_eq, positive] at lower
    obtain ⟨⟨⟨⟨approved, subconv⟩, incall⟩, nonzero⟩, less⟩ := lower
    refine ⟨fun known => ⟨nonzero, ?_⟩, fun _ => ⟨nonzero, UInt32.le_refl _⟩,
      .inr ⟨⟨approved, subconv, incall, nonzero⟩, rfl⟩⟩
    exact UInt32.le_of_lt (less.resolve_left known)
  · next keeps =>
    refine ⟨fun known => ⟨known, UInt32.le_refl _⟩, ?_, .inl rfl⟩
    rintro ⟨approved, subconv, incall, nonzero⟩
    simpa [approved, subconv, incall, positive.mpr nonzero] using keeps

theorem foldl_lowest {users : List UserInfo} : ∀ minKey : UInt32, (minKey ≠ 0 → users.foldl lowest minKey ≤ minKey) ∧
      (∀ u ∈ users, Counts u → users.foldl lowest minKey ≤ u.latestEpoch) ∧
      (users.foldl lowest minKey = minKey ∨ ∃ u ∈ users, Counts u ∧ users.foldl lowest minKey = u.latestEpoch) := by
  induction users with
  | nil =>
    intro minKey
    exact ⟨fun _ => UInt32.le_refl _, fun _ member => absurd member not_mem_nil, .inl rfl⟩
  | cons v rest ih =>
    intro minKey
    obtain ⟨below, counted, from_⟩ := lowest_spec
    obtain ⟨below', counted', from'⟩ := ih (lowest minKey v)
    rw [foldl_cons]
    refine ⟨?_, ?_, ?_⟩
    · intro known
      exact UInt32.le_trans (below' (below known).1) (below known).2
    · intro u member counts
      rcases mem_cons.mp member with rfl | later
      · exact UInt32.le_trans (below' (counted counts).1) (counted counts).2
      · exact counted' u later counts
    · rcases from' with same | ⟨u, later, counts, same⟩
      · rw [same]
        exact from_.imp id (fun ⟨counts, same⟩ => ⟨v, mem_cons_self, counts, same⟩)
      · exact .inr ⟨u, mem_cons_of_mem _ later, counts, same⟩

theorem getKeyIndex_agreed {list : Userlist} : Agreed list list.getKeyIndex := by
  obtain ⟨own, users, from_⟩ := foldl_lowest list.self.latestEpoch
  refine ⟨own, users, ?_⟩
  rcases from_ with same | ⟨u, member, counts, same⟩
  · exact .inl same.symm
  · exact .inr ⟨u, member, counts, same.symm⟩

end Avs.Userlist

namespace Avs.Ccall
open List Option Keystore
open Keystore (currentKey)
open Userlist (Agreed bobClient bobThenAlice spellHash)

/-- The state in which an event calls `ccall_sync_media_keys`, if it does. -/
def syncing (env : Env) (cc : Ccall) : CcallEvent → Option Ccall
  | .setMediaKey epochid key =>
    if cc.isMlsCall then
      (cc.keystore.setSessionKey env.hkdf cc.now epochid key).bind (fun done =>
        if done.err.isSome then none
        else some { cc with
          keystore := done.ks
          epochStartTs := cc.now
          userl := cc.userl.setLatestEpoch epochid })
    else none
  | .propsync useridHash clientidHash muted latestEpoch =>
    if cc.nextEcall = 0 then none
    else (cc.userl.findByHash (some useridHash) (some clientidHash)).bind (fun user =>
      let cc := muteUser cc user muted
      if latestEpoch > 0 ∧ latestEpoch ≠ user.latestEpoch then
        some { cc with userl := cc.userl.modify user.addr (fun u => { u with latestEpoch := latestEpoch }) }
      else none)
  | _ => none

/-- What an event does after it called `ccall_sync_media_keys`. -/
def syncedThen : CcallEvent → Ccall → Option Ccall
  | .setMediaKey _ _, cc => rotateMlsTimeout cc
  | _, cc => some cc

/-- By agreement the current key stays, or moves ahead to a key that is held for an epoch that is agreed on. -/
def MovesByEpoch (list : Userlist) (ks ks' : Keystore) : Prop :=
  ks' = ks ∨ ∃ c k, currentKey ks = some (some c) ∧ k ∈ ks.keyl ∧ c.index < k.index ∧ Agreed list k.index ∧
    currentKey ks' = some (some k)

/-- By age the current key stays, or moves ahead in an active call to a key that has been held for `MLS_KEY_AGE`. -/
def MovesByAge (cc : Ccall) (ks ks' : Keystore) : Prop :=
  ks' = ks ∨ (cc.state = .active ∧ mlsKeyAge < cc.now ∧ ∃ c k, currentKey ks = some (some c) ∧ k ∈ ks.keyl ∧
    c.index < k.index ∧ k.updateTs ≤ cc.now - mlsKeyAge ∧ currentKey ks' = some (some k))

section
variable {env : Env} {cc before after : Ccall} {event : CcallEvent}

theorem step_syncing (syncs : syncing env cc event = some before) :
    step env event cc = (syncMediaKeys before).bind (syncedThen event) := by
  unfold syncing at syncs
  split at syncs
  · split at syncs
    · next mls =>
      obtain ⟨done, set, syncs⟩ := bind_eq_some_iff.mp syncs
      split at syncs
      · cases syncs
      · next succeeded =>
        cases syncs
        simp only [step, setMediaKey, mls, Bool.not_true, Bool.false_eq_true, if_false, set, succeeded]
        rfl
    · cases syncs
  · split at syncs
    · cases syncs
    · next inner =>
      obtain ⟨user, found, syncs⟩ := bind_eq_some_iff.mp syncs
      simp only at syncs
      split at syncs
      · next news =>
        cases syncs
        simp only [step, propsyncHandler, if_neg inner, found, if_pos news]
        exact (bind_fun_some _).symm
      · cases syncs
  · cases syncs

theorem syncing_valid (valid : cc.keystore.Valid) (syncs : syncing env cc event = some before) :
    before.keystore.Valid := by
  unfold syncing at syncs
  split at syncs
  · split at syncs
    · obtain ⟨done, set, syncs⟩ := bind_eq_some_iff.mp syncs
      split at syncs
      · cases syncs
      · cases syncs
        exact valid_setSessionKey _ _ _ _ valid set
    · cases syncs
  · split at syncs
    · cases syncs
    · obtain ⟨user, -, syncs⟩ := bind_eq_some_iff.mp syncs
      simp only at syncs
      split at syncs
      · cases syncs
        unfold muteUser
        split
        · exact valid
        · split <;> exact valid
      · cases syncs
  · cases syncs

theorem setCurrent_byEpoch {c : KeyInfo} {epoch : UInt32} (valid : cc.keystore.Valid)
    (points : currentKey cc.keystore = some (some c)) (ahead : c.index < epoch) (agreed : Agreed cc.userl epoch) :
    MovesByEpoch cc.userl cc.keystore (cc.keystore.setCurrent epoch).ks := by
  unfold Keystore.setCurrent
  split
  · exact .inl rfl
  · next kinfo found =>
    have same : kinfo.index = epoch := by simpa using List.find?_some found
    have held := mem_of_find?_eq_some found
    exact .inr ⟨c, kinfo, points, held, same ▸ ahead, same ▸ agreed, move_points valid held⟩

theorem rotateMlsTimeout_byAge (valid : cc.keystore.Valid) (rotated : rotateMlsTimeout cc = some after) :
    MovesByAge cc cc.keystore after.keystore := by
  unfold rotateMlsTimeout at rotated
  split at rotated
  · next active =>
    split at rotated
    · next late =>
      obtain ⟨⟨done, more⟩, byTime, rfl⟩ := map_eq_some_iff.mp rotated
      have kept : (if more then ({ cc with keystore := done.ks } : Ccall).tmrStart .rotateMls
          else { cc with keystore := done.ks }).keystore = done.ks := by
        split <;> rfl
      simp only [kept]
      rcases rotateByTime_later valid byTime with same | ⟨c, k, points, held, aged, later, points'⟩
      · exact .inl same
      · simp only [Bool.and_eq_true, decide_eq_true_eq] at active
        exact .inr ⟨active.1, late, c, k, points, held, later, aged, points'⟩
    · cases rotated
  · cases rotated
    exact .inl rfl

theorem sync_moves (valid : cc.keystore.Valid) (synced : syncMediaKeys cc = some after) :
    ∃ mid, MovesByEpoch cc.userl cc.keystore mid ∧ MovesByAge cc mid after.keystore := by
  unfold syncMediaKeys at synced
  simp only at synced
  split at synced
  · cases synced
    exact ⟨_, .inl rfl, .inl rfl⟩
  · split at synced
    · cases synced
    · cases synced
      exact ⟨_, .inl rfl, .inl rfl⟩
    · next curr ts current =>
      obtain ⟨c, points, rfl⟩ : ∃ c, currentKey cc.keystore = some (some c) ∧ c.index = curr := by
        obtain ⟨key, points, read⟩ := map_eq_some_iff.mp current
        cases key with
        | none => cases read
        | some c =>
          cases read
          exact ⟨c, points, rfl⟩
      split at synced
      · next ahead =>
        refine ⟨_, setCurrent_byEpoch valid points ahead Userlist.getKeyIndex_agreed, ?_⟩
        exact rotateMlsTimeout_byAge ((setCurrent_moved _ _).valid valid) synced
      · exact ⟨_, .inl rfl, rotateMlsTimeout_byAge valid synced⟩

end

/-- In every run of an MLS call the current key is one that is held, and a synchronisation moves it only by agreement
    and then by age. -/
theorem sync_conservative (env : Env) (convid useridSelf clientid secret : Bytes) (meeting : Bool) (now : UInt64)
    (events : List CcallEvent) (cc : Ccall)
    (ran : Runs.run (step env) (alloc env convid useridSelf clientid secret true meeting now) events = some cc) :
    (∀ a, cc.keystore.current = some a → ∃ k ∈ cc.keystore.keyl, k.addr = a) ∧
      ∀ event before, syncing env cc event = some before →
        step env event cc = (syncMediaKeys before).bind (syncedThen event) ∧
          ∀ after, syncMediaKeys before = some after →
            ∃ mid, MovesByEpoch before.userl before.keystore mid ∧ MovesByAge before mid after.keystore := by
  have sound := run_sound (sound_alloc env convid useridSelf clientid secret true meeting now) ran
  refine ⟨fun a at_ => ?_, fun event before syncs => ⟨step_syncing syncs, fun after synced => ?_⟩⟩
  · obtain ⟨pre, k, post, split, addr, -⟩ := valid_split sound.valid at_
    exact ⟨k, by simp [split], addr⟩
  · exact sync_moves (syncing_valid sound.valid syncs) synced

def bobReports (epoch : UInt32) : CcallEvent :=
  .propsync (spellHash [] (ascii "bob") (ascii "1")) (ascii "_") none epoch

def threeEpochs : List CcallEvent :=
  bobLeads ++ [.tick 100000, .setMediaKey 5 [5], bobReports 5, .setMediaKey 7 [7], .setMediaKey 9 [9]]

/-- Bob reports epoch 7 at once: the current key moves to that of epoch 7. -/
theorem sync_conservative_seven :
    ∃ cc before after mid c k, Runs.run (step plainEnv) (aliceCall true) threeEpochs = some cc ∧
      syncing plainEnv cc (bobReports 7) = some before ∧ syncMediaKeys before = some after ∧
      MovesByEpoch before.userl before.keystore mid ∧ MovesByAge before mid after.keystore ∧
      currentKey before.keystore = some (some c) ∧ currentKey after.keystore = some (some k) ∧
      c.index = 5 ∧ k.index = 7 := by
  simp only [exists_and_left]
  refine Runs.exists_shown (fun cc => ∃ before, syncing plainEnv cc (bobReports 7) = some before ∧
    ∃ after, syncMediaKeys before = some after ∧ ∃ c, currentKey before.keystore = some (some c) ∧
      ∃ k, currentKey after.keystore = some (some k) ∧ c.index = 5 ∧ k.index = 7) (by decide +kernel) ?_
  rintro cc ran ⟨before, syncs, after, synced, moved⟩
  obtain ⟨mid, byEpoch, byAge⟩ :=
    ((sync_conservative plainEnv _ _ _ _ false 0 _ cc ran).2 (bobReports 7) before syncs).2 after synced
  exact ⟨before, syncs, after, synced, mid, byEpoch, byAge, moved⟩

/-- Bob reports epoch 7 a minute later. By then the key of epoch 9 is old enough, and the synchronisation moves on to it
    although Bob is at epoch 7. -/
theorem synced_by_age :
    ∃ cc before after c k, Runs.run (step plainEnv) (aliceCall true) (threeEpochs ++ [.tick 160000]) = some cc ∧
      syncing plainEnv cc (bobReports 7) = some before ∧ syncMediaKeys before = some after ∧
      currentKey before.keystore = some (some c) ∧ currentKey after.keystore = some (some k) ∧
      c.index < k.index ∧ ¬ Agreed before.userl k.index := by
  simp only [exists_and_left]
  decide +kernel

end Avs.Ccall
