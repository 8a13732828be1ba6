import Avs.KeyDescent

/-!
The exact effect of a rotation and of a new last key, where HKDF never fails: `current` moves by one key, and
a key with an index above all others is the last one afterwards.
-/
namespace Avs.Keystore
open List Option

/-- HKDF never fails. -/
def Total (hkdf : Hkdf) : Prop := ∀ n secret salt info, (hkdf n secret salt info).isSome

theorem shiftHkdf_total : Total shiftHkdf := fun _ _ _ _ => rfl

section
variable {hkdf : Hkdf} {ks : Keystore} {now : Nat → UInt64} {index : UInt32} {last c : KeyInfo}
  {pre post : List KeyInfo} {done : Done}

theorem hashLoop_total (total : Total hkdf) :
    ∀ (n : Nat) (ks : Keystore) (kinfo : KeyInfo), (hashLoop hkdf now index n ks kinfo).2 = none := by
  intro n
  induction n with
  | zero => exact fun _ _ => rfl
  | succ n ih =>
    intro ks kinfo
    unfold hashLoop
    split
    · obtain ⟨skey, session⟩ := isSome_iff_exists.mp
        (total sessionKeySize kinfo.skey.toList (ks.salt.getD []) skeyInfo)
      obtain ⟨mkey, media⟩ := isSome_iff_exists.mp (total sessionKeySize skey.toList (ks.salt.getD []) mkeyInfo)
      simp only [deriveSessionKey, session, deriveMediaKey, media]
      exact ih _ _
    · rfl

/-- Hashing forward succeeds from any last key. -/
theorem hashToKey_total (total : Total hkdf) (now : Nat → UInt64) (index : UInt32)
    (at_ : ks.keyl.getLast? = some last) : (hashToKey hkdf now ks index).2 = none := by
  simp only [hashToKey, getLatest, at_]
  exact hashLoop_total total _ ks last

/-- `rotateTo` drops what is before the current key and moves on to the next. -/
theorem rotateTo_spec (valid : Valid ks) (split : ks.keyl = pre ++ c :: post) (rotated : rotateTo ks c = some done) :
    ∃ next rest, post = next :: rest ∧ done.ks.keyl = c :: next :: rest ∧ done.ks.current = some next.addr := by
  obtain ⟨next, found, rfl⟩ := map_eq_some_iff.mp rotated
  rw [nextOf_split split valid.shaped] at found
  obtain ⟨rest, rfl⟩ := List.head?_eq_some_iff.mp found
  have split' : ks.keyl = (pre ++ [c]) ++ next :: rest := by simp [split]
  refine ⟨next, rest, rfl, ?_, ?_⟩
  · simp [organise_move split' valid.shaped]
  · simp [organise_move split' valid.shaped]

theorem hashed_one {ks' : Keystore} {next : KeyInfo} {rest : List KeyInfo}
    (hashed : Hashed hkdf (c.index + 1) ks ks' c (next :: rest)) : number next = number c + 1 ∧ rest = [] := by
  obtain ⟨follows, chain⟩ := isChain_cons_cons.mp hashed.chain
  refine ⟨follows.1, ?_⟩
  cases rest with
  | nil => rfl
  | cons k more =>
    have later := (isChain_cons_cons.mp chain).1.1
    have bounded := hashed.bounded k (by simp)
    have next_ := follows.1
    simp only [number, UInt32.toNat_add, UInt32.reduceToNat] at later bounded next_
    omega

/-- A rotation leaves an empty keystore as it is; otherwise it moves `current` to the next key, which is hashed from the
    current one where there is none. -/
theorem rotate_spec (total : Total hkdf) (valid : Valid ks)
    (forward : ks.hashForward = true) (rotated : rotate hkdf now ks = some done) :
    ks.current = none ∧ done.ks = ks ∨
      ∃ pre c post next rest, ks.keyl = pre ++ c :: post ∧ ks.current = some c.addr ∧
        (post = next :: rest ∨ post = [] ∧ rest = [] ∧ number next = number c + 1) ∧
        done.ks.keyl = c :: next :: rest ∧ done.ks.current = some next.addr := by
  rcases eq_none_or_eq_some ks.current with none_ | ⟨a, at_⟩
  · simp only [rotate, currentKey, none_] at rotated
    cases rotated
    exact .inl ⟨none_, rfl⟩
  · obtain ⟨pre, c, post, split, rfl, -, points⟩ := valid_split valid at_
    refine .inr ⟨pre, c, post, ?_⟩
    simp only [rotate, points, nextOf_split split valid.shaped, forward, if_true] at rotated
    cases post with
    | cons next rest =>
      obtain ⟨_, _, same, keyl, current⟩ := rotateTo_spec valid split rotated
      cases same
      exact ⟨next, rest, split, at_, .inl rfl, keyl, current⟩
    | nil =>
      have isLast : ks.keyl.getLast? = some c := by simp [split]
      obtain ⟨added, hashed, -⟩ := hashToKey_spec valid isLast
      have noError := hashToKey_total total now (c.index + 1) isLast
      rcases result : hashToKey hkdf now ks (c.index + 1) with ⟨ks', err⟩
      rw [result] at hashed noError
      obtain rfl : err = none := noError
      simp only [List.head?_nil, isSome_none, Bool.false_eq_true, if_false, result] at rotated
      obtain ⟨ts, addr, grown⟩ := hashed.same
      have split' : ks'.keyl = pre ++ c :: added := (congrArg (·.keyl) grown).trans (by simp [split])
      obtain ⟨next, rest, rfl, keyl, current⟩ := rotateTo_spec hashed.valid split' rotated
      obtain ⟨follows, alone⟩ := hashed_one hashed
      exact ⟨next, rest, split, at_, .inr ⟨rfl, alone, follows⟩, keyl, current⟩

/-- No key stands behind the current one. -/
def Tip (ks : Keystore) : Prop := ∀ c, currentKey ks = some (some c) → nextOf ks c.addr = none

theorem tip_split (valid : Valid ks) (split : ks.keyl = pre ++ c :: post)
    (at_ : ks.current = some c.addr) : Tip ks ↔ post = [] := by
  simp [Tip, currentKey_split split valid.shaped at_, nextOf_split split valid.shaped]

/-- At most one key stands behind the current one. -/
def Short (ks : Keystore) : Prop := ∀ a ∈ ks.current, (ks.keyl.dropWhile (fun k => k.addr ≠ a)).length ≤ 2

instance (ks : Keystore) : Decidable (Short ks) :=
  inferInstanceAs (Decidable (∀ a ∈ ks.current, (ks.keyl.dropWhile (fun k => k.addr ≠ a)).length ≤ 2))

theorem short_split (valid : Valid ks) (split : ks.keyl = pre ++ c :: post)
    (at_ : ks.current = some c.addr) : Short ks ↔ post.length ≤ 1 := by
  have shaped := valid.shaped
  rw [split] at shaped
  simp only [Short, at_, mem_def, some.injEq, forall_eq', split, dropWhile_split shaped, length_cons]
  omega

/-- After a rotation no key stands behind the current one exactly when at most one did before. -/
theorem rotate_tip (total : Total hkdf) (valid : Valid ks)
    (forward : ks.hashForward = true) (rotated : rotate hkdf now ks = some done) : Tip done.ks ↔ Short ks := by
  have valid' := valid_advance (rotate_advance valid rotated)
  rcases rotate_spec total valid forward rotated with
    ⟨none_, same⟩ | ⟨pre, c, post, next, rest, split, at_, next_, keyl, current⟩
  · simp [Tip, Short, same, currentKey, none_]
  · have split' : done.ks.keyl = [c] ++ next :: rest := keyl
    rw [tip_split valid' split' current, short_split valid split at_]
    rcases next_ with rfl | ⟨rfl, rfl, -⟩
    · simp
    · simp

/-- The last index after a rotation: one more where the current key was the last. -/
theorem rotate_latest (total : Total hkdf) (valid : Valid ks)
    (forward : ks.hashForward = true) (rotated : rotate hkdf now ks = some done) (latest : getLatest ks = some last) :
    (getMaxKey done.ks).toNat = if ks.current = some last.addr then number last + 1 else number last := by
  rcases rotate_spec total valid forward rotated with
    ⟨none_, -⟩ | ⟨pre, c, post, next, rest, split, at_, next_, keyl, -⟩
  · simp [getLatest, valid_empty valid none_] at latest
  · rcases next_ with rfl | ⟨rfl, rfl, follows⟩
    · have isLast : (next :: rest).getLast? = some last := by
        simpa [getLatest, split, List.getLast?_append] using latest
      have member : last ∈ next :: rest := mem_of_getLast? isLast
      have shaped := valid.shaped
      rw [split] at shaped
      have apart : c.addr ≠ last.addr := by
        intro same
        have equal : c = last := inj_on_of_nodup_map shaped.distinct (by simp)
          (mem_append_right pre (mem_cons_of_mem c member)) same
        have behind := (number_split shaped.ascending).2 last member
        simp [equal] at behind
      have max : getMaxKey done.ks = last.index := by
        rw [getMaxKey, getLatest, keyl, List.getLast?_cons_cons, isLast]
        rfl
      simp [at_, apart, max, number]
    · have same : last = c := by simpa [getLatest, split] using latest.symm
      have max : getMaxKey done.ks = next.index := by simp [getMaxKey, getLatest, keyl]
      rw [same, at_, if_pos rfl, max]
      exact follows

/-- A key with an index above all others is stored, as the last one; it is the current key only when it is the first. -/
theorem setSessionKey_last (now : UInt64) {key : Bytes} (total : Total hkdf) (valid : Valid ks)
    (nonempty : key.length ≠ 0) (above : ∀ k ∈ ks.keyl, number k < index.toNat) :
    ∃ kinfo done, setSessionKey hkdf now ks index key = some done ∧ done.err = none ∧
      indexed kinfo = (index, padKey key) ∧ done.ks.keyl = ks.keyl ++ [kinfo] ∧
      done.ks.current = some (ks.current.getD kinfo.addr) := by
  obtain ⟨mkey, derived⟩ := isSome_iff_exists.mp
    (total sessionKeySize (padKey key).toList (ks.salt.getD []) mkeyInfo)
  let kinfo : KeyInfo := { addr := ks.nextAddr, skey := padKey key, mkey := mkey, index := index, updateTs := now }
  have absent : ks.keyl.find? (fun k => k.index = index) = none := by
    refine List.find?_eq_none.mpr (fun k member same => ?_)
    have less := above k member
    simp only [decide_eq_true_eq] at same
    simp [number, same] at less
  rcases eq_none_or_eq_some ks.current with none_ | ⟨a, at_⟩
  · refine ⟨kinfo, insertKey hkdf now ks index key, ?_, ?_⟩
    · simp [setSessionKey, nonempty, currentKey, none_, absent]
    · rw [insertKey_first valid derived none_]
      simp [kinfo, indexed, valid_empty valid none_, none_]
  · obtain ⟨pre, c, post, split, rfl, short, points⟩ := valid_split valid at_
    have ahead := above c (by simp [split])
    have notOld : ¬ index < c.index := by
      rw [UInt32.lt_iff_toNat_lt]
      exact Nat.not_lt.mpr (Nat.le_of_lt ahead)
    refine ⟨kinfo, insertKey hkdf now ks index key, ?_, ?_⟩
    · simp [setSessionKey, nonempty, points, notOld, absent]
    · have grown : Valid { ks with updateTs := now, nextAddr := ks.nextAddr + 1 } :=
        valid_frame valid rfl rfl rfl (Nat.le_succ _)
      obtain ⟨appended, -⟩ := appendKey_last kinfo grown (by simp [at_]) above
        (fun k member => valid.shaped.below k member) (Nat.lt_succ_self _)
      have started : ks.init = true := by simp [valid.init, at_]
      have derived : deriveMediaKey hkdf ks.salt (padKey key) = some mkey := derived
      simp only [insertKey, derived, kinfo] at appended ⊢
      rw [appended]
      simp [started, indexed, at_]

end

end Avs.Keystore
