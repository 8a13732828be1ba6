import Avs.KeystoreInvariant

/-!
Agreement by hashing forward. One session key at one index, under one salt, fixes the key of every later index
(`sessionKeyAfter`). A keystore that was given nothing else holds keys of that chain only (`Chained`), so two
of them never disagree.
-/
namespace Avs.Keystore
open List Option Runs

/-- The session key `n` hash-forward steps after `skey`. -/
def sessionKeyAfter (hkdf : Hkdf) (salt : Option Bytes) (skey : Key) : Nat → Option Key
  | 0 => some skey
  | n + 1 => (sessionKeyAfter hkdf salt skey n).bind (deriveSessionKey hkdf salt)

/-- The media key `n` hash-forward steps after `skey`. -/
def mediaKeyAfter (hkdf : Hkdf) (salt : Option Bytes) (skey : Key) (n : Nat) : Option Key :=
  (sessionKeyAfter hkdf salt skey n).bind (deriveMediaKey hkdf salt)

/-- A key that stands where the chain from `skey` at index `i` puts it. -/
def OnChain (hkdf : Hkdf) (salt : Option Bytes) (i : UInt32) (skey : Key) (k : KeyInfo) : Prop :=
  ∃ n, number k = i.toNat + n ∧ sessionKeyAfter hkdf salt skey n = some k.skey ∧
    deriveMediaKey hkdf salt k.skey = some k.mkey

/-- Every key of the keystore stands on the chain. -/
structure Chained (hkdf : Hkdf) (salt : Option Bytes) (i : UInt32) (skey : Key) (ks : Keystore) : Prop where
  valid : Valid ks
  salted : ks.salt = salt
  keys : ∀ k ∈ ks.keyl, OnChain hkdf salt i skey k

/-- Rotations and lookups, the operations that bring no key from outside. -/
def Op.Forward : Op → Prop
  | .rotate _ => True
  | .getMediaKey _ _ _ => True
  | _ => False

variable {ks : Keystore} {hkdf : Hkdf} {i : UInt32} {key : Key} {t₀ t₁ t₂ : UInt64}

section
variable {salt : Option Bytes} {skey : Key} {k k' : KeyInfo} {ks' : Keystore}

theorem onChain_follows (on : OnChain hkdf salt i skey k) (follows : Follows hkdf salt k k') :
    OnChain hkdf salt i skey k' := by
  obtain ⟨n, position, session, _⟩ := on
  obtain ⟨next, derived, media⟩ := follows
  refine ⟨n + 1, by omega, ?_, media⟩
  rw [sessionKeyAfter, session]
  exact derived

theorem onChain_isChain {added : List KeyInfo} :
    ∀ {k : KeyInfo}, OnChain hkdf salt i skey k → List.IsChain (Follows hkdf salt) (k :: added) →
      ∀ k' ∈ added, OnChain hkdf salt i skey k' := by
  induction added with
  | nil => simp
  | cons next rest ih =>
    intro k on chain k' member
    obtain ⟨follows, chain'⟩ := isChain_cons_cons.mp chain
    have onNext := onChain_follows on follows
    rcases mem_cons.mp member with rfl | later
    · exact onNext
    · exact ih onNext chain' k' later

theorem onChain_unique (on : OnChain hkdf salt i skey k) (on' : OnChain hkdf salt i skey k')
    (same : k.index = k'.index) : k.skey = k'.skey := by
  obtain ⟨n, position, session, _⟩ := on
  obtain ⟨m, position', session', _⟩ := on'
  have equal : number k = number k' := by rw [number, number, same]
  have : n = m := by omega
  subst this
  exact some.inj (session.symm.trans session')

theorem onChain_media (on : OnChain hkdf salt i skey k) :
    i.toNat ≤ k.index.toNat ∧ mediaKeyAfter hkdf salt skey (k.index.toNat - i.toNat) = some k.mkey := by
  obtain ⟨n, position, session, media⟩ := on
  have position : k.index.toNat = i.toNat + n := position
  have distance : k.index.toNat - i.toNat = n := by omega
  refine ⟨by omega, ?_⟩
  rw [distance, mediaKeyAfter, session]
  exact media

theorem organise_subset (ks : Keystore) : ∀ k ∈ (organise ks).keyl, k ∈ ks.keyl := by
  intro k member
  have sorted : ∀ y, y ∈ ks.keyl.insertionSort sortHandler ↔ y ∈ ks.keyl := by simp
  unfold organise at member
  rcases eq_none_or_eq_some ks.current with none_ | ⟨a, at_⟩
  · simp only [none_] at member
    exact (sorted k).mp member
  · simp only [at_] at member
    exact (sorted k).mp (KeyedList.cutBefore_suffix.subset member)

theorem organise_salt (ks : Keystore) : (organise ks).salt = ks.salt := by
  rcases eq_none_or_eq_some ks.current with none_ | ⟨a, at_⟩
  · simp only [organise, none_]
  · simp only [organise, at_]

theorem chained_extended (chained : Chained hkdf salt i skey ks)
    (extended : Extended hkdf ks ks') : Chained hkdf salt i skey ks' := by
  obtain ⟨valid, added, ts, addr, reported, rfl, grown⟩ := extended
  refine ⟨valid, chained.salted, ?_⟩
  intro k member
  rcases mem_append.mp member with old | new
  · exact chained.keys k old
  · rcases grown with rfl | ⟨last, isLast, chain⟩
    · simp at new
    · rw [chained.salted] at chain
      exact onChain_isChain (chained.keys last (mem_of_getLast? isLast)) chain k new

theorem chained_advance (chained : Chained hkdf salt i skey ks)
    (advance : Advance hkdf ks ks') : Chained hkdf salt i skey ks' := by
  cases advance with
  | stay extended => exact chained_extended chained extended
  | move extended points member ahead =>
    have chained' := chained_extended chained extended
    refine ⟨valid_move chained'.valid member, (organise_salt _).trans chained'.salted, ?_⟩
    intro k kept
    have old := organise_subset _ k kept
    exact chained'.keys k old

theorem chained_apply {op : Op} (forward : op.Forward) (chained : Chained hkdf salt i skey ks)
    (applied : apply hkdf op ks = some ks') : Chained hkdf salt i skey ks' := by
  cases op with
  | rotate now =>
    obtain ⟨done, rotated, rfl⟩ := map_eq_some_iff.mp applied
    exact chained_advance chained (rotate_advance chained.valid rotated)
  | getMediaKey index ksz now =>
    obtain ⟨⟨ks1, answer⟩, looked, rfl⟩ := map_eq_some_iff.mp applied
    exact chained_advance chained (getMediaKey_looked chained.valid looked).advance
  | _ => exact absurd forward (by simp [Op.Forward])

end

theorem padKey_toList (key : Key) : padKey key.toList = key := by
  ext n bound
  simp [padKey, getD_eq_getElem?_getD]

theorem key_nonempty (key : Key) : key.toList.length ≠ 0 := by
  rw [Vector.length_toList]
  decide

theorem chained_start {salt : Bytes}
    (started : run (apply hkdf) (alloc true t₀) [.setSalt (some salt) t₁, .setSessionKey i key.toList t₂] =
      some ks) : Chained hkdf (some salt) i key ks := by
  have valid := run_valid started
  let ks₀ : Keystore := { alloc true t₀ with salt := some salt, updateTs := t₁ }
  have valid₀ : Valid ks₀ := valid_frame (valid_alloc true t₀) rfl rfl rfl (Nat.le_refl _)
  have inserted : ks = (insertKey hkdf t₂ ks₀ i key.toList).ks := by
    simp only [run, apply, Keystore.setSalt, bind_some, setSessionKey, key_nonempty, if_false, currentKey,
      alloc, any_none, Bool.false_eq_true, List.find?_nil, map_some, some.injEq] at started
    exact started.symm
  cases derived : deriveMediaKey hkdf (some salt) (padKey key.toList) with
  | none =>
    refine ⟨valid, by simp [inserted, insertKey, ks₀, derived], ?_⟩
    simp [inserted, insertKey, ks₀, derived, alloc]
  | some mkey =>
    rw [insertKey_first valid₀ derived rfl] at inserted
    refine ⟨valid, by simp [inserted, ks₀], ?_⟩
    simp only [inserted, mem_singleton, forall_eq]
    refine ⟨0, rfl, ?_, derived⟩
    rw [sessionKeyAfter, padKey_toList]

theorem chained_run {salt : Bytes} {ops : List Op} (forward : ∀ op ∈ ops, op.Forward)
    (ran : run (apply hkdf) (alloc true t₀) ([.setSalt (some salt) t₁, .setSessionKey i key.toList t₂] ++ ops) =
      some ks) : Chained hkdf (some salt) i key ks := by
  obtain ⟨ks₀, started, ran'⟩ := run_append.mp ran
  exact run_invariant (fun _ _ _ allowed chained applied => chained_apply allowed chained applied) forward
    (chained_start started) ran'

/-- Two keystores that were given the same salt and the same key at the same index and nothing else answer lookups of an
    index with the same media key, that of the key chain, and have the same session key when they are at the same index.
    -/
theorem hash_forward_agreement (hkdf : Hkdf) (salt : Bytes) (i : UInt32) (key : Key) (t₀ t₁ t₂ u₀ u₁ u₂ : UInt64)
    (ops ops' : List Op) (ks ks' : Keystore) (forward : ∀ op ∈ ops, op.Forward) (forward' : ∀ op ∈ ops', op.Forward)
    (ran : run (apply hkdf) (alloc true t₀) ([.setSalt (some salt) t₁, .setSessionKey i key.toList t₂] ++ ops) =
      some ks)
    (ran' : run (apply hkdf) (alloc true u₀) ([.setSalt (some salt) u₁, .setSessionKey i key.toList u₂] ++ ops') =
      some ks') :
    (∀ j ksz now now' after after' out out',
      getMediaKey hkdf now ks j ksz = some (after, .ok out) →
      getMediaKey hkdf now' ks' j ksz = some (after', .ok out') →
        i ≤ j ∧ out = out' ∧
          ∃ mkey, mediaKeyAfter hkdf (some salt) key (j.toNat - i.toNat) = some mkey ∧
            out = mkey.toList.take ksz ++ List.replicate (ksz - sessionKeySize) 0) ∧
      ∀ c c', currentKey ks = some (some c) → currentKey ks' = some (some c') → c.index = c'.index →
        c.skey = c'.skey := by
  have chained := chained_run forward ran
  have chained' := chained_run forward' ran'
  constructor
  · intro j ksz now now' after after' out out' looked looked'
    have looked := getMediaKey_looked chained.valid looked
    have looked' := getMediaKey_looked chained'.valid looked'
    obtain ⟨k, member, rfl, rfl⟩ := looked.answered
    obtain ⟨k', member', same, rfl⟩ := looked'.answered
    obtain ⟨after, media⟩ := onChain_media ((chained_advance chained looked.advance).keys k member)
    obtain ⟨_, media'⟩ := onChain_media ((chained_advance chained' looked'.advance).keys k' member')
    rw [same, media] at media'
    exact ⟨after, by rw [some.inj media'], k.mkey, media, rfl⟩
  · intro c c' points points' same
    exact onChain_unique (chained.keys c (currentKey_mem points).1) (chained'.keys c' (currentKey_mem points').1) same

/-- A stand-in for HKDF in concrete runs: every byte moves on by the first byte of the info. -/
def shiftHkdf : Hkdf := fun _ secret _ info => some (Vector.ofFn fun b => secret.getD b 0 + info.getD 0 0)

/-- Three rotations on one side, one lookup three keys ahead on the other. -/
theorem hash_forward_agreement_burst : ∃ ks ks' c c', run (apply shiftHkdf) (alloc true 0)
        ([.setSalt (some [7]) 1, .setSessionKey 5 (Vector.replicate 32 3).toList 2] ++
          [.rotate (fun _ => 3), .rotate (fun _ => 4), .rotate (fun _ => 5)]) = some ks ∧
      run (apply shiftHkdf) (alloc true 0)
        ([.setSalt (some [7]) 1, .setSessionKey 5 (Vector.replicate 32 3).toList 2] ++
          [.getMediaKey 8 32 (fun _ => 9)]) = some ks' ∧
      currentKey ks = some (some c) ∧ currentKey ks' = some (some c') ∧ c.index = c'.index ∧ c.skey = c'.skey := by
  have shown : ∃ ks, run (apply shiftHkdf) (alloc true 0)
      ([.setSalt (some [7]) 1, .setSessionKey 5 (Vector.replicate 32 3).toList 2] ++
        [.rotate (fun _ => 3), .rotate (fun _ => 4), .rotate (fun _ => 5)]) = some ks ∧
      ∃ ks', run (apply shiftHkdf) (alloc true 0)
        ([.setSalt (some [7]) 1, .setSessionKey 5 (Vector.replicate 32 3).toList 2] ++
          [.getMediaKey 8 32 (fun _ => 9)]) = some ks' ∧
        ∃ c, currentKey ks = some (some c) ∧ ∃ c', currentKey ks' = some (some c') ∧ c.index = c'.index := by
    decide +kernel
  obtain ⟨ks, ran, ks', ran', c, points, c', points', index⟩ := shown
  have agree := (hash_forward_agreement _ _ _ _ _ _ _ _ _ _ _ _ ks ks' (by simp [Op.Forward]) (by simp [Op.Forward])
    ran ran').2 c c' points points' index
  exact ⟨ks, ks', c, c', ran, ran', points, points', index, agree⟩

end Avs.Keystore
