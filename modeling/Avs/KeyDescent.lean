import Avs.KeyChain
import Mathlib.Logic.Relation

/-!
Where the keys of a keystore come from, operation by operation. A session key is set from outside, or it is
the hash-forward successor of a key the keystore holds (`Hashes`); organising only drops keys. No operation
but a reset moves `current` back (`floor`).
-/
namespace Avs.Keystore
open List Option
open Relation (ReflTransGen)

def indexed (k : KeyInfo) : UInt32 × Key := (k.index, k.skey)

/-- The second key is the hash-forward successor of the first, under the salt of a conversation or under none. -/
def Hashes (hkdf : Hkdf) (hash : Bytes) (a b : UInt32 × Key) : Prop :=
  b.1.toNat = a.1.toNat + 1 ∧
    (deriveSessionKey hkdf none a.2 = some b.2 ∨ deriveSessionKey hkdf (some hash) a.2 = some b.2)

def Descends (hkdf : Hkdf) (hash : Bytes) : UInt32 × Key → UInt32 × Key → Prop := ReflTransGen (Hashes hkdf hash)

def floor (ks : Keystore) : Nat := ((currentKey ks).join.map number).getD 0

def Held (ks : Keystore) (k : KeyInfo) : Prop := k ∈ ks.keyl ∧ floor ks ≤ number k

section
variable {hkdf : Hkdf} {ks : Keystore} {hash key : Bytes} {ks' : Keystore} {k : KeyInfo} {now : UInt64}
  {index : UInt32} {done : Done} {salt : Option Bytes}

theorem hashes_follows {k' : KeyInfo} (salt : ks.salt = none ∨ ks.salt = some hash)
    (follows : Follows hkdf ks.salt k k') : Hashes hkdf hash (indexed k) (indexed k') := by
  obtain ⟨next, derived, -⟩ := follows
  refine ⟨next, ?_⟩
  rcases salt with none_ | some_
  · exact .inl (none_ ▸ derived)
  · exact .inr (some_ ▸ derived)

theorem descends_isChain (salt : ks.salt = none ∨ ks.salt = some hash) {added : List KeyInfo} :
    ∀ {k : KeyInfo}, List.IsChain (Follows hkdf ks.salt) (k :: added) →
      ∀ k' ∈ added, Descends hkdf hash (indexed k) (indexed k') := by
  induction added with
  | nil => simp
  | cons next rest ih =>
    intro k chain k' member
    obtain ⟨follows, chain'⟩ := isChain_cons_cons.mp chain
    have first := hashes_follows salt follows
    rcases mem_cons.mp member with rfl | later
    · exact .single first
    · exact ReflTransGen.head first (ih chain' k' later)

theorem organise_hashForward (ks : Keystore) : (organise ks).hashForward = ks.hashForward := by
  rcases eq_none_or_eq_some ks.current with none_ | ⟨a, at_⟩
  · simp only [organise, none_]
  · simp only [organise, at_]

/-- The salt and the choice to hash forward stay. -/
structure Kept (ks ks' : Keystore) : Prop where
  salt : ks'.salt = ks.salt
  hashForward : ks'.hashForward = ks.hashForward

theorem insertKey_kept : Kept ks (insertKey hkdf now ks index key).ks ∧
      ∀ k ∈ (insertKey hkdf now ks index key).ks.keyl, k ∈ ks.keyl ∨ indexed k = (index, padKey key) := by
  unfold insertKey
  simp only
  split
  · exact ⟨⟨rfl, rfl⟩, fun k member => .inl member⟩
  · rename_i mkey _
    let kinfo : KeyInfo := { addr := ks.nextAddr, skey := padKey key, mkey := mkey, index := index, updateTs := now }
    have appended : ∀ k ∈ (appendKey { ks with updateTs := now, nextAddr := ks.nextAddr + 1 } kinfo).keyl,
        k ∈ ks.keyl ∨ indexed k = (index, padKey key) := by
      intro k member
      rcases mem_append.mp (organise_subset _ k member) with old | new
      · exact .inl old
      · obtain rfl := mem_singleton.mp new
        exact .inr rfl
    have salt := organise_salt { ks with updateTs := now, nextAddr := ks.nextAddr + 1, keyl := ks.keyl ++ [kinfo] }
    have forward :=
      organise_hashForward { ks with updateTs := now, nextAddr := ks.nextAddr + 1, keyl := ks.keyl ++ [kinfo] }
    split
    · exact ⟨⟨salt, forward⟩, appended⟩
    · let first : Keystore := { appendKey { ks with updateTs := now, nextAddr := ks.nextAddr + 1 } kinfo with
        hasKeys := true, current := some ks.nextAddr }
      exact ⟨⟨(organise_salt first).trans salt, (organise_hashForward first).trans forward⟩,
        fun k member => appended k (organise_subset first k member)⟩

/-- A session key set from outside is the only new key. -/
theorem setSessionKey_kept (set : setSessionKey hkdf now ks index key = some done) :
    Kept ks done.ks ∧ ∀ k ∈ done.ks.keyl, k ∈ ks.keyl ∨ indexed k = (index, padKey key) := by
  rcases setSessionKey_cases set with ⟨same, -⟩ | ⟨kinfo, -, at_, rfl⟩ | ⟨-, -, rfl⟩
  · exact same ▸ ⟨⟨rfl, rfl⟩, fun k member => .inl member⟩
  · refine ⟨⟨rfl, rfl⟩, ?_⟩
    intro k member
    obtain ⟨old, member', rfl⟩ := List.mem_map.mp member
    split
    · exact .inr (by rw [← at_]; rfl)
    · exact .inl member'
  · exact insertKey_kept

theorem setFreshSessionKey_kept (set : setFreshSessionKey hkdf now ks index key salt = some done) :
    Kept ks done.ks ∧ ∀ k ∈ done.ks.keyl, k ∈ ks.keyl ∨
      ∃ salt' hashed, salt = some salt' ∧ hkdf sessionKeySize key salt' csInfo = some hashed ∧
        indexed k = (index, hashed) := by
  rcases setFreshSessionKey_cases set with ⟨same, -⟩ | ⟨hashed, derived, set⟩
  · exact same ▸ ⟨⟨rfl, rfl⟩, fun k member => .inl member⟩
  · obtain ⟨salt', known, derived⟩ := bind_eq_some_iff.mp derived
    obtain ⟨kept, keys⟩ := setSessionKey_kept set
    refine ⟨kept, fun k member => (keys k member).imp_right (fun new => ?_)⟩
    exact ⟨salt', hashed, known, derived, by rw [new, padKey_toList]⟩

theorem extended_kept (extended : Extended hkdf ks ks') :
    Kept ks ks' ∧ ∀ k ∈ ks'.keyl, k ∈ ks.keyl ∨ ∃ last, ks.keyl.getLast? = some last ∧
      ∀ hash, ks.salt = none ∨ ks.salt = some hash → Descends hkdf hash (indexed last) (indexed k) := by
  obtain ⟨-, added, ts, addr, reported, rfl, grown⟩ := extended
  refine ⟨⟨rfl, rfl⟩, ?_⟩
  intro k member
  rcases mem_append.mp member with old | new
  · exact .inl old
  · rcases grown with rfl | ⟨last, isLast, chain⟩
    · simp at new
    · exact .inr ⟨last, isLast, fun hash salt => descends_isChain salt chain k new⟩

theorem advance_kept (advance : Advance hkdf ks ks') :
    Kept ks ks' ∧ ∀ k ∈ ks'.keyl, k ∈ ks.keyl ∨ ∃ last, ks.keyl.getLast? = some last ∧
      ∀ hash, ks.salt = none ∨ ks.salt = some hash → Descends hkdf hash (indexed last) (indexed k) := by
  cases advance with
  | stay extended => exact extended_kept extended
  | move extended points member ahead =>
    obtain ⟨kept, keys⟩ := extended_kept extended
    refine ⟨⟨(organise_salt _).trans kept.salt, (organise_hashForward _).trans kept.hashForward⟩, ?_⟩
    intro k member
    have old := organise_subset _ k member
    exact keys k old

theorem getMediaKey_subset {now : Nat → UInt64} {ksz : Nat} {answer : Except Errno Bytes} (off : ks.hashForward = false)
    (looked : getMediaKey hkdf now ks index ksz = some (ks', answer)) : ∀ k ∈ ks'.keyl, k ∈ ks.keyl := by
  unfold getMediaKey at looked
  split at looked
  · obtain ⟨current, -, handed⟩ := map_eq_some_iff.mp looked
    simp only [handOut, Prod.mk.injEq] at handed
    obtain ⟨rfl, -⟩ := handed
    split
    · exact organise_subset _
    · exact fun k member => member
  · simp only [off, Bool.false_eq_true, if_false, some.injEq, Prod.mk.injEq] at looked
    obtain ⟨rfl, -⟩ := looked
    exact fun k member => member

theorem Moved.kept (moved : Moved ks done) : Kept ks done.ks ∧ ∀ k ∈ done.ks.keyl, k ∈ ks.keyl := by
  cases moved with
  | stays => exact ⟨⟨rfl, rfl⟩, fun k member => member⟩
  | moves => exact ⟨⟨organise_salt _, organise_hashForward _⟩, organise_subset _⟩

theorem floor_points {c : KeyInfo} (points : currentKey ks = some (some c)) : floor ks = number c := by
  simp [floor, points]

theorem floor_empty (at_ : ks.current = none) : floor ks = 0 := by simp [floor, currentKey, at_]

section
variable (valid : Valid ks)
include valid

theorem last_held {last : KeyInfo} (isLast : ks.keyl.getLast? = some last) : Held ks last := by
  obtain ⟨a, at_⟩ := isSome_iff_exists.mp (current_isSome valid isLast)
  obtain ⟨pre, c, post, split, -, -, points⟩ := valid_split valid at_
  refine ⟨mem_of_getLast? isLast, ?_⟩
  rw [floor_points points]
  exact last_largest valid.shaped.ascending isLast c (by simp [split])

theorem move_points (member : k ∈ ks.keyl) :
    currentKey (organise { ks with current := some k.addr }) = some (some k) := by
  have shaped := (valid_move valid member).shaped
  obtain ⟨pre, post, split⟩ := append_of_mem member
  rw [organise_move split valid.shaped] at shaped ⊢
  exact currentKey_split rfl shaped rfl

theorem extended_floor (extended : Extended hkdf ks ks') : floor ks' = floor ks := by
  rw [floor, extended_currentKey valid extended, floor]

theorem advance_floor (advance : Advance hkdf ks ks') : floor ks ≤ floor ks' := by
  cases advance with
  | stay extended => exact (extended_floor valid extended).ge
  | move extended points member ahead =>
    rw [← extended_floor valid extended, floor_points points, floor_points (move_points extended.1 member)]
    exact Nat.le_of_lt ahead

theorem overwrite_floor {kinfo : KeyInfo}
    (member : kinfo ∈ ks.keyl) : floor ks ≤ floor (overwrite hkdf now ks kinfo key).ks := by
  obtain ⟨c, points⟩ := currentKey_of_mem valid member
  obtain ⟨c', points', same, -⟩ := overwrite_currentKey valid member points
  rw [floor_points points, floor_points points', number, number, same]

theorem insertKey_floor (absent : ∀ k ∈ ks.keyl, k.index ≠ index)
    (ahead : ∀ k, currentKey ks = some (some k) → k.index.toNat ≤ index.toNat) :
    floor ks ≤ floor (insertKey hkdf now ks index key).ks := by
  rcases insertKey_currentKey valid absent ahead with same | ⟨none_, -⟩
  · rw [floor, floor, same]
  · simp [floor_empty none_]

theorem setSessionKey_floor (set : setSessionKey hkdf now ks index key = some done) : floor ks ≤ floor done.ks := by
  rcases setSessionKey_cases set with ⟨same, -⟩ | ⟨kinfo, member, -, rfl⟩ | ⟨absent, ahead, rfl⟩
  · exact same ▸ Nat.le_refl _
  · exact overwrite_floor valid member
  · exact insertKey_floor valid absent ahead

theorem setFreshSessionKey_floor (set : setFreshSessionKey hkdf now ks index key salt = some done) :
    floor ks ≤ floor done.ks := by
  rcases setFreshSessionKey_cases set with ⟨same, -⟩ | ⟨hashed, -, set⟩
  · exact same ▸ Nat.le_refl _
  · exact setSessionKey_floor valid set

theorem setCurrent_floor {curr : UInt32} {ts : UInt64}
    (at_ : getCurrent ks = some (.ok (curr, ts))) (ahead : curr < index) :
    floor ks ≤ floor (setCurrent ks index).ks := by
  obtain ⟨current, points, read⟩ := map_eq_some_iff.mp at_
  cases current with
  | none => simp at read
  | some c =>
    cases read
    unfold setCurrent
    split
    · exact Nat.le_refl _
    · rename_i kinfo found
      have same : kinfo.index = index := by simpa using List.find?_some found
      rw [floor_points points, floor_points (move_points valid (mem_of_find?_eq_some found))]
      rw [number, number, same]
      exact Nat.le_of_lt ahead

/-- Keys from the current one on descend from such keys. -/
theorem advance_held (advance : Advance hkdf ks ks') (held : Held ks' k)
    (salt : ks.salt = none ∨ ks.salt = some hash) : ∃ k₀, Held ks k₀ ∧ Descends hkdf hash (indexed k₀) (indexed k) := by
  rcases (advance_kept advance).2 k held.1 with old | ⟨last, isLast, descends⟩
  · exact ⟨k, ⟨old, (advance_floor valid advance).trans held.2⟩, .refl⟩
  · exact ⟨last, last_held valid isLast, descends hash salt⟩

end

end

end Avs.Keystore
