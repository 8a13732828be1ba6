import Mathlib.Data.List.TakeWhile
import Avs.Keystore

/-!
The shape every keystore has: its keys ascend by index, `current` points into the list with at most one key
before it, and it is set exactly when there are keys (`Valid`). No operation follows a null or dangling
pointer but the rotation of a last key with index 2^32 - 1 (`apply_completes`).
-/
namespace Avs.Keystore
open List Option Runs KeyedList
open Avs.KeyedList (Ascending)

def number (k : KeyInfo) : Nat := k.index.toNat

theorem sortHandler_iff (a b : KeyInfo) : sortHandler a b ↔ number a ≤ number b := Iff.rfl

/-- Keys at different addresses, ascending by index, at addresses already handed out. -/
structure Shaped (keyl : List KeyInfo) (nextAddr : Nat) : Prop where
  ascending : Ascending number keyl
  distinct : (keyl.map (·.addr)).Nodup
  below : ∀ k ∈ keyl, k.addr < nextAddr

/-- `current` is null with no keys, and otherwise points to a key of the list with at most one key before it. -/
def Pointed (keyl : List KeyInfo) : Option Nat → Prop
  | none => keyl = []
  | some a => ∃ pre k post, keyl = pre ++ k :: post ∧ k.addr = a ∧ pre.length ≤ 1

structure Valid (ks : Keystore) : Prop where
  shaped : Shaped ks.keyl ks.nextAddr
  pointed : Pointed ks.keyl ks.current
  init : ks.init = ks.current.isSome

theorem valid_alloc (hashForward : Bool) (now : UInt64) : Valid (alloc hashForward now) where
  shaped := ⟨ascending_nil, by simp [alloc], by simp [alloc]⟩
  pointed := rfl
  init := rfl

variable {hkdf : Hkdf} {key : Bytes} {index : UInt32} {kinfo k knext c : KeyInfo} {ksz n addr : Nat}
  {keyl added keyl' pre post : List KeyInfo} {ks ks' : Keystore} {last : KeyInfo} {done : Done} {ts minTs : UInt64}
  {answer : Except Errno Bytes} {mkey : Key} {now : Nat → UInt64} {op : Op}

theorem shaped_mono {m : Nat} (le : n ≤ m) (shaped : Shaped keyl n) : Shaped keyl m :=
  ⟨shaped.ascending, shaped.distinct, fun k member => Nat.lt_of_lt_of_le (shaped.below k member) le⟩

theorem shaped_suffix (suffix : keyl' <:+ keyl) (shaped : Shaped keyl n) : Shaped keyl' n :=
  ⟨ascending_suffix suffix shaped.ascending, shaped.distinct.sublist (suffix.sublist.map _),
    fun k member => shaped.below k (suffix.subset member)⟩

theorem addr_ne_before (shaped : Shaped (pre ++ k :: post) n) : ∀ y ∈ pre, ¬ y.addr = k.addr := by
  intro y member same
  have distinct := shaped.distinct
  rw [map_append, nodup_append] at distinct
  exact distinct.2.2 y.addr (List.mem_map_of_mem member) k.addr (by simp) same

theorem keyAt_split (split : ks.keyl = pre ++ k :: post) (shaped : Shaped ks.keyl n) : keyAt ks k.addr = some k := by
  rw [split] at shaped
  rw [keyAt, split, List.find?_append]
  have none_before : pre.find? (fun y => decide (y.addr = k.addr)) = none := by
    rw [List.find?_eq_none]
    intro y member
    simpa using addr_ne_before shaped y member
  simp [none_before]

theorem dropWhile_split (shaped : Shaped (pre ++ k :: post) n) :
    (pre ++ k :: post).dropWhile (fun y => decide (y.addr ≠ k.addr)) = k :: post := by
  have skip : pre.dropWhile (fun y => decide (y.addr ≠ k.addr)) = [] := by
    rw [dropWhile_eq_nil_iff]
    intro y member
    simpa using addr_ne_before shaped y member
  rw [dropWhile_append, skip]
  simp

theorem nextOf_split (split : ks.keyl = pre ++ k :: post) (shaped : Shaped ks.keyl n) :
    nextOf ks k.addr = post.head? := by
  rw [split] at shaped
  rw [nextOf, split, dropWhile_split shaped, tail_cons]

theorem currentKey_split (split : ks.keyl = pre ++ k :: post) (shaped : Shaped ks.keyl n)
    (at_ : ks.current = some k.addr) : currentKey ks = some (some k) := by
  simp [currentKey, at_, keyAt_split split shaped]

theorem number_split (ascending : Ascending number (pre ++ k :: post)) :
    (∀ y ∈ pre, number y < number k) ∧ ∀ y ∈ post, number k < number y := by
  rw [Ascending, pairwise_append] at ascending
  obtain ⟨_, tail, across⟩ := ascending
  exact ⟨fun y member => across y member k (by simp), fun y member => (pairwise_cons.mp tail).1 y member⟩

theorem valid_split {a : Nat} (valid : Valid ks) (at_ : ks.current = some a) :
    ∃ pre k post, ks.keyl = pre ++ k :: post ∧ k.addr = a ∧ pre.length ≤ 1 ∧ currentKey ks = some (some k) := by
  have pointed := valid.pointed
  rw [at_] at pointed
  obtain ⟨pre, k, post, split, rfl, short⟩ := pointed
  exact ⟨pre, k, post, split, rfl, short, currentKey_split split valid.shaped at_⟩

theorem valid_empty (valid : Valid ks) (at_ : ks.current = none) : ks.keyl = [] := by
  have pointed := valid.pointed
  rw [at_] at pointed
  exact pointed

theorem currentKey_of_mem (valid : Valid ks) (member : k ∈ ks.keyl) : ∃ c, currentKey ks = some (some c) := by
  rcases eq_none_or_eq_some ks.current with none_ | ⟨a, at_⟩
  · simp [valid_empty valid none_] at member
  · obtain ⟨_, c, _, _, _, _, points⟩ := valid_split valid at_
    exact ⟨c, points⟩

theorem find_valid (valid : Valid ks) (member : k ∈ ks.keyl) :
    ks.keyl.find? (fun k' => k'.index = k.index) = some k := by
  obtain ⟨k', found⟩ : ∃ k', ks.keyl.find? (fun k' => k'.index = k.index) = some k' :=
    isSome_iff_exists.mp (List.find?_isSome.mpr ⟨k, member, by simp⟩)
  have same : number k' = number k := congrArg UInt32.toNat (by simpa using List.find?_some found)
  obtain rfl := inj_on_of_nodup_map (ascending_distinct valid.shaped.ascending) (mem_of_find?_eq_some found) member same
  exact found

/-- With `current` at `k`, organising any order of the keys of an ascending list keeps `k`, what follows it and at most
    one key before it. -/
theorem organise_at (ks : Keystore) (perm : ks.keyl.Perm (pre ++ k :: post)) (shaped : Shaped (pre ++ k :: post) n)
    (at_ : ks.current = some k.addr) : organise ks = { ks with keyl := pre.drop (pre.length - 1) ++ k :: post } := by
  have sorted := sort_unique sortHandler_iff perm shaped.ascending
  have cut := cutBefore_split (p := fun y : KeyInfo => y.addr = k.addr) rfl post pre
    (addr_ne_before shaped)
  simp only [organise, at_, sorted, cut]

theorem valid_organise (ks : Keystore)
    (perm : ks.keyl.Perm (pre ++ k :: post)) (shaped : Shaped (pre ++ k :: post) ks.nextAddr)
    (at_ : ks.current = some k.addr) (init : ks.init = true) : Valid (organise ks) := by
  rw [organise_at ks perm shaped at_]
  refine ⟨?_, ?_, ?_⟩
  · exact shaped_suffix ⟨pre.take (pre.length - 1), by simp [← append_assoc]⟩ shaped
  · simp only [at_]
    exact ⟨_, k, post, rfl, rfl, by simp; omega⟩
  · simp [init, at_]

theorem organise_move (split : ks.keyl = pre ++ k :: post) (shaped : Shaped ks.keyl ks.nextAddr) :
    organise { ks with current := some k.addr } =
      { ks with current := some k.addr, keyl := pre.drop (pre.length - 1) ++ k :: post } := by
  rw [split] at shaped
  exact organise_at { ks with current := some k.addr } (List.Perm.of_eq split) shaped rfl

theorem valid_move (valid : Valid ks) (member : k ∈ ks.keyl) : Valid (organise { ks with current := some k.addr }) := by
  obtain ⟨pre, post, split⟩ := append_of_mem member
  have shaped := valid.shaped
  have started : ks.init = true := by
    cases at_ : ks.current with
    | none => simp [valid_empty valid at_] at member
    | some a => simp [valid.init, at_]
  rw [split] at shaped
  exact valid_organise { ks with current := some k.addr } (List.Perm.of_eq split) shaped rfl started

theorem shaped_perm_snoc (shaped : Shaped keyl n) (old : ∀ y ∈ keyl, y.addr < kinfo.addr)
    (perm : keyl'.Perm (keyl ++ [kinfo])) (ascending : Ascending number keyl') : Shaped keyl' (kinfo.addr + 1) := by
  refine ⟨ascending, ?_, ?_⟩
  · rw [(perm.map _).nodup_iff, map_append, nodup_append]
    refine ⟨shaped.distinct, by simp, ?_⟩
    intro x member y last
    obtain ⟨k, member', rfl⟩ := List.mem_map.mp member
    simp only [map_cons, map_nil, mem_singleton] at last
    exact last ▸ Nat.ne_of_lt (old k member')
  · intro k member
    rcases mem_append.mp (perm.mem_iff.mp member) with before | last
    · exact Nat.lt_succ_of_lt (old k before)
    · simp only [mem_singleton] at last
      subst last
      exact Nat.lt_succ_self _

/-- A key above the current one that the list does not have yet takes its place among the keys ahead; no key is dropped.
    -/
theorem appendKey_at (ks : Keystore) (kinfo : KeyInfo) (split : ks.keyl = pre ++ k :: post) (shaped : Shaped ks.keyl n)
    (at_ : ks.current = some k.addr) (short : pre.length ≤ 1) (ahead : number k < number kinfo)
    (absent : ∀ y ∈ post, number y ≠ number kinfo) (old : ∀ y ∈ ks.keyl, y.addr < kinfo.addr) :
    appendKey ks kinfo = { ks with keyl := pre ++ k :: (post ++ [kinfo]).insertionSort sortHandler } ∧
      Shaped (pre ++ k :: (post ++ [kinfo]).insertionSort sortHandler) (kinfo.addr + 1) := by
  have ascending := shaped.ascending
  rw [split] at ascending
  obtain ⟨before, after⟩ := number_split ascending
  rw [Ascending, pairwise_append, pairwise_cons] at ascending
  obtain ⟨preAscends, ⟨_, postAscends⟩, _⟩ := ascending
  have sorted : Ascending number ((post ++ [kinfo]).insertionSort sortHandler) := by
    apply ascending_sort sortHandler_iff
    rw [map_append, nodup_append]
    refine ⟨ascending_distinct postAscends, by simp, ?_⟩
    intro x member y last
    obtain ⟨y', member', rfl⟩ := List.mem_map.mp member
    simp only [map_cons, map_nil, mem_singleton] at last
    exact last ▸ absent y' member'
  have mem_sorted : ∀ y, y ∈ (post ++ [kinfo]).insertionSort sortHandler ↔ y ∈ post ∨ y = kinfo := by simp
  have whole : Ascending number (pre ++ k :: (post ++ [kinfo]).insertionSort sortHandler) := by
    have afterK : ∀ y ∈ (post ++ [kinfo]).insertionSort sortHandler, number k < number y := by
      intro y member
      rcases (mem_sorted y).mp member with old | rfl
      · exact after y old
      · exact ahead
    rw [Ascending, pairwise_append, pairwise_cons]
    refine ⟨preAscends, ⟨afterK, sorted⟩, ?_⟩
    intro x member y tail
    rcases mem_cons.mp tail with rfl | later
    · exact before x member
    · exact Nat.lt_trans (before x member) (afterK y later)
  have perm : (ks.keyl ++ [kinfo]).Perm (pre ++ k :: (post ++ [kinfo]).insertionSort sortHandler) := by
    rw [split, append_assoc, cons_append]
    exact ((perm_insertionSort sortHandler _).symm.cons k).append_left pre
  have shaped' := shaped_perm_snoc shaped old perm.symm whole
  refine ⟨?_, shaped'⟩
  rw [appendKey, organise_at { ks with keyl := ks.keyl ++ [kinfo] } perm shaped' at_]
  have kept : pre.drop (pre.length - 1) = pre := by
    have : pre.length - 1 = 0 := by omega
    rw [this, drop_zero]
  rw [kept]

theorem appendKey_last (kinfo : KeyInfo) (valid : Valid ks) (some_ : ks.current.isSome)
    (above : ∀ k ∈ ks.keyl, number k < number kinfo) (old : ∀ k ∈ ks.keyl, k.addr < kinfo.addr)
    (room : kinfo.addr < ks.nextAddr) :
    appendKey ks kinfo = { ks with keyl := ks.keyl ++ [kinfo] } ∧ Valid (appendKey ks kinfo) := by
  obtain ⟨a, current⟩ := isSome_iff_exists.mp some_
  obtain ⟨pre, k, post, split, rfl, short, _⟩ := valid_split valid current
  have inPost : ∀ y ∈ post, y ∈ ks.keyl := fun y member => by simp [split, member]
  have postAscends : Ascending number (post ++ [kinfo]) := by
    rw [Ascending, pairwise_append]
    refine ⟨valid.shaped.ascending.sublist (by rw [split]; simp), by simp, ?_⟩
    intro y member z last
    simp only [mem_singleton] at last
    exact last ▸ above y (inPost y member)
  obtain ⟨appended, shaped⟩ := appendKey_at ks kinfo split valid.shaped current short (above k (by simp [split]))
    (fun y member => Nat.ne_of_lt (above y (inPost y member))) old
  rw [sort_ascending sortHandler_iff postAscends] at appended shaped
  refine ⟨by simp [appended, split], ?_⟩
  rw [appended]
  refine ⟨shaped_mono room shaped, ?_, valid.init⟩
  simp only [current]
  exact ⟨pre, k, post ++ [kinfo], rfl, rfl, short⟩

theorem valid_frame (valid : Valid ks) (keyl : ks'.keyl = ks.keyl) (current : ks'.current = ks.current)
    (init : ks'.init = ks.init) (room : ks.nextAddr ≤ ks'.nextAddr) : Valid ks' :=
  ⟨keyl ▸ shaped_mono room valid.shaped, by rw [keyl, current]; exact valid.pointed,
    by rw [init, current]; exact valid.init⟩

theorem valid_overwrite (hkdf : Hkdf) (now : UInt64) (key : Bytes)
    (valid : Valid ks) (member : kinfo ∈ ks.keyl) : Valid (overwrite hkdf now ks kinfo key).ks := by
  let kinfo' : KeyInfo :=
    { kinfo with skey := padKey key, mkey := (deriveMediaKey hkdf ks.salt (padKey key)).getD kinfo.mkey }
  let replace : KeyInfo → KeyInfo := fun k => if k.addr = kinfo.addr then kinfo' else k
  have addrs : ∀ k, (replace k).addr = k.addr := by
    intro k
    by_cases same : k.addr = kinfo.addr
    · simp [replace, same, kinfo']
    · simp [replace, same]
  have numbers : ∀ k ∈ ks.keyl, number (replace k) = number k := by
    intro k member'
    by_cases same : k.addr = kinfo.addr
    · have := inj_on_of_nodup_map valid.shaped.distinct member' member same
      simp [replace, this, kinfo', number]
    · simp [replace, same]
  refine ⟨⟨?_, ?_, ?_⟩, ?_, valid.init⟩
  · show Ascending number (ks.keyl.map replace)
    rw [Ascending, pairwise_map]
    exact valid.shaped.ascending.imp_of_mem (fun {a b} ha hb lt => by rw [numbers a ha, numbers b hb]; exact lt)
  · show ((ks.keyl.map replace).map (·.addr)).Nodup
    have : (ks.keyl.map replace).map (·.addr) = ks.keyl.map (·.addr) := by
      rw [List.map_map]; exact map_congr_left (fun k _ => addrs k)
    rw [this]
    exact valid.shaped.distinct
  · intro k member'
    obtain ⟨k', old, rfl⟩ := List.mem_map.mp (show k ∈ ks.keyl.map replace from member')
    show (replace k').addr < ks.nextAddr
    rw [addrs]
    exact valid.shaped.below k' old
  · show Pointed (ks.keyl.map replace) ks.current
    cases at_ : ks.current with
    | none => simp [Pointed, valid_empty valid at_]
    | some a =>
      obtain ⟨pre, k, post, split, same, short, _⟩ := valid_split valid at_
      exact ⟨pre.map replace, replace k, post.map replace, by simp [split], by rw [addrs, same], by simpa using short⟩

theorem insertKey_first {now : UInt64}
    (valid : Valid ks) (derived : deriveMediaKey hkdf ks.salt (padKey key) = some mkey) (at_ : ks.current = none) :
    insertKey hkdf now ks index key =
      ⟨{ ks with keyl := [{ addr := ks.nextAddr, skey := padKey key, mkey := mkey, index := index, updateTs := now }],
                 current := some ks.nextAddr, init := true, hasKeys := true, updateTs := now,
                 nextAddr := ks.nextAddr + 1 }, none, true⟩ := by
  have started : ks.init = false := by simp [valid.init, at_]
  simp [insertKey, derived, appendKey, organise, at_, valid_empty valid at_, started, KeyedList.cutBefore]

/-- A new index above the current one takes its place among the keys ahead, and nothing is told. -/
theorem insertKey_ahead {a : Nat} (now : UInt64) (valid : Valid ks) (absent : ∀ k ∈ ks.keyl, k.index ≠ index)
    (ahead : ∀ k, currentKey ks = some (some k) → k.index.toNat ≤ index.toNat)
    (derived : deriveMediaKey hkdf ks.salt (padKey key) = some mkey) (at_ : ks.current = some a) :
    ∃ pre k post,
      let kinfo := { addr := ks.nextAddr, skey := padKey key, mkey := mkey, index := index, updateTs := now }
      let keyl := pre ++ k :: (post ++ [kinfo]).insertionSort sortHandler
      ks.keyl = pre ++ k :: post ∧ k.addr = a ∧ pre.length ≤ 1 ∧ Shaped keyl (ks.nextAddr + 1) ∧
        insertKey hkdf now ks index key =
          ⟨{ ks with keyl := keyl, hasKeys := true, updateTs := now, nextAddr := ks.nextAddr + 1 }, none, false⟩ := by
  obtain ⟨pre, k, post, split, rfl, short, points⟩ := valid_split valid at_
  have started : ks.init = true := by simp [valid.init, at_]
  have apart : ∀ y ∈ ks.keyl, number y ≠ index.toNat := fun y member same => absent y member (UInt32.toNat_inj.mp same)
  have above : number k < index.toNat := Nat.lt_of_le_of_ne (ahead k points) (apart k (by simp [split]))
  obtain ⟨appended, shaped⟩ := appendKey_at { ks with updateTs := now, nextAddr := ks.nextAddr + 1 }
    { addr := ks.nextAddr, skey := padKey key, mkey := mkey, index := index, updateTs := now } split
    valid.shaped at_ short above (fun y member => apart y (by simp [split, member]))
    (fun y member => valid.shaped.below y member)
  refine ⟨pre, k, post, split, rfl, short, shaped, ?_⟩
  simp only [insertKey, derived]
  rw [appended]
  simp [started]

theorem valid_insertKey {now : UInt64} (valid : Valid ks) (absent : ∀ k ∈ ks.keyl, k.index ≠ index)
    (ahead : ∀ k, currentKey ks = some (some k) → k.index.toNat ≤ index.toNat) :
    Valid (insertKey hkdf now ks index key).ks := by
  cases derived : deriveMediaKey hkdf ks.salt (padKey key) with
  | none =>
    simp only [insertKey, derived]
    exact valid_frame valid rfl rfl rfl (Nat.le_succ _)
  | some mkey =>
    rcases eq_none_or_eq_some ks.current with at_ | ⟨a, at_⟩
    · rw [insertKey_first valid derived at_]
      refine ⟨⟨?_, ?_, ?_⟩, ?_, rfl⟩
      · simp [Ascending]
      · simp
      · simp
      · exact ⟨[], _, [], rfl, rfl, by simp⟩
    · obtain ⟨pre, k, post, -, rfl, short, shaped, inserted⟩ := insertKey_ahead now valid absent ahead derived at_
      rw [inserted]
      exact ⟨shaped, by simp only [at_]; exact ⟨pre, k, _, rfl, rfl, short⟩, by simp [valid.init, at_]⟩

/-- A first key becomes the current one; another key leaves the current one where it is. -/
theorem insertKey_currentKey {now : UInt64} (valid : Valid ks) (absent : ∀ k ∈ ks.keyl, k.index ≠ index)
    (ahead : ∀ k, currentKey ks = some (some k) → k.index.toNat ≤ index.toNat) :
    currentKey (insertKey hkdf now ks index key).ks = currentKey ks ∨
      ks.current = none ∧ (insertKey hkdf now ks index key).told = true := by
  cases derived : deriveMediaKey hkdf ks.salt (padKey key) with
  | none =>
    simp only [insertKey, derived]
    exact .inl rfl
  | some mkey =>
    rcases eq_none_or_eq_some ks.current with at_ | ⟨a, at_⟩
    · exact .inr ⟨at_, by rw [insertKey_first valid derived at_]⟩
    · obtain ⟨pre, k, post, split, rfl, -, shaped, inserted⟩ := insertKey_ahead now valid absent ahead derived at_
      rw [inserted, currentKey_split split valid.shaped at_]
      exact .inl (currentKey_split rfl shaped at_)

/-- What `keystore_set_session_key` does: nothing, overwrite the key of that index, or insert a key past the current
    one. -/
theorem setSessionKey_cases {now : UInt64} (set : setSessionKey hkdf now ks index key = some done) :
    done.ks = ks ∧ done.err ≠ none ∨
      (∃ kinfo ∈ ks.keyl, kinfo.index = index ∧ done = overwrite hkdf now ks kinfo key) ∨
      (∀ k ∈ ks.keyl, k.index ≠ index) ∧ (∀ k, currentKey ks = some (some k) → k.index.toNat ≤ index.toNat) ∧
        done = insertKey hkdf now ks index key := by
  unfold setSessionKey at set
  split at set
  · cases set
    exact .inl ⟨rfl, by simp⟩
  · split at set
    · simp at set
    · rename_i current points
      split at set
      · cases set
        exact .inl ⟨rfl, by simp⟩
      · rename_i notOld
        split at set
        · rename_i kinfo found
          simp only at set
          split at set
          · cases set
            exact .inl ⟨rfl, by simp⟩
          · cases set
            exact .inr (.inl ⟨kinfo, mem_of_find?_eq_some found, by simpa using List.find?_some found, rfl⟩)
        · rename_i missing
          cases set
          refine .inr (.inr ⟨?_, ?_, rfl⟩)
          · intro k member same
            have := List.find?_eq_none.mp missing k member
            simp [same] at this
          · intro k at_
            rw [at_] at points
            cases points
            simpa [UInt32.not_lt, UInt32.le_iff_toNat_le] using notOld

theorem valid_setSessionKey (hkdf : Hkdf) (now : UInt64) (index : UInt32) (key : Bytes)
    (valid : Valid ks) (set : setSessionKey hkdf now ks index key = some done) : Valid done.ks := by
  rcases setSessionKey_cases set with ⟨same, -⟩ | ⟨kinfo, member, -, rfl⟩ | ⟨absent, ahead, rfl⟩
  · exact same ▸ valid
  · exact valid_overwrite hkdf now key valid member
  · exact valid_insertKey valid absent ahead

theorem setFreshSessionKey_cases {now : UInt64} {salt : Option Bytes}
    (set : setFreshSessionKey hkdf now ks index key salt = some done) :
    done.ks = ks ∧ done.err ≠ none ∧ done.told = false ∨
      ∃ hashed, salt.bind (hkdf sessionKeySize key · csInfo) = some hashed ∧
        setSessionKey hkdf now ks index hashed.toList = some done := by
  unfold setFreshSessionKey at set
  split at set
  · cases set
    exact .inl ⟨rfl, by simp, rfl⟩
  · split at set
    · cases set
      exact .inl ⟨rfl, by simp, rfl⟩
    · next hashed derived => exact .inr ⟨hashed, derived, set⟩

theorem valid_setFreshSessionKey {now : UInt64} {salt : Option Bytes} (valid : Valid ks)
    (set : setFreshSessionKey hkdf now ks index key salt = some done) : Valid done.ks := by
  rcases setFreshSessionKey_cases set with ⟨same, -⟩ | ⟨hashed, -, set⟩
  · exact same ▸ valid
  · exact valid_setSessionKey hkdf now index _ valid set

def Follows (hkdf : Hkdf) (salt : Option Bytes) (k k' : KeyInfo) : Prop :=
  number k' = number k + 1 ∧ deriveSessionKey hkdf salt k.skey = some k'.skey ∧
    deriveMediaKey hkdf salt k'.skey = some k'.mkey

/-- Hashing forward from the last key `kinfo` has added `added` and changed nothing else but the clock and the addresses
    in use. -/
structure Hashed (hkdf : Hkdf) (index : UInt32) (ks ks' : Keystore) (kinfo : KeyInfo) (added : List KeyInfo) :
    Prop where
  same : ∃ ts addr, ks' = { ks with keyl := ks.keyl ++ added, updateTs := ts, nextAddr := addr }
  valid : Valid ks'
  chain : List.IsChain (Follows hkdf ks.salt) (kinfo :: added)
  bounded : ∀ k ∈ added, number k ≤ index.toNat

theorem last_largest (ascending : Ascending number keyl)
    (at_ : keyl.getLast? = some last) : ∀ k ∈ keyl, number k ≤ number last := by
  obtain ⟨front, rfl⟩ := List.getLast?_eq_some_iff.mp at_
  intro k member
  rcases mem_append.mp member with before | same
  · have ascending : Ascending number (front ++ last :: []) := ascending
    exact Nat.le_of_lt ((number_split ascending).1 k before)
  · simp only [mem_singleton] at same
    exact same ▸ Nat.le_refl _

theorem current_isSome (valid : Valid ks) (at_ : ks.keyl.getLast? = some last) : ks.current.isSome := by
  cases current : ks.current with
  | none => simp [valid_empty valid current] at at_
  | some a => rfl

theorem hashed_nothing (valid : Valid { ks with updateTs := ts, nextAddr := addr }) :
    Hashed hkdf index ks { ks with updateTs := ts, nextAddr := addr } kinfo [] :=
  ⟨⟨ts, addr, by simp⟩, valid, by simp, by simp⟩

theorem hashed_cons (follows : Follows hkdf ks.salt kinfo knext) (bounded : number knext ≤ index.toNat)
    (rest : Hashed hkdf index { ks with keyl := ks.keyl ++ [knext], updateTs := ts, nextAddr := addr }
      ks' knext added) :
    Hashed hkdf index ks ks' kinfo (knext :: added) := by
  refine ⟨?_, rest.valid, List.IsChain.cons_cons follows rest.chain, ?_⟩
  · obtain ⟨ts, addr, same⟩ := rest.same
    refine ⟨ts, addr, ?_⟩
    rw [same]
    simp
  · intro k member
    rcases mem_cons.mp member with rfl | later
    · exact bounded
    · exact rest.bounded k later

theorem appendKey_next (valid : Valid ks)
    (at_ : ks.keyl.getLast? = some kinfo) (addr : knext.addr = ks.nextAddr) (above : number kinfo < number knext) :
    ({ ks with updateTs := ts, nextAddr := ks.nextAddr + 1 } : Keystore).appendKey knext =
        { ks with keyl := ks.keyl ++ [knext], updateTs := ts, nextAddr := ks.nextAddr + 1 } ∧
      Valid { ks with keyl := ks.keyl ++ [knext], updateTs := ts, nextAddr := ks.nextAddr + 1 } := by
  have grown : Valid { ks with updateTs := ts, nextAddr := ks.nextAddr + 1 } :=
    valid_frame valid rfl rfl rfl (Nat.le_succ _)
  have largest : ∀ k ∈ ks.keyl, number k < number knext := by
    intro k member
    have := last_largest valid.shaped.ascending at_ k member
    omega
  have fresh : ∀ k ∈ ks.keyl, k.addr < knext.addr := by
    intro k member
    rw [addr]
    exact valid.shaped.below k member
  obtain ⟨appended, valid'⟩ := appendKey_last knext grown (current_isSome grown at_) largest fresh
    (addr ▸ Nat.lt_succ_self _)
  exact ⟨appended, appended ▸ valid'⟩

/-- The loop adds a chain of keys up to the wanted index, all of it when it reports no error. -/
theorem hashLoop_spec : ∀ (n : Nat) (ks : Keystore) (kinfo : KeyInfo), Valid ks → ks.keyl.getLast? = some kinfo →
      ∃ added, Hashed hkdf index ks (hashLoop hkdf now index n ks kinfo).1 kinfo added ∧
        ((hashLoop hkdf now index n ks kinfo).2 = none → index.toNat ≤ number kinfo + n →
          ∃ last, (kinfo :: added).getLast? = some last ∧ index.toNat ≤ number last) := by
  intro n
  induction n with
  | zero =>
    intro ks kinfo valid _
    refine ⟨[], hashed_nothing valid, ?_⟩
    intro _ reached
    exact ⟨kinfo, by simp, by simpa using reached⟩
  | succ n ih =>
    intro ks kinfo valid at_
    by_cases more : kinfo.index < index
    · have grown : Valid { ks with updateTs := now n, nextAddr := ks.nextAddr + 1 } :=
        valid_frame valid rfl rfl rfl (Nat.le_succ _)
      simp only [hashLoop, more, if_true]
      cases session : deriveSessionKey hkdf ks.salt kinfo.skey with
      | none => exact ⟨[], hashed_nothing grown, by rintro ⟨⟩⟩
      | some skey =>
        simp only
        cases media : deriveMediaKey hkdf ks.salt skey with
        | none => exact ⟨[], hashed_nothing grown, by rintro ⟨⟩⟩
        | some mkey =>
          simp only
          let knext : KeyInfo :=
            { addr := ks.nextAddr, skey := skey, mkey := mkey, index := kinfo.index + 1, updateTs := now n }
          have less : number kinfo < index.toNat := more
          have succ : number knext = number kinfo + 1 := by
            have := UInt32.toNat_lt index
            simp only [number, knext, UInt32.toNat_add, UInt32.reduceToNat] at less ⊢
            omega
          obtain ⟨appended, valid'⟩ := @appendKey_next kinfo knext ks (now n) valid at_ rfl (by omega)
          rw [appended]
          obtain ⟨added, hashed, full⟩ := ih _ knext valid' (by simp)
          refine ⟨knext :: added, hashed_cons ⟨succ, session, media⟩ (by omega) hashed, ?_⟩
          intro noError reached
          obtain ⟨last, isLast, enough⟩ := full noError (by omega)
          exact ⟨last, by simpa using isLast, enough⟩
    · simp only [hashLoop, more, if_false]
      refine ⟨[], hashed_nothing valid, ?_⟩
      intro _ _
      exact ⟨kinfo, by simp, by simpa [number, UInt32.not_lt, UInt32.le_iff_toNat_le] using more⟩

theorem hashToKey_spec (valid : Valid ks) (at_ : ks.keyl.getLast? = some kinfo) :
    ∃ added, Hashed hkdf index ks (hashToKey hkdf now ks index).1 kinfo added ∧
      ((hashToKey hkdf now ks index).2 = none →
        ∃ last, (kinfo :: added).getLast? = some last ∧ index.toNat ≤ number last) := by
  obtain ⟨added, hashed, full⟩ := hashLoop_spec (index.toNat - kinfo.index.toNat) ks kinfo valid at_
  simp only [hashToKey, getLatest, at_]
  exact ⟨added, hashed, fun noError => full noError (by simp only [number]; omega)⟩

/-- Keys hashed forward from the last one, if any, and nothing else changed but the clock, the addresses in use and the
    error report. -/
def Extended (hkdf : Hkdf) (ks ks' : Keystore) : Prop :=
  Valid ks' ∧ ∃ added ts addr reported,
    ks' = { ks with keyl := ks.keyl ++ added, updateTs := ts, nextAddr := addr, errReported := reported } ∧
      (added = [] ∨ ∃ last, ks.keyl.getLast? = some last ∧ List.IsChain (Follows hkdf ks.salt) (last :: added))

/-- All a rotation or a lookup does: hash forward, and move `current` ahead. -/
inductive Advance (hkdf : Hkdf) (ks : Keystore) : Keystore → Prop
  | stay {ks' : Keystore} (extended : Extended hkdf ks ks') : Advance hkdf ks ks'
  | move {ks' : Keystore} {c k : KeyInfo} (extended : Extended hkdf ks ks')
      (points : currentKey ks' = some (some c)) (member : k ∈ ks'.keyl) (ahead : number c < number k) :
      Advance hkdf ks (organise { ks' with current := some k.addr })

theorem valid_advance (advance : Advance hkdf ks ks') : Valid ks' := by
  cases advance with
  | stay extended => exact extended.1
  | move extended _ member _ => exact valid_move extended.1 member

theorem extended_refl (valid : Valid ks) : Extended hkdf ks ks :=
  ⟨valid, [], ks.updateTs, ks.nextAddr, ks.errReported, by simp, .inl rfl⟩

theorem extended_hashed
    (at_ : ks.keyl.getLast? = some kinfo) (hashed : Hashed hkdf index ks ks' kinfo added) : Extended hkdf ks ks' := by
  obtain ⟨ts, addr, same⟩ := hashed.same
  exact ⟨hashed.valid, added, ts, addr, ks.errReported, same, .inr ⟨kinfo, at_, hashed.chain⟩⟩

theorem currentKey_mem (points : currentKey ks = some (some k)) : k ∈ ks.keyl ∧ ks.current = some k.addr := by
  unfold currentKey at points
  split at points
  · simp at points
  · rename_i a at_
    simp only [map_eq_some_iff, some.injEq, exists_eq_right] at points
    have found := List.find?_some points
    simp only [decide_eq_true_eq] at found
    exact ⟨mem_of_find?_eq_some points, by rw [at_, found]⟩

theorem currentKey_split_at (valid : Valid ks) (points : currentKey ks = some (some k)) :
    ∃ pre post, ks.keyl = pre ++ k :: post ∧ pre.length ≤ 1 ∧ nextOf ks k.addr = post.head? := by
  obtain ⟨_, at_⟩ := currentKey_mem points
  obtain ⟨pre, k', post, split, _, short, points'⟩ := valid_split valid at_
  rw [points] at points'
  cases points'
  exact ⟨pre, post, split, short, nextOf_split split valid.shaped⟩

theorem rotateTo_advance (extended : Extended hkdf ks ks') (points : currentKey ks' = some (some k))
    (rotated : rotateTo ks' k = some done) : Advance hkdf ks done.ks := by
  obtain ⟨pre, post, split, _, next⟩ := currentKey_split_at extended.1 points
  simp only [rotateTo, next, map_eq_some_iff] at rotated
  obtain ⟨n, head, rfl⟩ := rotated
  obtain ⟨rest, rfl⟩ : ∃ rest, post = n :: rest := by
    cases post with
    | nil => simp at head
    | cons m rest => simp at head; exact ⟨rest, by rw [head]⟩
  have ascending := extended.1.shaped.ascending
  rw [split] at ascending
  exact .move extended points (by simp [split]) ((number_split ascending).2 n (by simp))

theorem extended_currentKey (valid : Valid ks) (extended : Extended hkdf ks ks') : currentKey ks' = currentKey ks := by
  obtain ⟨valid', added, ts, addr, reported, rfl, -⟩ := extended
  rcases eq_none_or_eq_some ks.current with none_ | ⟨a, at_⟩
  · simp [currentKey, none_]
  · obtain ⟨pre, c, post, split, rfl, -, points⟩ := valid_split valid at_
    have split' : ks.keyl ++ added = pre ++ c :: (post ++ added) := by simp [split]
    rw [points]
    exact currentKey_split split' valid'.shaped at_

/-- Overwriting a key leaves the current index, and the current key where that is another one. -/
theorem overwrite_currentKey {now : UInt64} (valid : Valid ks) (member : kinfo ∈ ks.keyl)
    (points : currentKey ks = some (some c)) : ∃ c', currentKey (overwrite hkdf now ks kinfo key).ks = some (some c') ∧
      c'.index = c.index ∧ (c ≠ kinfo → c' = c) := by
  obtain ⟨held, at_⟩ := currentKey_mem points
  have shaped := (valid_overwrite hkdf now key valid member).shaped
  have placed : ∀ {c'}, c' ∈ (overwrite hkdf now ks kinfo key).ks.keyl → c'.addr = c.addr →
      currentKey (overwrite hkdf now ks kinfo key).ks = some (some c') := by
    intro c' member same
    obtain ⟨pre, post, split⟩ := append_of_mem member
    exact currentKey_split split shaped (same ▸ at_)
  by_cases same : c.addr = kinfo.addr
  · obtain rfl := inj_on_of_nodup_map valid.shaped.distinct held member same
    exact ⟨_, placed (List.mem_map.mpr ⟨c, held, if_pos rfl⟩) rfl, rfl, absurd rfl⟩
  · exact ⟨c, placed (List.mem_map.mpr ⟨c, held, if_neg same⟩) rfl, rfl, fun _ => rfl⟩

theorem hashed_currentKey (valid : Valid ks) (at_ : ks.keyl.getLast? = some kinfo)
    (hashed : Hashed hkdf index ks ks' kinfo added) : currentKey ks' = currentKey ks :=
  extended_currentKey valid (extended_hashed at_ hashed)

theorem hashed_next (at_ : ks.keyl.getLast? = some kinfo) (hashed : Hashed hkdf index ks ks' kinfo added) :
    nextOf ks' kinfo.addr = added.head? := by
  obtain ⟨front, split⟩ := List.getLast?_eq_some_iff.mp at_
  obtain ⟨ts, addr, same⟩ := hashed.same
  have shaped := hashed.valid.shaped
  subst same
  have split' : ks.keyl ++ added = front ++ kinfo :: added := by simp [split]
  exact nextOf_split split' shaped

theorem last_of_next_none (valid : Valid ks) (points : currentKey ks = some (some k))
    (none_ : nextOf ks k.addr = none) : ks.keyl.getLast? = some k := by
  obtain ⟨pre, post, split, _, next⟩ := currentKey_split_at valid points
  rw [none_] at next
  have : post = [] := List.head?_eq_none_iff.mp next.symm
  simp [split, this]

/-- A rotation fails, with keys that were hashed forward at most, or moves on from the current key. -/
theorem rotate_cases (valid : Valid ks) (rotated : rotate hkdf now ks = some done) :
    ∃ ks', Extended hkdf ks ks' ∧ ((∃ err, done = ⟨ks', some err, false⟩) ∨
      ∃ c, currentKey ks' = some (some c) ∧ rotateTo ks' c = some done) := by
  unfold rotate at rotated
  split at rotated
  · cases rotated
  · cases rotated
    exact ⟨ks, extended_refl valid, .inl ⟨_, rfl⟩⟩
  · rename_i c points
    split at rotated
    · exact ⟨ks, extended_refl valid, .inr ⟨c, points, rotated⟩⟩
    · rename_i none_
      split at rotated
      · have last := last_of_next_none valid points (by simpa using none_)
        obtain ⟨added, hashed, _⟩ := hashToKey_spec valid last
        have extended := extended_hashed last hashed
        have points' := (extended_currentKey valid extended).trans points
        split at rotated
        · rename_i ks' err result
          rw [result] at extended
          cases rotated
          exact ⟨ks', extended, .inl ⟨err, rfl⟩⟩
        · rename_i ks' result
          rw [result] at extended points'
          exact ⟨ks', extended, .inr ⟨c, points', rotated⟩⟩
      · cases rotated
        exact ⟨ks, extended_refl valid, .inl ⟨_, rfl⟩⟩

theorem rotate_advance (valid : Valid ks) (rotated : rotate hkdf now ks = some done) : Advance hkdf ks done.ks := by
  obtain ⟨ks', extended, ⟨err, rfl⟩ | ⟨c, points, rotated⟩⟩ := rotate_cases valid rotated
  · exact .stay extended
  · exact rotateTo_advance extended points rotated

theorem handOut_advance
    (extended : Extended hkdf ks ks') (points : currentKey ks' = some (some c)) (member : k ∈ ks'.keyl) :
    Advance hkdf ks (handOut ks' (some c) k ksz).1 ∧ k ∈ (handOut ks' (some c) k ksz).1.keyl := by
  by_cases ahead : c.index < k.index
  · have moved : (handOut ks' (some c) k ksz).1 = organise { ks' with current := some k.addr } := by
      simp [handOut, ahead]
    rw [moved]
    refine ⟨.move extended points member ahead, ?_⟩
    obtain ⟨pre, post, split⟩ := append_of_mem member
    rw [organise_move split extended.1.shaped]
    simp
  · have stayed : (handOut ks' (some c) k ksz).1 = ks' := by simp [handOut, ahead]
    rw [stayed]
    exact ⟨.stay extended, member⟩

theorem hashToKey_reaches (valid : Valid ks) (at_ : ks.keyl.getLast? = some kinfo) (less : kinfo.index < index)
    (result : hashToKey hkdf now ks index = (ks', none)) :
    ∃ last, ks'.keyl.getLast? = some last ∧ last.index = index := by
  obtain ⟨added, hashed, full⟩ := hashToKey_spec valid at_
  rw [result] at hashed full
  obtain ⟨last, isLast, enough⟩ := full rfl
  obtain ⟨ts, addr, rfl⟩ := hashed.same
  have less : number kinfo < index.toNat := less
  have more : added ≠ [] := by
    rintro rfl
    simp only [List.getLast?_singleton, some.injEq] at isLast
    rw [isLast] at less
    omega
  rw [List.getLast?_cons_of_ne_nil more] at isLast
  refine ⟨last, by simp [List.getLast?_append, isLast], ?_⟩
  have := hashed.bounded last (mem_of_getLast? isLast)
  apply UInt32.toNat_inj.mp
  simp only [number] at this enough
  omega

/-- A lookup fails, or hands out the key of the index, which may have been hashed forward to. -/
inductive Looked (hkdf : Hkdf) (ks : Keystore) (index : UInt32) (ksz : Nat) : Keystore → Except Errno Bytes → Prop
  | failed {ks' : Keystore} {err : Errno} (extended : Extended hkdf ks ks') : Looked hkdf ks index ksz ks' (.error err)
  | handed {ks' : Keystore} {c k : KeyInfo} (extended : Extended hkdf ks ks')
      (points : currentKey ks' = some (some c)) (member : k ∈ ks'.keyl) (is : k.index = index) :
      Looked hkdf ks index ksz (handOut ks' (some c) k ksz).1 (handOut ks' (some c) k ksz).2

theorem Looked.advance (looked : Looked hkdf ks index ksz ks' answer) : Advance hkdf ks ks' := by
  cases looked with
  | failed extended => exact .stay extended
  | handed extended points member _ => exact (handOut_advance extended points member).1

theorem Looked.answered {out : Bytes} (looked : Looked hkdf ks index ksz ks' (.ok out)) :
    ∃ k ∈ ks'.keyl, k.index = index ∧ out = copyOut ksz k.mkey := by
  generalize given : Except.ok out = answer at looked
  cases looked with
  | failed => cases given
  | handed extended points member is =>
    cases given
    exact ⟨_, (handOut_advance extended points member).2, is, rfl⟩

theorem extended_errReported (hkdf : Hkdf) (valid : Valid ks) (reported : Bool) :
    Extended hkdf ks { ks with errReported := reported } :=
  ⟨valid_frame valid rfl rfl rfl (Nat.le_refl _), [], ks.updateTs, ks.nextAddr, reported, by simp, .inl rfl⟩

theorem hashForwardTo_looked (valid : Valid ks) (at_ : ks.keyl.getLast? = some last) (less : last.index < index)
    (looked : hashForwardTo hkdf now { ks with errReported := false } index ksz = some (ks', answer)) :
    Looked hkdf ks index ksz ks' answer := by
  have valid' := (extended_errReported hkdf valid false).1
  obtain ⟨added, hashed, _⟩ := hashToKey_spec valid' at_
  have extended : Extended hkdf ks (hashToKey hkdf now { ks with errReported := false } index).1 := by
    obtain ⟨ts, addr, same⟩ := hashed.same
    exact ⟨hashed.valid, added, ts, addr, false, same, .inr ⟨last, at_, hashed.chain⟩⟩
  unfold hashForwardTo at looked
  split at looked
  · rename_i ks1 err result
    rw [result] at extended
    cases looked
    exact .failed extended
  · rename_i ks1 result
    rw [result] at extended
    obtain ⟨final, isFinal, is⟩ := hashToKey_reaches valid' at_ less result
    simp only [getLatest, isFinal] at looked
    split at looked
    · rename_i c points
      cases looked
      exact .handed extended points (mem_of_getLast? isFinal) is
    · cases looked

theorem getMediaKey_looked (valid : Valid ks)
    (looked : getMediaKey hkdf now ks index ksz = some (ks', answer)) : Looked hkdf ks index ksz ks' answer := by
  unfold getMediaKey at looked
  split at looked
  · rename_i kinfo found
    have member := mem_of_find?_eq_some found
    obtain ⟨c, points⟩ := currentKey_of_mem valid member
    rw [points] at looked
    cases looked
    exact .handed (extended_refl valid) points member (by simpa using List.find?_some found)
  · split at looked
    · split at looked
      · cases looked
        exact .failed (extended_errReported hkdf valid true)
      · rename_i last isLast
        simp only at looked
        split at looked
        · rename_i inRange
          exact hashForwardTo_looked valid isLast inRange.1 looked
        · cases looked
          exact .failed (extended_errReported hkdf valid false)
    · cases looked
      exact .failed (extended_refl valid)

theorem pickByTime_mem (picked : pickByTime ks minTs = some k) : k ∈ ks.keyl := by
  unfold pickByTime at picked
  have member := mem_of_mem_filter (mem_of_getLast? picked)
  split at member
  · exact member
  · exact (dropWhile_sublist _).subset member

/-- The keystore is left as it is, or `current` moves to one of its keys. -/
inductive Moved (ks : Keystore) : Done → Prop
  | stays (err : Option Errno) : Moved ks ⟨ks, err, false⟩
  | moves (k : KeyInfo) (member : k ∈ ks.keyl) : Moved ks ⟨organise { ks with current := some k.addr }, none, true⟩

theorem setCurrent_moved (ks : Keystore) (index : UInt32) : Moved ks (setCurrent ks index) := by
  unfold setCurrent
  split
  · exact .stays _
  · rename_i kinfo found
    exact .moves kinfo (mem_of_find?_eq_some found)

theorem rotateByTime_moved {more : Bool} (rotated : rotateByTime ks minTs = some (done, more)) : Moved ks done := by
  unfold rotateByTime at rotated
  split at rotated
  · cases rotated
  · cases rotated
    exact .stays _
  · rename_i latest _ picked
    split at rotated
    · cases rotated
      exact .stays _
    · cases rotated
      exact .moves latest (pickByTime_mem picked)

theorem Moved.valid (moved : Moved ks done) (valid : Valid ks) : Valid done.ks := by
  cases moved with
  | stays => exact valid
  | moves k member => exact valid_move valid member

theorem apply_valid (valid : Valid ks) (applied : apply hkdf op ks = some ks') : Valid ks' := by
  cases op with
  | setSalt salt now =>
    cases applied
    cases salt with
    | none => exact valid
    | some bytes => exact valid_frame valid rfl rfl rfl (Nat.le_refl _)
  | setSessionKey index key now =>
    obtain ⟨done, set, rfl⟩ := map_eq_some_iff.mp applied
    exact valid_setSessionKey hkdf now index key valid set
  | setFreshSessionKey index key salt now =>
    obtain ⟨done, set, rfl⟩ := map_eq_some_iff.mp applied
    exact valid_setFreshSessionKey valid set
  | rotate now =>
    obtain ⟨done, rotated, rfl⟩ := map_eq_some_iff.mp applied
    exact valid_advance (rotate_advance valid rotated)
  | setCurrent index =>
    cases applied
    exact (setCurrent_moved ks index).valid valid
  | getMediaKey index ksz now =>
    obtain ⟨⟨ks1, answer⟩, looked, rfl⟩ := map_eq_some_iff.mp applied
    exact valid_advance (getMediaKey_looked valid looked).advance
  | rotateByTime minTs =>
    obtain ⟨⟨done, more⟩, rotated, rfl⟩ := map_eq_some_iff.mp applied
    exact (rotateByTime_moved rotated).valid valid
  | reset =>
    cases applied
    exact ⟨⟨ascending_nil, by simp [reset], by simp [reset]⟩, rfl, rfl⟩
  | resetKeys =>
    cases applied
    exact ⟨⟨ascending_nil, by simp [resetKeys], by simp [resetKeys]⟩, rfl, rfl⟩

theorem run_valid {hashForward : Bool} {now : UInt64} {ops : List Op}
    (ran : run (apply hkdf) (alloc hashForward now) ops = some ks) : Valid ks :=
  run_invariant (fun _ _ _ (_ : True) valid applied => apply_valid valid applied)
    (fun _ _ => trivial) (valid_alloc hashForward now) ran

/-- After any operations on a fresh keystore the keys strictly ascend by index, `current` is null exactly when there are
    none and otherwise points into the list with at most one key before it, and `init` says whether it is set. -/
theorem run_representation (hkdf : Hkdf) (hashForward : Bool) (now : UInt64) (ops : List Op) (ks : Keystore)
    (ran : run (apply hkdf) (alloc hashForward now) ops = some ks) :
    ks.keyl.Pairwise (fun a b => a.index < b.index) ∧
      (ks.current = none ↔ ks.keyl = []) ∧
      (∀ a, ks.current = some a → ∃ pre k post, ks.keyl = pre ++ k :: post ∧ k.addr = a ∧ pre.length ≤ 1) ∧
      (ks.init = true ↔ ks.current ≠ none) := by
  have valid := run_valid ran
  refine ⟨valid.shaped.ascending, ⟨valid_empty valid, ?_⟩, ?_, ?_⟩
  · intro empty
    rcases eq_none_or_eq_some ks.current with none_ | ⟨a, at_⟩
    · exact none_
    · obtain ⟨pre, k, post, split, _⟩ := valid_split valid at_
      simp [empty] at split
  · intro a at_
    obtain ⟨pre, k, post, split, same, short, _⟩ := valid_split valid at_
    exact ⟨pre, k, post, split, same, short⟩
  · rw [valid.init, isSome_iff_ne_none]

/-- A run that inserts, hashes forward, looks ahead, overwrites and prunes. -/
theorem run_representation_pruned : ∃ ks, run (apply (fun n _ _ _ => some (Vector.replicate n 1))) (alloc true 0)
        [.setSalt (some [7]) 1, .setSessionKey 5 [1, 2] 2, .setSessionKey 9 [3] 3, .rotate (fun _ => 4),
          .getMediaKey 11 32 (fun _ => 5), .setSessionKey 11 [4] 6, .rotate (fun _ => 7)] = some ks ∧
      ks.keyl.map (·.index) = [11, 12] ∧ ks.keyl.Pairwise (fun a b => a.index < b.index) ∧
      (ks.init = true ↔ ks.current ≠ none) := by
  refine exists_shown (fun ks => ks.keyl.map (·.index) = [11, 12]) (by decide) fun ks ran indices => ?_
  obtain ⟨ascending, _, _, started⟩ := run_representation _ _ _ _ ks ran
  exact ⟨indices, ascending, started⟩

theorem currentKey_isSome (valid : Valid ks) : (currentKey ks).isSome := by
  rcases eq_none_or_eq_some ks.current with none_ | ⟨a, at_⟩
  · simp [currentKey, none_]
  · obtain ⟨_, _, _, _, _, _, points⟩ := valid_split valid at_
    simp [points]

theorem setSessionKey_completes (hkdf : Hkdf) (now : UInt64) (index : UInt32) (key : Bytes)
    (valid : Valid ks) : (setSessionKey hkdf now ks index key).isSome := by
  obtain ⟨current, points⟩ := isSome_iff_exists.mp (currentKey_isSome valid)
  unfold setSessionKey
  rw [points]
  split
  · rfl
  · simp only
    split
    · rfl
    · split
      · split <;> rfl
      · rfl

/-- A rotation follows a null pointer exactly at a last key of index 2^32 - 1 that it would have to hash forward. -/
theorem rotate_completes (hkdf : Hkdf) (now : Nat → UInt64) (valid : Valid ks) : rotate hkdf now ks = none ↔
      ks.hashForward = true ∧ ∃ k, currentKey ks = some (some k) ∧ nextOf ks k.addr = none ∧ number k = 0xFFFFFFFF := by
  obtain ⟨current, points⟩ := isSome_iff_exists.mp (currentKey_isSome valid)
  cases current with
  | none => simp [rotate, points]
  | some k =>
    rcases eq_none_or_eq_some (nextOf ks k.addr) with none_ | ⟨next, next_⟩
    · by_cases forward : ks.hashForward = true
      · have last := last_of_next_none valid points none_
        obtain ⟨added, hashed, full⟩ := hashToKey_spec valid last
        have points' := (hashed_currentKey valid last hashed).trans points
        have bound := UInt32.toNat_lt k.index
        simp only [rotate, points, none_, forward, if_true, isSome_none, Bool.false_eq_true, if_false,
          some.injEq, true_and, exists_eq_left']
        rcases result : hashToKey hkdf now ks (k.index + 1) with ⟨ks', err⟩
        rw [result] at hashed points' full
        cases err with
        | some err =>
          simp only [reduceCtorEq, false_iff]
          intro top
          have : (k.index + 1).toNat = 0 := by
            simp only [number] at top
            rw [UInt32.toNat_add, top]
            rfl
          simp [hashToKey, getLatest, last, this, hashLoop] at result
        | none =>
          simp only [rotateTo, map_eq_none_iff, hashed_next last hashed]
          cases added with
          | nil =>
            obtain ⟨final, isFinal, enough⟩ := full rfl
            simp only [List.getLast?_singleton, some.injEq] at isFinal
            subst isFinal
            simp only [List.head?_nil, true_iff]
            simp only [number, UInt32.toNat_add, UInt32.reduceToNat] at enough ⊢
            omega
          | cons k' rest =>
            have follows : number k' = number k + 1 := (isChain_cons_cons.mp hashed.chain).1.1
            have := UInt32.toNat_lt k'.index
            simp only [number] at follows
            simp only [List.head?_cons, reduceCtorEq, false_iff, number]
            omega
      · simp [rotate, points, none_, forward]
    · simp [rotate, rotateTo, points, next_]

theorem hashForwardTo_completes (hkdf : Hkdf) (now : Nat → UInt64) (index : UInt32) (ksz : Nat) (valid : Valid ks)
    (at_ : ks.keyl.getLast? = some last) : (hashForwardTo hkdf now ks index ksz).isSome := by
  obtain ⟨added, hashed, _⟩ := hashToKey_spec valid at_
  obtain ⟨a, current⟩ := isSome_iff_exists.mp (current_isSome valid at_)
  obtain ⟨_, c, _, _, _, _, points⟩ := valid_split valid current
  have points' := (hashed_currentKey valid at_ hashed).trans points
  unfold hashForwardTo
  split
  · rfl
  · rename_i ks' result
    rw [result] at points'
    split
    · rfl
    · rw [points']
      rfl

theorem getMediaKey_completes (hkdf : Hkdf) (now : Nat → UInt64) (index : UInt32) (ksz : Nat)
    (valid : Valid ks) : (getMediaKey hkdf now ks index ksz).isSome := by
  unfold getMediaKey
  split
  · simp [currentKey_isSome valid]
  · split
    · split
      · rfl
      · rename_i last isLast
        simp only
        split
        · exact hashForwardTo_completes hkdf now index ksz (extended_errReported hkdf valid false).1 isLast
        · rfl
    · rfl

theorem rotateByTime_completes (minTs : UInt64) (valid : Valid ks) : (rotateByTime ks minTs).isSome := by
  obtain ⟨current, points⟩ := isSome_iff_exists.mp (currentKey_isSome valid)
  unfold rotateByTime
  rw [points]
  cases pickByTime ks minTs with
  | none => rfl
  | some latest =>
    simp only
    split <;> rfl

/-- The only operation on a valid keystore that does not complete. -/
theorem apply_completes (valid : Valid ks) :
    apply hkdf op ks = none ↔
      (∃ now, op = .rotate now) ∧ ks.hashForward = true ∧
        ∃ k, currentKey ks = some (some k) ∧ nextOf ks k.addr = none ∧ number k = 0xFFFFFFFF := by
  cases op with
  | setSessionKey index key now =>
    have := setSessionKey_completes hkdf now index key valid
    simp [apply, isSome_iff_ne_none.mp this]
  | setFreshSessionKey index key salt now =>
    cases salt with
    | none => simp [apply, setFreshSessionKey]
    | some salt =>
      cases hashed : hkdf sessionKeySize key salt csInfo with
      | none => simp [apply, setFreshSessionKey, hashed]
      | some skey =>
        have := setSessionKey_completes hkdf now index skey.toList valid
        simp [apply, setFreshSessionKey, hashed, isSome_iff_ne_none.mp this]
  | rotate now => simp [apply, rotate_completes hkdf now valid]
  | getMediaKey index ksz now =>
    have := getMediaKey_completes hkdf now index ksz valid
    simp [apply, isSome_iff_ne_none.mp this]
  | rotateByTime minTs =>
    have := rotateByTime_completes minTs valid
    simp [apply, isSome_iff_ne_none.mp this]
  | _ => simp [apply]

/-- A rotation in the last key, with no index left to hash forward to. -/
def Exhausted (op : Op) (ks : Keystore) : Prop :=
  (∃ now, op = .rotate now) ∧ ks.hashForward = true ∧
    ∃ k, currentKey ks = some (some k) ∧ nextOf ks k.addr = none ∧ number k = 0xFFFFFFFF

/-- From a fresh keystore, operations in any order follow no null or dangling pointer exactly when none of them is a
    rotation in a last key with index 2^32 - 1 that is to be hashed forward. -/
theorem run_completes_iff (hkdf : Hkdf) (hashForward : Bool) (now : UInt64) (ops : List Op) :
    (run (apply hkdf) (alloc hashForward now) ops).isSome ↔
      Throughout (apply hkdf) (alloc hashForward now) ops (fun op ks => ¬ Exhausted op ks) := by
  have agree : ∀ op ks, Valid ks → ((apply hkdf op ks).isSome ↔ ¬ Exhausted op ks) := by
    intro op ks valid
    rw [isSome_iff_ne_none, ne_eq, apply_completes valid]
    rfl
  rw [run_isSome_iff]
  exact throughout_congr agree (fun op _ _ _ valid => apply_valid valid) (valid_alloc hashForward now) ops

end Avs.Keystore
