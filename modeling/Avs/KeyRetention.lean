import Avs.KeyRotation

/-!
What becomes of the keys a keystore holds. No operation but a reset drops a key unless a later one still
stands before the current key (`apply_retained`). Next to the keystore runs a book of every session key by
index, which nothing prunes: the keys a keystore holds are those of the book.
-/
namespace Avs.Keystore
open List Option Runs

/-- A key is still in the list, or another key of the list lies between it and the current one. -/
def Retained (ks : Keystore) (k : KeyInfo) : Prop :=
  (∃ k' ∈ ks.keyl, k'.addr = k.addr ∧ k'.index = k.index) ∨
    ∃ m ∈ ks.keyl, ∃ c, currentKey ks = some (some c) ∧ k.index < m.index ∧ m.index < c.index

/-- The operations that empty the keystore. -/
def Op.Resets : Op → Prop
  | .reset => True
  | .resetKeys => True
  | _ => False

variable {now : UInt64} {index : UInt32} {salt : Option Bytes} {k : KeyInfo} {key : Bytes} {done : Done} {op : Op}
  {hkdf : Hkdf}

section
variable {ks ks' : Keystore}

theorem retained_of_mem (member : k ∈ ks.keyl) : Retained ks k := .inl ⟨k, member, rfl, rfl⟩

theorem move_retained (valid : Valid ks) (member : k ∈ ks.keyl) :
    ∀ y ∈ ks.keyl, Retained (organise { ks with current := some k.addr }) y := by
  intro y held
  have points := move_points valid member
  obtain ⟨pre, post, split⟩ := append_of_mem member
  have moved := organise_move split valid.shaped
  have ascending := valid.shaped.ascending
  rw [split] at held ascending
  rcases mem_append.mp held with before | after
  · obtain ⟨front, m, rfl⟩ := (eq_nil_or_concat' pre).resolve_left (ne_nil_of_mem before)
    have kept : m ∈ (organise { ks with current := some k.addr }).keyl := by
      rw [moved]
      simp
    rcases mem_append.mp before with dropped | last
    · have ordered := (number_split ascending).1 m (by simp)
      rw [append_assoc] at ascending
      exact .inr ⟨m, kept, k, points, (number_split ascending).1 y dropped, ordered⟩
    · obtain rfl := mem_singleton.mp last
      exact retained_of_mem kept
  · apply retained_of_mem
    rw [moved]
    exact mem_append_right _ after

theorem extended_mem (extended : Extended hkdf ks ks') : ∀ y ∈ ks.keyl, y ∈ ks'.keyl := by
  obtain ⟨_, added, _, _, _, rfl, _⟩ := extended
  exact fun y held => mem_append_left added held

theorem advance_retained (advance : Advance hkdf ks ks') : ∀ y ∈ ks.keyl, Retained ks' y := by
  intro y held
  cases advance with
  | stay extended => exact retained_of_mem (extended_mem extended y held)
  | move extended _ member _ => exact move_retained extended.1 member y (extended_mem extended y held)

theorem overwrite_retained {kinfo : KeyInfo} {key : Bytes} (valid : Valid ks)
    (member : kinfo ∈ ks.keyl) : ∀ y ∈ ks.keyl, Retained (overwrite hkdf now ks kinfo key).ks y := by
  intro y held
  refine .inl ⟨_, List.mem_map_of_mem held, ?_⟩
  by_cases same : y.addr = kinfo.addr
  · obtain rfl := inj_on_of_nodup_map valid.shaped.distinct held member same
    simp
  · simp [same]

theorem insertKey_mem {mkey : Key} (valid : Valid ks) (absent : ∀ k ∈ ks.keyl, k.index ≠ index)
    (ahead : ∀ k, currentKey ks = some (some k) → k.index.toNat ≤ index.toNat)
    (derived : deriveMediaKey hkdf ks.salt (padKey key) = some mkey) :
    (insertKey hkdf now ks index key).err = none ∧ ∀ y, y ∈ (insertKey hkdf now ks index key).ks.keyl ↔
      y ∈ ks.keyl ∨ y = { addr := ks.nextAddr, skey := padKey key, mkey := mkey, index := index, updateTs := now } := by
  rcases eq_none_or_eq_some ks.current with none_ | ⟨a, at_⟩
  · rw [insertKey_first valid derived none_]
    simp [valid_empty valid none_]
  · obtain ⟨pre, c, post, split, -, -, -, inserted⟩ := insertKey_ahead now valid absent ahead derived at_
    rw [inserted]
    refine ⟨rfl, fun y => ?_⟩
    simp only [split, mem_append, mem_cons, mem_insertionSort, not_mem_nil, or_false]
    tauto

theorem setSessionKey_retained (valid : Valid ks)
    (set : setSessionKey hkdf now ks index key = some done) : ∀ y ∈ ks.keyl, Retained done.ks y := by
  rcases setSessionKey_cases set with ⟨same, -⟩ | ⟨kinfo, member, -, rfl⟩ | ⟨absent, ahead, rfl⟩
  · exact fun y held => retained_of_mem (same ▸ held)
  · exact overwrite_retained valid member
  · intro y held
    apply retained_of_mem
    cases derived : deriveMediaKey hkdf ks.salt (padKey key) with
    | none => simpa [insertKey, derived] using held
    | some mkey => exact ((insertKey_mem valid absent ahead derived).2 y).mpr (.inl held)

theorem Moved.retained (moved : Moved ks done) (valid : Valid ks) : ∀ y ∈ ks.keyl, Retained done.ks y := by
  cases moved with
  | stays => exact fun y held => retained_of_mem held
  | moves k member => exact move_retained valid member

/-- A key goes only in a reset, or when another is left between it and the current one. -/
theorem apply_retained (valid : Valid ks) (stays : ¬ op.Resets) (applied : apply hkdf op ks = some ks') :
    ∀ y ∈ ks.keyl, Retained ks' y := by
  cases op with
  | setSalt salt now =>
    cases applied
    unfold setSalt
    split <;> exact fun y held => retained_of_mem held
  | setSessionKey index key now =>
    obtain ⟨done, set, rfl⟩ := map_eq_some_iff.mp applied
    exact setSessionKey_retained valid set
  | setFreshSessionKey index key salt now =>
    obtain ⟨done, set, rfl⟩ := map_eq_some_iff.mp applied
    rcases setFreshSessionKey_cases set with ⟨same, -⟩ | ⟨hashed, -, set'⟩
    · exact fun y held => retained_of_mem (same ▸ held)
    · exact setSessionKey_retained valid set'
  | rotate now =>
    obtain ⟨done, rotated, rfl⟩ := map_eq_some_iff.mp applied
    exact advance_retained (rotate_advance valid rotated)
  | setCurrent index =>
    cases applied
    exact (setCurrent_moved ks index).retained valid
  | getMediaKey index ksz now =>
    obtain ⟨⟨after, answer⟩, looked, rfl⟩ := map_eq_some_iff.mp applied
    exact advance_retained (getMediaKey_looked valid looked).advance
  | rotateByTime minTs =>
    obtain ⟨⟨done, more⟩, rotated, rfl⟩ := map_eq_some_iff.mp applied
    exact (rotateByTime_moved rotated).retained valid
  | reset => exact absurd trivial stays
  | resetKeys => exact absurd trivial stays

end

/-- The session key of every index that has had one. -/
abbrev Book := Nat → Option Key

def Book.note (book : Book) (i : Nat) (key : Option Key) : Book := fun j => if j = i then key else book j

/-- A stored key, if any, becomes the entry of its index. -/
def Book.enter (book : Book) : Option (UInt32 × Key) → Book
  | some (index, key) => book.note index.toNat (some key)
  | none => book

/-- The entries of the `n` indices after `i` become the HKDF successors, each of the one before it. -/
def Book.hashOn (hkdf : Hkdf) (salt : Option Bytes) : Nat → Nat → Book → Book
  | 0, _, book => book
  | n + 1, i, book => hashOn hkdf salt n (i + 1) (book.note (i + 1) ((book i).bind (deriveSessionKey hkdf salt)))

/-- The index and key that a set operation which returns no error stores. -/
def stored (hkdf : Hkdf) (ks : Keystore) : Op → Option (UInt32 × Key)
  | .setSessionKey index key now => do
    let done ← setSessionKey hkdf now ks index key
    if done.err.isNone then some (index, padKey key) else none
  | .setFreshSessionKey index key salt now => do
    let done ← setFreshSessionKey hkdf now ks index key salt
    let hashed ← salt.bind (hkdf sessionKeySize key · csInfo)
    if done.err.isNone then some (index, hashed) else none
  | _ => none

/-- What an operation that takes a keystore from `ks` to `ks'` writes. Rotations and lookups hash forward from the
    largest index of the one to that of the other. -/
def Book.record (hkdf : Hkdf) (op : Op) (ks ks' : Keystore) (book : Book) : Book :=
  match op with
  | .reset => fun _ => none
  | .resetKeys => fun _ => none
  | .rotate _ => book.hashOn hkdf ks.salt ((getMaxKey ks').toNat - (getMaxKey ks).toNat) (getMaxKey ks).toNat
  | .getMediaKey _ _ _ => book.hashOn hkdf ks.salt ((getMaxKey ks').toNat - (getMaxKey ks).toNat) (getMaxKey ks).toNat
  | op => book.enter (stored hkdf ks op)

def applyNoting (hkdf : Hkdf) (op : Op) (s : Keystore × Book) : Option (Keystore × Book) :=
  (apply hkdf op s.1).map (fun ks' => (ks', s.2.record hkdf op s.1 ks'))

/-- Salts are set while there is no key. -/
def SaltFirst : Op → Keystore → Prop
  | .setSalt _ _, ks => ks.keyl = []
  | _, _ => True

instance (op : Op) (ks : Keystore) : Decidable (SaltFirst op ks) :=
  match op with
  | .setSalt _ _ => inferInstanceAs (Decidable (_ = _))
  | .setSessionKey .. | .setFreshSessionKey .. | .rotate _ | .setCurrent _ | .getMediaKey .. | .rotateByTime _
  | .reset | .resetKeys => instDecidableTrue

/-- The keys a keystore holds are those of its book, with the media keys derived from them. -/
structure ByTheBook (hkdf : Hkdf) (ks : Keystore) (book : Book) : Prop where
  valid : Valid ks
  keys : ∀ k ∈ ks.keyl, book (number k) = some k.skey ∧ deriveMediaKey hkdf ks.salt k.skey = some k.mkey

section
variable {book : Book} {ks ks' : Keystore} {i j : Nat} {added : List KeyInfo}

theorem note_self {key : Option Key} : book.note i key i = key := by simp [Book.note]

theorem note_other {key : Option Key} (other : j ≠ i) : book.note i key j = book j := by
  simp [Book.note, other]

theorem hashOn_before : ∀ (n i : Nat) (book : Book), j ≤ i → book.hashOn hkdf salt n i j = book j := by
  intro n
  induction n with
  | zero => exact fun _ _ _ => rfl
  | succ n ih =>
    intro i book before
    rw [Book.hashOn, ih (i + 1) _ (by omega), note_other (by omega)]

/-- Keys hashed forward one after the other are the entries written by hashing on. -/
theorem hashOn_follows : ∀ {last : KeyInfo} {book : Book}, book (number last) = some last.skey →
      List.IsChain (Follows hkdf salt) (last :: added) →
      ∀ k ∈ added, book.hashOn hkdf salt added.length (number last) (number k) = some k.skey ∧
        deriveMediaKey hkdf salt k.skey = some k.mkey ∧ number last < number k := by
  induction added with
  | nil => simp
  | cons next rest ih =>
    intro last book noted chain k member
    obtain ⟨⟨position, session, media⟩, chain'⟩ := isChain_cons_cons.mp chain
    rw [length_cons, Book.hashOn, noted, bind_some, session, ← position]
    rcases mem_cons.mp member with rfl | later
    · exact ⟨by rw [hashOn_before _ _ _ (Nat.le_refl _), note_self], media, by omega⟩
    · obtain ⟨written, media', above⟩ := ih note_self chain' k later
      exact ⟨written, media', by omega⟩

theorem follows_last : ∀ {last : KeyInfo}, List.IsChain (Follows hkdf salt) (last :: added) →
      number ((last :: added).getLast (by simp)) = number last + added.length := by
  induction added with
  | nil => simp
  | cons next rest ih =>
    intro last chain
    obtain ⟨⟨position, -⟩, chain'⟩ := isChain_cons_cons.mp chain
    rw [getLast_cons (by simp), ih chain', position, length_cons]
    omega

theorem getMaxKey_keyl (same : ks'.keyl = ks.keyl) : getMaxKey ks' = getMaxKey ks := by
  simp only [getMaxKey, getLatest, same]

theorem getMaxKey_last {last : KeyInfo} (isLast : ks.keyl.getLast? = some last) :
    (getMaxKey ks).toNat = number last := by
  simp [getMaxKey, getLatest, isLast, number]

theorem move_getMaxKey (valid : Valid ks) (member : k ∈ ks.keyl) :
    getMaxKey (organise { ks with current := some k.addr }) = getMaxKey ks := by
  obtain ⟨pre, post, split⟩ := append_of_mem member
  have ends : ∀ front : List KeyInfo, (front ++ k :: post).getLast? = (k :: post).getLast? :=
    fun front => List.getLast?_append_of_ne_nil front (by simp)
  rw [organise_move split valid.shaped]
  simp only [getMaxKey, getLatest, split, ends]

theorem extended_byTheBook (extended : Extended hkdf ks ks') (by_ : ByTheBook hkdf ks book) : ByTheBook hkdf ks'
      (book.hashOn hkdf ks.salt ((getMaxKey ks').toNat - (getMaxKey ks).toNat) (getMaxKey ks).toNat) := by
  obtain ⟨valid', added, ts, addr, reported, rfl, grown⟩ := extended
  refine ⟨valid', ?_⟩
  rcases grown with rfl | ⟨last, isLast, chain⟩
  · rw [getMaxKey_keyl (append_nil ks.keyl), Nat.sub_self, Book.hashOn]
    simpa only [append_nil] using by_.keys
  · obtain ⟨front, split⟩ := List.getLast?_eq_some_iff.mp isLast
    have ends : (ks.keyl ++ added).getLast? = some ((last :: added).getLast (by simp)) := by
      rw [split, append_assoc, singleton_append, List.getLast?_append_of_ne_nil _ (by simp),
        List.getLast?_eq_some_getLast]
    rw [getMaxKey_last isLast, getMaxKey_last ends, follows_last chain, Nat.add_sub_cancel_left]
    intro k member
    rcases mem_append.mp member with old | new
    · rw [hashOn_before _ _ _ (last_largest by_.valid.shaped.ascending isLast k old)]
      exact by_.keys k old
    · obtain ⟨written, media, -⟩ := hashOn_follows (by_.keys last (mem_of_getLast? isLast)).1 chain k new
      exact ⟨written, media⟩

theorem move_byTheBook (member : k ∈ ks.keyl) (by_ : ByTheBook hkdf ks book) :
    ByTheBook hkdf (organise { ks with current := some k.addr }) book := by
  refine ⟨valid_move by_.valid member, ?_⟩
  intro y kept
  have held := organise_subset _ y kept
  rw [organise_salt]
  exact by_.keys y held

theorem advance_byTheBook (advance : Advance hkdf ks ks') (by_ : ByTheBook hkdf ks book) : ByTheBook hkdf ks'
      (book.hashOn hkdf ks.salt ((getMaxKey ks').toNat - (getMaxKey ks).toNat) (getMaxKey ks).toNat) := by
  cases advance with
  | stay extended => exact extended_byTheBook extended by_
  | move extended _ member _ =>
    rw [move_getMaxKey extended.1 member]
    exact move_byTheBook member (extended_byTheBook extended by_)

theorem setSessionKey_stores (total : Total hkdf)
    (valid : Valid ks) (set : setSessionKey hkdf now ks index key = some done) :
    done.ks = ks ∧ done.err ≠ none ∨
      done.err = none ∧ ∀ k ∈ done.ks.keyl, k ∈ ks.keyl ∧ k.index ≠ index ∨
        k.index = index ∧ k.skey = padKey key ∧ deriveMediaKey hkdf ks.salt (padKey key) = some k.mkey := by
  obtain ⟨mkey, derived⟩ := isSome_iff_exists.mp
    (show (deriveMediaKey hkdf ks.salt (padKey key)).isSome from total _ _ _ _)
  rcases setSessionKey_cases set with same | ⟨kinfo, member, rfl, rfl⟩ | ⟨absent, ahead, rfl⟩
  · exact .inl same
  · refine .inr ⟨by simp [overwrite, derived], ?_⟩
    intro k held
    obtain ⟨old, member', rfl⟩ := List.mem_map.mp held
    by_cases same : old.addr = kinfo.addr
    · simp [same, derived]
    · refine .inl ?_
      simp only [same, if_false]
      refine ⟨member', fun index => same ?_⟩
      have distinct := KeyedList.ascending_distinct valid.shaped.ascending
      rw [inj_on_of_nodup_map distinct member' member (congrArg UInt32.toNat index)]
  · obtain ⟨noError, keys⟩ := insertKey_mem valid absent ahead derived
    refine .inr ⟨noError, fun k held => ?_⟩
    rcases (keys k).mp held with old | rfl
    · exact .inl ⟨old, absent k old⟩
    · exact .inr ⟨rfl, rfl, derived⟩

theorem setSessionKey_byTheBook (total : Total hkdf)
    (by_ : ByTheBook hkdf ks book) (set : setSessionKey hkdf now ks index key = some done) :
    ByTheBook hkdf done.ks (book.enter (if done.err.isNone then some (index, padKey key) else none)) := by
  refine ⟨valid_setSessionKey hkdf now index key by_.valid set, ?_⟩
  have salt := (setSessionKey_kept set).1.salt
  rcases setSessionKey_stores total by_.valid set with ⟨same, failed⟩ | ⟨noError, keys⟩
  · rw [same, if_neg (by simpa using failed)]
    exact by_.keys
  · rw [noError, salt]
    show ∀ k ∈ done.ks.keyl, book.note index.toNat (some (padKey key)) (number k) = some k.skey ∧ _
    intro k held
    rcases keys k held with ⟨old, other⟩ | ⟨rfl, session, media⟩
    · have other' : number k ≠ index.toNat := fun same => other (UInt32.toNat_inj.mp same)
      rw [note_other other']
      exact by_.keys k old
    · exact ⟨by rw [number, note_self, session], by rw [session, media]⟩

theorem setFreshSessionKey_byTheBook (total : Total hkdf) (by_ : ByTheBook hkdf ks book)
    (set : setFreshSessionKey hkdf now ks index key salt = some done) :
    ByTheBook hkdf done.ks (book.enter (stored hkdf ks (.setFreshSessionKey index key salt now))) := by
  rcases setFreshSessionKey_cases set with ⟨same, failed, -⟩ | ⟨hashed, derived, set'⟩
  · have nothing : stored hkdf ks (.setFreshSessionKey index key salt now) = none := by
      simp [stored, set, failed]
    rw [same, nothing]
    exact by_
  · have kept := setSessionKey_byTheBook total by_ set'
    rw [padKey_toList] at kept
    simpa only [stored, set, derived, bind_eq_bind, bind_some] using kept

theorem apply_byTheBook (total : Total hkdf) (first : SaltFirst op ks) (by_ : ByTheBook hkdf ks book)
    (applied : apply hkdf op ks = some ks') : ByTheBook hkdf ks' (book.record hkdf op ks ks') := by
  have valid := apply_valid by_.valid applied
  cases op with
  | setSalt salt now =>
    have empty : ks'.keyl = [] := by
      cases applied
      cases salt <;> exact first
    exact ⟨valid, by simp [empty]⟩
  | setSessionKey index key now =>
    obtain ⟨done, set, rfl⟩ := map_eq_some_iff.mp applied
    show ByTheBook hkdf done.ks (book.enter (stored hkdf ks (.setSessionKey index key now)))
    simpa only [stored, set, bind_eq_bind, bind_some] using setSessionKey_byTheBook total by_ set
  | setFreshSessionKey index key salt now =>
    obtain ⟨done, set, rfl⟩ := map_eq_some_iff.mp applied
    exact setFreshSessionKey_byTheBook total by_ set
  | rotate now =>
    obtain ⟨done, rotated, rfl⟩ := map_eq_some_iff.mp applied
    exact advance_byTheBook (rotate_advance by_.valid rotated) by_
  | setCurrent index =>
    cases applied
    obtain ⟨⟨salt, -⟩, subset⟩ := (setCurrent_moved ks index).kept
    exact ⟨valid, fun k held => salt ▸ by_.keys k (subset k held)⟩
  | getMediaKey index ksz now =>
    obtain ⟨⟨after, answer⟩, looked, rfl⟩ := map_eq_some_iff.mp applied
    exact advance_byTheBook (getMediaKey_looked by_.valid looked).advance by_
  | rotateByTime minTs =>
    obtain ⟨⟨done, more⟩, rotated, rfl⟩ := map_eq_some_iff.mp applied
    obtain ⟨⟨salt, -⟩, subset⟩ := (rotateByTime_moved rotated).kept
    exact ⟨valid, fun k held => salt ▸ by_.keys k (subset k held)⟩
  | reset =>
    cases applied
    exact ⟨valid, by simp [reset]⟩
  | resetKeys =>
    cases applied
    exact ⟨valid, by simp [resetKeys]⟩

theorem getMediaKey_held (now : Nat → UInt64) (ksz : Nat) (valid : Valid ks) (held : k ∈ ks.keyl) :
    ∃ ks', getMediaKey hkdf now ks k.index ksz = some (ks', .ok (copyOut ksz k.mkey)) := by
  obtain ⟨current, points⟩ := isSome_iff_exists.mp (currentKey_isSome valid)
  exact ⟨_, by rw [getMediaKey, find_valid valid held, points]; rfl⟩

end

/-- With salts set before keys, no operation but a reset drops a key unless one is left between it and the current key,
    every key held is the one last noted for its index, with its media key, and a lookup answers with that. -/
theorem keys_retained (hkdf : Hkdf) (total : Total hkdf) (hashForward : Bool) (now : UInt64) (ops : List Op)
    (ks : Keystore) (book : Book)
    (salted : Throughout (applyNoting hkdf) (alloc hashForward now, fun _ => none) ops
      (fun op s => SaltFirst op s.1))
    (ran : run (applyNoting hkdf) (alloc hashForward now, fun _ => none) ops = some (ks, book)) :
    (∀ op ks', ¬ op.Resets → apply hkdf op ks = some ks' → ∀ k ∈ ks.keyl, Retained ks' k) ∧
      ∀ k ∈ ks.keyl, book (number k) = some k.skey ∧ deriveMediaKey hkdf ks.salt k.skey = some k.mkey ∧
        ∀ now ksz, ∃ ks', getMediaKey hkdf now ks k.index ksz =
          some (ks', .ok (k.mkey.toList.take ksz ++ List.replicate (ksz - sessionKeySize) 0)) := by
  have by_ : ByTheBook hkdf (ks, book).1 (ks, book).2 := by
    refine @run_throughout _ _ _ _ (fun s : Keystore × Book => ByTheBook hkdf s.1 s.2) ?_ ops _ _ salted ?_ ran
    · intro op s s' first kept stepped
      obtain ⟨ks', applied, rfl⟩ := map_eq_some_iff.mp stepped
      exact apply_byTheBook total first kept applied
    · exact ⟨valid_alloc hashForward now, by simp [alloc]⟩
  constructor
  · intro op ks' stays applied
    exact apply_retained by_.valid stays applied
  · intro k held
    obtain ⟨session, media⟩ := by_.keys k held
    exact ⟨session, media, fun now ksz => getMediaKey_held now ksz by_.valid held⟩

/-- Two keys with a gap, the later one overwritten, a lookup that hashes forward and a rotation. -/
theorem keys_retained_gap : ∃ ks book k, run (applyNoting shiftHkdf) (alloc true 0, fun _ => none)
      [.setSalt (some [7]) 1, .setSessionKey 5 [1] 2, .setSessionKey 9 [2] 3, .setSessionKey 9 [4] 4,
        .getMediaKey 11 32 (fun _ => 5), .rotate (fun _ => 6)] = some (ks, book) ∧
      k ∈ ks.keyl ∧ k.index = 12 ∧ book 12 = some k.skey := by
  have shown : ∃ s, run (guarded (applyNoting shiftHkdf) (fun op s => SaltFirst op s.1))
      (alloc true 0, fun _ => none)
      [.setSalt (some [7]) 1, .setSessionKey 5 [1] 2, .setSessionKey 9 [2] 3, .setSessionKey 9 [4] 4,
        .getMediaKey 11 32 (fun _ => 5), .rotate (fun _ => 6)] = some s ∧ ∃ k ∈ s.1.keyl, k.index = 12 := by
    decide +kernel
  obtain ⟨⟨ks, book⟩, ran, k, held, index⟩ := shown
  obtain ⟨salted, ran⟩ := run_guarded ran
  have session := ((keys_retained shiftHkdf shiftHkdf_total true 0 _ ks book salted ran).2 k held).1
  rw [number, index] at session
  exact ⟨ks, book, k, ran, held, index, session⟩

section
variable {ks : Keystore} {c : KeyInfo}

/-- `current` has moved from `c` to the next held key, or to the key hashed from `c` when there was none. -/
def Progressed (hkdf : Hkdf) (ks : Keystore) (c : KeyInfo) (ks' : Keystore) : Prop :=
  ∃ k, currentKey ks' = some (some k) ∧
    ((k ∈ ks.keyl ∧ c.index < k.index ∧ ∀ y ∈ ks.keyl, c.index < y.index → k.index ≤ y.index) ∨
      ((∀ y ∈ ks.keyl, y.index ≤ c.index) ∧ k.index.toNat = c.index.toNat + 1 ∧
        deriveSessionKey hkdf ks.salt c.skey = some k.skey ∧ deriveMediaKey hkdf ks.salt k.skey = some k.mkey))

/-- With a key after the current one, a rotation moves on to it. -/
theorem rotate_held {next : KeyInfo} {now : Nat → UInt64} (valid : Valid ks) (points : currentKey ks = some (some c))
    (follows : nextOf ks c.addr = some next) :
    ∃ done, rotate hkdf now ks = some done ∧ done.err = none ∧ Progressed hkdf ks c done.ks := by
  obtain ⟨pre, post, split, -, first⟩ := currentKey_split_at valid points
  obtain ⟨rest, rfl⟩ := List.head?_eq_some_iff.mp (first.symm.trans follows)
  have member : next ∈ ks.keyl := by simp [split]
  refine ⟨⟨organise { ks with current := some next.addr }, none, true⟩, ?_, rfl, next, move_points valid member, ?_⟩
  · simp [rotate, points, follows, rotateTo]
  · have ascending := valid.shaped.ascending
    rw [split] at ascending
    obtain ⟨before, after⟩ := number_split ascending
    refine .inl ⟨member, after next (by simp), fun y held (above : number c < number y) => ?_⟩
    show number next ≤ number y
    rw [split] at held
    rcases mem_append.mp held with early | late
    · have := before y early
      omega
    · rcases mem_cons.mp late with rfl | later
      · omega
      · rcases mem_cons.mp later with rfl | rest
        · exact Nat.le_refl _
        · rw [append_cons] at ascending
          exact Nat.le_of_lt ((number_split ascending).2 y rest)

/-- With none after it and an index that can be counted up, the next key is hashed from the current one. -/
theorem rotate_hashed (total : Total hkdf) {now : Nat → UInt64} (valid : Valid ks) (forward : ks.hashForward = true)
    (points : currentKey ks = some (some c)) (alone : nextOf ks c.addr = none) (below : c.index ≠ 0xFFFFFFFF) :
    ∃ done, rotate hkdf now ks = some done ∧ done.err = none ∧ Progressed hkdf ks c done.ks := by
  have last := last_of_next_none valid points alone
  have counted : (c.index + 1).toNat = c.index.toNat + 1 := by
    have : c.index.toNat ≠ (0xFFFFFFFF : UInt32).toNat := fun same => below (UInt32.toNat_inj.mp same)
    have := c.index.toNat_lt
    rw [UInt32.toNat_add]
    simp only [UInt32.reduceToNat] at *
    omega
  obtain ⟨ks', result⟩ : ∃ ks', hashToKey hkdf now ks (c.index + 1) = (ks', none) :=
    ⟨_, Prod.ext rfl (hashToKey_total total now (c.index + 1) last)⟩
  obtain ⟨added, hashed, full⟩ := hashToKey_spec valid last
  rw [result] at hashed full
  obtain ⟨k, rest, rfl⟩ : ∃ k rest, added = k :: rest := by
    cases added with
    | nil =>
      obtain ⟨y, isLast, enough⟩ := full rfl
      obtain rfl : c = y := by simpa using isLast
      rw [counted, number] at enough
      omega
    | cons k rest => exact ⟨k, rest, rfl⟩
  have next := hashed_next last hashed
  obtain ⟨⟨position, session, media⟩, -⟩ := isChain_cons_cons.mp hashed.chain
  have member : k ∈ ks'.keyl := by
    obtain ⟨ts, addr, rfl⟩ := hashed.same
    simp
  refine ⟨⟨organise { ks' with current := some k.addr }, none, true⟩, ?_, rfl, k, move_points hashed.valid member,
    .inr ⟨last_largest valid.shaped.ascending last, position, session, media⟩⟩
  simp [rotate, points, alone, forward, result, rotateTo, next]

end

/-- In every keystore that can come about and hashes forward, a rotation moves on exactly where the current index is not
    the last one there is. -/
theorem rotate_progress_iff (hkdf : Hkdf) (total : Total hkdf) (hashForward : Bool) (start : UInt64) (ops : List Op)
    (ks : Keystore) (c : KeyInfo) (now : Nat → UInt64)
    (ran : run (apply hkdf) (alloc hashForward start) ops = some ks) (forward : ks.hashForward = true)
    (points : currentKey ks = some (some c)) :
    (∃ done, rotate hkdf now ks = some done ∧ done.err = none ∧ Progressed hkdf ks c done.ks) ↔
      c.index ≠ 0xFFFFFFFF := by
  have valid := run_valid ran
  constructor
  · rintro ⟨done, rotated, -⟩ last
    obtain ⟨pre, post, split, -, next⟩ := currentKey_split_at valid points
    -- no 32-bit index is above the last one, so no key follows
    have alone : post = [] := by
      have ascending := valid.shaped.ascending
      rw [split] at ascending
      apply eq_nil_iff_forall_not_mem.mpr
      intro y later
      have above := (number_split ascending).2 y later
      have := y.index.toNat_lt
      rw [number, number, last] at above
      simp only [UInt32.reduceToNat] at above
      omega
    have fails := (rotate_completes hkdf now valid).mpr ⟨forward, c, points, by rw [next, alone]; rfl, by
      rw [number, last]
      rfl⟩
    rw [rotated] at fails
    cases fails
  · intro below
    rcases eq_none_or_eq_some (nextOf ks c.addr) with alone | ⟨next, follows⟩
    · exact rotate_hashed total valid forward points alone below
    · exact rotate_held valid points follows

/-- A rotation away from the only key. -/
theorem rotate_progress_first : ∃ ks c,
    run (apply shiftHkdf) (alloc true 0) [.setSessionKey 5 [1] 1] = some ks ∧ currentKey ks = some (some c) ∧
      ∃ done, rotate shiftHkdf (fun _ => 2) ks = some done ∧ done.err = none ∧ Progressed shiftHkdf ks c done.ks := by
  simp only [exists_and_left]
  refine exists_shown (fun ks => ks.hashForward = true ∧ ∃ c, currentKey ks = some (some c) ∧ c.index = 5)
    (by decide +kernel) ?_
  rintro ks ran ⟨forward, c, points, index⟩
  refine ⟨c, points, ?_⟩
  apply (rotate_progress_iff shiftHkdf shiftHkdf_total true 0 _ ks c (fun _ => 2) ran forward points).mpr
  simp [index]

/-- A key at the last index, such as a peer may send, and a rotation that follows its missing `next`. -/
theorem rotate_past_last : ∃ ks c,
    run (apply shiftHkdf) (alloc true 0) [.setSessionKey 0xFFFFFFFF [1] 1] = some ks ∧
      ks.hashForward = true ∧ currentKey ks = some (some c) ∧ c.index = 0xFFFFFFFF ∧
      rotate shiftHkdf (fun _ => 2) ks = none := by
  simp only [exists_and_left]
  decide +kernel

section
variable {ks ks' : Keystore} {minTs : UInt64} {more : Bool}

/-- A current key stays current or gives way to a later one. -/
def Onward (ks ks' : Keystore) : Prop :=
  ∀ c, currentKey ks = some (some c) → ∃ c', currentKey ks' = some (some c') ∧ c.index ≤ c'.index

theorem Onward.refl (ks : Keystore) : Onward ks ks := fun c points => ⟨c, points, UInt32.le_refl _⟩

theorem Onward.trans {a b c : Keystore} (first : Onward a b) (second : Onward b c) : Onward a c := by
  intro k points
  obtain ⟨k', points', more⟩ := first k points
  obtain ⟨k'', points'', more'⟩ := second k' points'
  exact ⟨k'', points'', UInt32.le_trans more more'⟩

theorem onward_of_floor (valid' : Valid ks') (retained : ∀ k ∈ ks.keyl, Retained ks' k)
    (rises : floor ks ≤ floor ks') : Onward ks ks' := by
  intro c points
  obtain ⟨c', points'⟩ : ∃ c', currentKey ks' = some (some c') := by
    rcases retained c (currentKey_mem points).1 with ⟨k, held, -⟩ | ⟨-, -, c', points', -⟩
    · exact currentKey_of_mem valid' held
    · exact ⟨c', points'⟩
  rw [floor_points points, floor_points points'] at rises
  exact ⟨c', points', rises⟩

theorem rotateByTime_later (valid : Valid ks) (rotated : rotateByTime ks minTs = some (done, more)) :
    done.ks = ks ∨ ∃ c k, currentKey ks = some (some c) ∧ k ∈ ks.keyl ∧ k.updateTs ≤ minTs ∧ c.index < k.index ∧
      currentKey done.ks = some (some k) := by
  unfold rotateByTime at rotated
  split at rotated
  · cases rotated
  · cases rotated
    exact .inl rfl
  · next latest _ picked =>
    split at rotated
    · cases rotated
      exact .inl rfl
    · next other =>
      cases rotated
      have held := pickByTime_mem picked
      rcases eq_none_or_eq_some ks.current with none_ | ⟨a, at_⟩
      · rw [valid_empty valid none_] at held
        cases held
      · obtain ⟨pre, c, post, split, rfl, -, points⟩ := valid_split valid at_
        have shaped := valid.shaped
        rw [split] at shaped
        -- the picked key is at or after the current one, and is not the current one
        simp only [pickByTime, at_, split, dropWhile_split shaped] at picked
        obtain ⟨member, aged⟩ := mem_filter.mp (mem_of_getLast? picked)
        refine .inr ⟨c, latest, points, held, of_decide_eq_true aged, ?_, move_points valid held⟩
        rcases mem_cons.mp member with rfl | later
        · exact absurd at_ other
        · exact (number_split shaped.ascending).2 latest later

theorem rotateByTime_floor (valid : Valid ks)
    (rotated : rotateByTime ks minTs = some (done, more)) : floor ks ≤ floor done.ks := by
  rcases rotateByTime_later valid rotated with same | ⟨c, k, points, -, -, later, points'⟩
  · rw [same]
  · rw [floor_points points, floor_points points']
    exact Nat.le_of_lt later

/-- `current` is set to an index that is not before it. -/
def Op.Ahead (ks : Keystore) : Op → Prop
  | .setCurrent index => ∀ c, currentKey ks = some (some c) → c.index < index
  | _ => True

/-- No operation moves `current` back but the resets and a `keystore_set_current` that is asked to. -/
theorem apply_onward (hkdf : Hkdf) (op : Op) (valid : Valid ks) (stays : ¬ op.Resets) (ahead : op.Ahead ks)
    (applied : apply hkdf op ks = some ks') : Onward ks ks' := by
  refine onward_of_floor (apply_valid valid applied) (apply_retained valid stays applied) ?_
  cases op with
  | setSalt salt now =>
    cases applied
    cases salt <;> exact Nat.le_refl _
  | setSessionKey index key now =>
    obtain ⟨done, set, rfl⟩ := map_eq_some_iff.mp applied
    exact setSessionKey_floor valid set
  | setFreshSessionKey index key salt now =>
    obtain ⟨done, set, rfl⟩ := map_eq_some_iff.mp applied
    exact setFreshSessionKey_floor valid set
  | rotate now =>
    obtain ⟨done, rotated, rfl⟩ := map_eq_some_iff.mp applied
    exact advance_floor valid (rotate_advance valid rotated)
  | setCurrent index =>
    cases applied
    rcases eq_none_or_eq_some ks.current with none_ | ⟨a, at_⟩
    · rw [floor_empty none_]
      exact Nat.zero_le _
    · obtain ⟨_, c, _, _, _, _, points⟩ := valid_split valid at_
      exact setCurrent_floor valid (by rw [getCurrent, points]; rfl) (ahead c points)
  | getMediaKey index ksz now =>
    obtain ⟨⟨after, answer⟩, looked, rfl⟩ := map_eq_some_iff.mp applied
    exact advance_floor valid (getMediaKey_looked valid looked).advance
  | rotateByTime minTs =>
    obtain ⟨⟨done, more⟩, rotated, rfl⟩ := map_eq_some_iff.mp applied
    exact rotateByTime_floor valid rotated
  | reset => exact absurd trivial stays
  | resetKeys => exact absurd trivial stays

theorem setSessionKey_onward (valid : Valid ks)
    (set : setSessionKey hkdf now ks index key = some done) : Onward ks done.ks :=
  apply_onward hkdf (.setSessionKey index key now) valid id trivial (by rw [apply, set]; rfl)

theorem setFreshSessionKey_onward {salt : Option Bytes}
    (valid : Valid ks) (set : setFreshSessionKey hkdf now ks index key salt = some done) : Onward ks done.ks :=
  apply_onward hkdf (.setFreshSessionKey index key salt now) valid id trivial (by rw [apply, set]; rfl)

theorem rotate_onward {now : Nat → UInt64} (valid : Valid ks)
    (rotated : rotate hkdf now ks = some done) : Onward ks done.ks :=
  apply_onward hkdf (.rotate now) valid id trivial (by rw [apply, rotated]; rfl)

theorem rotateByTime_onward (valid : Valid ks) (rotated : rotateByTime ks minTs = some (done, more)) :
    Onward ks done.ks :=
  apply_onward (fun _ _ _ _ => none) (.rotateByTime minTs) valid id trivial (by rw [apply, rotated]; rfl)

theorem setSalt_onward (valid : Valid ks) : Onward ks (setSalt ks salt now).ks :=
  apply_onward (fun _ _ _ _ => none) (.setSalt salt now) valid id trivial rfl

theorem setCurrent_onward {curr : UInt32} {ts : UInt64} (valid : Valid ks)
    (at_ : getCurrent ks = some (.ok (curr, ts))) (ahead : curr < index) : Onward ks (setCurrent ks index).ks := by
  refine apply_onward (fun _ _ _ _ => none) (.setCurrent index) valid id (fun c points => ?_) rfl
  simp only [getCurrent, points, map_some, some.injEq, Except.ok.injEq, Prod.mk.injEq] at at_
  exact at_.1 ▸ ahead

end

end Avs.Keystore
