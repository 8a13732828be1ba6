import Avs.CipherCache
import Avs.KeyDescent
import Avs.WebWorker

/-!
How the sending key of the web worker follows the keystore. `src/jsflow/jsflow.c` pushes a media key to the
worker when the keystore calls its listeners and when the worker asks for a key; the worker of
`wasm/src/avs_pc.ts` imports each key it is pushed, and the imports complete in any order.
-/
namespace Avs.KeyPush
open Avs.Keystore List Option Runs

/-- `kinfo`. -/
structure Kinfo (ι : Type) where
  id : ι
  key : Bytes
  deriving DecidableEq

/-- The keys of a coder: the objects made so far, and the places of those in `keys` and of `currentKey`. -/
structure Ring (ι : Type) where
  currentKey : Option Nat
  keys : List Nat
  objects : List (Kinfo ι)
  deriving DecidableEq

/-- The handler of a fulfilled `importKey` promise. -/
def Ring.imported {ι : Type} [DecidableEq ι] (ring : Ring ι) (index current : ι) (key : Bytes) : Ring ι :=
  match ring.keys.find? (fun ref => (ring.objects[ref]?).any (·.id = index)) with
  | some ref =>
    { objects := ring.objects.modify ref (fun kinfo => { kinfo with key := key })
      currentKey := if index = current then some ref else ring.currentKey
      keys := ring.keys.drop (ring.keys.length - 4) }
  | none =>
    let ref := ring.objects.length
    let keys := ring.keys ++ [ref]
    { objects := ring.objects ++ [⟨index, key⟩]
      currentKey := if index = current then some ref else ring.currentKey
      keys := keys.drop (keys.length - 4) }

def Ring.sending {ι : Type} (ring : Ring ι) : Option (Kinfo ι) := ring.currentKey.bind (ring.objects[·]?)

/-- The keys of the worker's coder. -/
def ringOf (coder : WebWorker.Coder) : Ring Nat :=
  ⟨coder.currentKey, coder.keys, coder.objects.map (fun kinfo => ⟨kinfo.id, kinfo.key⟩)⟩

variable {key : Bytes} {n : Nat} {hkdf : Hkdf} {ks : Keystore} {k : KeyInfo}

theorem ringOf_imported {coder : WebWorker.Coder} {index current : Nat} :
    ringOf (WebWorker.imported coder index current key) = (ringOf coder).imported index current key := by
  have same : (fun ref : Nat => ((ringOf coder).objects[ref]?).any (fun kinfo => decide (kinfo.id = index))) =
      fun ref : Nat => (coder.objects[ref]?).any (fun kinfo => decide (kinfo.id = index)) := by
    funext ref
    simp [ringOf, Option.any_map]
  cases found : coder.keys.find?
      (fun ref : Nat => (coder.objects[ref]?).any (fun kinfo => decide (kinfo.id = index))) with
  | some ref =>
    simp only [WebWorker.imported, found, Ring.imported, same, show (ringOf coder).keys = coder.keys from rfl]
    simp only [ringOf, Ring.mk.injEq, true_and]
    apply ext_getElem?
    intro n
    by_cases at_ : ref = n <;> simp [at_, Function.comp_def]
  | none =>
    simp only [WebWorker.imported, found, Ring.imported, same, show (ringOf coder).keys = coder.keys from rfl]
    simp [ringOf]

/-- A `uint32_t` passed as an `int`. -/
def toInt (n : UInt32) : Int := n.toBitVec.toInt

/-- A `setMediaKey` message whose `importKey` promise has not settled. -/
structure Push where
  index : Int
  current : Int
  key : Bytes
  deriving DecidableEq

/-- The keystore, the worker's keys and the imports that have not completed, in the order they were started. -/
structure Flow where
  ks : Keystore
  ring : Ring Int
  importing : List Push

def start (hashForward : Bool) (now : UInt64) : Flow := ⟨Keystore.alloc hashForward now, ⟨none, [], []⟩, []⟩

def setMediaKey (index current : UInt32) (key : Bytes) (flow : Flow) : Flow :=
  { flow with importing := flow.importing ++ [⟨toInt index, toInt current, key⟩] }

def getCurrentMediaKey (hkdf : Hkdf) (now : Nat → UInt64) (flow : Flow) : Option Flow :=
  match getCurrent flow.ks with
  | none => none
  | some (.error _) => some flow
  | some (.ok (current, _)) =>
    match Keystore.getMediaKey hkdf now flow.ks current sessionKeySize with
    | none => none
    | some (ks, .error _) => some { flow with ks := ks }
    | some (ks, .ok key) => some (setMediaKey current current key { flow with ks := ks })

/-- `keystore_cchanged_handler`, which does the same. -/
def keystoreCchanged (hkdf : Hkdf) (now : Nat → UInt64) (flow : Flow) : Option Flow := getCurrentMediaKey hkdf now flow

def getMediaKey (hkdf : Hkdf) (now : Nat → UInt64) (index : UInt32) (flow : Flow) : Option Flow :=
  match Keystore.getMediaKey hkdf now flow.ks index sessionKeySize with
  | none => none
  | some (ks, .error _) => some { flow with ks := ks }
  | some (ks, .ok key) =>
    match getCurrent ks with
    | none => none
    | some (.error _) => some { flow with ks := ks }
    | some (.ok (current, _)) => some (setMediaKey index current key { flow with ks := ks })

/-- The changes of a keystore, other than lookups and resets. -/
inductive Change
  | setSessionKey (index : UInt32) (key : Bytes) (now : UInt64)
  | setFreshSessionKey (index : UInt32) (key : Bytes) (salt : Option Bytes) (now : UInt64)
  | rotate (now : Nat → UInt64)
  | setCurrent (index : UInt32)
  | rotateByTime (minTs : UInt64)

def Change.apply (hkdf : Hkdf) (ks : Keystore) : Change → Option Done
  | .setSessionKey index key now => Keystore.setSessionKey hkdf now ks index key
  | .setFreshSessionKey index key salt now => Keystore.setFreshSessionKey hkdf now ks index key salt
  | .rotate now => Keystore.rotate hkdf now ks
  | .setCurrent index => some (Keystore.setCurrent ks index)
  | .rotateByTime minTs => (Keystore.rotateByTime ks minTs).map Prod.fst

inductive Event
  | change (change : Change)
  | getMediaKey (index : UInt32)
  | getCurrentMediaKey
  | imported (n : Nat)

/-- The clock reads `now` in what an event looks up. -/
def step (hkdf : Hkdf) (now : Nat → UInt64) (event : Event) (flow : Flow) : Option Flow :=
  match event with
  | .change change =>
    (change.apply hkdf flow.ks).bind (fun done =>
      if done.told then keystoreCchanged hkdf now { flow with ks := done.ks } else some { flow with ks := done.ks })
  | .getMediaKey index => getMediaKey hkdf now index flow
  | .getCurrentMediaKey => getCurrentMediaKey hkdf now flow
  | .imported n =>
    (flow.importing[n]?).map (fun push =>
      { flow with ring := flow.ring.imported push.index push.current push.key, importing := flow.importing.eraseIdx n })

def inUse (ks : Keystore) : Option (UInt32 × Key) := ((currentKey ks).getD none).map (fun k => (k.index, k.mkey))

/-- The key handed to the keystore is no other key for the index in use. -/
def keepsKey (ks : Keystore) (index : UInt32) (key : Bytes) : Bool :=
  match (currentKey ks).getD none with
  | none => true
  | some k => k.index ≠ index || key.length = 0 ||
      k.skey.toList.take (min key.length sessionKeySize) = key.take (min key.length sessionKeySize)

/-- The change does not overwrite the key in use. -/
def Change.keeps (hkdf : Hkdf) (ks : Keystore) : Change → Bool
  | .setSessionKey index key _ => keepsKey ks index key
  | .setFreshSessionKey index key (some salt) _ =>
    (hkdf sessionKeySize key salt csInfo).all (fun hashed => keepsKey ks index hashed.toList)
  | _ => true

/-- An import completes before an earlier one only if they are of different indices and not both of a current key. -/
def inOrder (importing : List Push) (n : Nat) : Bool :=
  (importing[n]?).all (fun push => (importing.take n).all (fun earlier =>
    earlier.index ≠ push.index && !(earlier.index = earlier.current && push.index = push.current)))

def heeds (hkdf : Hkdf) (event : Event) (flow : Flow) : Bool :=
  match event with
  | .change change => change.keeps hkdf flow.ks
  | .imported n => inOrder flow.importing n
  | _ => true

variable {flow : Flow} {change : Change}

section
variable {now : Nat → UInt64} {time : UInt64} {done : Done} {ks' : Keystore} {ksz : Nat} {answer : Except Errno Bytes}

theorem inUse_points (points : currentKey ks = some (some k)) : inUse ks = some (k.index, k.mkey) := by
  simp [inUse, points]

theorem copyOut_whole {key : Key} : copyOut sessionKeySize key = key.toList := by
  have : key.toList.length = sessionKeySize := by simp
  simp [copyOut, take_of_length_le (Nat.le_of_eq this)]

theorem getCurrentMediaKey_spec (valid : Valid flow.ks) (points : currentKey flow.ks = some (some k)) :
    getCurrentMediaKey hkdf now flow = some (setMediaKey k.index k.index k.mkey.toList flow) := by
  have found := find_valid valid (currentKey_mem points).1
  have stays : ¬ (some k).all (fun c => c.index < k.index) = true := by simp
  have got : getCurrent flow.ks = some (.ok (k.index, flow.ks.updateTs)) := by simp [getCurrent, points]
  have looked : Keystore.getMediaKey hkdf now flow.ks k.index sessionKeySize = some (flow.ks, .ok k.mkey.toList) := by
    simp only [Keystore.getMediaKey, found, points, map_some, handOut, if_neg stays, copyOut_whole]
  simp only [getCurrentMediaKey, got, looked]

section
variable (valid : Valid ks)
include valid

theorem overwrite_inUse {kinfo : KeyInfo} (member : kinfo ∈ ks.keyl)
    (other : currentKey ks ≠ some (some kinfo)) : inUse (overwrite hkdf time ks kinfo key).ks = inUse ks := by
  obtain ⟨c, points⟩ := currentKey_of_mem valid member
  obtain ⟨c', points', -, kept⟩ := overwrite_currentKey valid member points
  obtain rfl := kept (fun same => other (same ▸ points))
  rw [inUse, points', inUse, points]

theorem insertKey_inUse {index : UInt32} (absent : ∀ k ∈ ks.keyl, k.index ≠ index)
    (ahead : ∀ k, currentKey ks = some (some k) → k.index.toNat ≤ index.toNat)
    (untold : (insertKey hkdf time ks index key).told = false) :
    inUse (insertKey hkdf time ks index key).ks = inUse ks := by
  rcases insertKey_currentKey valid absent ahead with same | ⟨-, told⟩
  · rw [inUse, same, inUse]
  · simp [told] at untold

theorem setSessionKey_same (points : currentKey ks = some (some k)) (keeps : keepsKey ks k.index key = true) :
    ∃ err, setSessionKey hkdf time ks k.index key = some ⟨ks, err, false⟩ := by
  have found := find_valid valid (currentKey_mem points).1
  rw [setSessionKey]
  split
  · exact ⟨_, rfl⟩
  · next some_ =>
    have same : k.skey.toList.take (min key.length sessionKeySize) = key.take (min key.length sessionKeySize) := by
      simpa [keepsKey, points, some_] using keeps
    simp only [points, any_some, UInt32.lt_irrefl, decide_false, Bool.false_eq_true, if_false, found, same,
      if_true]
    exact ⟨_, rfl⟩

theorem setSessionKey_inUse {index : UInt32}
    (keeps : keepsKey ks index key = true) (set_ : setSessionKey hkdf time ks index key = some done)
    (untold : done.told = false) : inUse done.ks = inUse ks := by
  rcases setSessionKey_cases set_ with ⟨same, -⟩ | ⟨kinfo, member, rfl, rfl⟩ | ⟨absent, ahead, rfl⟩
  · rw [same]
  · by_cases current : currentKey ks = some (some kinfo)
    · obtain ⟨err, refused⟩ := setSessionKey_same valid current keeps
      rw [← some.inj (refused.symm.trans set_)]
    · exact overwrite_inUse valid member current
  · exact insertKey_inUse valid absent ahead untold

theorem extended_inUse (extended : Extended hkdf ks ks') : inUse ks' = inUse ks := by
  rw [inUse, extended_currentKey valid extended, inUse]

theorem rotate_inUse {clock : Nat → UInt64}
    (rotated : rotate hkdf clock ks = some done) (untold : done.told = false) : inUse done.ks = inUse ks := by
  obtain ⟨ks', extended, ⟨err, rfl⟩ | ⟨c, -, moved⟩⟩ := rotate_cases valid rotated
  · exact extended_inUse valid extended
  · obtain ⟨next, -, rfl⟩ := map_eq_some_iff.mp moved
    simp at untold

omit valid in
theorem moved_inUse (moved : Moved ks done) (untold : done.told = false) : inUse done.ks = inUse ks := by
  cases moved with
  | stays => rfl
  | moves => simp at untold

theorem change_inUse (keeps : change.keeps hkdf ks = true)
    (applied : change.apply hkdf ks = some done) (untold : done.told = false) : inUse done.ks = inUse ks := by
  cases change with
  | setSessionKey index key time => exact setSessionKey_inUse valid keeps applied untold
  | setFreshSessionKey index key salt time =>
    rcases setFreshSessionKey_cases applied with ⟨same, -⟩ | ⟨hashed, derived, set⟩
    · rw [same]
    · obtain ⟨salt, rfl, made⟩ := bind_eq_some_iff.mp derived
      exact setSessionKey_inUse valid (by simpa [Change.keeps, made] using keeps) set untold
  | rotate clock => exact rotate_inUse valid applied untold
  | setCurrent index =>
    cases applied
    exact moved_inUse (setCurrent_moved ks index) untold
  | rotateByTime minTs =>
    obtain ⟨⟨done', more⟩, rotated, rfl⟩ := map_eq_some_iff.mp applied
    exact moved_inUse (rotateByTime_moved rotated) untold

theorem change_valid (applied : change.apply hkdf ks = some done) : Valid done.ks := by
  cases change with
  | setSessionKey index key time => exact valid_setSessionKey hkdf time index key valid applied
  | setFreshSessionKey index key salt time => exact valid_setFreshSessionKey valid applied
  | rotate clock => exact valid_advance (rotate_advance valid applied)
  | setCurrent index => exact some.inj applied ▸ (setCurrent_moved ks index).valid valid
  | rotateByTime minTs =>
    obtain ⟨⟨done', more⟩, rotated, rfl⟩ := map_eq_some_iff.mp applied
    exact (rotateByTime_moved rotated).valid valid

theorem getMediaKey_inUse {index : UInt32} (looked : Keystore.getMediaKey hkdf now ks index ksz = some (ks', answer)) :
    inUse ks' = inUse ks ∨ ∃ k out, currentKey ks' = some (some k) ∧ k.index = index ∧ answer = .ok out := by
  cases getMediaKey_looked valid looked with
  | failed extended => exact .inl (extended_inUse valid extended)
  | handed extended points member is =>
    simp only [handOut]
    split
    · exact .inr ⟨_, _, move_points extended.1 member, is, rfl⟩
    · exact .inl (extended_inUse valid extended)

end

end

section
variable {ring : Ring Int} {index current : Int}

theorem imported_current {index : Int} : (ring.imported index index key).sending = some ⟨index, key⟩ := by
  rw [Ring.imported]
  split
  · next ref found =>
    have any_ := List.find?_some found
    cases held : ring.objects[ref]? with
    | none => simp [held] at any_
    | some kinfo =>
      have is : kinfo.id = index := by simpa [held] using any_
      simp [Ring.sending, held, is]
  · simp [Ring.sending]

theorem imported_other {kinfo : Kinfo Int} (sending : ring.sending = some kinfo) (apart : index ≠ kinfo.id)
    (aside : index ≠ current) : (ring.imported index current key).sending = some kinfo := by
  obtain ⟨place, at_, held⟩ := bind_eq_some_iff.mp sending
  rw [Ring.imported]
  split
  · next ref found =>
    have any_ := List.find?_some found
    have elsewhere : ref ≠ place := by
      rintro rfl
      rw [held] at any_
      simp only [any_some, decide_eq_true_eq] at any_
      exact apart any_.symm
    simp [Ring.sending, if_neg aside, at_, List.getElem?_modify, elsewhere, held]
  · have inside : place < ring.objects.length := (List.getElem?_eq_some_iff.mp held).1
    simp [Ring.sending, if_neg aside, at_, List.getElem?_append_left inside, held]

end
def Aside (index : Int) (push : Push) : Prop := push.index ≠ index ∧ push.index ≠ push.current

/-- The worker will send with a key once its imports have completed: its import is pending and what was pushed since
    leaves it alone, or it is the worker's current key already and so does everything pending. -/
inductive Due (flow : Flow) (index : Int) (key : Bytes) : Prop
  | pending (before after : List Push) (split : flow.importing = before ++ ⟨index, index, key⟩ :: after)
      (aside : ∀ push ∈ after, Aside index push)
  | arrived (sending : flow.ring.sending = some ⟨index, key⟩) (aside : ∀ push ∈ flow.importing, Aside index push)

section
variable {flow' : Flow} {index : Int} {push : Push} {front back : List Push}

theorem due_pushed {index : Int} : Due { flow with importing := flow.importing ++ [⟨index, index, key⟩] } index key :=
  .pending flow.importing [] rfl (by simp)

theorem due_aside (due : Due flow index key) (aside : Aside index push) :
    Due { flow with importing := flow.importing ++ [push] } index key := by
  cases due with
  | pending before after split others =>
    refine .pending before (after ++ [push]) (by simp [split]) ?_
    intro other member
    rcases mem_append.mp member with member | member
    · exact others other member
    · exact mem_singleton.mp member ▸ aside
  | arrived sending others =>
    refine .arrived sending ?_
    intro other member
    rcases mem_append.mp member with member | member
    · exact others other member
    · exact mem_singleton.mp member ▸ aside

theorem inOrder_spec {importing : List Push} (split : importing = front ++ push :: back)
    (ordered : inOrder importing front.length = true) :
    ∀ earlier ∈ front, earlier.index ≠ push.index ∧ (push.index = push.current → earlier.index ≠ earlier.current) := by
  intro earlier member
  have all : ∀ x ∈ front, ¬ x.index = push.index ∧ (¬ x.index = x.current ∨ ¬ push.index = push.current) := by
    simpa [inOrder, split] using ordered
  obtain ⟨apart, either⟩ := all earlier member
  exact ⟨apart, fun is was => either.elim (fun not_ => not_ was) (fun not_ => not_ is)⟩

/-- Whichever import completes next, in the order allowed, the key is still due. -/
theorem due_imported (due : Due flow index key) (split : flow.importing = front ++ push :: back)
    (ordered : ∀ earlier ∈ front, earlier.index ≠ push.index ∧
      (push.index = push.current → earlier.index ≠ earlier.current)) :
    Due { flow with ring := flow.ring.imported push.index push.current push.key, importing := front ++ back }
      index key := by
  cases due with
  | pending before after split' aside =>
    rw [split] at split'
    rcases append_eq_append_iff.mp split' with ⟨middle, rfl, same⟩ | ⟨middle, rfl, same⟩
    · cases middle with
      | nil =>
        obtain ⟨rfl, rfl⟩ := List.cons.inj same
        refine .arrived imported_current ?_
        intro other member
        rcases mem_append.mp member with member | member
        · exact ⟨(ordered other member).1, (ordered other member).2 rfl⟩
        · exact aside other member
      | cons first middle =>
        obtain ⟨rfl, rfl⟩ := List.cons.inj same
        exact .pending (front ++ middle) after (by simp) aside
    · cases middle with
      | nil =>
        obtain ⟨rfl, rfl⟩ := List.cons.inj same
        refine .arrived imported_current ?_
        intro other member
        rcases mem_append.mp member with member | member
        · exact ⟨(ordered other (by simpa using member)).1, (ordered other (by simpa using member)).2 rfl⟩
        · exact aside other member
      | cons first middle =>
        obtain ⟨rfl, rfl⟩ := List.cons.inj same
        refine .pending before (middle ++ back) (by simp) ?_
        intro other member
        refine aside other ?_
        rcases mem_append.mp member with member | member
        · exact mem_append_left _ member
        · exact mem_append_right _ (mem_cons_of_mem _ member)
  | arrived sending aside =>
    have own := aside push (by simp [split])
    refine .arrived (imported_other sending own.1 own.2) ?_
    intro other member
    refine aside other ?_
    rw [split]
    rcases mem_append.mp member with member | member
    · exact mem_append_left _ member
    · exact mem_append_right _ (mem_cons_of_mem _ member)

end

/-- The key in use is due at the worker. -/
structure Followed (flow : Flow) : Prop where
  valid : Valid flow.ks
  due : ∀ index mkey, inUse flow.ks = some (index, mkey) → Due flow (toInt index) mkey.toList

section
variable {now : Nat → UInt64} {flow' : Flow} {event : Event}

theorem toInt_inj {a b : UInt32} (same : toInt a = toInt b) : a = b :=
  UInt32.toBitVec_inj.mp (BitVec.toInt_inj.mp same)

theorem followed_silent (followed : Followed flow) (valid : Valid ks) (same : inUse ks = inUse flow.ks) :
    Followed { flow with ks := ks } := by
  refine ⟨valid, fun index mkey used => ?_⟩
  cases followed.due index mkey (same.symm.trans used) with
  | pending before after split aside => exact .pending before after split aside
  | arrived sending aside => exact .arrived sending aside

theorem followed_pushed (valid : Valid flow.ks) (points : currentKey flow.ks = some (some k)) :
    Followed (setMediaKey k.index k.index k.mkey.toList flow) := by
  refine ⟨valid, fun index mkey used => ?_⟩
  obtain ⟨rfl, rfl⟩ := Prod.mk.inj (some.inj ((inUse_points points).symm.trans used))
  exact due_pushed

theorem getCurrentMediaKey_followed (valid : Valid flow.ks) (followed : currentKey flow.ks = some none → Followed flow)
    (got : getCurrentMediaKey hkdf now flow = some flow') : Followed flow' := by
  rcases eq_none_or_eq_some flow.ks.current with at_ | ⟨a, at_⟩
  · have empty : currentKey flow.ks = some none := by simp [currentKey, at_]
    have error : getCurrent flow.ks = some (.error .ENOENT) := by simp [getCurrent, empty]
    simp only [getCurrentMediaKey, error, some.injEq] at got
    exact got ▸ followed empty
  · obtain ⟨pre, k, post, -, -, -, points⟩ := valid_split valid at_
    rw [getCurrentMediaKey_spec valid points] at got
    exact some.inj got ▸ followed_pushed valid points

theorem change_followed (followed : Followed flow) (keeps : change.keeps hkdf flow.ks = true)
    (stepped : step hkdf now (.change change) flow = some flow') : Followed flow' := by
  obtain ⟨done, applied, rest⟩ := bind_eq_some_iff.mp stepped
  have valid := change_valid followed.valid applied
  split at rest
  · refine getCurrentMediaKey_followed valid (fun empty => ⟨valid, ?_⟩) rest
    intro index mkey used
    simp [inUse, empty] at used
  · next untold =>
    exact some.inj rest ▸
      followed_silent followed valid (change_inUse followed.valid keeps applied (by simpa using untold))

theorem getMediaKey_followed (followed : Followed flow) {index : UInt32}
    (stepped : getMediaKey hkdf now index flow = some flow') : Followed flow' := by
  unfold getMediaKey at stepped
  split at stepped
  · cases stepped
  · next ks err looked =>
    cases stepped
    have valid := valid_advance (getMediaKey_looked followed.valid looked).advance
    rcases getMediaKey_inUse followed.valid looked with same | ⟨_, _, _, _, ok⟩
    · exact followed_silent followed valid same
    · cases ok
  · next ks key looked =>
    have looked' := getMediaKey_looked followed.valid looked
    have valid := valid_advance looked'.advance
    obtain ⟨k, member, is, rfl⟩ := looked'.answered
    split at stepped
    · cases stepped
    · next got =>
      cases stepped
      obtain ⟨current, points, isError⟩ := map_eq_some_iff.mp got
      cases current with
      | none => exact ⟨valid, fun index mkey used => by simp [inUse, points] at used⟩
      | some c => cases isError
    · next current ts got =>
      cases stepped
      obtain ⟨current, points, isOk⟩ := map_eq_some_iff.mp got
      cases current with
      | none => cases isOk
      | some c =>
        obtain ⟨rfl, -⟩ := Prod.mk.inj (Except.ok.inj isOk)
        by_cases own : c.index = index
        · -- the key asked for is the current one
          obtain rfl : c = k := by
            have first := find_valid valid (currentKey_mem points).1
            have second := find_valid valid member
            rw [own] at first
            rw [is] at second
            exact some.inj (first.symm.trans second)
          have pushed : Followed (setMediaKey c.index c.index c.mkey.toList { flow with ks := ks }) :=
            followed_pushed valid points
          rw [own] at pushed
          rwa [copyOut_whole, own]
        · have same : inUse ks = inUse flow.ks := by
            rcases getMediaKey_inUse followed.valid looked with same | ⟨k', _, points', is', -⟩
            · exact same
            · rw [points] at points'
              cases points'
              exact absurd is' own
          have silent := followed_silent followed valid same
          refine ⟨valid, fun used mkey isUsed => due_aside (silent.due used mkey isUsed) ?_⟩
          obtain ⟨rfl, rfl⟩ := Prod.mk.inj (some.inj ((inUse_points points).symm.trans isUsed))
          exact ⟨fun equal => own (toInt_inj equal).symm, fun equal => own (toInt_inj equal).symm⟩

theorem imported_followed (followed : Followed flow) (ordered : inOrder flow.importing n = true)
    (stepped : step hkdf now (.imported n) flow = some flow') : Followed flow' := by
  obtain ⟨push, at_, rfl⟩ := map_eq_some_iff.mp stepped
  obtain ⟨inside, is⟩ := List.getElem?_eq_some_iff.mp at_
  have split : flow.importing = flow.importing.take n ++ push :: flow.importing.drop (n + 1) := by
    rw [← is, ← drop_eq_getElem_cons inside, take_append_drop]
  have length : (flow.importing.take n).length = n := length_take_of_le (Nat.le_of_lt inside)
  refine ⟨followed.valid, fun index mkey used => ?_⟩
  rw [eraseIdx_eq_take_drop_succ]
  exact due_imported (followed.due index mkey used) split (inOrder_spec split (by rw [length]; exact ordered))

theorem step_followed (heeded : heeds hkdf event flow = true) (followed : Followed flow)
    (stepped : step hkdf now event flow = some flow') : Followed flow' := by
  cases event with
  | change change => exact change_followed followed heeded stepped
  | getMediaKey index => exact getMediaKey_followed followed stepped
  | getCurrentMediaKey => exact getCurrentMediaKey_followed followed.valid (fun _ => followed) stepped
  | imported n => exact imported_followed followed heeded stepped

end

theorem toInt_small {index : UInt32} (small : index.toNat < 2 ^ 31) : toInt index = index.toNat := by
  rw [toInt, BitVec.toInt_eq_toNat_of_lt]
  · rfl
  · show 2 * index.toNat < 2 ^ 32
    omega

/-- Where the key in use is not overwritten and imports of one index, and of current keys, complete in order, the worker
    sends with the keystore's current key once no import is pending; its id is the index, where that has 31 bits. -/
theorem worker_follows (hkdf : Hkdf) (now : Nat → UInt64) (hashForward : Bool) (created : UInt64) (events : List Event)
    (flow : Flow) (heeded : Throughout (step hkdf now) (start hashForward created) events
      (fun event flow => heeds hkdf event flow = true))
    (ran : run (step hkdf now) (start hashForward created) events = some flow) (completed : flow.importing = [])
    (k : KeyInfo) (points : currentKey flow.ks = some (some k)) (small : k.index.toNat < 2 ^ 31) :
    flow.ring.sending = some ⟨k.index.toNat, k.mkey.toList⟩ := by
  have begun : Followed (start hashForward created) := by
    refine ⟨valid_alloc hashForward created, fun index mkey used => ?_⟩
    simp [start, inUse, currentKey, Keystore.alloc] at used
  have followed := run_throughout (fun _ _ _ heeded followed stepped => step_followed heeded followed stepped) heeded
    begun ran
  have due := followed.due k.index k.mkey (inUse_points points)
  rw [toInt_small small] at due
  cases due with
  | pending before after split aside => simp [completed] at split
  | arrived sending aside => exact sending

def newKey (index : UInt32) (byte : UInt8) : Event := .change (.setSessionKey index (List.replicate 32 byte) 5)

theorem worker_follows_overtaken : ∃ flow k, run (step shiftHkdf (fun _ => 7)) (start false 0)
        [newKey 1 1, .imported 0, newKey 2 2, .change (.setCurrent 2), .getMediaKey 1, .imported 1, .imported 0] =
          some flow ∧
      currentKey flow.ks = some (some k) ∧ k.index = 2 ∧
      flow.ring.sending = some ⟨k.index.toNat, k.mkey.toList⟩ := by
  simp only [exists_and_left]
  refine exists_guarded (fun event flow => heeds shiftHkdf event flow = true)
    (fun flow => flow.importing = [] ∧ ∃ k, currentKey flow.ks = some (some k) ∧ k.index = 2) (by decide +kernel) ?_
  rintro flow heeded ran ⟨completed, k, points, index⟩
  exact ⟨k, points, index,
    worker_follows shiftHkdf (fun _ => 7) false 0 _ flow heeded ran completed k points (by rw [index]; decide)⟩

/-- The current key is overwritten, and the worker goes on sending with the key of before. -/
theorem overwritten_key_not_pushed :
    ∃ flow k, run (step shiftHkdf (fun _ => 7)) (start false 0) [newKey 1 1, .imported 0, newKey 1 2] = some flow ∧
      flow.importing = [] ∧ currentKey flow.ks = some (some k) ∧ k.index = 1 ∧
      flow.ring.sending.map (·.key) ≠ some k.mkey.toList := by
  simp only [exists_and_left]
  decide +kernel

-- Two imports of current keys complete in the other order, and the older key stays.
example :
    (run (step shiftHkdf (fun _ => 7)) (start false 0)
      [newKey 1 1, newKey 2 2, .change (.setCurrent 2), .imported 1, .imported 0]).map
        (fun flow => (flow.importing, (inUse flow.ks).map Prod.fst, flow.ring.sending.map (·.id))) =
      some ([], some 2, some 1) := by
  decide +kernel

end Avs.KeyPush
