import Avs.KeyProvenance
import Avs.KeyRotation

/-!
The fresh key after a departure. When the rotation timer of an active key generator clears `someone_left`, it
rotates, generates a key past all others and sends it to every approved client in the call. But a CONFKEY
message carries the current and the next key only, and the keys that an earlier key generator had sent ahead
stand before the fresh one.
-/
namespace Avs.Ccall
open List Option Runs Keystore
open Keystore (indexed number padKey currentKey csInfo Total Tip)
open Userlist (bobClient spellPart)

theorem or_low (m : Nat) : m ||| 0xFFFF = m / 65536 * 65536 + 65535 := by
  have shape : m / 65536 * 65536 + 65535 = 2 ^ 16 * (m / 2 ^ 16) + (2 ^ 16 - 1) := by omega
  rw [shape]
  refine Nat.eq_of_testBit_eq (fun j => ?_)
  rw [Nat.testBit_or, Nat.testBit_two_pow_mul_add _ (by decide), show (0xFFFF : Nat) = 2 ^ 16 - 1 from rfl,
    Nat.testBit_two_pow_sub_one, Nat.testBit_div_two_pow]
  by_cases low : j < 16
  · simp [low]
  · have same : j - 16 + 16 = j := by omega
    simp [low, same]

variable {cc : Ccall}

/-- The index is the first of the next block of 2^16, or of the one after it. -/
theorem freshIndex_toNat : (freshIndex cc false).toNat =
      (cc.keystore.getMaxKey.toNat / 65536 * 65536 + 65536 + if cc.becameKg then 65536 else 0) % 2 ^ 32 := by
  have small := UInt32.toNat_lt cc.keystore.getMaxKey
  have low := or_low cc.keystore.getMaxKey.toNat
  cases became : cc.becameKg with
  | false =>
    simp only [freshIndex, became, Bool.false_eq_true, if_false, UInt32.toNat_add, UInt32.toNat_or,
      UInt32.reduceToNat, low]
    omega
  | true =>
    simp only [freshIndex, became, Bool.false_eq_true, if_false, if_true, UInt32.toNat_add, UInt32.toNat_or,
      UInt32.reduceToNat, low]
    omega

section
variable {env : Env} {cc' : Ccall} {ks ks₁ ks₂ : Keystore} {done : Keystore.Done}

theorem confKeys_split {pre post : List KeyInfo} {c : KeyInfo} (valid : ks.Valid) (split : ks.keyl = pre ++ c :: post)
    (at_ : ks.current = some c.addr) :
    confKeys ks = some (.ok ((c.index, c.skey.toList) ::
      (post.head?.map (fun k => (k.index, k.skey.toList))).toList)) := by
  have points := currentKey_split split valid.shaped at_
  have next := nextOf_split split valid.shaped
  cases post with
  | nil => simp [confKeys, Keystore.getCurrentSessionKey, Keystore.getNextSessionKey, points, next]
  | cons k rest => simp [confKeys, Keystore.getCurrentSessionKey, Keystore.getNextSessionKey, points, next]

/-- A new last key is carried exactly when no key stood behind the current one. -/
theorem confKeys_last {kinfo : KeyInfo} (valid₁ : ks₁.Valid) (valid₂ : ks₂.Valid)
    (keyl : ks₂.keyl = ks₁.keyl ++ [kinfo]) (current : ks₂.current = some (ks₁.current.getD kinfo.addr)) :
    ∃ keys, confKeys ks₂ = some (.ok keys) ∧ ((kinfo.index, kinfo.skey.toList) ∈ keys ↔ Tip ks₁) := by
  rcases eq_none_or_eq_some ks₁.current with none_ | ⟨a, at_⟩
  · have split : ks₂.keyl = [] ++ kinfo :: [] := by rw [keyl, valid_empty valid₁ none_]
    refine ⟨_, confKeys_split valid₂ split (by simp [current, none_]), ?_⟩
    simp [Tip, currentKey, none_]
  · obtain ⟨pre, c, post, split, rfl, -, -⟩ := valid_split valid₁ at_
    have split₂ : ks₂.keyl = pre ++ c :: (post ++ [kinfo]) := by simp [keyl, split]
    refine ⟨_, confKeys_split valid₂ split₂ (by simp [current, at_]), ?_⟩
    rw [tip_split valid₁ split at_]
    have ascending := valid₂.shaped.ascending
    rw [split₂] at ascending
    have behind := (number_split ascending).2 kinfo (by simp)
    cases post with
    | nil => simp
    | cons p rest =>
      rw [show pre ++ c :: (p :: rest ++ [kinfo]) = (pre ++ [c]) ++ p :: (rest ++ [kinfo]) by simp] at ascending
      have behind' := (number_split ascending).2 kinfo (by simp)
      simp only [cons_append, List.head?_cons, map_some, toList_some, mem_cons,
        Prod.mk.injEq, not_mem_nil, or_false, reduceCtorEq, iff_false, not_or, not_and]
      refine ⟨fun same => ?_, fun same => ?_⟩
      · simp [number, same] at behind
      · simp [number, same] at behind'

def approvedInCall (list : Userlist) : List Target :=
  (list.users.filter (fun u => u.incallNow && u.seApproved)).map (fun u => ⟨u.useridReal, u.clientidReal⟩)

theorem getKeyTargets_all (list : Userlist) : (list.getKeyTargets true).2 = approvedInCall list := by
  have same : Userlist.keyTarget true = fun u => u.incallNow && u.seApproved := by
    funext u
    simp [Userlist.keyTarget]
  simp only [Userlist.getKeyTargets, same, approvedInCall]

theorem generateSessionKey_last {salt : Bytes} (generated : generateSessionKey env cc false = some cc')
    (total : Total env.hkdf) (valid : cc.keystore.Valid) (active : cc.state = .active) (isKg : cc.isKg)
    (proteus : cc.isMlsCall = false) (data : cc.confpartData = some salt)
    (above : ∀ k ∈ cc.keystore.keyl, number k < (freshIndex cc false).toNat) :
    ∃ kinfo keys, cc'.keystore.keyl = cc.keystore.keyl ++ [kinfo] ∧ kinfo.index = freshIndex cc false ∧
      env.hkdf sessionKeySize (env.random cc.draws).toList salt csInfo = some kinfo.skey ∧
      ((kinfo.index, kinfo.skey.toList) ∈ keys ↔ Tip cc.keystore) ∧
      cc'.out = cc.out ++ if approvedInCall cc.userl = [] then [] else
        [.send (.confKey true keys) (some (approvedInCall cc.userl)) false (env.answers cc.out.length)] := by
  obtain ⟨hashed, derived⟩ := isSome_iff_exists.mp
    (total sessionKeySize (env.random cc.draws).toList salt csInfo)
  obtain ⟨kinfo, done, set, stored, same, keyl, current⟩ :=
    setSessionKey_last cc.now total valid (key_nonempty hashed) above
  obtain ⟨done', set', outcome⟩ := generateSessionKey_cases generated
  obtain rfl : done' = done := by
    simp only [Keystore.setFreshSessionKey, data, derived, set, some.injEq] at set'
    exact set'.symm
  have valid' := valid_setSessionKey _ _ _ _ valid set
  obtain ⟨keys, carried, tip⟩ := confKeys_last valid valid' keyl current
  simp only [indexed, Prod.mk.injEq, padKey_toList] at same
  rcases outcome with ⟨failed, -⟩ | ⟨-, sent⟩
  · exact absurd stored failed
  · refine ⟨kinfo, keys, ?_, same.1, same.2 ▸ derived, tip, ?_⟩
    · rw [(sendKeys_settled sent).1.keystore, keyl]
    · rcases sendKeys_cases sent with ⟨-, guard⟩ | ⟨-, -, -, ⟨rfl, none_ | ⟨err, missing⟩⟩ | ⟨keys', made, some_, rfl⟩⟩
      · exact absurd ⟨proteus, isKg, active⟩ guard
      · rw [getKeyTargets_all] at none_
        simp [none_]
      · simp [carried] at missing
      · rw [getKeyTargets_all] at some_ ⊢
        obtain rfl : keys = keys' := by simpa [carried] using made
        simp [some_]

theorem rotateKeyTimeout_left (active : cc.state = .active) (isKg : cc.isKg) (proteus : cc.isMlsCall = false)
    (left : cc.someoneLeft = true) (fired : rotateKeyTimeout env cc = some cc') :
    ∃ done mid, cc.keystore.rotate env.hkdf (fun _ => cc.now) = some done ∧
      generateSessionKey env { cc with keystore := done.ks } false = some mid ∧
      cc' = { mid with someoneLeft := false }.tmrStart .rotateKey := by
  have guard : (cc.state = .active && cc.isKg && !cc.isMlsCall) = true := by simp [active, isKg, proteus]
  unfold rotateKeyTimeout at fired
  rw [if_pos guard] at fired
  split at fired
  · simp at fired
  · rename_i done rotated
    simp only at fired
    rw [if_pos left] at fired
    obtain ⟨mid, generated, rfl⟩ := map_eq_some_iff.mp fired
    exact ⟨done, mid, rotated, generated, rfl⟩

theorem number_le_max {k : KeyInfo} (valid : ks.Valid) (member : k ∈ ks.keyl) : number k ≤ ks.getMaxKey.toNat := by
  obtain ⟨last, isLast⟩ := isSome_iff_exists.mp (List.getLast?_isSome.mpr (ne_nil_of_mem member))
  have largest := last_largest valid.shaped.ascending isLast k member
  have max : ks.getMaxKey = last.index := by simp [Keystore.getMaxKey, Keystore.getLatest, isLast]
  rw [max]
  exact largest

/-- The key the timer generates in a state, after the rotation to `rotated`: derived from the draw of this very run. -/
def Fresh (env : Env) (cc : Ccall) (rotated : Keystore) (k : KeyInfo) : Prop :=
  k.index = freshIndex { cc with keystore := rotated } false ∧ ∃ salt, cc.confpartData = some salt ∧
    env.hkdf sessionKeySize (env.random cc.draws).toList salt csInfo = some k.skey

/-- The keystore has the fresh key, with an index above all it held before, and a CONFKEY message with that key went to
    exactly the approved clients in the call. -/
def Rekeyed (env : Env) (cc cc' : Ccall) : Prop :=
  ∃ done k, cc.keystore.rotate env.hkdf (fun _ => cc.now) = some done ∧ k ∈ cc'.keystore.keyl ∧
    Fresh env cc done.ks k ∧ (∀ old ∈ cc.keystore.keyl, old.index < k.index) ∧
    ∃ keyl err, .send (.confKey true keyl) (some (approvedInCall cc.userl)) false err ∈ cc'.out.drop cc.out.length ∧
      (k.index, k.skey.toList) ∈ keyl

/-- The index of the fresh key does not wrap around. A current key that is the last one is hashed forward first. -/
def Room (cc : Ccall) : Prop :=
  ∀ last ∈ cc.keystore.getLatest,
    (if cc.keystore.current = some last.addr then number last + 1 else number last) <
      if cc.becameKg then 0xFFFE0000 else 0xFFFF0000

/-- The index does not wrap around, at most one key waits behind the current one, and somebody is in the call. -/
structure Rekeyable (cc : Ccall) : Prop where
  room : Room cc
  short : cc.keystore.Short
  someone : ∃ u ∈ cc.userl.users, u.incallNow = true ∧ u.seApproved = true

instance (cc : Ccall) : Decidable (Room cc) := by
  unfold Room
  infer_instance

instance (cc : Ccall) : Decidable (Rekeyable cc) :=
  decidable_of_iff (Room cc ∧ cc.keystore.Short ∧ ∃ u ∈ cc.userl.users, u.incallNow = true ∧ u.seApproved = true)
    ⟨fun ⟨room, short, someone⟩ => ⟨room, short, someone⟩, fun ⟨room, short, someone⟩ => ⟨room, short, someone⟩⟩

theorem someone_iff {list : Userlist} :
    (∃ u ∈ list.users, u.incallNow = true ∧ u.seApproved = true) ↔ approvedInCall list ≠ [] := by
  simp [approvedInCall, filter_eq_nil_iff]

section
variable (total : Total env.hkdf)
include total

theorem freshIndex_room {last : KeyInfo} (sound : Sound false cc)
    (rotated : cc.keystore.rotate env.hkdf (fun _ => cc.now) = some done) (room : Room cc)
    (latest : cc.keystore.getLatest = some last) :
    number last ≤ done.ks.getMaxKey.toNat ∧
      done.ks.getMaxKey.toNat < (freshIndex { cc with keystore := done.ks } false).toNat := by
  have bound := room last latest
  have max := rotate_latest total sound.valid sound.forward rotated latest
  rw [← max] at bound
  constructor
  · rw [max]
    split
    · exact Nat.le_succ _
    · exact Nat.le_refl _
  · rw [freshIndex_toNat]
    show _ < (done.ks.getMaxKey.toNat / 65536 * 65536 + 65536 + if cc.becameKg then 65536 else 0) % 2 ^ 32
    split at bound
    · rename_i became
      rw [if_pos became]
      omega
    · rename_i became
      rw [if_neg became]
      omega

theorem freshIndex_above (sound : Sound false cc)
    (rotated : cc.keystore.rotate env.hkdf (fun _ => cc.now) = some done) (room : Room cc) :
    (∀ old ∈ cc.keystore.keyl, number old < (freshIndex { cc with keystore := done.ks } false).toNat) ∧
      ∀ k ∈ done.ks.keyl, number k < (freshIndex { cc with keystore := done.ks } false).toNat := by
  rcases eq_none_or_eq_some cc.keystore.getLatest with none_ | ⟨last, latest⟩
  · have empty : cc.keystore.keyl = [] := List.getLast?_eq_none_iff.mp none_
    rcases rotate_spec total sound.valid sound.forward rotated with ⟨-, same⟩ | ⟨pre, c, post, _, _, split, -⟩
    · simp [same, empty]
    · simp [split] at empty
  · obtain ⟨kept, above⟩ := freshIndex_room total sound rotated room latest
    have valid' := valid_advance (rotate_advance sound.valid rotated)
    refine ⟨fun old member => ?_, fun k member => Nat.lt_of_le_of_lt (number_le_max valid' member) above⟩
    have largest := last_largest sound.valid.shaped.ascending latest old member
    omega

theorem room_of_above (sound : Sound false cc) (rotated : cc.keystore.rotate env.hkdf (fun _ => cc.now) = some done)
    (above : ∀ old ∈ cc.keystore.keyl, number old < (freshIndex { cc with keystore := done.ks } false).toNat) :
    Room cc := by
  intro last latest
  have above := above last (mem_of_getLast? latest)
  have small := UInt32.toNat_lt done.ks.getMaxKey
  have max := rotate_latest total sound.valid sound.forward rotated latest
  rw [freshIndex_toNat] at above
  have above : number last <
    (done.ks.getMaxKey.toNat / 65536 * 65536 + 65536 + if cc.becameKg then 65536 else 0) % 2 ^ 32 := above
  rw [← max]
  have near : done.ks.getMaxKey.toNat ≤ number last + 1 := by
    rw [max]
    split
    · exact Nat.le_refl _
    · exact Nat.le_succ _
  split at above
  · rename_i became
    rw [if_pos became]
    omega
  · rename_i became
    rw [if_neg became]
    omega

theorem rotateKeyTimeout_rekeys (sound : Sound false cc) (active : cc.state = .active)
    (isKg : cc.isKg) (left : cc.someoneLeft = true) (fired : rotateKeyTimeout env cc = some cc') :
    Rekeyed env cc cc' ↔ Rekeyable cc := by
  obtain ⟨done, mid, rotated, generated, rfl⟩ := rotateKeyTimeout_left active isKg sound.mls left fired
  have valid' := valid_advance (rotate_advance sound.valid rotated)
  have tip := rotate_tip total sound.valid sound.forward rotated
  obtain ⟨salt, data⟩ := isSome_iff_exists.mp (sound.known isKg)
  -- What the rest of the timer does where the index has room.
  have rest := generateSessionKey_last generated total valid' active isKg sound.mls data
  constructor
  · rintro ⟨done', k, rotated', member, ⟨index, -⟩, above, keyl, err, sent, carried⟩
    obtain rfl : done = done' := some.inj (rotated.symm.trans rotated')
    have room := room_of_above total sound rotated (fun old held => index ▸ above old held)
    have newest := freshIndex_above total sound rotated room
    obtain ⟨kinfo, keys, stored, -, -, carried', out⟩ := rest newest.2
    have isNew : k = kinfo := by
      rcases mem_append.mp (stored ▸ member) with old | new
      · have less := newest.2 k old
        simp [number, index] at less
      · exact mem_singleton.mp new
    have sent : .send (.confKey true keyl) (some (approvedInCall cc.userl))
      false err ∈ mid.out.drop cc.out.length := sent
    rw [out, drop_left] at sent
    split at sent
    · simp at sent
    · rename_i someone
      obtain ⟨same, -⟩ : keyl = keys ∧ err = env.answers cc.out.length := by simpa using sent
      exact ⟨room, tip.mp (carried'.mp (isNew ▸ same ▸ carried)), someone_iff.mpr someone⟩
  · rintro ⟨room, short, someone⟩
    have newest := freshIndex_above total sound rotated room
    obtain ⟨kinfo, keys, stored, index, derived, carried, out⟩ := rest newest.2
    refine ⟨done, kinfo, rotated, ?_, ⟨index, salt, data, derived⟩, ?_, keys, env.answers cc.out.length, ?_,
      carried.mpr (tip.mpr short)⟩
    · show kinfo ∈ mid.keystore.keyl
      simp [stored]
    · intro old member
      rw [index]
      exact newest.1 old member
    · show _ ∈ mid.out.drop cc.out.length
      rw [out, drop_left, if_neg (someone_iff.mp someone)]
      exact mem_singleton_self _

theorem timer_rekeys (sound : Sound false cc) (active : cc.state = .active) (isKg : cc.isKg)
    (left : cc.someoneLeft = true) (fired : step env (.timer .rotateKey) cc = some cc') :
    Rekeyed env cc cc' ↔ Rekeyable cc := by
  simp only [step] at fired
  split at fired
  · have sound' : Sound false (cc.tmrCancel [.rotateKey]) :=
      ⟨sound.mls, sound.valid, sound.salt, sound.forward, sound.known⟩
    have same : Rekeyable (cc.tmrCancel [.rotateKey]) ↔ Rekeyable cc :=
      ⟨fun can => ⟨can.room, can.short, can.someone⟩, fun can => ⟨can.room, can.short, can.someone⟩⟩
    rw [← same]
    exact rotateKeyTimeout_rekeys total sound' active isKg left fired
  · simp at fired

end

end

/-- The rotation timer of an active key generator of a Proteus call clears `someone_left` with a fresh key for everyone
    in the call exactly when the index does not wrap around, at most one key waits behind the current one and somebody
    is in the call. -/
theorem departure_rekeys_iff (env : Env) (total : Total env.hkdf) (convid useridSelf clientid secret : Bytes)
    (meeting : Bool) (now : UInt64) (events : List CcallEvent) (cc cc' : Ccall)
    (ran : run (step env) (alloc env convid useridSelf clientid secret false meeting now) events = some cc)
    (active : cc.state = .active) (isKg : cc.isKg) (left : cc.someoneLeft = true)
    (fired : step env (.timer .rotateKey) cc = some cc') : Rekeyed env cc cc' ↔ Rekeyable cc :=
  timer_rekeys total (run_sound (sound_alloc env convid useridSelf clientid secret false meeting now) ran) active isKg
    left fired

def carolClient : Client := ⟨ascii "carol", ascii "1", true⟩

/-- Bob leads the call with Alice and Carol, sends keys and leaves. -/
def bobLeaves (messages : List (List (UInt32 × Bytes))) : List CcallEvent :=
  connects ++ [.setClients [bobClient, carolClient] 1,
    lists [spellPart "bob" "1" 10 11, spellPart "alice" "1" 20 21, spellPart "carol" "1" 30 31]] ++
    messages.map bobSends ++ [lists [spellPart "alice" "1" 20 21, spellPart "carol" "1" 30 31]]

def carriedIndices : Output → List UInt32
  | .send (.confKey true keyl) _ _ _ => keyl.map (·.1)
  | _ => []

/-- Bob had sent two keys ahead. Alice's fresh key has index 262144, but the only message of the timer carries the two
    keys Bob knows. -/
theorem departure_key_withheld : ∃ cc cc', run (step plainEnv) (aliceCall false)
        (bobLeaves [[(5, [1]), (65536, [2])], [(65536, [2]), (131072, [3])]]) = some cc ∧
      cc.state = .active ∧ cc.isKg = true ∧ cc.someoneLeft = true ∧
      step plainEnv (.timer .rotateKey) cc = some cc' ∧ cc'.keystore.keyl.map (·.index) = [5, 65536, 131072, 262144] ∧
      (cc'.out.drop cc.out.length).map carriedIndices = [[65536, 131072]] ∧ ¬ Rekeyed plainEnv cc cc' := by
  have shown : ∃ cc, run (step plainEnv) (aliceCall false)
      (bobLeaves [[(5, [1]), (65536, [2])], [(65536, [2]), (131072, [3])]]) = some cc ∧
      (cc.state = .active ∧ cc.isKg = true ∧ cc.someoneLeft = true ∧ ¬ Rekeyable cc) ∧
      ∃ cc', step plainEnv (.timer .rotateKey) cc = some cc' ∧
        cc'.keystore.keyl.map (·.index) = [5, 65536, 131072, 262144] ∧
        (cc'.out.drop cc.out.length).map carriedIndices = [[65536, 131072]] := by decide +kernel
  obtain ⟨cc, ran, ⟨active, isKg, left, not_⟩, cc', fired, keys, carried⟩ := shown
  refine ⟨cc, cc', ran, active, isKg, left, fired, keys, carried, fun rekeyed => not_ ?_⟩
  exact (timer_rekeys shiftHkdf_total (run_sound (sound_alloc plainEnv _ _ _ _ false false 0) ran) active isKg left
    fired).mp rekeyed

/-- Bob had sent one key. Alice's fresh key is sent to Carol. -/
theorem departure_rekeys_carol :
    ∃ cc cc', run (step plainEnv) (aliceCall false) (bobLeaves [[(5, [1])]]) = some cc ∧
      step plainEnv (.timer .rotateKey) cc = some cc' ∧ Rekeyable cc ∧ Rekeyed plainEnv cc cc' ∧
      cc'.keystore.keyl.map (·.index) = [5, 6, 131072] := by
  simp only [exists_and_left]
  refine exists_shown (fun cc => (cc.state = .active ∧ cc.isKg = true ∧ cc.someoneLeft = true ∧ Rekeyable cc) ∧
    ∃ cc', step plainEnv (.timer .rotateKey) cc = some cc' ∧ cc'.keystore.keyl.map (·.index) = [5, 6, 131072])
    (by decide +kernel) ?_
  rintro cc ran ⟨⟨active, isKg, left, rekeyable⟩, cc', fired, keys⟩
  exact ⟨cc', fired, rekeyable, (departure_rekeys_iff plainEnv shiftHkdf_total _ _ _ _ false 0 _ cc cc' ran
    active isKg left fired).mpr rekeyable, keys⟩

end Avs.Ccall
