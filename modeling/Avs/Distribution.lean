import Avs.Departure
import Avs.Served

/-!
Who has the keys. A bystander notes for every recipient the keys it was sent since it was last approved or
came into the call, and the keys that came to this client in that time (`Watched`). A user that is taken to
have the keys was sent a key from which the current one and all behind it descend, or they descend from a key
that an earlier key generator sent while the user was there.
-/
namespace Avs.Ccall
open List Option Runs Keystore Userlist
open Keystore (indexed number padKey currentKey csInfo Total Held Descends)
open Userlist (Served Inherits Addressed Reapproves target bobClient spellPart)
open Relation (ReflTransGen)

/-- The keys an output brings to a recipient: those of a CONFKEY response that the send handler took. -/
def deliveredBy (t : Target) : Output → List (UInt32 × Key)
  | .send (.confKey true keyl) (some targets) _ none =>
    if t ∈ targets then keyl.map (fun k => (k.1, padKey k.2)) else []
  | _ => []

def delivered (t : Target) (out : List Output) : List (UInt32 × Key) := out.flatMap (deliveredBy t)

/-- The keys of a CONFKEY response of the key generator. -/
def receivedKeys (cc : Ccall) : CcallEvent → List (UInt32 × Key)
  | .msgRecv userid clientid _ (.confKey true keyl) =>
    if fromKg cc userid clientid then keyl.map (fun k => (k.1, padKey k.2)) else []
  | _ => []

def present (cc : Ccall) (t : Target) : Bool :=
  cc.userl.users.any (fun u => target u = t && u.seApproved && u.incallNow)

/-- A call, the keys each recipient was sent since it is present, and the keys that this client was sent since then. -/
structure Watched where
  call : Ccall
  ledger : Target → List (UInt32 × Key)
  received : Target → List (UInt32 × Key)

def observe (cc : Ccall) : Watched := ⟨cc, fun _ => [], fun _ => []⟩

/-- An event and what the bystander notes. -/
def watch (env : Env) (event : CcallEvent) (w : Watched) : Option Watched :=
  (step env event w.call).map (fun cc => {
    call := cc
    ledger := fun t =>
      (if present w.call t then w.ledger t else []) ++ delivered t (cc.out.drop w.call.out.length)
    received := fun t => if present w.call t then w.received t ++ receivedKeys w.call event else [] })

def sendError : Output → Option Errno
  | .send _ _ _ err => err
  | _ => none

def relisted (env : Env) (cc : Ccall) : CcallEvent → Option Userlist
  | .setClients clientl epoch => some (cc.userl.updateFromSelist env.hashUser clientl epoch cc.secret).list
  | _ => none

/-- An event whose CONFKEY responses are taken by the send handler, which approves nobody in the call whose real ids are
    known, generates a key only in the active state, and sends keys only when at most one stands behind the current one.
    -/
structure Orderly (env : Env) (event : CcallEvent) (cc cc' : Ccall) : Prop where
  accepted : ∀ o ∈ cc'.out.drop cc.out.length, keySent o → sendError o = none
  once : ∀ list ∈ relisted env cc event, ¬ Reapproves cc.userl list
  active : cc'.draws ≠ cc.draws → cc'.state = .active
  short : (∃ o ∈ cc'.out.drop cc.out.length, keySent o) → cc'.keystore.Short

instance (env : Env) (event : CcallEvent) (cc cc' : Ccall) : Decidable (Orderly env event cc cc') :=
  decidable_of_iff (_ ∧ _ ∧ _ ∧ _)
    ⟨fun ⟨accepted, once, active, short⟩ => ⟨accepted, once, active, short⟩,
      fun orderly => ⟨orderly.accepted, orderly.once, orderly.active, orderly.short⟩⟩

/-- Every key from the current one on descends, for every user that is taken to have the keys, from one of the user's
    roots. -/
def Covered (env : Env) (roots : Target → List (UInt32 × Key)) (cc : Ccall) : Prop :=
  ∀ u ∈ cc.userl.users, Served u → ∀ k, Held cc.keystore k →
    ∃ d ∈ roots (target u), Descends env.hkdf cc.convidHash d (indexed k)

def rootsAt (base : Target → List (UInt32 × Key)) (n : Nat) (cc : Ccall) (t : Target) : List (UInt32 × Key) :=
  base t ++ delivered t (cc.out.drop n)

variable {k : KeyInfo} {ks : Keystore} {w w' : Watched} {env : Env}

section
variable {permit : Permit} {cc cc' : Ccall} {base : Target → List (UInt32 × Key)} {n : Nat} {sendToAll : Bool}
  {t : Target} {keyl : List (UInt32 × Bytes)} {list : Userlist} {event : CcallEvent}

theorem sendKeys_out (sent : sendKeys env cc sendToAll = some cc') : ∃ extra, cc'.out = cc.out ++ extra := by
  rcases sendKeys_cases sent with ⟨rfl, -⟩ | ⟨-, -, -, ⟨rfl, -⟩ | ⟨keyl, -, -, rfl⟩⟩
  · exact ⟨[], by simp⟩
  · exact ⟨[], by simp⟩
  · exact ⟨_, rfl⟩

theorem move_out (move : Move env permit cc cc') : ∃ extra, cc'.out = cc.out ++ extra := by
  cases move with
  | quiet quiet =>
    obtain ⟨extra, out, -⟩ := quiet.sent
    exact ⟨extra, out⟩
  | sendKeys sendToAll sent from_ => exact sendKeys_out sent
  | generate isFirst isKg proteus first generated permitted from_ =>
    obtain ⟨done, -, ⟨-, rfl⟩ | ⟨-, sent⟩⟩ := generateSessionKey_cases generated
    · exact ⟨[], by simp⟩
    · obtain ⟨extra, out⟩ := sendKeys_out sent
      exact ⟨extra, out⟩
  | _ => exact ⟨[], by simp [setSecret]⟩

theorem moves_out (moves : Moves env permit cc cc') : ∃ extra, cc'.out = cc.out ++ extra := by
  induction moves with
  | refl => exact ⟨[], by simp⟩
  | tail _ move ih =>
    obtain ⟨extra, out⟩ := ih
    obtain ⟨extra', out'⟩ := move_out move
    exact ⟨extra ++ extra', by rw [out', out, append_assoc]⟩

theorem rootsAt_mono {extra : List Output} (out : cc'.out = cc.out ++ extra) :
    ∀ d ∈ rootsAt base n cc t, d ∈ rootsAt base n cc' t := by
  intro d member
  simp only [rootsAt, mem_append, delivered, mem_flatMap, out, drop_append] at member ⊢
  rcases member with root | ⟨o, sent, brings⟩
  · exact .inl root
  · exact .inr ⟨o, .inl sent, brings⟩

theorem move_floor (sound : Sound false cc) (move : Move env permit cc cc') :
    cc'.keystore.keyl = [] ∨ cc.keystore.floor ≤ cc'.keystore.floor := by
  cases move with
  | quiet quiet =>
    have keys := quiet.keys
    refine .inr (Nat.le_of_eq ?_)
    simp only [floor, currentKey, keyAt, keys.keyl, keys.current]
  | reset => exact .inl rfl
  | resetKeys => exact .inl rfl
  | sendKeys sendToAll sent from_ =>
    rw [(sendKeys_settled sent).1.keystore]
    exact .inr (Nat.le_refl _)
  | generate isFirst isKg proteus first generated permitted from_ =>
    obtain ⟨done, set, outcome⟩ := generateSessionKey_cases generated
    have floor := setFreshSessionKey_floor sound.valid set
    rcases outcome with ⟨-, rfl⟩ | ⟨-, sent⟩
    · exact .inr floor
    · rw [(sendKeys_settled sent).1.keystore]
      exact .inr floor
  | setSessionKey index key takes set => exact .inr (setSessionKey_floor sound.valid set)
  | rotate isKg proteus rotated =>
    exact .inr (advance_floor sound.valid (rotate_advance sound.valid rotated))
  | getMediaKey index looked =>
    exact .inr (advance_floor sound.valid (getMediaKey_looked sound.valid looked).advance)
  | setCurrent index at_ ahead => exact .inr (setCurrent_floor sound.valid at_ ahead)
  | rotateByTime minTs mls rotated => simp [sound.mls] at mls
  | _ => exact .inr (Nat.le_refl _)

/-- Where a key from the current one on comes from. -/
theorem move_held (sound : Sound false cc) (move : Move env permit cc cc') (held : Held cc'.keystore k) :
    cc'.convidHash = cc.convidHash ∧
      ((∃ k₀, Held cc.keystore k₀ ∧ Descends env.hkdf cc.convidHash (indexed k₀) (indexed k)) ∨
        (∃ index key, permit.takes index key ∧ indexed k = (index, padKey key)) ∨ cc'.draws = cc.draws + 1) := by
  obtain ⟨hash, keyFrom⟩ := move_keys sound move k held.1
  refine ⟨hash, ?_⟩
  cases keyFrom with
  | kept old =>
    rcases move_floor sound move with empty | floor
    · exact absurd held.1 (by simp [empty])
    · exact .inl ⟨k, ⟨old, floor.trans held.2⟩, .refl⟩
  | taken index key takes same => exact .inr (.inl ⟨index, key, takes, same⟩)
  | generated index salt hashed isKg permitted proteus drawn derived same => exact .inr (.inr drawn)
  | hashed last proteus isLast descends => exact .inl ⟨last, last_held sound.valid isLast, descends⟩

/-- A CONFKEY response carries all the keys from the current one on, where at most one stands behind it. -/
theorem confKeys_held (valid : ks.Valid) (short : ks.Short) (made : confKeys ks = some (.ok keyl)) (held : Held ks k) :
    (k.index, k.skey.toList) ∈ keyl := by
  rcases eq_none_or_eq_some ks.current with none_ | ⟨a, at_⟩
  · exact absurd held.1 (by simp [valid_empty valid none_])
  · obtain ⟨pre, c, post, split, rfl, -, points⟩ := valid_split valid at_
    have few := (short_split valid split at_).mp short
    rw [confKeys_split valid split at_] at made
    have member := held.1
    have floor := held.2
    have ascending := valid.shaped.ascending
    rw [floor_points points] at floor
    rw [split] at ascending member
    obtain rfl := Except.ok.inj (some.inj made)
    rcases mem_append.mp member with before | rest
    · have less := (number_split ascending).1 k before
      omega
    · rcases mem_cons.mp rest with rfl | behind
      · simp
      · match post, few, behind with
        | [p], _, behind => simp [mem_singleton.mp behind]

theorem confKeys_error {err : Errno} (valid : ks.Valid) (failed : confKeys ks = some (.error err)) : ks.keyl = [] := by
  rcases eq_none_or_eq_some ks.current with none_ | ⟨a, at_⟩
  · exact valid_empty valid none_
  · obtain ⟨pre, c, post, split, rfl, -, -⟩ := valid_split valid at_
    rw [confKeys_split valid split at_] at failed
    simp at failed

theorem getKeyTargets_served {u' : UserInfo}
    (member : u' ∈ (list.getKeyTargets sendToAll).1.users) (served : Served u') :
    target u' ∈ (list.getKeyTargets sendToAll).2 ∨
      sendToAll = false ∧ ∃ u ∈ list.users, Served u ∧ target u = target u' := by
  obtain ⟨u, old, rfl⟩ := List.mem_map.mp member
  by_cases asked : Userlist.keyTarget sendToAll u = true
  · rw [if_pos asked]
    exact .inl (List.mem_map.mpr ⟨u, mem_filter.mpr ⟨old, asked⟩, rfl⟩)
  · rw [if_neg asked] at served ⊢
    refine .inr ⟨?_, u, old, served, rfl⟩
    simpa [Userlist.keyTarget, served.approved, served.incall, served.keyed] using asked

theorem deliveredBy_taken {targets : List Target} {mine : Bool}
    {err : Option Errno} (taken : err = none) (recipient : t ∈ targets) :
    deliveredBy t (.send (.confKey true keyl) (some targets) mine err) = keyl.map (fun k => (k.1, padKey k.2)) := by
  subst taken
  exact if_pos recipient

theorem sendKeys_covered (sound : Sound false cc) (began : n ≤ cc.out.length)
    (before : Covered env (rootsAt base n cc) cc ∨ sendToAll = true ∧ cc.isKg = true ∧ cc.state = .active)
    (orderly : ∀ o ∈ cc'.out.drop n, keySent o → sendError o = none ∧ cc.keystore.Short)
    (sent : sendKeys env cc sendToAll = some cc') : Covered env (rootsAt base n cc') cc' := by
  rcases sendKeys_cases sent with ⟨rfl, guard⟩ | ⟨-, -, -, ⟨rfl, none_ | ⟨err, failed⟩⟩ | ⟨keyl, made, -, rfl⟩⟩
  · rcases before with covered | ⟨-, isKg, active⟩
    · exact covered
    · exact absurd ⟨sound.mls, isKg, active⟩ guard
  · intro u' member served k held
    rcases getKeyTargets_served member served with recipient | ⟨some_, u, old, served', ids⟩
    · simp [none_] at recipient
    · rcases before with covered | ⟨all, -⟩
      · obtain ⟨d, root, descends⟩ := covered u old served' k held
        exact ⟨d, ids ▸ root, descends⟩
      · simp [some_] at all
  · intro u' member served k held
    exact absurd held.1 (by simp [confKeys_error sound.valid failed])
  · intro u' member served k held
    have last : (Output.send (.confKey true keyl) (some (cc.userl.getKeyTargets sendToAll).2) false
        (env.answers cc.out.length)) ∈ (cc.out ++ [Output.send (.confKey true keyl)
          (some (cc.userl.getKeyTargets sendToAll).2) false (env.answers cc.out.length)]).drop n := by
      rw [drop_append_of_le_length began]
      simp
    obtain ⟨taken, short⟩ : env.answers cc.out.length = none ∧ cc.keystore.Short := orderly _ last rfl
    rcases getKeyTargets_served member served with recipient | ⟨some_, u, old, served', ids⟩
    · refine ⟨indexed k, mem_append_right _ (mem_flatMap.mpr ⟨_, last, ?_⟩), .refl⟩
      rw [deliveredBy_taken taken recipient]
      refine List.mem_map.mpr ⟨_, confKeys_held sound.valid short made held, ?_⟩
      simp [indexed, padKey_toList]
    · rcases before with covered | ⟨all, -⟩
      · obtain ⟨d, root, descends⟩ := covered u old served' k held
        exact ⟨d, rootsAt_mono rfl d (ids ▸ root), descends⟩
      · simp [some_] at all

theorem generate_stored {isFirst : Bool} {done : Done} (total : Total env.hkdf) (sound : Sound false cc)
    (isKg : cc.isKg)
    (set : cc.keystore.setFreshSessionKey env.hkdf cc.now (freshIndex cc isFirst) (env.random cc.draws).toList
      cc.confpartData = some done) : done.ks = cc.keystore ∨ done.err = none := by
  obtain ⟨salt, data⟩ := isSome_iff_exists.mp (sound.known isKg)
  obtain ⟨hashed, derived⟩ := isSome_iff_exists.mp
    (total sessionKeySize (env.random cc.draws).toList salt csInfo)
  simp only [setFreshSessionKey, data, derived] at set
  obtain ⟨mkey, media⟩ := isSome_iff_exists.mp (total sessionKeySize (padKey hashed.toList).toList
    (cc.keystore.salt.getD []) mkeyInfo)
  have media : deriveMediaKey env.hkdf cc.keystore.salt (padKey hashed.toList) = some mkey := media
  rcases setSessionKey_cases set with ⟨same, -⟩ | ⟨kinfo, -, -, rfl⟩ | ⟨-, -, rfl⟩
  · exact .inl same
  · exact .inr (by simp [overwrite, media])
  · refine .inr ?_
    simp only [insertKey, media]
    split
    · rfl
    · rfl

/-- The conditions of an orderly event that brings no keys, as the moves see them. -/
structure OrderlyMove (permit : Permit) (n : Nat) (cc cc' : Ccall) : Prop where
  began : n ≤ cc.out.length
  taken : ∀ index key, ¬ permit.takes index key
  once : ∀ list list', permit.approves list list' → ¬ Reapproves list list'
  active : permit.generates cc → cc.state = .active
  sends : ∀ o ∈ cc'.out.drop n, keySent o → sendError o = none ∧ ∀ ks, permit.sends ks → ks.Short

theorem inherits_covered (sound : Sound false cc) (orderly : OrderlyMove permit n cc cc')
    (move : Move env permit cc cc') (still : cc'.draws = cc.draws) (inherits : Inherits cc.userl cc'.userl)
    (covered : Covered env (rootsAt base n cc) cc) : Covered env (rootsAt base n cc') cc' := by
  obtain ⟨extra, out⟩ := move_out move
  intro u' member served k held
  obtain ⟨u, old, served', ids⟩ := inherits u' member served
  obtain ⟨hash, ⟨k₀, held₀, descends⟩ | ⟨index, key, takes, same⟩ | drawn⟩ := move_held sound move held
  · obtain ⟨d, root, earlier⟩ := covered u old served' k₀ held₀
    exact ⟨d, rootsAt_mono out d (ids ▸ root), hash ▸ earlier.trans descends⟩
  · exact absurd takes (orderly.taken index key)
  · omega

theorem move_covered (total : Total env.hkdf) (sound : Sound false cc) (addressed : Addressed cc.userl)
    (orderly : OrderlyMove permit n cc cc') (covered : Covered env (rootsAt base n cc) cc)
    (move : Move env permit cc cc') : Covered env (rootsAt base n cc') cc' := by
  have same : ∀ {list : Userlist}, list.users = cc.userl.users → Inherits cc.userl list :=
    fun users => inherits_users (fun _ member => users ▸ member)
  have inherited := @inherits_covered env permit cc cc' base n sound orderly move
  cases move with
  | quiet quiet => exact inherited quiet.draws (same (congrArg (·.users) quiet.users)) covered
  | setSecret secret empty =>
    intro u' _ _ k held
    exact absurd held.1 (by simp [setSecret, setSalt, empty])
  | incallClear forceDecoder again => exact inherited rfl incallClear_inherits covered
  | updateFromSftlist partl known => exact inherited rfl updateBeforeSort_inherits covered
  | sort => exact inherited rfl sort_inherits covered
  | updateFromSelist clientl epoch approves =>
    exact inherited rfl (updateFromSelist_inherits addressed (orderly.once _ _ approves)) covered
  | touch alike =>
    refine inherited rfl ?_ covered
    intro u' member served
    obtain ⟨u, old, userid, clientid, approved, incall, flag⟩ := alike.2.2.2 u' member
    refine ⟨u, old, ⟨approved ▸ served.approved, incall ▸ served.incall, flag ▸ served.keyed⟩, ?_⟩
    simp only [target, userid, clientid]
  | askKey addr => exact inherited rfl askKey_inherits covered
  | sendKeys sendToAll sent from_ =>
    exact sendKeys_covered sound orderly.began (.inl covered)
      (fun o member keys => (orderly.sends o member keys).imp_right (· _ from_)) sent
  | generate isFirst isKg proteus first generated permitted from_ =>
    obtain ⟨done, set, outcome⟩ := generateSessionKey_cases generated
    rcases outcome with ⟨failed, rfl⟩ | ⟨-, sent⟩
    · rcases generate_stored total sound isKg set with unchanged | ok
      · intro u member served k held
        exact covered u member served k (unchanged ▸ held)
      · exact absurd ok failed
    · rw [(sendKeys_settled sent).1.keystore] at from_
      exact sendKeys_covered (drawn_sound sound set) orderly.began (.inr ⟨rfl, isKg, orderly.active permitted⟩)
        (fun o member keys => (orderly.sends o member keys).imp_right (· _ from_)) sent
  | _ => exact inherited rfl (same rfl) covered

theorem sendKeys_addressed (sent : sendKeys env cc sendToAll = some cc')
    (addressed : Addressed cc.userl) : Addressed cc'.userl := by
  rcases sendKeys_cases sent with ⟨rfl, -⟩ | ⟨-, -, -, ⟨rfl, -⟩ | ⟨keyl, -, -, rfl⟩⟩
  · exact addressed
  · exact getKeyTargets_addressed addressed
  · exact getKeyTargets_addressed addressed

theorem move_addressed (addressed : Addressed cc.userl) (move : Move env permit cc cc') : Addressed cc'.userl := by
  cases move with
  | quiet quiet => exact quiet.users ▸ addressed
  | resetKeygenerator => exact ⟨addressed.distinct, addressed.below⟩
  | setSecret secret empty => exact setSecret_addressed addressed
  | incallClear forceDecoder again => exact incallClear_addressed addressed
  | updateFromSftlist partl known => exact updateBeforeSort_addressed addressed
  | sort => exact addressed_sort addressed
  | updateFromSelist clientl epoch approves => exact updateFromSelist_addressed addressed
  | touch alike => exact addressed_addrs addressed alike.2.2.1 alike.2.1
  | askKey addr => exact addressed_modify addressed (fun _ => rfl)
  | sendKeys sendToAll sent from_ => exact sendKeys_addressed sent addressed
  | generate isFirst isKg proteus first generated permitted from_ =>
    obtain ⟨done, -, ⟨-, rfl⟩ | ⟨-, sent⟩⟩ := generateSessionKey_cases generated
    · exact addressed
    · exact sendKeys_addressed sent addressed
  | _ => exact addressed

/-- In a Proteus call only a CONFKEY response of the key generator brings keys. -/
theorem takes_response {index : UInt32} {key : Bytes} (sound : Sound false cc)
    (takes : (permitted env event cc cc').takes index key) :
    ∃ userid clientid age keyl, event = .msgRecv userid clientid age (.confKey true keyl) := by
  match event with
  | .msgRecv userid clientid age (.confKey true keyl) => exact ⟨userid, clientid, age, keyl, rfl⟩
  | .setMediaKey epochid media => simp [permitted, sound.mls] at takes

/-- A key that comes in is a root of every user that is taken to have the keys. -/
theorem taken_covered {roots : Target → List (UInt32 × Key)} (sound : Sound false cc) (move : Move env permit cc cc')
    (users : cc'.userl = cc.userl) (still : cc'.draws = cc.draws)
    (taken : ∀ index key, permit.takes index key → ∀ u ∈ cc.userl.users, Served u →
      (index, padKey key) ∈ roots (target u))
    (covered : Covered env roots cc) : Covered env roots cc' := by
  intro u member served k held
  rw [users] at member
  obtain ⟨hash, ⟨k₀, held₀, descends⟩ | ⟨index, key, takes, same⟩ | drawn⟩ := move_held sound move held
  · obtain ⟨d, root, earlier⟩ := covered u member served k₀ held₀
    exact ⟨d, root, hash ▸ earlier.trans descends⟩
  · exact ⟨indexed k, same ▸ taken index key takes u member served, .refl⟩
  · omega

/-- The permit to take some keys, and to do nothing else that needs one. -/
def taking (given : List (UInt32 × Bytes)) : Permit :=
  ⟨fun index key => (index, key) ∈ given, fun _ _ => False, fun _ => False, fun _ => False⟩

theorem receiveKeys_covered {roots : Target → List (UInt32 × Key)} : ∀ {cc : Ccall}, Sound false cc →
    (∀ given ∈ keyl, ∀ u ∈ cc.userl.users, Served u → (given.1, padKey given.2) ∈ roots (target u)) →
    Covered env roots cc → receiveKeys env keyl cc = some cc' →
      cc'.userl = cc.userl ∧ cc'.out = cc.out ∧ Covered env roots cc' := by
  induction keyl with
  | nil => exact fun _ _ covered received => some.inj received ▸ ⟨rfl, rfl, covered⟩
  | cons given rest ih =>
    intro cc sound known covered received
    simp only [receiveKeys] at received
    split at received
    · cases received
    · next done set =>
      have move : Move env (taking [given]) cc { cc with keystore := done.ks } :=
        .setSessionKey given.1 given.2 mem_cons_self set
      have next : Covered env roots { cc with keystore := done.ks } := by
        refine taken_covered sound move rfl rfl ?_ covered
        intro index key takes
        obtain rfl := mem_singleton.mp takes
        exact known _ mem_cons_self
      split at received
      · exact some.inj received ▸ ⟨rfl, rfl, next⟩
      · refine @ih { cc with keystore := done.ks } (moves_sound sound (.single move)) ?_ next received
        exact fun given member => known given (mem_cons_of_mem _ member)

theorem confKeyResp_covered {roots : Target → List (UInt32 × Key)} {userid clientid : Bytes} (sound : Sound false cc)
    (known : fromKg cc userid clientid → ∀ given ∈ keyl, ∀ u ∈ cc.userl.users, Served u →
      (given.1, padKey given.2) ∈ roots (target u))
    (covered : Covered env roots cc) (handled : confKeyResp env cc userid clientid keyl = some cc') :
    cc'.userl = cc.userl ∧ cc'.out = cc.out ∧ Covered env roots cc' := by
  unfold confKeyResp at handled
  split at handled
  · exact some.inj handled ▸ ⟨rfl, rfl, covered⟩
  · split at handled
    · next isFrom =>
      have move : Move env (taking []) cc
          { cc with keystore := (cc.keystore.setSalt (some cc.convidHash) cc.now).ks } := .setSalt
      have salted := taken_covered sound move rfl rfl (fun _ _ takes => absurd takes not_mem_nil) covered
      have ready := moves_sound sound (.single move)
      have after := receiveKeys_covered ready (by exact known isFrom) salted handled
      exact after
    · exact some.inj handled ▸ ⟨rfl, rfl, covered⟩

theorem approves_once {list' : Userlist} (once : ∀ list ∈ relisted env cc event, ¬ Reapproves cc.userl list)
    (approves : (permitted env event cc cc').approves list list') : ¬ Reapproves list list' := by
  match event with
  | .setClients clientl epoch =>
    obtain ⟨rfl, rfl⟩ := approves
    exact once _ rfl

theorem orderly_moves {mid mid' : Ccall} (orderly : Orderly env event cc cc')
    (taken : ∀ index key, ¬ (permitted env event cc cc').takes index key)
    (earlier : Moves env (permitted env event cc cc') cc mid)
    (later : Moves env (permitted env event cc cc') mid' cc') :
    OrderlyMove (permitted env event cc cc') cc.out.length mid mid' := by
  obtain ⟨extra, out⟩ := moves_out earlier
  obtain ⟨extra', out'⟩ := moves_out later
  refine ⟨by simp [out], taken, fun list list' => approves_once orderly.once, ?_, ?_⟩
  · rintro ⟨state, -, first, last⟩
    rw [state]
    exact orderly.active (by omega)
  · intro o member keys
    have sent : o ∈ cc'.out.drop cc.out.length := by
      rw [out', drop_append]
      exact mem_append_left _ member
    exact ⟨orderly.accepted o sent keys, fun ks same => same ▸ orderly.short ⟨o, sent, keys⟩⟩

theorem step_covered (total : Total env.hkdf) (sound : Sound false cc) (addressed : Addressed cc.userl)
    (orderly : Orderly env event cc cc')
    (known : ∀ d ∈ receivedKeys cc event, ∀ u ∈ cc.userl.users, Served u → d ∈ base (target u))
    (covered : Covered env (rootsAt base cc.out.length cc) cc) (stepped : step env event cc = some cc') :
    Addressed cc'.userl ∧ Covered env (rootsAt base cc.out.length cc') cc' := by
  by_cases response : ∃ userid clientid age keyl, event = .msgRecv userid clientid age (.confKey true keyl)
  · obtain ⟨userid, clientid, age, keyl, rfl⟩ := response
    have carried : fromKg cc userid clientid → ∀ given ∈ keyl, ∀ u ∈ cc.userl.users, Served u →
        (given.1, padKey given.2) ∈ rootsAt base cc.out.length cc (target u) := by
      intro isFrom given member u listed served
      refine mem_append_left _ (known _ ?_ u listed served)
      rw [receivedKeys, if_pos isFrom]
      exact List.mem_map_of_mem member
    obtain ⟨users, out, after⟩ := confKeyResp_covered sound carried covered stepped
    refine ⟨users ▸ addressed, ?_⟩
    have same : rootsAt base cc.out.length cc' = rootsAt base cc.out.length cc :=
      funext (fun t => by rw [rootsAt, out]; rfl)
    exact same ▸ after
  · have taken : ∀ index key, ¬ (permitted env event cc cc').takes index key :=
      fun _ _ takes => response (takes_response sound takes)
    -- The way to the end is kept, since the conditions are about the event as a whole.
    have along : ∀ {mid : Ccall}, Moves env (permitted env event cc cc') cc mid →
        Moves env (permitted env event cc cc') mid cc' →
          Addressed mid.userl ∧ Covered env (rootsAt base cc.out.length mid) mid := by
      intro mid earlier
      induction earlier with
      | refl => exact fun _ => ⟨addressed, covered⟩
      | tail earlier move ih =>
        intro later
        obtain ⟨addressed', covered'⟩ := ih (.head move later)
        exact ⟨move_addressed addressed' move, move_covered total (moves_sound sound earlier) addressed'
          (orderly_moves orderly taken earlier later) covered' move⟩
    exact along (step_moves stepped) .refl

structure Attended (env : Env) (w : Watched) : Prop where
  sound : Sound false w.call
  addressed : Addressed w.call.userl
  covered : Covered env (fun t => w.ledger t ++ w.received t) w.call

def OrderlyStep (env : Env) (event : CcallEvent) (w : Watched) : Prop :=
  ∀ cc' ∈ step env event w.call, Orderly env event w.call cc'

instance (env : Env) (event : CcallEvent) : DecidablePred (OrderlyStep env event) :=
  fun w => inferInstanceAs (Decidable (∀ cc' ∈ step env event w.call, Orderly env event w.call cc'))

theorem watch_attended (total : Total env.hkdf) (orderly : OrderlyStep env event w) (attended : Attended env w)
    (watched : watch env event w = some w') : Attended env w' := by
  obtain ⟨cc', stepped, rfl⟩ := map_eq_some_iff.mp watched
  let base : Target → List (UInt32 × Key) := fun t =>
    if present w.call t then w.ledger t ++ (w.received t ++ receivedKeys w.call event) else []
  have here : ∀ u ∈ w.call.userl.users, Served u → base (target u) =
      w.ledger (target u) ++ (w.received (target u) ++ receivedKeys w.call event) := by
    intro u member served
    exact if_pos (List.any_eq_true.mpr ⟨u, member, by simp [served.approved, served.incall]⟩)
  have start : Covered env (rootsAt base w.call.out.length w.call) w.call := by
    intro u member served k held
    obtain ⟨d, root, descends⟩ := attended.covered u member served k held
    refine ⟨d, mem_append_left _ ?_, descends⟩
    rw [here u member served, ← append_assoc]
    exact mem_append_left _ root
  obtain ⟨addressed, covered⟩ := step_covered total attended.sound attended.addressed (orderly cc' stepped)
    (fun d member u listed served => by
      rw [here u listed served]
      exact mem_append_right _ (mem_append_right _ member)) start stepped
  refine ⟨moves_sound attended.sound (step_moves stepped), addressed, ?_⟩
  intro u member served k held
  obtain ⟨d, root, descends⟩ := covered u member served k held
  refine ⟨d, ?_, descends⟩
  simp only [rootsAt, base, mem_append] at root ⊢
  by_cases stays : present w.call (target u) = true
  · simp only [stays, if_true, mem_append] at root ⊢
    tauto
  · simp only [stays, Bool.false_eq_true, if_false, not_mem_nil, false_or, or_false] at root ⊢
    exact root

end

/-- A user has a key, as far as the bystander can tell: it needs it and the flag says so, it was sent a key from which
    that key descends, or that key descends from one that an earlier key generator sent while the user was there. -/
def Reaches (env : Env) (w : Watched) (u : UserInfo) (k : KeyInfo) : Prop :=
  u.needsKey = true ∨ (∃ d ∈ w.ledger (target u), Descends env.hkdf w.call.convidHash d (indexed k)) ∨
    ∃ d ∈ w.received (target u), Descends env.hkdf w.call.convidHash d (indexed k)

theorem attended_reaches (attended : Attended env w) {u : UserInfo} (member : u ∈ w.call.userl.users)
    (approved : u.seApproved = true) (incall : u.incallNow = true) {k' : KeyInfo} (held : Held w.call.keystore k)
    (descends : Descends env.hkdf w.call.convidHash (indexed k) (indexed k')) : Reaches env w u k' := by
  cases flag : u.needsKey with
  | true => exact .inl flag
  | false =>
    obtain ⟨d, root, earlier⟩ := attended.covered u member ⟨approved, incall, flag⟩ k held
    refine .inr ?_
    rcases mem_append.mp root with sent | received
    · exact .inl ⟨d, sent, earlier.trans descends⟩
    · exact .inr ⟨d, received, earlier.trans descends⟩

theorem held_current {c : KeyInfo} (points : currentKey ks = some (some c)) : Held ks c :=
  ⟨(currentKey_mem points).1, (floor_points points).le⟩

/-- In an orderly run of a Proteus call, whenever the rotation timer makes a key current, every approved user in the
    call reaches it at that moment, and the current key when the timer is done. -/
theorem key_distribution (env : Env) (total : Total env.hkdf) (convid useridSelf clientid secret : Bytes)
    (meeting : Bool) (now : UInt64) (events : List CcallEvent) (w w' : Watched)
    (orderly : Throughout (watch env) (observe (alloc env convid useridSelf clientid secret false meeting now))
      (events ++ [.timer .rotateKey]) (OrderlyStep env))
    (ran : run (watch env) (observe (alloc env convid useridSelf clientid secret false meeting now)) events =
      some w)
    (fired : watch env (.timer .rotateKey) w = some w') :
    (∀ done c, w.call.keystore.rotate env.hkdf (fun _ => w.call.now) = some done →
      currentKey done.ks = some (some c) → ∀ u ∈ w.call.userl.users, u.seApproved = true → u.incallNow = true →
        Reaches env w u c) ∧
      ∀ c, currentKey w'.call.keystore = some (some c) → ∀ u ∈ w'.call.userl.users, u.seApproved = true →
        u.incallNow = true → Reaches env w' u c := by
  have start : Attended env (observe (alloc env convid useridSelf clientid secret false meeting now)) := by
    have empty : (observe (alloc env convid useridSelf clientid secret false meeting now)).call.userl.users = [] := rfl
    refine ⟨sound_alloc env convid useridSelf clientid secret false meeting now, ⟨?_, ?_⟩, ?_⟩
    · simp [empty]
    · simp [empty]
    · intro u member
      simp [empty] at member
  have attended : Attended env w :=
    run_throughout (fun _ _ _ orderly attended watched => watch_attended total orderly attended watched)
      (throughout_front orderly) start ran
  have attended' := watch_attended total (orderly events _ [] w rfl ran) attended fired
  constructor
  · intro done c rotated points u member approved incall
    have advance := rotate_advance attended.sound.valid rotated
    obtain ⟨k₀, held, descends⟩ := advance_held attended.sound.valid advance (held_current points)
      attended.sound.salt
    exact attended_reaches attended member approved incall held descends
  · intro c points u member approved incall
    exact attended_reaches attended' member approved incall (held_current points) .refl

def alicePart : Part := spellPart "alice" "1" 20 21

def bobPart : Part := spellPart "bob" "1" 10 11

def carolPart : Part := spellPart "carol" "1" 30 31

/-- Alice leads the SFT's list and Bob is approved; the rotation timer fires a number of times. -/
def aliceRotates (times : Nat) : List CcallEvent :=
  connects ++ [.setClients [bobClient] 1, lists [alicePart, bobPart]] ++
    List.replicate times (.timer .rotateKey)

/-- The first two bytes of a key are the same. -/
def Level (key : Key) : Prop := key.toList.getD 0 0 = key.toList.getD 1 0

instance (key : Key) : Decidable (Level key) := inferInstanceAs (Decidable (_ = _))

/-- Bob leads the SFT's list for a while and sends a key of its own; then Alice leads it again and the rotation timer
    fires. -/
def bobBetween : List CcallEvent :=
  connects ++ [.setClients [bobClient, carolClient] 1, lists [alicePart, bobPart, carolPart], .timer .rotateKey,
    lists [bobPart, alicePart, carolPart], bobSends [(196608, [1, 2, 3])], lists [alicePart, bobPart, carolPart],
    .timer .rotateKey]

theorem shiftHkdf_level {hash : Bytes} {d e : UInt32 × Key} (descends : Descends shiftHkdf hash d e)
    (level : Level d.2) : Level e.2 := by
  induction descends with
  | refl => exact level
  | @tail b c _ hashes ih =>
    have derived : c.2 = Vector.ofFn (fun n => b.2.toList.getD n 0 + skeyInfo.getD 0 0) :=
      hashes.2.elim (fun derived => (some.inj derived).symm) (fun derived => (some.inj derived).symm)
    rw [derived]
    simp only [Level, Vector.toList_ofFn, getD_eq_getElem?_getD, List.getElem?_ofFn] at ih ⊢
    simpa [sessionKeySize] using ih

/-- Two ways in which keys that a user was not sent become current by design, though every event was orderly. Bob was
    sent the key 65536 in the first rotation and none since, and the key of the eighteenth is sixteen steps from it. And
    Alice, key generator again, goes on with the key Bob sent in between, which Alice sent to nobody. -/
theorem key_distribution_gaps :
    (∃ w w', Throughout (watch plainEnv) (observe (aliceCall false)) (aliceRotates 17 ++ [.timer .rotateKey])
        (OrderlyStep plainEnv) ∧
      run (watch plainEnv) (observe (aliceCall false)) (aliceRotates 17) = some w ∧
      watch plainEnv (.timer .rotateKey) w = some w' ∧ w'.call.state = .active ∧ w'.call.isKg = true ∧
      ∃ c, currentKey w'.call.keystore = some (some c) ∧ ∃ u ∈ w'.call.userl.users, u.seApproved = true ∧
        u.incallNow = true ∧ u.needsKey = false ∧ ∀ d ∈ w'.ledger (target u),
          d.1.toNat + numKeys.toNat ≤ c.index.toNat) ∧
    ∃ w w', Throughout (watch plainEnv) (observe (aliceCall false)) (bobBetween ++ [.timer .rotateKey])
        (OrderlyStep plainEnv) ∧
      run (watch plainEnv) (observe (aliceCall false)) bobBetween = some w ∧
      watch plainEnv (.timer .rotateKey) w = some w' ∧ w'.call.state = .active ∧ w'.call.isKg = true ∧
      ∃ c, currentKey w'.call.keystore = some (some c) ∧ ∃ u ∈ w'.call.userl.users,
        u.useridReal = some (ascii "carol") ∧ u.seApproved = true ∧ u.incallNow = true ∧ u.needsKey = false ∧
          ∀ d ∈ w'.ledger (target u), ¬ Descends plainEnv.hkdf w'.call.convidHash d (indexed c) := by
  simp only [exists_and_left]
  constructor
  · decide +kernel
  · refine ⟨by decide +kernel, exists_shown (fun w => ∃ w', watch plainEnv (.timer .rotateKey) w = some w' ∧
      w'.call.state = .active ∧ w'.call.isKg = true ∧ ∃ c, currentKey w'.call.keystore = some (some c) ∧
        ¬ Level c.skey ∧ ∃ u ∈ w'.call.userl.users, u.useridReal = some (ascii "carol") ∧ u.seApproved = true ∧
          u.incallNow = true ∧ u.needsKey = false ∧ ∀ d ∈ w'.ledger (target u), Level d.2) (by decide +kernel) ?_⟩
    rintro w - ⟨w', fired, active, isKg, c, points, uneven, carol, member, name, approved, incall, flag, level⟩
    refine ⟨w', fired, active, isKg, c, points, carol, member, name, approved, incall, flag, ?_⟩
    exact fun d member descends => uneven (shiftHkdf_level descends (level d member))

/-- After three rotations Bob reaches the current key from the one it was sent. -/
theorem key_distribution_rotated :
    ∃ w w' c u, run (watch plainEnv) (observe (aliceCall false)) (aliceRotates 2) = some w ∧
      watch plainEnv (.timer .rotateKey) w = some w' ∧ currentKey w'.call.keystore = some (some c) ∧
      w'.call.userl.users = [u] ∧ c.index = 65537 ∧ Reaches plainEnv w' u c := by
  simp only [exists_and_left]
  refine exists_shown (fun w => Throughout (watch plainEnv) (observe (aliceCall false))
    (aliceRotates 2 ++ [.timer .rotateKey]) (OrderlyStep plainEnv) ∧
    ∃ w', watch plainEnv (.timer .rotateKey) w = some w' ∧
      ∃ c, currentKey w'.call.keystore = some (some c) ∧ c.index = 65537 ∧
        w'.call.userl.users.map (fun u => (u.seApproved, u.incallNow)) = [(true, true)]) (by decide +kernel) ?_
  rintro w ran ⟨orderly, w', fired, c, points, index, listed⟩
  obtain ⟨u, users, present⟩ := map_eq_singleton_iff.mp listed
  obtain ⟨approved, incall⟩ := Prod.mk.inj present
  refine ⟨w', fired, c, points, u, users, index, ?_⟩
  exact (key_distribution plainEnv shiftHkdf_total _ _ _ _ false 0 _ w w' orderly ran fired).2 c points u
    (by simp [users]) approved incall

end Avs.Ccall
