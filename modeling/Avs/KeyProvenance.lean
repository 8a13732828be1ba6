import Avs.CcallSteps
import Avs.KeyDescent
import Avs.Election

/-!
Where the session keys of a conference call come from. In a Proteus call every key descends by hashing forward
from a key that the key generator sent, or that this client drew as key generator; in an MLS call it is a key
of the application, as long as no CONFKEY response is taken.
-/
namespace Avs.Ccall
open Runs Keystore
open Keystore (indexed padKey Descends Advance Kept csInfo)
open Userlist (bobClient bobThenAlice spellPart)

/-- The keystore is well formed and hashes forward in Proteus calls only, under the salt of the conversation or none; a
    key generator knows the CONFPART that made it one. -/
structure Sound (isMlsCall : Bool) (cc : Ccall) : Prop where
  mls : cc.isMlsCall = isMlsCall
  valid : cc.keystore.Valid
  salt : cc.keystore.salt = none ∨ cc.keystore.salt = some cc.convidHash
  forward : cc.keystore.hashForward = !isMlsCall
  known : cc.isKg → cc.confpartData.isSome

section
variable {env : Env} {permit : Permit} {cc cc' : Ccall} {isMlsCall : Bool} {hash : UserHash} {secret key : Bytes}
  {epoch index : UInt32} {prev : Option UserRef} {clientl : List Client} {list : Userlist} {ks : Keystore}
  {event : CcallEvent}

theorem takeClient_self {s : Userlist.SeUpdate} {cli : Client}
    (self : (Userlist.takeClient hash secret epoch prev s cli).list.keygenerator = some .self) :
    s.list.keygenerator = some .self := by
  unfold Userlist.takeClient at self
  split at self
  · exact self
  · split at self
    · exact self
    · simp only at self
      split at self
      · split at self
        · exact self
        · simp only [Userlist.admitUser, Userlist.modify] at self
          split at self
          · simp at self
          · exact self
      · exact self

theorem takeClients_self : ∀ {s : Userlist.SeUpdate},
      (clientl.foldl (Userlist.takeClient hash secret epoch prev) s).list.keygenerator = some .self →
        s.list.keygenerator = some .self := by
  induction clientl with
  | nil => exact id
  | cons cli rest ih => exact fun self => takeClient_self (ih self)

theorem updateFromSelist_self (self : (list.updateFromSelist hash clientl epoch secret).list.isKeygeneratorMe) :
    list.isKeygeneratorMe := by
  simp only [Userlist.isKeygeneratorMe, decide_eq_true_eq] at self ⊢
  exact takeClients_self self

theorem sound_alloc (env : Env) (convid useridSelf clientid secret : Bytes) (isMlsCall meeting : Bool)
    (now : UInt64) : Sound isMlsCall (alloc env convid useridSelf clientid secret isMlsCall meeting now) where
  mls := rfl
  valid := valid_frame (valid_alloc (!isMlsCall) now) rfl rfl rfl (Nat.le_refl _)
  salt := .inr rfl
  forward := rfl
  known := by simp [alloc, setSecret, isKg, Userlist.isKeygeneratorMe, Userlist.setSecret, Userlist.alloc]

section
variable (sound : Sound isMlsCall cc)
include sound

theorem sound_keys (valid : ks.Valid) (kept : Kept cc.keystore ks) : Sound isMlsCall { cc with keystore := ks } :=
  ⟨sound.mls, valid, by rw [kept.salt]; exact sound.salt, kept.hashForward.trans sound.forward, sound.known⟩

theorem sound_users
    (known : list.isKeygeneratorMe → cc.confpartData.isSome) : Sound isMlsCall { cc with userl := list } :=
  ⟨sound.mls, sound.valid, sound.salt, sound.forward, known⟩

theorem sendKeys_sound {sendToAll : Bool} (sent : sendKeys env cc sendToAll = some cc') : Sound isMlsCall cc' := by
  rcases sendKeys_cases sent with ⟨rfl, -⟩ | ⟨-, -, -, ⟨rfl, -⟩ | ⟨keyl, -, -, rfl⟩⟩
  · exact sound
  · exact sound_users sound sound.known
  · exact ⟨sound.mls, sound.valid, sound.salt, sound.forward, sound.known⟩

theorem drawn_sound {salt : Option Bytes} {done : Keystore.Done}
    (set : cc.keystore.setFreshSessionKey env.hkdf cc.now index key salt = some done) :
    Sound isMlsCall { cc with becameKg := false, draws := cc.draws + 1, keystore := done.ks } := by
  have stored := sound_keys sound (valid_setFreshSessionKey sound.valid set)
    (setFreshSessionKey_kept set).1
  exact ⟨stored.mls, stored.valid, stored.salt, stored.forward, stored.known⟩

theorem generateSessionKey_sound {isFirst : Bool}
    (generated : generateSessionKey env cc isFirst = some cc') : Sound isMlsCall cc' := by
  obtain ⟨done, set, ⟨-, rfl⟩ | ⟨-, sent⟩⟩ := generateSessionKey_cases generated
  · exact drawn_sound sound set
  · exact sendKeys_sound (drawn_sound sound set) sent

theorem move_sound (move : Move env permit cc cc') : Sound isMlsCall cc' := by
  cases move with
  | quiet quiet =>
    have keys := quiet.keys
    refine ⟨quiet.mls.trans sound.mls, valid_frame sound.valid keys.keyl keys.current keys.init keys.nextAddr.ge,
      ?_, keys.hashForward.trans sound.forward, ?_⟩
    · rw [keys.salt, quiet.hash]
      exact sound.salt
    · intro isKg
      rw [Ccall.isKg, quiet.users] at isKg
      exact quiet.data (sound.known isKg)
  | resetKeygenerator => exact sound_users sound (by simp [Userlist.resetKeygenerator, Userlist.isKeygeneratorMe])
  | reset =>
    refine ⟨sound.mls, ?_, .inl rfl, sound.forward, sound.known⟩
    exact ⟨⟨KeyedList.ascending_nil, by simp [Keystore.reset], by simp [Keystore.reset]⟩, rfl, rfl⟩
  | resetKeys =>
    refine sound_keys sound ?_ ⟨rfl, rfl⟩
    exact ⟨⟨KeyedList.ascending_nil, by simp [Keystore.resetKeys], by simp [Keystore.resetKeys]⟩, rfl, rfl⟩
  | setSecret secret empty =>
    exact ⟨sound.mls, valid_frame sound.valid rfl rfl rfl (Nat.le_refl _), .inr rfl, sound.forward, sound.known⟩
  | incallClear forceDecoder again => exact sound_users sound sound.known
  | updateFromSftlist partl known => exact sound_users sound (fun _ => known)
  | sort => exact sound_users sound sound.known
  | updateFromSelist clientl epoch approves =>
    exact sound_users sound (fun self => sound.known (updateFromSelist_self self))
  | touch alike =>
    refine sound_users sound (fun self => sound.known ?_)
    rw [Ccall.isKg, Userlist.isKeygeneratorMe, ← alike.1]
    exact self
  | askKey addr => exact sound_users sound sound.known
  | sendKeys sendToAll sent from_ => exact sendKeys_sound sound sent
  | generate isFirst isKg proteus first generated permitted from_ => exact generateSessionKey_sound sound generated
  | setSalt =>
    exact ⟨sound.mls, valid_frame sound.valid rfl rfl rfl (Nat.le_refl _), .inr rfl, sound.forward, sound.known⟩
  | setSessionKey index key takes set =>
    exact sound_keys sound (valid_setSessionKey _ _ _ _ sound.valid set) (setSessionKey_kept set).1
  | rotate isKg proteus rotated =>
    have advance := rotate_advance sound.valid rotated
    exact sound_keys sound (valid_advance advance) (advance_kept advance).1
  | getMediaKey index looked =>
    have advance := (getMediaKey_looked sound.valid looked).advance
    exact sound_keys sound (valid_advance advance) (advance_kept advance).1
  | setCurrent index at_ ahead =>
    exact sound_keys sound ((setCurrent_moved _ index).valid sound.valid) (setCurrent_moved _ index).kept.1
  | rotateByTime minTs mls rotated =>
    exact sound_keys sound ((rotateByTime_moved rotated).valid sound.valid) (rotateByTime_moved rotated).kept.1

theorem moves_sound (moves : Moves env permit cc cc') : Sound isMlsCall cc' := by
  induction moves with
  | refl => exact sound
  | tail _ move ih => exact move_sound ih move

theorem run_sound {events : List CcallEvent} (ran : run (step env) cc events = some cc') : Sound isMlsCall cc' :=
  run_invariant (fun _ _ _ (_ : True) sound stepped => moves_sound sound (step_moves stepped))
    (fun _ _ => trivial) sound ran

end

/-- A key after a move was there, is brought by the move, or follows the last key, in a Proteus call. -/
inductive KeyFrom (env : Env) (permit : Permit) (cc cc' : Ccall) (k : KeyInfo) : Prop
  | kept (member : k ∈ cc.keystore.keyl)
  | taken (index : UInt32) (key : Bytes) (takes : permit.takes index key) (same : indexed k = (index, padKey key))
  | generated (index : UInt32) (salt : Bytes) (hashed : Key) (isKg : cc.isKg) (permitted : permit.generates cc)
      (proteus : cc.isMlsCall = false) (drawn : cc'.draws = cc.draws + 1)
      (derived : env.hkdf sessionKeySize (env.random cc.draws).toList salt csInfo = some hashed)
      (same : indexed k = (index, hashed))
  | hashed (last : KeyInfo) (proteus : cc.isMlsCall = false) (isLast : cc.keystore.keyl.getLast? = some last)
      (descends : Descends env.hkdf cc.convidHash (indexed last) (indexed k))

theorem advance_keyFrom (sound : Sound isMlsCall cc) (proteus : cc.isMlsCall = false)
    (advance : Advance env.hkdf cc.keystore ks) : ∀ k ∈ ks.keyl, KeyFrom env permit cc cc' k := by
  intro k member
  rcases (advance_kept advance).2 k member with old | ⟨last, isLast, descends⟩
  · exact .kept old
  · exact .hashed last proteus isLast (descends _ sound.salt)

theorem move_keys (sound : Sound isMlsCall cc) (move : Move env permit cc cc') :
    ∀ k ∈ cc'.keystore.keyl, cc'.convidHash = cc.convidHash ∧ KeyFrom env permit cc cc' k := by
  cases move with
  | quiet quiet => exact fun k member => ⟨quiet.hash, .kept (quiet.keys.keyl ▸ member)⟩
  | reset | resetKeys => simp [Keystore.reset, Keystore.resetKeys]
  | setSecret secret empty =>
    intro k member
    have member : k ∈ cc.keystore.keyl := member
    simp [empty] at member
  | sendKeys sendToAll sent from_ =>
    rcases sendKeys_cases sent with ⟨rfl, -⟩ | ⟨-, -, -, ⟨rfl, -⟩ | ⟨keyl, -, -, rfl⟩⟩
    · exact fun k member => ⟨rfl, .kept member⟩
    · exact fun k member => ⟨rfl, .kept member⟩
    · exact fun k member => ⟨rfl, .kept member⟩
  | generate isFirst isKg proteus first generated permitted from_ =>
    obtain ⟨done, set, outcome⟩ := generateSessionKey_cases generated
    have keys : cc'.convidHash = cc.convidHash ∧ cc'.keystore = done.ks := by
      rcases outcome with ⟨-, rfl⟩ | ⟨-, sent⟩
      · exact ⟨rfl, rfl⟩
      · rcases sendKeys_cases sent with ⟨rfl, -⟩ | ⟨-, -, -, ⟨rfl, -⟩ | ⟨keyl, -, -, rfl⟩⟩
        · exact ⟨rfl, rfl⟩
        · exact ⟨rfl, rfl⟩
        · exact ⟨rfl, rfl⟩
    intro k member
    refine ⟨keys.1, ?_⟩
    rcases (setFreshSessionKey_kept set).2 k (keys.2 ▸ member) with old | ⟨salt, hashed, -, derived, same⟩
    · exact .kept old
    · exact .generated _ salt hashed isKg permitted proteus (generateSessionKey_kept generated).2.2.1 derived same
  | setSessionKey index key takes set =>
    intro k member
    refine ⟨rfl, ?_⟩
    rcases (setSessionKey_kept set).2 k member with old | same
    · exact .kept old
    · exact .taken index key takes same
  | rotate isKg proteus rotated =>
    exact fun k member => ⟨rfl, advance_keyFrom sound proteus (rotate_advance sound.valid rotated) k member⟩
  | getMediaKey index looked =>
    intro k member
    refine ⟨rfl, ?_⟩
    by_cases proteus : cc.isMlsCall = false
    · exact advance_keyFrom sound proteus (getMediaKey_looked sound.valid looked).advance k member
    · have off : cc.keystore.hashForward = false := by
        rw [sound.forward, ← sound.mls]
        simpa using proteus
      exact .kept (getMediaKey_subset off looked k member)
  | setCurrent index at_ ahead => exact fun k member => ⟨rfl, .kept ((setCurrent_moved _ index).kept.2 k member)⟩
  | rotateByTime minTs mls rotated =>
    exact fun k member => ⟨rfl, .kept ((rotateByTime_moved rotated).kept.2 k member)⟩
  | _ => exact fun k member => ⟨rfl, .kept member⟩

/-- The keys an event brings: in an MLS call those the application sets, in a Proteus call those of a CONFKEY response
    whose sender is the key generator, and those drawn while this client is the key generator. -/
inductive Brings (env : Env) (isMlsCall : Bool) (event : CcallEvent) (cc cc' : Ccall) : UInt32 × Key → Prop
  | application {epochid : UInt32} {media : Bytes} (mls : isMlsCall = true)
      (set : event = .setMediaKey epochid media) : Brings env isMlsCall event cc cc' (epochid, padKey media)
  | received {userid clientid : Bytes} {age : UInt32} {keyl : List (UInt32 × Bytes)} {index : UInt32} {key : Bytes}
      (proteus : isMlsCall = false) (message : event = .msgRecv userid clientid age (.confKey true keyl))
      (carried : (index, key) ∈ keyl) (sender : fromKg cc userid clientid) :
      Brings env isMlsCall event cc cc' (index, padKey key)
  | drawn {index : UInt32} {n : Nat} {salt : Bytes} {hashed : Key} (proteus : isMlsCall = false) (isKg : cc'.isKg)
      (first : cc.draws ≤ n) (last : n < cc'.draws)
      (derived : env.hkdf sessionKeySize (env.random n).toList salt csInfo = some hashed) :
      Brings env isMlsCall event cc cc' (index, hashed)

def Brought (env : Env) (isMlsCall : Bool) (start : Ccall) (events : List CcallEvent) (d : UInt32 × Key) : Prop :=
  ∃ front event back cc cc', events = front ++ event :: back ∧ run (step env) start front = some cc ∧
    step env event cc = some cc' ∧ Brings env isMlsCall event cc cc' d

/-- A key is one of the run's keys or, in a Proteus call, descends from one. -/
def Accounted (env : Env) (isMlsCall : Bool) (start : Ccall) (events : List CcallEvent) (cc : Ccall) : Prop :=
  ∀ k ∈ cc.keystore.keyl, ∃ d, Brought env isMlsCall start events d ∧
    if isMlsCall then d = indexed k else Descends env.hkdf cc.convidHash d (indexed k)

/-- A CONFKEY response with keys, sent by the key generator. -/
def takesKeys (cc : Ccall) : CcallEvent → Bool
  | .msgRecv userid clientid _ (.confKey true keyl) => !keyl.isEmpty && fromKg cc userid clientid
  | _ => false

/-- No CONFKEY response is taken in an MLS call. -/
def MlsClean (event : CcallEvent) (cc : Ccall) : Prop := ¬ (cc.isMlsCall = true ∧ takesKeys cc event = true)

instance (event : CcallEvent) (cc : Ccall) : Decidable (MlsClean event cc) :=
  inferInstanceAs (Decidable (¬ (cc.isMlsCall = true ∧ takesKeys cc event = true)))

theorem takes_brings {mid mid' : Ccall}
    (sound : Sound isMlsCall mid) (clean : MlsClean event mid)
    (takes : (permitted env event mid mid').takes index key) :
    Brings env isMlsCall event mid mid' (index, padKey key) := by
  match event with
  | .msgRecv userid clientid age (.confKey true keyl) =>
    obtain ⟨carried, sender⟩ := takes
    refine .received ?_ rfl carried sender
    rw [← sound.mls]
    refine Bool.eq_false_iff.mpr (fun mls => clean ⟨mls, ?_⟩)
    simp [takesKeys, sender, List.ne_nil_of_mem carried]
  | .setMediaKey epochid media =>
    obtain ⟨mls, rfl, rfl⟩ := takes
    exact .application (sound.mls ▸ mls) rfl

theorem move_accounted {roots : UInt32 × Key → Prop} (sound : Sound isMlsCall cc)
    (taken : ∀ index key, permit.takes index key → roots (index, padKey key))
    (generated : ∀ index salt hashed, permit.generates cc → cc.isMlsCall = false →
      env.hkdf sessionKeySize (env.random cc.draws).toList salt csInfo = some hashed → roots (index, hashed))
    (traced : ∀ k ∈ cc.keystore.keyl, ∃ d, roots d ∧
      if isMlsCall then d = indexed k else Descends env.hkdf cc.convidHash d (indexed k))
    (move : Move env permit cc cc') :
    ∀ k ∈ cc'.keystore.keyl, ∃ d, roots d ∧
      if isMlsCall then d = indexed k else Descends env.hkdf cc'.convidHash d (indexed k) := by
  intro k member
  obtain ⟨hash, keyFrom⟩ := move_keys sound move k member
  have brought : roots (indexed k) → ∃ d, roots d ∧
      if isMlsCall then d = indexed k else Descends env.hkdf cc'.convidHash d (indexed k) := by
    intro root
    refine ⟨indexed k, root, ?_⟩
    split
    · rfl
    · exact .refl
  cases keyFrom with
  | kept old => exact hash ▸ traced k old
  | taken index key takes same => exact brought (same ▸ taken index key takes)
  | generated index salt hashed isKg permitted proteus drawn derived same =>
    exact brought (same ▸ generated index salt hashed permitted proteus derived)
  | hashed last proteus isLast descends =>
    obtain ⟨d, root, earlier⟩ := traced last (List.mem_of_getLast? isLast)
    have off : isMlsCall = false := sound.mls ▸ proteus
    simp only [off, Bool.false_eq_true, if_false] at earlier ⊢
    exact ⟨d, root, hash ▸ earlier.trans descends⟩

theorem step_accounted {start : Ccall} {front : List CcallEvent} (ran : run (step env) start front = some cc)
    (clean : MlsClean event cc) (sound : Sound isMlsCall cc) (accounted : Accounted env isMlsCall start front cc)
    (stepped : step env event cc = some cc') : Accounted env isMlsCall start (front ++ [event]) cc' := by
  have later : ∀ d, Brought env isMlsCall start front d → Brought env isMlsCall start (front ++ [event]) d := by
    rintro d ⟨front', event', back, mid, mid', rfl, reached, stepped', brings⟩
    exact ⟨front', event', back ++ [event], mid, mid', by simp, reached, stepped', brings⟩
  have now : ∀ d, Brings env isMlsCall event cc cc' d → Brought env isMlsCall start (front ++ [event]) d :=
    fun d brings => ⟨front, event, [], cc, cc', rfl, ran, stepped, brings⟩
  have inv : ∀ {mid : Ccall}, Moves env (permitted env event cc cc') cc mid → Sound isMlsCall mid ∧
      ∀ k ∈ mid.keystore.keyl, ∃ d, Brought env isMlsCall start (front ++ [event]) d ∧
        if isMlsCall then d = indexed k else Descends env.hkdf mid.convidHash d (indexed k) := by
    intro mid moves
    induction moves with
    | refl => exact ⟨sound, fun k member => (accounted k member).imp (fun d found => ⟨later d found.1, found.2⟩)⟩
    | tail _ move ih =>
      refine ⟨move_sound ih.1 move, move_accounted ih.1 ?_ ?_ ih.2 move⟩
      · exact fun index key takes => now _ (takes_brings sound clean takes)
      · intro index salt hashed ⟨_, isKg, first, last⟩ proteus derived
        exact now _ (.drawn (ih.1.mls.symm.trans proteus) isKg first last derived)
  exact (inv (step_moves stepped)).2

end

/-- Every run of a conference call accounts for its keys, as long as no CONFKEY response of the key generator is taken
    in an MLS call. -/
theorem key_provenance (env : Env) (convid useridSelf clientid secret : Bytes) (isMlsCall meeting : Bool) (now : UInt64)
    (events : List CcallEvent) (cc : Ccall)
    (clean : Throughout (step env) (alloc env convid useridSelf clientid secret isMlsCall meeting now) events
      MlsClean)
    (ran : run (step env) (alloc env convid useridSelf clientid secret isMlsCall meeting now) events = some cc) :
    Accounted env isMlsCall (alloc env convid useridSelf clientid secret isMlsCall meeting now) events cc := by
  have sound := sound_alloc env convid useridSelf clientid secret isMlsCall meeting now
  have none_ : Accounted env isMlsCall (alloc env convid useridSelf clientid secret isMlsCall meeting now) []
      (alloc env convid useridSelf clientid secret isMlsCall meeting now) := by
    intro k member
    simp [alloc, setSecret, Keystore.setSalt, Keystore.alloc] at member
  refine run_history none_ ?_ clean ran
  intro front event mid mid' reached clean accounted stepped
  exact step_accounted reached clean (run_sound sound reached) accounted stepped

/-- Hashes that spell out, handlers that succeed, and draws that differ. -/
def plainEnv : Env where
  hkdf := Keystore.shiftHkdf
  hashUser := Userlist.spellHash
  hashConv _ convid := convid
  random n := Vector.replicate _ (UInt8.ofNat (100 + n))
  answers _ := none
  hasEconn _ := true

def aliceCall (isMlsCall : Bool) : Ccall :=
  alloc plainEnv (ascii "conv") (ascii "alice") (ascii "1") [] isMlsCall false 0

def plainSft : SftServer := ⟨ascii "sft/", ascii "user", ascii "pass"⟩

/-- Alice starts the conference and is connected with the SFT. -/
def connects : List CcallEvent :=
  [.start false, .config ⟨[plainSft], [plainSft], false⟩,
    .sftMsgRecv (some (ascii "conv", .setup (some (ascii "sft/")) none)), .transpSend .setup, .datachanEstab,
    .mediaEstab 0]

def lists (partl : List Part) : CcallEvent := .confpart 0 ⟨1, 1, false, [], partl, []⟩

/-- Bob is approved and leads the SFT's list. -/
def bobLeads : List CcallEvent := connects ++ [.setClients [bobClient] 1, lists bobThenAlice]

def bobSends (keyl : List (UInt32 × Bytes)) : CcallEvent := .msgRecv (ascii "bob") (ascii "1") 0 (.confKey true keyl)

/-- In an MLS call Bob leads the SFT's list and sends a CONFKEY response; its key is in the keystore, though the
    application never set a key. -/
theorem key_provenance_mls_confkey : let events := bobLeads ++ [bobSends [(7, [1, 2, 3])]]
    ∃ cc, run (step plainEnv) (aliceCall true) events = some cc ∧
      cc.keystore.keyl.map indexed = [(7, padKey [1, 2, 3])] ∧
      ¬ Accounted plainEnv true (aliceCall true) events cc := by
  intro events
  refine exists_shown (fun cc => cc.keystore.keyl.map indexed = [(7, padKey [1, 2, 3])]) (by decide +kernel)
    fun cc _ keys => ⟨keys, fun accounted => ?_⟩
  have member : (7, padKey [1, 2, 3]) ∈ cc.keystore.keyl.map indexed := by simp [keys]
  obtain ⟨k, member, -⟩ := List.mem_map.mp member
  obtain ⟨d, ⟨front, event, back, _, _, split, -, -, brings⟩, -⟩ := accounted k member
  cases brings with
  | application mls set =>
    have among : event ∈ events := by
      rw [split]
      simp
    simp [events, set, bobLeads, connects, lists, bobSends] at among
  | received proteus => simp at proteus
  | drawn proteus => simp at proteus

/-- In a Proteus call Bob sends a key, a frame of Bob moves on by two, and Bob leaves; Alice, now key generator, draws a
    key. -/
theorem key_provenance_proteus : let events := bobLeads ++
      [bobSends [(7, [1, 2, 3])], .lookup 9, lists [spellPart "alice" "1" 20 21], .timer .rotateKey]
    ∃ cc, run (step plainEnv) (aliceCall false) events = some cc ∧
      cc.keystore.keyl.map (·.index) = [9, 10, 131072] ∧
      Accounted plainEnv false (aliceCall false) events cc := by
  intro events
  refine exists_guarded MlsClean (fun cc => cc.keystore.keyl.map (·.index) = [9, 10, 131072]) (by decide +kernel)
    fun cc clean ran keys => ?_
  exact ⟨keys, key_provenance plainEnv _ _ _ _ false false 0 _ cc clean ran⟩

end Avs.Ccall
