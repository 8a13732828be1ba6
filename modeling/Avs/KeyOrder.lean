import Avs.KeyProvenance

/-!
The order of the keys a conference call sends with. Every call of the keystore that does not empty it keeps a
current key and never moves it back (`Onward`). An event that brings no key either does so or leaves the
keystore empty; of the events that bring keys only a CONFPART can empty it first.
-/
namespace Avs.Ccall
open Runs Keystore
open Relation (ReflTransGen)
open Keystore (Onward)

section
variable {env : Env} {cc cc' : Ccall} {isMlsCall : Bool} {event : CcallEvent}
  {permit : Permit} {ks ks' : Keystore}

/-- Neither keys from outside nor generated ones. -/
def barren : Permit where
  takes _ _ := False
  approves _ _ := True
  generates _ := False
  sends _ := True

theorem barren_empty (sound : Sound isMlsCall cc) (move : Move env barren cc cc') (empty : cc.keystore.keyl = []) :
    cc'.keystore.keyl = [] := by
  apply List.eq_nil_iff_forall_not_mem.mpr
  intro k member
  cases (move_keys sound move k member).2 with
  | kept old =>
    rw [empty] at old
    cases old
  | taken _ _ takes _ => exact takes
  | generated _ _ _ _ permitted => exact permitted
  | hashed last _ isLast _ =>
    rw [empty] at isLast
    cases isLast

theorem keysKept_onward (kept : KeysKept ks ks') : Onward ks ks' := by
  have same : ks'.currentKey = ks.currentKey := by
    simp only [Keystore.currentKey, Keystore.keyAt, kept.current, kept.keyl]
  intro c points
  exact ⟨c, same.trans points, UInt32.le_refl _⟩

theorem barren_move (sound : Sound isMlsCall cc) (move : Move env barren cc cc') :
    Onward cc.keystore cc'.keystore ∨ cc'.keystore.keyl = [] := by
  cases move with
  | quiet quiet => exact .inl (keysKept_onward quiet.keys)
  | reset | resetKeys => exact .inr rfl
  | setSecret secret empty => exact .inr empty
  | sendKeys sendToAll sent from_ =>
    rw [(sendKeys_settled sent).1.keystore]
    exact .inl (.refl _)
  | generate isFirst isKg proteus first generated permitted from_ => exact permitted.elim
  | setSalt => exact .inl (setSalt_onward sound.valid)
  | setSessionKey index key takes set => exact takes.elim
  | rotate isKg proteus rotated => exact .inl (rotate_onward sound.valid rotated)
  | getMediaKey index looked =>
    have applied := congrArg (Option.map Prod.fst) looked
    exact .inl (apply_onward env.hkdf (.getMediaKey _ _ _) sound.valid id trivial applied)
  | setCurrent index at_ ahead => exact .inl (setCurrent_onward sound.valid at_ ahead)
  | rotateByTime minTs mls rotated => exact .inl (rotateByTime_onward sound.valid rotated)
  | _ => exact .inl (.refl _)

theorem barren_moves (sound : Sound isMlsCall cc) (moves : Moves env barren cc cc') :
    Onward cc.keystore cc'.keystore ∨ cc'.keystore.keyl = [] := by
  induction moves with
  | refl => exact .inl (.refl _)
  | tail before move ih =>
    have sound' := moves_sound sound before
    rcases ih with onward | empty
    · exact (barren_move sound' move).imp_left onward.trans
    · exact .inr (barren_empty sound' move empty)

theorem Sidesteps.onward (sound : Sound isMlsCall cc) (sidesteps : Sidesteps env permit cc cc') :
    Onward cc.keystore cc'.keystore := by
  induction sidesteps with
  | refl => exact .refl _
  | tail before last ih => exact ih.trans (last.onward (moves_sound sound (Sidesteps.moves before)).valid)

/-- The keystore has no key when the event is over or, in a CONFPART, when the end of the meeting was checked and the
    participants are about to be taken. -/
def emptied (env : Env) (event : CcallEvent) (cc : Ccall) : Bool :=
  (step env event cc).any (·.keystore.keyl.isEmpty) || match event with
    | .confpart ecall msg =>
      let shouldStart := msg.shouldStart ||
        (cc.isCaller && cc.sftTimestamp = 0 && cc.sftSeqno = 0 && msg.partl.length = 1)
      cc.ecall = some ecall && (confpartStart env cc msg shouldStart).any (fun started =>
        (confpartDuration env (confpartAlone started msg.partl.length) msg
          !cc.receivedConfpart).keystore.keyl.isEmpty)
    | _ => false

theorem confpartHandler_onward {ecall : Nat} {msg : Confpart} (sound : Sound isMlsCall cc)
    (handled : confpartHandler env cc ecall msg = some cc')
    (unreset : emptied env (.confpart ecall msg) cc = false) : Onward cc.keystore cc'.keystore := by
  unfold confpartHandler at handled
  split at handled
  · cases handled
    exact .refl _
  · next same =>
    obtain ⟨started, start, handled⟩ := Option.bind_eq_some_iff.mp handled
    obtain ⟨taken, take, ended⟩ := Option.bind_eq_some_iff.mp handled
    simp only [emptied, Bool.or_eq_false_iff, Decidable.not_not.mp same, start, decide_true, Bool.true_and,
      Option.any_some, List.isEmpty_eq_false_iff] at unreset
    -- Until the participants are taken no key is brought, and from there on none is dropped.
    obtain ⟨head, known⟩ := @confpartHead_moves cc env barren _ _ _ (!cc.receivedConfpart) start
    generalize (confpartDuration env (confpartAlone started msg.partl.length) msg !cc.receivedConfpart) = mid
      at unreset head known take
    have onward := (barren_moves sound head).resolve_right unreset.2
    have sound' := moves_sound sound head
    have sends : Permit.any.sends taken.keystore := trivial
    obtain ⟨last, sidesteps, rfl⟩ := takePartlist_sidesteps (fun _ _ _ _ _ => trivial) sends take
    have settled := (@confpartEnd_sidesteps _ env barren _ _ _ _ ended).1
    have listed := moves_sound sound' (.single (@Move.updateFromSftlist env barren _ msg.partl known))
    have onward' := Sidesteps.onward listed sidesteps
    exact settled.keystore ▸ onward.trans onward'

/-- Events that bring no key. -/
def Barren : CcallEvent → Prop
  | .setMediaKey _ _ => False
  | .msgRecv _ _ _ (.confKey true _) => False
  | .confpart _ _ => False
  | .timer .rotateKey => False
  | _ => True

theorem barren_allows (bare : Barren event) : Allows env event cc cc' barren := by
  refine ⟨?_, fun _ _ _ => trivial, ?_, trivial⟩
  · intro index key takes
    unfold permitted at takes
    split at takes
    · exact bare
    · exact bare
    · exact takes
  · intro generating
    unfold Generating at generating
    split at generating
    · exact bare.elim
    · exact bare.elim
    · exact generating.elim

/-- An event that does not empty the keystore does not move its current key back. -/
theorem step_onward (sound : Sound isMlsCall cc) (stepped : step env event cc = some cc')
    (unreset : emptied env event cc = false) : Onward cc.keystore cc'.keystore := by
  have held : cc'.keystore.keyl ≠ [] := by
    simp only [emptied, stepped, Option.any_some, Bool.or_eq_false_iff, List.isEmpty_eq_false_iff] at unreset
    exact unreset.1
  have onward : Sidesteps env .any cc cc' → Onward cc.keystore cc'.keystore := Sidesteps.onward sound
  by_cases bare : Barren event
  · exact (barren_moves sound (event_moves (barren_allows bare) stepped)).resolve_right held
  · unfold Barren at bare
    split at bare
    · exact onward (setMediaKey_sidesteps (fun _ => trivial) stepped)
    · exact onward (confKeyResp_sidesteps (fun _ _ _ => trivial) stepped)
    · simp only [step] at stepped
      split at stepped
      · exact confpartHandler_onward sound stepped unreset
      · cases stepped
    · simp only [step] at stepped
      split at stepped
      · have fired : Sound isMlsCall (cc.tmrCancel [.rotateKey]) :=
          ⟨sound.mls, sound.valid, sound.salt, sound.forward, sound.known⟩
        have sidesteps : Sidesteps env .any (cc.tmrCancel [.rotateKey]) cc' :=
          rotateKeyTimeout_sidesteps (fun _ _ _ _ _ => trivial) trivial stepped
        have onward := Sidesteps.onward fired sidesteps
        exact onward
      · cases stepped
    · exact absurd trivial bare

end

/-- From any moment with a current key on, and as long as the keystore is not emptied, the current index never
    decreases. -/
theorem current_never_back (env : Env) (convid useridSelf clientid secret : Bytes) (isMlsCall meeting : Bool)
    (now : UInt64) (front back : List CcallEvent) (cc cc' : Ccall) (c : KeyInfo)
    (reached : run (step env) (alloc env convid useridSelf clientid secret isMlsCall meeting now) front = some cc)
    (points : cc.keystore.currentKey = some (some c))
    (unreset : Throughout (step env) cc back (fun event mid => emptied env event mid = false))
    (ran : run (step env) cc back = some cc') :
    ∃ c', cc'.keystore.currentKey = some (some c') ∧ c.index ≤ c'.index := by
  have sound := run_sound (sound_alloc env convid useridSelf clientid secret isMlsCall meeting now) reached
  have kept : Sound isMlsCall cc' ∧ Onward cc.keystore cc'.keystore := by
    refine @run_throughout _ _ _ _ (fun mid => Sound isMlsCall mid ∧ Onward cc.keystore mid.keystore) ?_ back _ _
      unreset ⟨sound, .refl _⟩ ran
    rintro event mid mid' unreset ⟨sound, onward⟩ stepped
    exact ⟨moves_sound sound (step_moves stepped), onward.trans (step_onward sound stepped unreset)⟩
  exact kept.2 c points

/-- An MLS call that takes a second epoch's key and meets a frame sent with it. -/
theorem current_never_back_epochs :
    ∃ cc cc' c c', run (step plainEnv) (aliceCall true) [.setMediaKey 5 [1]] = some cc ∧
      run (step plainEnv) cc [.setMediaKey 9 [2], .lookup 9, .setMediaKey 7 [3]] = some cc' ∧
      cc.keystore.currentKey = some (some c) ∧ cc'.keystore.currentKey = some (some c') ∧ c.index ≤ c'.index := by
  simp only [exists_and_left]
  refine exists_shown (fun cc => Throughout (step plainEnv) cc
    [.setMediaKey 9 [2], .lookup 9, .setMediaKey 7 [3]] (fun event mid => emptied plainEnv event mid = false) ∧
      (∃ cc', run (step plainEnv) cc [.setMediaKey 9 [2], .lookup 9, .setMediaKey 7 [3]] = some cc' ∧ True) ∧
      ∃ c, cc.keystore.currentKey = some (some c) ∧ True) (by decide +kernel) ?_
  rintro cc reached ⟨unreset, ⟨cc', ran, -⟩, c, points, -⟩
  obtain ⟨c', points', more⟩ := current_never_back plainEnv _ _ _ _ true false 0 _ _ cc cc' c reached points unreset ran
  exact ⟨cc', ran, c, points, c', points', more⟩

end Avs.Ccall
