import Avs.CcallMoves
import Avs.KeyProvenance

/-!
What a configuration update does to a call. A call that waits for it sends CONFCONNs to the SFTs it may join
and is then to be in CONNSENT exactly when one of them was handed over (`Connects`). The code decides by the
answer to the last CONFCONN.
-/
namespace Avs.Ccall
open List Option Runs

/-- The answers to the CONFCONNs among some outputs. -/
def confConnAnswers (out : List Output) : List (Option Errno) :=
  out.filterMap (fun o => match o with
    | .sft _ (.confConn _ _ _ _) err => some err
    | _ => none)

def Handed (cc cc' : Ccall) : Prop := none ∈ confConnAnswers (cc'.out.drop cc.out.length)

def Waiting (cc : Ccall) : Prop := cc.state = .waitconfig ∨ cc.state = .waitconfigOutgoing

/-- What a configuration update is for. -/
structure Connects (cfg : CallConfig) (cc cc' : Ccall) : Prop where
  waited : cc'.state = .connsent → cc.state ≠ .connsent → Waiting cc ∧ Handed cc cc'
  connected : Handed cc cc' → cc'.state = .connsent
  timedOut : cc.state = .idle → cc'.state = .idle
  empty : cfg.sftservers = [] → cc'.state = .idle

/-- How many of `k` outputs from the `n`-th on are taken. -/
def accepted (env : Env) (n k : Nat) : Nat := (List.range k).countP (fun i => (env.answers (n + i)).isNone)

/-- A round of `k` CONFCONNs, which ends with the third that is taken, does not end with a refusal after one that was
    taken. -/
def Settles (env : Env) (n k : Nat) : Prop :=
  accepted env n k = 0 ∨ 3 ≤ accepted env n k ∨ env.answers (n + k - 1) = none

def listed (cc : Ccall) : Nat := (cc.sftl.filter (canConnectSft cc)).length

def configured (cc : Ccall) : Nat := (cc.cfg.sftservers.take 3).length

/-- The rounds of an update do not end with a refusal after a CONFCONN that was taken: the round over the SFTs of the
    conference and, where none of them was joined and the configuration is federating, the one over its own; an outgoing
    call has only the latter. -/
def SettlesRounds (env : Env) (cc : Ccall) : Prop :=
  if cc.state = .waitconfigOutgoing then Settles env cc.out.length (configured cc)
  else if cc.sftl = [] then
    cc.cfg.federating = true ∧ ¬ (∃ url ∈ cc.primarySftUrl, canConnectSft cc url) →
      Settles env cc.out.length (configured cc)
  else Settles env cc.out.length (listed cc) ∧
    (cc.cfg.federating = true ∧ accepted env cc.out.length (listed cc) = 0 →
      Settles env (cc.out.length + listed cc) (configured cc))

/-- The update brings an SFT and finds the call connecting already, or waiting and with rounds that settle. -/
structure Welcome (env : Env) (cfg : CallConfig) (cc : Ccall) : Prop where
  servers : cfg.sftservers ≠ []
  rounds : cc.state = .connsent ∨ Waiting cc ∧ SettlesRounds env { cc with cfg := cfg }

section
variable {env : Env} {cc mid : Ccall} {cc' : Ccall} {url : Bytes} {answers : List (Option Errno)}
  {k connected n : Nat} {rest : List Bytes} {err : Option Errno} {joined : Joined} {settles : Prop}
  {extra more : List Output} {je : JoinElem} {cfg : CallConfig}

theorem accepted_succ (env : Env) (n k : Nat) :
    accepted env n (k + 1) = (if env.answers n = none then 1 else 0) + accepted env (n + 1) k := by
  rw [accepted, range_succ_eq_map, countP_cons, countP_map]
  have shift : (fun i => (env.answers (n + i)).isNone) ∘ Nat.succ = fun i => (env.answers (n + 1 + i)).isNone := by
    funext i
    simp only [Function.comp, Nat.succ_eq_add_one, Nat.add_assoc, Nat.add_comm 1 i]
  rw [shift, accepted, Nat.add_comm]
  simp [isNone_iff_eq_none]

/-- CONFCONNs went out, with these answers, and nothing else happened. -/
structure Tried (cc cc' : Ccall) (answers : List (Option Errno)) : Prop where
  same : cc' = { cc with out := cc'.out }
  out : ∃ extra, cc'.out = cc.out ++ extra ∧ confConnAnswers extra = answers

theorem Tried.refl (cc : Ccall) : Tried cc cc [] := ⟨rfl, [], by simp, rfl⟩

theorem Tried.trans {a b c : Ccall} {first second : List (Option Errno)} (left : Tried a b first)
    (right : Tried b c second) : Tried a c (first ++ second) := by
  obtain ⟨extra, out, answers⟩ := left.out
  obtain ⟨extra', out', answers'⟩ := right.out
  refine ⟨?_, extra ++ extra', by rw [out', out, append_assoc], ?_⟩
  · rw [right.same, left.same]
  · rw [confConnAnswers, filterMap_append, ← confConnAnswers, ← confConnAnswers, answers, answers']

theorem sendConfConn_tried {sfti : Option SftServer} {update : Bool} :
    (sendConfConn env cc url sfti update).2 = env.answers cc.out.length ∧
      (sendConfConn env cc url sfti update).1.out.length = cc.out.length + 1 ∧
      Tried cc (sendConfConn env cc url sfti update).1 [env.answers cc.out.length] := by
  simp only [sendConfConn, sendMsgSft, reduceCtorEq, or_false, false_and, and_false, if_false]
  exact ⟨trivial, by simp [tell], ⟨rfl, _, rfl, rfl⟩⟩

theorem tried_cons (first : Tried cc mid [env.answers cc.out.length]) (length : mid.out.length = cc.out.length + 1)
    (later : Tried mid cc' answers) (taken : none ∈ answers ↔ 0 < accepted env mid.out.length k) :
    ∃ answers, Tried cc cc' answers ∧ (none ∈ answers ↔ 0 < accepted env cc.out.length (k + 1)) := by
  refine ⟨_, first.trans later, ?_⟩
  rw [accepted_succ, ← length, singleton_append, mem_cons, taken]
  by_cases ok : env.answers cc.out.length = none
  · simp [ok]
  · simp [ok, Ne.symm ok]

def tally (answer : Option Errno) : Nat := if answer = none then 1 else 0

theorem joinListed_third
    (can : canConnectSft cc url = true) (sent : sendConfConn env cc url (getSftInfo cc url) false = (mid, none)) :
    joinListed env (url :: rest) cc 2 err = (mid, 3, none) := by
  simp [joinListed, can, sent]

theorem joinListed_next {answer : Option Errno} (can : canConnectSft cc url = true)
    (sent : sendConfConn env cc url (getSftInfo cc url) false = (mid, answer)) (few : connected + tally answer < 3) :
    joinListed env (url :: rest) cc connected err = joinListed env rest mid (connected + tally answer) answer := by
  unfold tally at few ⊢
  by_cases ok : answer = none
  · rw [if_pos ok] at few ⊢
    simp only [joinListed, can, sent, if_true, ok, isNone_none]
    rw [if_neg (by omega)]
  · rw [if_neg ok] at few ⊢
    simp only [joinListed, can, sent, if_true, isNone_iff_eq_none, ok, if_false]
    rw [if_neg (by omega)]
    rfl

theorem joinListed_skipped (cannot : ¬ canConnectSft cc url = true) (few : connected < 3) :
    joinListed env (url :: rest) cc connected err = joinListed env rest cc connected err := by
  simp only [joinListed, cannot, Bool.false_eq_true, if_false]
  rw [if_neg (by omega)]

theorem joinListed_spec (env : Env) (urls : List Bytes) : ∀ (cc : Ccall) (connected : Nat) (err : Option Errno),
    connected < 3 →
      let k := (urls.filter (canConnectSft cc)).length
      let taken := accepted env cc.out.length k
      let r := joinListed env urls cc connected err
      (∃ answers, Tried cc r.1 answers ∧ (none ∈ answers ↔ 0 < taken)) ∧ r.2.1 = min 3 (connected + taken) ∧
        (connected + taken < 3 → r.1.out.length = cc.out.length + k ∧
          r.2.2 = if k = 0 then err else env.answers (cc.out.length + k - 1)) ∧
        (3 ≤ connected + taken → r.2.2 = none) := by
  induction urls with
  | nil =>
    intro cc connected err few
    refine ⟨⟨[], .refl cc, by simp [accepted]⟩, ?_, fun _ => ⟨rfl, rfl⟩, ?_⟩
    · simp only [joinListed, filter_nil, length_nil, accepted, range_zero, countP_nil]
      omega
    · intro enough
      simp only [filter_nil, length_nil, accepted, range_zero, countP_nil] at enough
      omega
  | cons url rest ih =>
    intro cc connected err few
    by_cases can : canConnectSft cc url = true
    · obtain ⟨answer, length, tried⟩ := sendConfConn_tried
      rw [filter_cons_of_pos can, length_cons]
      generalize sent : sendConfConn env cc url (getSftInfo cc url) false = r at answer length tried
      obtain ⟨mid, err'⟩ := r
      simp only at answer length tried
      subst answer
      have cfg : canConnectSft mid = canConnectSft cc := by rw [tried.same]; rfl
      have taken := accepted_succ env cc.out.length (rest.filter (canConnectSft cc)).length
      by_cases full : env.answers cc.out.length = none ∧ connected = 2
      · -- The third CONFCONN that is taken ends the round.
        obtain ⟨ok, rfl⟩ := full
        rw [if_pos ok] at taken
        rw [joinListed_third can (by rw [sent, ok])]
        refine ⟨⟨_, tried, ?_⟩, ?_, ?_, fun _ => rfl⟩
        · simp only [ok, mem_singleton, true_iff]
          omega
        · simp only
          omega
        · intro few
          omega
      · have few' : connected + tally (env.answers cc.out.length) < 3 := by
          unfold tally
          split
          · have : connected ≠ 2 := fun two => full ⟨by assumption, two⟩
            omega
          · omega
        obtain ⟨⟨answers, later, some_⟩, count, last, none_⟩ := ih mid _ (env.answers cc.out.length) few'
        rw [joinListed_next can sent few']
        simp only [cfg] at later some_ count last none_
        rw [← length] at taken
        unfold tally at count last none_
        refine ⟨tried_cons tried length later some_, ?_, ?_, ?_⟩
        · unfold tally
          rw [count]
          omega
        · intro enough
          obtain ⟨out, err_⟩ := last (by omega)
          unfold tally
          refine ⟨by omega, ?_⟩
          rw [err_, length, if_neg (Nat.succ_ne_zero _)]
          split
          · next zero => rw [zero, Nat.add_sub_cancel]
          · congr 1
            omega
        · intro enough
          exact none_ (by omega)
    · rw [joinListed_skipped can few, filter_cons_of_neg can]
      exact ih cc connected err few

theorem joinConfigured_spec (env : Env) (servers : List SftServer) : ∀ (cc : Ccall) (err : Option Errno),
    let k := servers.length
    let r := joinConfigured env servers cc err
    (∃ answers, Tried cc r.1 answers ∧ (none ∈ answers ↔ 0 < accepted env cc.out.length k)) ∧
      r.2 = if k = 0 then err else env.answers (cc.out.length + k - 1) := by
  induction servers with
  | nil => exact fun cc err => ⟨⟨[], .refl cc, by simp [accepted]⟩, rfl⟩
  | cons server rest ih =>
    intro cc err
    obtain ⟨answer, length, tried⟩ :=
      sendConfConn_tried
    generalize sent : sendConfConn env cc (sftFor cc server).url (some (sftFor cc server)) false = r
      at answer length tried
    obtain ⟨mid, err'⟩ := r
    simp only at answer length tried
    subst answer
    obtain ⟨⟨answers, later, taken⟩, last⟩ := ih mid (env.answers cc.out.length)
    have goes : joinConfigured env (server :: rest) cc err =
        joinConfigured env rest mid (env.answers cc.out.length) := by
      simp only [joinConfigured, sent]
    rw [goes]
    refine ⟨tried_cons tried length later taken, ?_⟩
    rw [last, length, length_cons, if_neg (Nat.succ_ne_zero _)]
    split
    · next zero => rw [zero, Nat.add_sub_cancel]
    · congr 1
      omega

theorem accepted_le (env : Env) (n k : Nat) : accepted env n k ≤ k := by
  have bound := countP_le_length (p := fun i => (env.answers (n + i)).isNone) (l := List.range k)
  rwa [length_range] at bound

theorem accepted_last (some_ : 0 < k) (last : env.answers (n + k - 1) = none) : 0 < accepted env n k := by
  refine countP_pos_iff.mpr ⟨k - 1, mem_range.mpr (by omega), ?_⟩
  rw [← Nat.add_sub_assoc some_, last, isNone_none]

theorem accepted_all (some_ : 0 < k) (all : k ≤ accepted env n k) : env.answers (n + k - 1) = none := by
  have full : accepted env n k = (List.range k).length := by
    rw [length_range]
    exact Nat.le_antisymm (accepted_le env n k) all
  have last := countP_eq_length.mp full (k - 1) (mem_range.mpr (by omega))
  rwa [← Nat.add_sub_assoc some_, isNone_iff_eq_none] at last

/-- Where the joining of an SFT ends: a call that connects was handed over, and one that was handed over connects
    exactly when `settles`. -/
structure Ends (cc : Ccall) (joined : Joined) (settles : Prop) : Prop where
  away : joined.err ≠ none → joined.cc.state ≠ .connsent
  out : ∃ extra, joined.cc.out = cc.out ++ extra ∧ (joined.err = none → none ∈ confConnAnswers extra) ∧
    ((none ∈ confConnAnswers extra → joined.err = none) ↔ settles)

theorem Ends.after (tried : Tried cc mid answers) (refused : none ∉ answers) (ends : Ends mid joined settles) :
    Ends cc joined settles := by
  obtain ⟨before, out, rfl⟩ := tried.out
  obtain ⟨extra, out', connects, iff⟩ := ends.out
  have added : none ∈ confConnAnswers (before ++ extra) ↔ none ∈ confConnAnswers extra := by
    rw [confConnAnswers, filterMap_append, mem_append]
    exact ⟨fun either => either.resolve_left refused, .inr⟩
  refine ⟨ends.away, before ++ extra, by rw [out', out, append_assoc], ?_, ?_⟩
  · rwa [added]
  · rwa [added]

theorem Tried.ends {derefJe : Bool} (waiting : cc.state ≠ .connsent) (tried : Tried cc mid answers)
    (handed : err = none → none ∈ answers) (iff : (none ∈ answers → err = none) ↔ settles) :
    Ends cc ⟨mid, err, derefJe⟩ settles := by
  obtain ⟨extra, out, rfl⟩ := tried.out
  refine ⟨fun _ => ?_, extra, out, handed, iff⟩
  rw [tried.same]
  exact waiting

theorem confConnAnswers_nil (other : ∀ o ∈ extra, forward o = false) : confConnAnswers extra = [] := by
  refine filterMap_eq_nil_iff.mpr fun o member => ?_
  have aside := other o member
  unfold forward at aside
  split at aside
  · simp at aside
  · rfl
  · next not _ =>
    split
    · exact absurd rfl (not _ _ _ _ _ _)
    · rfl

theorem Aside.ends (aside : Aside mid joined.cc) (out : mid.out = cc.out)
    (err : joined.err ≠ none) (away : mid.state ≠ .connsent) : Ends cc joined True := by
  obtain ⟨extra, added, other⟩ := aside.out
  have silent := confConnAnswers_nil other
  refine ⟨fun _ => aside.state ▸ away, extra, out ▸ added, fun none_ => absurd none_ err, ?_⟩
  simp [silent]

theorem joinRetry_ends : Ends cc (joinRetry env cc je) True := by
  unfold joinRetry
  split
  · obtain ⟨state, closed, aside⟩ := endWithErr_closing
    refine Aside.ends aside rfl (by simp) ?_
    rcases closed with rfl | rfl <;> simp
  · have aside := reqCfgJoin_aside env cc true (cc.state = .waitconfigOutgoing)
    generalize reqCfgJoin env cc true (cc.state = .waitconfigOutgoing) = asked at aside
    have away : (if decide (cc.state = .waitconfigOutgoing) = true then CcallState.waitconfigOutgoing
        else .waitconfig) ≠ .connsent := by
      split <;> simp
    simp only
    split
    · next failed => exact Aside.ends aside rfl (ne_none_iff_isSome.mpr failed) away
    · exact Aside.ends aside rfl (by simp) away

/-- A round of at most three settles when its last CONFCONN is taken or none is. -/
theorem settles_iff (some_ : 0 < k) (few : k ≤ 3) :
    (0 < accepted env n k → env.answers (n + k - 1) = none) ↔ Settles env n k := by
  constructor
  · intro last
    rcases Nat.eq_zero_or_pos (accepted env n k) with zero | taken
    · exact .inl zero
    · exact .inr (.inr (last taken))
  · rintro (zero | three | last) taken
    · omega
    · exact accepted_all some_ (by omega)
    · exact last

theorem joinElsewhere_ends (env : Env) (je : JoinElem) (waiting : CcallState) (err : Option Errno)
    (servers : cc.cfg.sftservers ≠ []) (away : cc.state ≠ .connsent) :
    Ends cc (joinElsewhere env cc je waiting err)
      (¬ (waiting = .waitconfig ∧ !cc.cfg.federating) → Settles env cc.out.length (configured cc)) := by
  unfold joinElsewhere
  split
  · next retry =>
    obtain ⟨left, out⟩ := joinRetry_ends
    exact ⟨left, by simpa [retry] using out⟩
  · next elsewhere =>
    obtain ⟨⟨answers, tried, taken⟩, last⟩ := joinConfigured_spec env (cc.cfg.sftservers.take 3) cc err
    have some_ : 0 < configured cc := length_pos_iff.mpr (by simpa using servers)
    have few : configured cc ≤ 3 := length_take_le _ _
    rw [← configured] at taken
    rw [← configured, if_neg (Nat.ne_of_gt some_)] at last
    refine tried.ends away ?_ ?_
    · rw [last, taken]
      exact accepted_last some_
    · rw [last, taken, settles_iff some_ few]
      exact ⟨fun settles _ => settles, fun settles => settles elsewhere⟩

theorem joinListed_ends (je : JoinElem) (servers : cc.cfg.sftservers ≠ []) (away : cc.state ≠ .connsent) :
    let r := joinListed env cc.sftl cc 0 none
    Ends cc (if r.2.1 > 0 then ⟨r.1, r.2.2, true⟩ else joinElsewhere env r.1 je .waitconfig r.2.2)
      (Settles env cc.out.length (listed cc) ∧
        (cc.cfg.federating = true ∧ accepted env cc.out.length (listed cc) = 0 →
          Settles env (cc.out.length + listed cc) (configured cc))) := by
  obtain ⟨⟨answers, tried, taken⟩, count, last, full⟩ := joinListed_spec env cc.sftl cc 0 none (by decide)
  have length : (cc.sftl.filter (canConnectSft cc)).length = listed cc := rfl
  simp only [length, Nat.zero_add] at taken count last full
  generalize joinListed env cc.sftl cc 0 none = r at tried count last full
  obtain ⟨mid, connected, err⟩ := r
  simp only at tried count last full ⊢
  rcases Nat.eq_zero_or_pos (accepted env cc.out.length (listed cc)) with zero | some_
  · obtain ⟨length, -⟩ := last (by omega)
    have same := tried.same
    have cfg : mid.cfg = cc.cfg := by rw [same]
    have state : mid.state = cc.state := by rw [same]
    have servers' : mid.cfg.sftservers ≠ [] := cfg ▸ servers
    have ends := joinElsewhere_ends env je .waitconfig err servers' (state ▸ away)
    rw [length, cfg, configured, cfg, ← configured] at ends
    rw [if_neg (by omega)]
    refine Ends.after tried (by rw [taken]; omega) ?_
    have settles : Settles env cc.out.length (listed cc) := .inl zero
    simpa [zero, settles] using ends
  · rw [if_pos (by omega)]
    refine tried.ends away (fun _ => taken.mpr some_) ?_
    have settled : err = none ↔ Settles env cc.out.length (listed cc) := by
      by_cases few : accepted env cc.out.length (listed cc) < 3
      · obtain ⟨-, last⟩ := last few
        rw [if_neg (by have := accepted_le env cc.out.length (listed cc); omega)] at last
        rw [last]
        refine ⟨fun none_ => .inr (.inr none_), ?_⟩
        rintro (zero | three | none_)
        · omega
        · omega
        · exact none_
      · exact iff_of_true (full (by omega)) (.inr (.inl (by omega)))
    rw [settled, taken]
    refine ⟨fun settles => ⟨settles some_, fun zero => ?_⟩, fun settles _ => settles.1⟩
    exact absurd zero.2 (Nat.ne_of_gt some_)

theorem joinSft_ends (env : Env) (cc : Ccall) (je : JoinElem) (waiting : Waiting cc)
    (servers : cc.cfg.sftservers ≠ []) : Ends cc (joinSft env cc je) (SettlesRounds env cc) := by
  have away : cc.state ≠ .connsent := by
    rcases waiting with known | known <;> rw [known] <;> simp
  have nonempty : ¬ cc.cfg.sftservers.isEmpty = true := by simpa using servers
  unfold joinSft SettlesRounds
  rw [if_neg nonempty]
  rcases waiting with known | known
  · simp only [known, ne_eq, not_true_eq_false, reduceCtorEq, not_false_eq_true, and_true, if_false, true_and]
    by_cases empty : cc.sftl = []
    · have ends := joinElsewhere_ends env je .waitconfig none servers away
      rw [if_neg (by simpa using empty), if_pos empty]
      split
      · next url primary =>
        by_cases can : canConnectSft cc url = true
        · obtain ⟨answer, -, tried⟩ := sendConfConn_tried
          rw [if_pos can]
          refine tried.ends away ?_ ?_
          · rw [answer, mem_singleton]
            exact Eq.symm
          · rw [answer, mem_singleton]
            exact iff_of_true Eq.symm (fun elsewhere => absurd ⟨url, primary, can⟩ elsewhere.2)
        · simpa [primary, can] using ends
      · next primary => simpa [primary] using ends
    · rw [if_pos (by simpa using empty), if_neg empty]
      exact joinListed_ends je servers away
  · simp only [known, ne_eq, not_true_eq_false, reduceCtorEq, not_false_eq_true, and_false, false_and, if_false,
      if_true]
    have ends := joinElsewhere_ends env je .waitconfigOutgoing none servers away
    split
    · simpa using ends
    · simpa using ends

theorem configUpdateHandler_settles (updated : configUpdateHandler env cc je = some cc') :
    cc'.state = (if (joinSft env cc je).err = none then .connsent else (joinSft env cc je).cc.state) ∧
      ∃ extra, cc'.out = (joinSft env cc je).cc.out ++ extra ∧ confConnAnswers extra = [] := by
  unfold configUpdateHandler at updated
  generalize joinSft env cc je = joined at updated
  obtain ⟨mid, settled, rfl⟩ := map_eq_some_iff.mp updated
  have same : ∀ {p : Prop} [Decidable p], (if p then { mid with je := none } else mid).state = mid.state ∧
      (if p then { mid with je := none } else mid).out = mid.out := by
    intro p _
    split <;> exact ⟨rfl, rfl⟩
  rw [same.1, same.2]
  simp only [isNone_iff_eq_none] at settled
  split at settled
  · next none_ =>
    have aside := (setState_aside joined.cc .connsent).trans (stopOthersRinging_still settled).beside.aside
    obtain ⟨extra, out, other⟩ := aside.out
    exact ⟨(if_pos none_).symm ▸ aside.state, extra, out, confConnAnswers_nil other⟩
  · next some_ =>
    obtain rfl := some.inj settled
    exact ⟨(if_neg some_).symm, [], by simp, rfl⟩

theorem handed_iff (out : cc'.out = cc.out ++ extra ++ more)
    (silent : confConnAnswers more = []) : Handed cc cc' ↔ none ∈ confConnAnswers extra := by
  have silent' := silent
  rw [confConnAnswers] at silent'
  rw [Handed, out, append_assoc, drop_left, confConnAnswers, filterMap_append, silent',
    append_nil, confConnAnswers]

theorem connects_iff_of_ends
    (waiting : Waiting cc) (servers : cfg.sftservers ≠ []) (ends : Ends { cc with cfg := cfg } joined settles)
    (state : cc'.state = if joined.err = none then .connsent else joined.cc.state)
    (out : cc'.out = joined.cc.out ++ more) (silent : confConnAnswers more = []) : Connects cfg cc cc' ↔ settles := by
  obtain ⟨extra, added, handed, iff⟩ := ends.out
  rw [added] at out
  rw [← iff, ← handed_iff out silent]
  rw [← handed_iff out silent] at handed
  have connected : cc'.state = .connsent ↔ joined.err = none := by
    rw [state]
    split
    · next none_ => exact iff_of_true rfl none_
    · next some_ => exact iff_of_false (ends.away some_) some_
  constructor
  · exact fun connects taken => connected.mp (connects.connected taken)
  · intro settled
    refine ⟨fun sent _ => ⟨waiting, handed (connected.mp sent)⟩, fun taken => connected.mpr (settled taken),
      ?_, ?_⟩
    · intro idle
      rcases waiting with known | known <;> simp [known] at idle
    · exact fun empty => absurd empty servers

theorem config_connects (pending : cc.je.isSome) (updated : step env (.config cfg) cc = some cc') :
    Connects cfg cc cc' ↔ Welcome env cfg cc := by
  obtain ⟨je, asked⟩ := isSome_iff_exists.mp pending
  have handled : configUpdateHandler env { cc with cfg := cfg } je = some cc' := by
    simpa only [step, asked] using updated
  obtain ⟨state, extra, out, silent⟩ := configUpdateHandler_settles handled
  by_cases empty : cfg.sftservers = []
  · -- The call ends with ENOTSUP, and is then connected all the same.
    have none_ : (joinSft env { cc with cfg := cfg } je).err = none := by simp [joinSft, empty]
    rw [if_pos none_] at state
    refine iff_of_false (fun connects => ?_) (fun welcome => welcome.servers empty)
    simpa [state] using connects.empty empty
  · by_cases waiting : Waiting cc
    · have ends := joinSft_ends env { cc with cfg := cfg } je waiting empty
      rw [connects_iff_of_ends waiting empty ends state out silent]
      refine ⟨fun settles => ⟨empty, .inr ⟨waiting, settles⟩⟩, fun welcome => ?_⟩
      rcases welcome.rounds with known | ⟨-, settles⟩
      · rcases waiting with other | other <;> simp [known] at other
      · exact settles
    · -- A call that does not wait is connected without a CONFCONN.
      have apart : cc.state ≠ .waitconfig ∧ cc.state ≠ .waitconfigOutgoing := not_or.mp waiting
      have untouched : joinSft env { cc with cfg := cfg } je = ⟨{ cc with cfg := cfg }, none, true⟩ := by
        simp [joinSft, empty, apart]
      rw [untouched, if_pos rfl] at state
      constructor
      · intro connects
        by_contra unwelcome
        have moved : cc.state ≠ .connsent := fun known => unwelcome ⟨empty, .inl known⟩
        exact waiting (connects.waited state moved).1
      · intro welcome
        have known : cc.state = .connsent := welcome.rounds.resolve_right (fun both => waiting both.1)
        exact ⟨fun _ moved => absurd known moved, fun _ => state, by simp [known], fun none_ => absurd none_ empty⟩

end

/-- In every run, a configuration update that a call asked for does what it is for exactly when it brings an SFT and
    finds the call in CONNSENT, or waiting and with rounds that do not end with a refusal after one or two CONFCONNs
    that were taken. -/
theorem config_connects_iff (env : Env) (start cc cc' : Ccall) (events : List CcallEvent) (cfg : CallConfig)
    (reached : run (step env) start events = some cc) (pending : cc.je.isSome)
    (updated : run (step env) start (events ++ [.config cfg]) = some cc') :
    Connects cfg cc cc' ↔ Welcome env cfg cc := by
  obtain ⟨mid, reached', ran⟩ := run_append.mp updated
  obtain rfl : cc = mid := some.inj (reached.symm.trans reached')
  obtain ⟨next, stepped, done⟩ := run_cons.mp ran
  obtain rfl : next = cc' := some.inj done
  exact config_connects pending stepped

instance (cc cc' : Ccall) : Decidable (Handed cc cc') := inferInstanceAs (Decidable (_ ∈ _))

/-- Alice's attempt times out; the configuration that comes then connects the call, though no CONFCONN is sent. -/
theorem config_connects_late : let events := [.start false, .timer .connect]
    let cfg : CallConfig := ⟨[plainSft], [plainSft], false⟩
    ∃ cc cc', run (step plainEnv) (aliceCall false) events = some cc ∧ cc.je.isSome ∧
      run (step plainEnv) (aliceCall false) (events ++ [.config cfg]) = some cc' ∧
      cc.state = .idle ∧ cc'.state = .connsent ∧ ¬ Handed cc cc' ∧ ¬ Connects cfg cc cc' := by
  intro events cfg
  simp only [exists_and_left]
  refine exists_shown (fun cc => cc.je.isSome ∧ ∃ cc', run (step plainEnv) (aliceCall false)
    (events ++ [.config cfg]) = some cc' ∧ cc.state = .idle ∧ cc'.state = .connsent ∧ ¬ Handed cc cc')
    (by decide +kernel) ?_
  rintro cc - ⟨pending, cc', updated, idle, connsent, unsent⟩
  exact ⟨pending, cc', updated, idle, connsent, unsent,
    fun connects => unsent (connects.waited connsent (by simp [idle])).2⟩

/-- The first of Alice's two SFTs refuses and the second takes the CONFCONN. -/
theorem config_connects_second : let env := { plainEnv with answers := fun n => if n = 1 then some .ENOSYS else none }
    let cfg : CallConfig := ⟨[plainSft, plainSft], [plainSft], false⟩
    ∃ cc cc', run (step env) (aliceCall false) [.start false] = some cc ∧
      run (step env) (aliceCall false) [.start false, .config cfg] = some cc' ∧
      confConnAnswers cc'.out = [some .ENOSYS, none] ∧ Connects cfg cc cc' := by
  intro env cfg
  simp only [exists_and_left]
  refine exists_shown (fun cc => (cc.je.isSome ∧ cc.state = .waitconfigOutgoing ∧ cc.out.length = 1) ∧
    ∃ cc', run (step env) (aliceCall false) ([.start false] ++ [.config cfg]) = some cc' ∧
      confConnAnswers cc'.out = [some .ENOSYS, none]) (by decide +kernel) ?_
  rintro cc reached ⟨⟨pending, waiting, length⟩, cc', updated, answers⟩
  have rounds : SettlesRounds env { cc with cfg := cfg } := by
    rw [SettlesRounds, if_pos waiting]
    simp only [length]
    exact .inr (.inr rfl)
  have welcome : Welcome env cfg cc := ⟨by simp [cfg], .inr ⟨.inr waiting, rounds⟩⟩
  exact ⟨cc', updated, answers, (config_connects_iff env _ cc cc' _ cfg reached pending updated).mpr welcome⟩

end Avs.Ccall
