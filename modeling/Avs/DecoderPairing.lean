import Avs.Decoders

/-!
The decoders and the approved clients. An update of the approved clients gives a decoder only to a user that
it names for the first time, and takes none away, so the decoders stay right as long as no user in the call
loses or regains its approval and no user that has left is named (`SeFits`).
-/
namespace Avs.Userlist
open List Option Runs

/-- The approved clients include the users of the call with SSRCs that were approved and no others whose real ids are
    known, and none that left. -/
structure SeFits (names : Naming) (list : Userlist) (clientl : List Client) : Prop where
  keeps : ∀ u ∈ list.users, u.useridReal.isSome → u.incallNow → hasStream u →
    u.seApproved = clientl.any (fun cli => clientId cli = realId u)
  present : ∀ u ∈ list.users, u.useridReal = none → hasStream u → ¬ u.incallNow →
    ∀ cli ∈ clientl, names.hashed (idsOf cli) ≠ hashId u

structure Retained (u v : UserInfo) : Prop where
  addr : v.addr = u.addr
  hash : hashId v = hashId u
  now : v.incallNow = u.incallNow
  streams : streams v = streams u

/-- What the loop over the approved clients made of a user, after the clients in `done`: one with real ids keeps them,
    one without has stayed as it was or was named and given a decoder, and the others are new. -/
inductive Admission (names : Naming) (start : Userlist) (done : List Client) (calls : List UserCall) (v : UserInfo) :
    Prop
  | known (u : UserInfo) (member : u ∈ start.users) (kept : Retained u v) (named : u.useridReal.isSome)
      (ids : v.useridReal = u.useridReal ∧ v.clientidReal = u.clientidReal)
      (silent : ∀ call ∈ calls, concerns v.addr call = false)
  | unnamed (member : v ∈ start.users) (unnamed : v.useridReal = none)
      (silent : ∀ call ∈ calls, concerns v.addr call = false)
  | admitted (u : UserInfo) (member : u ∈ start.users) (kept : Retained u v) (unnamed : u.useridReal = none)
      (named : v.useridReal.isSome) (approved : v.seApproved = true) (cli : Client) (heard : cli ∈ done)
      (hashed : names.hashed (idsOf cli) = hashId u)
      (decoded : ∀ d, run (decode v.addr) d calls =
        if hasStream u then (if d = none then some (some (streams u)) else none) else some d)
  | added (fresh : start.nextAddr ≤ v.addr) (named : v.useridReal.isSome) (absent : v.incallNow = false)
      (bare : hasStream v = false) (new : ∀ u ∈ start.users, hashId u ≠ hashId v)
      (silent : ∀ call ∈ calls, concerns v.addr call = false)

/-- What the loop over the approved clients has done to the users and their decoders once `done` of them are taken. -/
structure Admitting (names : Naming) (start : Userlist) (done : List Client) (s : SeUpdate) : Prop where
  next : start.nextAddr ≤ s.list.nextAddr
  unforced : ∀ v ∈ s.list.users, v.forceDecoder = false
  users : ∀ v ∈ s.list.users, Admission names start done s.calls v
  silent : ∀ a, (∀ v ∈ s.list.users, v.addr ≠ a) → ∀ call ∈ s.calls, concerns a call = false

section
variable {cli : Client} {epoch : UInt32} {prev : Option UserRef} {s s' : SeUpdate} {v user w u : UserInfo}
  {calls kgCalls loop : List UserCall} {names : Naming} {start list : Userlist} {done clientl : List Client}
  {view : View}

theorem admission_skip (more : List UserCall) (admission : Admission names start done calls v)
    (others : ∀ call ∈ more, concerns v.addr call = false) :
    Admission names start (done ++ [cli]) (calls ++ more) v := by
  have both : (∀ call ∈ calls, concerns v.addr call = false) →
      ∀ call ∈ calls ++ more, concerns v.addr call = false := by
    intro silent call member
    exact (mem_append.mp member).elim (silent call) (others call)
  cases admission with
  | known u member kept named ids silent => exact .known u member kept named ids (both silent)
  | unnamed member unnamed silent => exact .unnamed member unnamed (both silent)
  | admitted u member kept unnamed named approved first heard hashed decoded =>
    refine .admitted u member kept unnamed named approved first (mem_append_left _ heard) hashed (fun d => ?_)
    rw [run_then_others others, decoded]
  | added fresh named absent bare new silent => exact .added fresh named absent bare new (both silent)

theorem admission_silent (admission : Admission names start done calls v) :
    Admission names start (done ++ [cli]) calls v := by
  simpa using admission_skip [] admission (by simp)

theorem admission_approve (admission : Admission names start done calls v) (named : Named names v) :
    Admission names start (done ++ [cli]) calls (approve epoch cli (hashUserinfo names.hash names.secret v)) := by
  have rehashed : hashId (approve epoch cli (hashUserinfo names.hash names.secret v)) = hashId v :=
    hashId_rehashed named
  have keeps : ∀ {u}, Retained u v → Retained u (approve epoch cli (hashUserinfo names.hash names.secret v)) :=
    fun kept => ⟨kept.addr, rehashed.trans kept.hash, kept.now, kept.streams⟩
  cases admission with
  | known u member kept real ids silent => exact .known u member (keeps kept) real ids silent
  | unnamed member unnamed silent => exact absurd named.real (by simp [unnamed])
  | admitted u member kept unnamed real approved first heard hashed decoded =>
    exact .admitted u member (keeps kept) unnamed real rfl first (mem_append_left _ heard) hashed decoded
  | added fresh real absent bare new silent =>
    exact .added fresh real absent bare (fun u member => rehashed ▸ new u member) silent

theorem admission_unnamed (admission : Admission names start done calls v) (unnamed : v.useridReal = none) :
    v ∈ start.users ∧ ∀ call ∈ calls, concerns v.addr call = false := by
  cases admission with
  | known u member kept named ids silent => simp [← ids.1, unnamed] at named
  | unnamed member unnamed silent => exact ⟨member, silent⟩
  | admitted u member kept before named approved first heard hashed decoded => simp [unnamed] at named
  | added fresh named absent bare new silent => simp [unnamed] at named

/-- A user that is named is given a decoder where it has SSRCs; the other calls are about the key generator. -/
theorem admitUser_calls :
    ∃ kgCalls, (∀ a, ∀ call ∈ kgCalls, concerns a call = false) ∧ (admitUser epoch prev s cli user).calls =
      s.calls ++ ((if hasStream user then [.add (nameUser epoch cli user)] else []) ++ kgCalls) := by
  refine ⟨_, ?_, append_assoc _ _ _⟩
  intro a call member
  split at member
  · exact trackKeygeneratorChange_other call member
  · simp at member

theorem admit_concerns {a : Nat} (quiet : ∀ call ∈ kgCalls, concerns a call = false) (away : user.addr ≠ a) :
    ∀ call ∈ (if hasStream user then [UserCall.add (nameUser epoch cli user)] else []) ++ kgCalls,
      concerns a call = false := by
  intro call called
  rcases mem_append.mp called with added | told
  · split at added
    · rw [mem_singleton.mp added]
      exact decide_eq_false away
    · simp at added
  · exact quiet call told

theorem admit_decoded (silent : ∀ call ∈ calls, concerns user.addr call = false)
    (quiet : ∀ call ∈ kgCalls, concerns user.addr call = false) (d : Option (UInt32 × UInt32)) :
    run (decode user.addr) d
        (calls ++ ((if hasStream user then [.add (nameUser epoch cli user)] else []) ++ kgCalls)) =
      if hasStream user then (if d = none then some (some (streams user)) else none) else some d := by
  rw [run_bind, run_others silent, bind_some, run_then_others quiet]
  split
  · simp [run, decode, nameUser, streams]
  · rfl

section
variable (approving : Approving names start done s) (admitting : Admitting names start done s)
include approving admitting

theorem admitted_admitting (member : user ∈ s.list.users) (unnamed : Unnamed user)
    (hashed : hashId user = names.hashed (idsOf cli)) :
    Admitting names start (done ++ [cli]) (admitUser epoch prev s cli user) := by
  obtain ⟨kgCalls, quiet, calls⟩ := admitUser_calls
  have image : ∀ w ∈ (admitUser epoch prev s cli user).list.users, (w ∈ s.list.users ∧ w.addr ≠ user.addr) ∨
      w = approve epoch cli { nameUser epoch cli user with needsKey := true, forceDecoder := false } :=
    fun w => admitUser_users (fun u old same => addr_unique approving.valid old member same)
  refine ⟨?_, ?_, ?_, ?_⟩
  · rw [admitUser_list]
    exact admitting.next
  · intro w new
    rcases image w new with ⟨old, -⟩ | rfl
    · exact admitting.unforced w old
    · rfl
  · intro w new
    rw [calls]
    rcases image w new with ⟨old, away⟩ | rfl
    · exact admission_skip _ (admitting.users w old) (admit_concerns (quiet w.addr) away.symm)
    · obtain ⟨began, silent⟩ := admission_unnamed (admitting.users user member) unnamed.1
      exact .admitted user began ⟨rfl, rfl, rfl, rfl⟩ unnamed.1 rfl rfl cli (by simp) hashed.symm
        (admit_decoded silent (quiet _))
  · intro a absent call called
    have gone : ∀ v ∈ s.list.users, v.addr ≠ a := by
      intro v old
      rw [admitUser_list] at absent
      have here := absent _ (mem_map_of_mem old)
      split at here <;> exact here
    rw [calls] at called
    rcases mem_append.mp called with before | after
    · exact admitting.silent a gone call before
    · exact admit_concerns (quiet a) (gone user member) call after

theorem taken_admitting (taken : Taken names epoch prev s cli s') : Admitting names start (done ++ [cli]) s' := by
  cases taken with
  | own mine => exact { admitting with users := fun v member => admission_silent (admitting.users v member) }
  | known user member named same =>
    refine ⟨admitting.next, ?_, ?_, ?_⟩
    · intro w new
      obtain ⟨v, old, rfl⟩ := mem_map.mp new
      split <;> exact admitting.unforced v old
    · intro w new
      obtain ⟨v, old, rfl⟩ := mem_map.mp new
      split
      · next here =>
        obtain rfl := addr_unique approving.valid old member here
        exact admission_approve (admitting.users v old) named
      · exact admission_silent (admitting.users v old)
    · intro a absent
      refine admitting.silent a (fun v old => ?_)
      have here := absent _ (mem_map_of_mem old)
      split at here <;> exact here
  | admitted user member unnamed hashed other missing =>
    exact admitted_admitting approving admitting member unnamed hashed
  | added new notSelf other missing =>
    refine ⟨Nat.le_succ_of_le admitting.next, ?_, ?_, ?_⟩
    · intro w member
      rcases mem_append.mp member with old | added
      · exact admitting.unforced w old
      · rw [mem_singleton.mp added]
        rfl
    · intro w member
      rcases mem_append.mp member with old | added
      · exact admission_silent (admitting.users w old)
      · rw [mem_singleton.mp added]
        refine .added admitting.next rfl rfl rfl (fun u old same => ?_) ?_
        · obtain ⟨v, at_v, -, hashed⟩ := approving.stays u old
          exact new v at_v (hashed.trans same)
        · exact admitting.silent _ (fun v old => Nat.ne_of_lt (approving.valid.below v old))
    · intro a absent
      exact admitting.silent a (fun v old => absent v (mem_append_left _ old))

end

theorem beginSe_admitting (unforced : ∀ u ∈ list.users, u.forceDecoder = false) :
    Admitting names (beginSe list) []
      { list := beginSe list, changed := false, removed := false, sync := false, calls := [] } where
  next := Nat.le_refl _
  unforced := by
    intro v member
    obtain ⟨u, old, rfl⟩ := mem_map.mp member
    exact unforced u old
  users := by
    intro v member
    cases real : v.useridReal with
    | none => exact .unnamed member real (by simp)
    | some userid => exact .known v member ⟨rfl, rfl, rfl, rfl⟩ (by simp [real]) ⟨rfl, rfl⟩ (by simp)
  silent := fun _ _ _ member => absurd member not_mem_nil

theorem takeClients_admitting (valid : WellFormed names list) (unforced : ∀ u ∈ list.users, u.forceDecoder = false)
    (covered : ∀ cli ∈ clientl, idsOf cli ∈ names.ids) (epoch : UInt32) :
    Approving names (beginSe list) clientl (takeClients names.hash (beginSe list) clientl epoch names.secret) ∧
      Admitting names (beginSe list) clientl (takeClients names.hash (beginSe list) clientl epoch names.secret) := by
  refine foldl_taken
    (fun done s => Approving names (beginSe list) done s ∧ Admitting names (beginSe list) done s)
    (fun done cli rest s whole both => ?_) ⟨beginSe_approving valid, beginSe_admitting unforced⟩
  have known := covered cli (by simp [whole])
  exact ⟨takeClient_approving known both.1, taken_admitting both.1 both.2 (takeClient_taken known both.1.valid)⟩

theorem endSe_retained : Retained u (endSe u) := by
  unfold endSe
  split
  · exact ⟨rfl, rfl, rfl, rfl⟩
  · exact ⟨rfl, rfl, rfl, rfl⟩

theorem endSe_unforced : (endSe u).forceDecoder = u.forceDecoder := by
  unfold endSe
  split <;> rfl

/-- The users of a list that a loop over approved clients went through, and what the SFT lists of them. -/
theorem admission_listed
    (fitted : Fitted names view calls) (admission : Admission names (beginSe view.list) clientl loop v)
    (notSelf : hashId v ≠ hashId view.list.self) :
    v.incallNow = (streamsIn view.last (hashId v)).isSome ∧
      ∀ t, streamsIn view.last (hashId v) = some t → streams v = t := by
  have retained : ∀ u ∈ (beginSe view.list).users, Retained u v →
      v.incallNow = (streamsIn view.last (hashId v)).isSome ∧
        ∀ t, streamsIn view.last (hashId v) = some t → streams v = t := by
    intro u member kept
    obtain ⟨w, old, rfl⟩ := mem_map.mp member
    rw [kept.now, kept.hash, kept.streams]
    exact ⟨fitted.now w old, fitted.streams w old⟩
  cases admission with
  | known u member kept named ids silent => exact retained u member kept
  | unnamed member unnamed silent => exact retained v member ⟨rfl, rfl, rfl, rfl⟩
  | admitted u member kept unnamed named approved first heard hashed decoded => exact retained u member kept
  | added fresh named absent bare new silent =>
    have unlisted : streamsIn view.last (hashId v) = none := by
      rw [streamsIn_none]
      intro p member same
      rcases fitted.known p member with mine | ⟨u, old, hashed⟩
      · exact notSelf (same.symm.trans mine)
      · exact new (clearApproval u) (mem_map_of_mem old) (hashed.trans same)
    simp [unlisted, absent]

theorem clearApproval_addr : (clearApproval u).addr = u.addr := rfl

@[simp] theorem clearApproval_now : (clearApproval u).incallNow = u.incallNow := rfl

@[simp] theorem clearApproval_hasStream : hasStream (clearApproval u) = hasStream u := rfl

theorem unapproved_of_unnamed (valid : WellFormed names list)
    (member : w ∈ list.users) (unnamed : w.useridReal = none) : w.seApproved = false := by
  exact ((valid.named w member).resolve_left (fun named => absurd named.real (by simp [unnamed]))).2

theorem admission_decoder (fitted : Fitted names view calls) (fits : SeFits names view.list clientl)
    (admission : Admission names (beginSe view.list) clientl loop v)
    (approved : v.useridReal.isSome → (v.seApproved = true ↔ ∃ cli ∈ clientl, clientId cli = realId v))
    (notSelf : hashId v ≠ hashId view.list.self) : decoder v.addr (calls ++ loop) = some (due view.last v) := by
  obtain ⟨now, listed⟩ := admission_listed fitted admission notSelf
  have dueV := due_eq now listed
  have dueOld : ∀ w ∈ view.list.users, due view.last w =
      if w.seApproved && w.incallNow && hasStream w then some (streams w) else none :=
    fun w old => due_eq (fitted.now w old) (fitted.streams w old)
  rw [decoder, run_bind, ← decoder]
  cases admission with
  | known u member kept named ids silent =>
    obtain ⟨w, old, rfl⟩ := mem_map.mp member
    have addr : v.addr = w.addr := kept.addr
    have stream : hasStream v = hasStream w := by rw [hasStream_streams, kept.streams]; rfl
    have same : due view.last v = due view.last w := by
      rw [dueV, dueOld w old, kept.now, kept.streams, stream]
      by_cases live : w.incallNow = true ∧ hasStream w = true
      · have agrees : v.seApproved = w.seApproved := by
          have real : realId v = realId w := by rw [realId, ids.1, ids.2]; rfl
          rw [Bool.eq_iff_iff, approved (ids.1 ▸ named), fits.keeps w old named live.1 live.2, List.any_eq_true, real]
          simp only [decide_eq_true_eq]
        rw [agrees]
        rfl
      · have dead : (w.incallNow && hasStream w) = false := by
          rw [Bool.eq_false_iff]
          exact fun both => live (Bool.and_eq_true_iff.mp both)
        simp [Bool.and_assoc, dead]
    rw [addr, fitted.decoders w old, bind_some, ← addr, run_others silent, same]
  | unnamed member unnamed silent =>
    obtain ⟨w, old, rfl⟩ := mem_map.mp member
    have before : decoder (clearApproval w).addr calls = some none := by
      rw [clearApproval_addr, fitted.decoders w old, due, unapproved_of_unnamed fitted.valid old unnamed]
      rfl
    rw [before, bind_some, run_others silent]
    rfl
  | admitted u member kept unnamed named approved first heard hashed decoded =>
    obtain ⟨w, old, rfl⟩ := mem_map.mp member
    have addr : v.addr = w.addr := kept.addr
    have stream : hasStream v = hasStream w := by rw [hasStream_streams, kept.streams]; rfl
    have before : decoder v.addr calls = some none := by
      rw [addr, fitted.decoders w old, due, unapproved_of_unnamed fitted.valid old unnamed]
      rfl
    have present : hasStream w = true → w.incallNow = true := by
      intro live
      by_contra gone
      exact fits.present w old unnamed live gone first heard hashed
    rw [before, bind_some, decoded, dueV, approved, stream, kept.now, kept.streams]
    cases live : hasStream w with
    | true => simp [present live, live]
    | false => simp [live]
  | added fresh named absent bare new silent =>
    have before : decoder v.addr calls = some none := by
      refine fitted.others v.addr (fun u old same => ?_)
      have below := fitted.valid.below u old
      have above : view.list.nextAddr ≤ v.addr := fresh
      omega
    have unlisted : streamsIn view.last (hashId v) = none := by
      rw [absent] at now
      exact not_isSome_iff_eq_none.mp (by simp [← now])
    rw [before, bind_some, run_others silent, due, unlisted]
    simp

theorem updateFromSelist_fitted (covered : ∀ cli ∈ clientl, idsOf cli ∈ names.ids)
    (fitted : Fitted names view calls) (fits : SeFits names view.list clientl) :
    Fitted names ⟨(updateFromSelist names.hash view.list clientl epoch names.secret).list, view.last⟩
      (calls ++ (updateFromSelist names.hash view.list clientl epoch names.secret).calls) := by
  obtain ⟨approving, admitting⟩ := takeClients_admitting fitted.valid fitted.unforced covered epoch
  unfold updateFromSelist
  generalize takeClients names.hash (beginSe view.list) clientl epoch names.secret = s at approving admitting
  have selfHash : hashId s.list.self = hashId view.list.self := approving.self.hash
  have notSelf : ∀ v ∈ s.list.users, hashId v ≠ hashId view.list.self :=
    fun v member => selfHash ▸ approving.valid.notSelf v member
  have quiet : ∀ a, ∀ call ∈ (if s.sync then [UserCall.sync] else []), concerns a call = false := by
    intro a call member
    split at member
    · rw [mem_singleton.mp member]
      rfl
    · simp at member
  constructor
  case valid => exact wellFormed_same approving.valid rfl (Same.refl _) rfl endSe_same
  case unforced =>
    intro w member
    obtain ⟨v, at_, rfl⟩ := mem_map.mp member
    rw [endSe_unforced]
    exact admitting.unforced v at_
  case now =>
    intro w member
    obtain ⟨v, at_, rfl⟩ := mem_map.mp member
    rw [endSe_retained.now, endSe_retained.hash]
    exact (admission_listed fitted (admitting.users v at_) (notSelf v at_)).1
  case streams =>
    intro w member
    obtain ⟨v, at_, rfl⟩ := mem_map.mp member
    rw [endSe_retained.hash, endSe_retained.streams]
    exact (admission_listed fitted (admitting.users v at_) (notSelf v at_)).2
  case known =>
    intro p member
    rcases fitted.known p member with mine | ⟨u, old, same⟩
    · exact .inl (mine.trans selfHash.symm)
    · obtain ⟨v, at_, -, hashed⟩ := approving.stays (clearApproval u) (mem_map_of_mem old)
      exact .inr ⟨endSe v, mem_map_of_mem at_, ((endSe_same v).hash.trans hashed).trans same⟩
  case decoders =>
    intro w member
    obtain ⟨v, at_, rfl⟩ := mem_map.mp member
    have same : due view.last (endSe v) = due view.last v := by
      rw [due, due, (endSe_same v).approved, (endSe_same v).hash]
    rw [(endSe_same v).addr, same, ← append_assoc, decoder, run_then_others (quiet _), ← decoder]
    exact admission_decoder fitted fits (admitting.users v at_) (approving.approved v at_) (notSelf v at_)
  case others =>
    intro a absent
    have gone : ∀ v ∈ s.list.users, v.addr ≠ a :=
      fun v at_ => (endSe_same v).addr ▸ absent (endSe v) (mem_map_of_mem at_)
    have before : decoder a calls = some none := by
      refine fitted.others a (fun u old same => ?_)
      obtain ⟨v, at_, addr, -⟩ := approving.stays (clearApproval u) (mem_map_of_mem old)
      exact gone v at_ (addr.trans same)
    rw [← append_assoc, decoder, run_then_others (quiet a), run_bind, ← decoder, before, bind_some]
    exact run_others (admitting.silent a gone)

def callsOf (names : Naming) (view : View) : Update → List UserCall
  | .sft partlist selfChanged => (updateFromSftlist view.list partlist selfChanged).calls
  | .se clientl epoch => (updateFromSelist names.hash view.list clientl epoch names.secret).calls

def callsFrom (names : Naming) : View → List Update → List UserCall
  | _, [] => []
  | view, update :: rest => callsOf names view update ++ callsFrom names (step names view update) rest

def Fits (names : Naming) (view : View) : Update → Prop
  | .sft partlist _ => SftFits view.list partlist
  | .se clientl _ => SeFits names view.list clientl

def AllFit (names : Naming) : View → List Update → Prop
  | _, [] => True
  | view, update :: rest => Fits names view update ∧ AllFit names (step names view update) rest

theorem step_fitted {update : Update} (covered : Covered names update)
    (fitted : Fitted names view calls) (fits : Fits names view update) :
    Fitted names (step names view update) (calls ++ callsOf names view update) := by
  cases update with
  | sft partlist selfChanged => exact updateFromSftlist_fitted fitted fits
  | se clientl epoch => exact updateFromSelist_fitted covered fitted fits

theorem run_fitted {updates front : List Update} (ahead : front <+: updates)
    (covered : ∀ update ∈ updates, Covered names update) (fitted : Fitted names view calls)
    (fits : AllFit names view updates) :
    Fitted names (front.foldl (step names) view) (calls ++ callsFrom names view front) := by
  induction front generalizing updates view calls with
  | nil => simpa [callsFrom] using fitted
  | cons update front ih =>
    obtain ⟨rest, rfl, later⟩ := cons_prefix_iff.mp ahead
    rw [foldl_cons, callsFrom, ← append_assoc]
    exact ih later (fun other member => covered other (by simp [member]))
      (step_fitted (covered update (by simp)) fitted fits.1) fits.2

end

theorem start_fitted {names : Naming} {userid clientid : Bytes} (covered : (userid, clientid) ∈ names.ids) :
    Fitted names (start names userid clientid) [] where
  valid := start_valid covered
  unforced := fun _ member => absurd member not_mem_nil
  now := fun _ member => absurd member not_mem_nil
  streams := fun _ member => absurd member not_mem_nil
  known := fun _ member => absurd member not_mem_nil
  decoders := fun _ member => absurd member not_mem_nil
  others := fun _ _ => rfl

/-- In every run of updates that fit, and after each of them, the adds and removes of every user are paired, and the
    user has the decoder that is due. -/
theorem decoders_paired (names : Naming) (userid clientid : Bytes) (updates : List Update)
    (covers : Covers names userid clientid updates) (fits : AllFit names (start names userid clientid) updates)
    (front : List Update) (ahead : front <+: updates) (a : Nat) :
    decoder a (callsFrom names (start names userid clientid) front) =
      some (((viewAfter names userid clientid front).list.deref (.user a)).bind
        (due (viewAfter names userid clientid front).last)) := by
  have fitted := run_fitted ahead covers.2 (start_fitted covers.1) fits
  rw [nil_append, ← viewAfter] at fitted
  rcases eq_none_or_eq_some ((viewAfter names userid clientid front).list.deref (.user a)) with
    absent | ⟨u, found⟩
  · rw [absent]
    refine fitted.others a (fun u member same => ?_)
    have found := deref_user fitted.valid member
    rw [same, absent] at found
    simp at found
  · have member : u ∈ (viewAfter names userid clientid front).list.users := mem_of_find?_eq_some found
    have holds := List.find?_some found
    have addr : u.addr = a := of_decide_eq_true holds
    rw [found, bind_some, ← addr]
    exact fitted.decoders u member

/-- Bob is approved and joins; then the approved clients no longer include Bob, and Bob leaves the call: the decoder is
    still there. -/
theorem decoders_left :
    let updates := [.se [bobClient] 1, .sft bobThenAlice false, .se [] 2, .sft [spellPart "alice" "1" 20 21] false]
    let view := viewAfter spelling (ascii "alice") (ascii "1") updates
    Covers spelling (ascii "alice") (ascii "1") updates ∧
      decoder 1 (callsFrom spelling (start spelling (ascii "alice") (ascii "1")) updates) =
        some (some (10, 11)) ∧
      (view.list.deref (.user 1)).isSome ∧ (view.list.deref (.user 1)).bind (due view.last) = none := by
  decide +kernel

instance (list : Userlist) (partlist : List Part) : Decidable (SftFits list partlist) :=
  @decidable_of_iff _ (_ ∧ _) ⟨fun ⟨moves, leaves⟩ => ⟨moves, leaves⟩, fun fits => ⟨fits.moves, fits.leaves⟩⟩
    (@instDecidableAnd _ _ inferInstance inferInstance)

instance (names : Naming) (list : Userlist) (clientl : List Client) :
    Decidable (SeFits names list clientl) :=
  @decidable_of_iff _ (_ ∧ _) ⟨fun ⟨keeps, present⟩ => ⟨keeps, present⟩, fun fits => ⟨fits.keeps, fits.present⟩⟩
    (@instDecidableAnd _ _ inferInstance
      (@List.decidableBAll _ _ (fun _ => @instDecidableForall _ _ inferInstance inferInstance) _))

instance (names : Naming) (view : View) : DecidablePred (Fits names view)
  | .sft partlist _ => inferInstanceAs (Decidable (SftFits view.list partlist))
  | .se clientl _ => inferInstanceAs (Decidable (SeFits names view.list clientl))

instance decidableAllFit (names : Naming) :
    ∀ (view : View) (updates : List Update), Decidable (AllFit names view updates)
  | _, [] => isTrue trivial
  | view, update :: rest =>
    have := decidableAllFit names (step names view update) rest
    inferInstanceAs (Decidable (Fits names view update ∧ AllFit names (step names view update) rest))

/-- Bob is in the call before being approved, then moves, then leaves; after the move the decoder has the new SSRCs. -/
theorem decoders_paired_moved :
    let front := [.sft bobThenAlice false, .se [bobClient] 1, .sft [spellPart "bob" "1" 30 0] false]
    let updates := front ++ [.sft [spellPart "alice" "1" 20 21] false]
    let view := viewAfter spelling (ascii "alice") (ascii "1") front
    decoder 1 (callsFrom spelling (start spelling (ascii "alice") (ascii "1")) front) =
        some ((view.list.deref (.user 1)).bind (due view.last)) ∧
      (view.list.deref (.user 1)).bind (due view.last) = some (30, 0) ∧
      AllFit spelling (start spelling (ascii "alice") (ascii "1")) updates := by
  intro front updates view
  have fits : AllFit spelling (start spelling (ascii "alice") (ascii "1")) updates := by decide +kernel
  exact ⟨decoders_paired spelling _ _ updates (by decide +kernel) fits front (prefix_append _ _) 1,
    by decide +kernel, fits⟩

end Avs.Userlist
