import Avs.Election
import Avs.Incall

/-!
The decoders of the users. `decoder` is the one that is left of a user after some handler calls, and nothing
once an add or a remove did not fit. It should be the one that is `due`: for an approved user with an SSRC in
the list the SFT sent last (`Fitted`).
-/
namespace Avs.Userlist
open List Option Runs

def streams (u : UserInfo) : UInt32 × UInt32 := (u.ssrca, u.ssrcv)

/-- What a handler call makes of the decoder of the user at an address. -/
def decode (a : Nat) : UserCall → Option (UInt32 × UInt32) → Option (Option (UInt32 × UInt32))
  | .add u, d => if u.addr = a then (if d = none then some (some (streams u)) else none) else some d
  | .remove u _, d => if u.addr = a then (if d = some (streams u) then some none else none) else some d
  | .sync, d => some d
  | .kgChange _ _ _, d => some d

/-- The SSRCs of the decoder of the user at an address. -/
def decoder (a : Nat) (calls : List UserCall) : Option (Option (UInt32 × UInt32)) := run (decode a) none calls

/-- The SSRCs the last entry of a list gives to the hashed ids. -/
def streamsIn (partlist : List Part) (id : Option Bytes × Option Bytes) : Option (UInt32 × UInt32) :=
  (partlist.reverse.find? (fun p => partId p = id)).map (fun p => (p.ssrca, p.ssrcv))

/-- The decoder a user should have. -/
def due (partlist : List Part) (u : UserInfo) : Option (UInt32 × UInt32) :=
  if u.seApproved then (streamsIn partlist (hashId u)).filter (fun s => s.1 ≠ 0 || s.2 ≠ 0) else none

/-- The users of the call that a list of the SFT moves are approved and have a decoder, and the approved users that
    leave have one. -/
structure SftFits (list : Userlist) (partlist : List Part) : Prop where
  moves : ∀ u ∈ list.users, u.incallNow → ∀ p ∈ partlist, partId p = hashId u → (p.ssrca, p.ssrcv) ≠ streams u →
    u.seApproved ∧ hasStream u
  leaves : ∀ u ∈ list.users, u.incallNow → u.seApproved → (∀ p ∈ partlist, partId p ≠ hashId u) → hasStream u

/-- A call that is about the user at an address. -/
def concerns (a : Nat) : UserCall → Bool
  | .add u => u.addr = a
  | .remove u _ => u.addr = a
  | _ => false

variable {a : Nat} {partlist done : List Part} {calls more : List UserCall} {d : Option (UInt32 × UInt32)} {p : Part}
  {id : Option Bytes × Option Bytes} {u v : UserInfo} {s : SftUpdate} {list : Userlist}

theorem decode_other {call : UserCall} (other : concerns a call = false) (d : Option (UInt32 × UInt32)) :
    decode a call d = some d := by
  cases call with
  | add u => exact if_neg (by simpa [concerns] using other)
  | remove u callVstateh => exact if_neg (by simpa [concerns] using other)
  | sync => rfl
  | kgChange keygenerator isMe isFirst => rfl

theorem run_others (others : ∀ call ∈ calls, concerns a call = false) : run (decode a) d calls = some d := by
  induction calls with
  | nil => rfl
  | cons call rest ih =>
    have first := decode_other (others call (by simp)) d
    exact run_cons.mpr ⟨d, first, ih (fun c member => others c (by simp [member]))⟩

theorem run_then_others (others : ∀ call ∈ more, concerns a call = false)
    (d : Option (UInt32 × UInt32)) : run (decode a) d (calls ++ more) = run (decode a) d calls := by
  rw [run_bind]
  cases run (decode a) d calls with
  | none => rfl
  | some mid => exact run_others others

theorem streamsIn_snoc :
    streamsIn (done ++ [p]) id = if partId p = id then some (p.ssrca, p.ssrcv) else streamsIn done id := by
  by_cases same : partId p = id
  · simp [streamsIn, same]
  · simp [streamsIn, same]

theorem streamsIn_none : streamsIn partlist id = none ↔ ∀ p ∈ partlist, partId p ≠ id := by
  simp [streamsIn, List.find?_eq_none]

/-- An entry gives the user other SSRCs than it had. -/
def shifted (done : List Part) (u : UserInfo) : Bool :=
  done.any (fun p => partId p = hashId u && (p.ssrca, p.ssrcv) ≠ streams u)

theorem shifted_snoc :
    shifted (done ++ [p]) u = (shifted done u || (partId p = hashId u && (p.ssrca, p.ssrcv) ≠ streams u)) := by
  simp [shifted]

theorem streamsIn_unshifted (still : shifted done u = false)
    {s : UInt32 × UInt32} (listed : streamsIn done (hashId u) = some s) : s = streams u := by
  obtain ⟨p, found, rfl⟩ := map_eq_some_iff.mp listed
  have member : p ∈ done := mem_reverse.mp (mem_of_find?_eq_some found)
  have same : partId p = hashId u := by simpa using List.find?_some found
  by_contra other
  have moves : shifted done u = true := any_eq_true.mpr ⟨p, member, by simp [same, other]⟩
  simp [moves] at still

theorem shifted_none (unlisted : streamsIn done (hashId u) = none) : shifted done u = false := by
  rw [streamsIn_none] at unlisted
  refine any_eq_false.mpr fun p member => ?_
  simp [unlisted p member]

/-- A user of the loop over the participants, and what it was before. -/
structure Followed (done : List Part) (u v : UserInfo) : Prop where
  same : Same v u
  force : v.forceDecoder = u.forceDecoder
  now : v.incallNow = (streamsIn done (hashId u)).isSome
  prev : v.incallPrev = (u.incallPrev && !shifted done u)
  streams : streams v = (streamsIn done (hashId u)).getD (streams u)

/-- The decoder of a user that some entries may have moved. -/
def afterMove (done : List Part) (u : UserInfo) (d : Option (UInt32 × UInt32)) : Option (Option (UInt32 × UInt32)) :=
  if u.incallPrev && shifted done u then (if d = some (streams u) then some none else none) else some d

theorem followed_skip (followed : Followed done u v) (other : partId p ≠ hashId u) : Followed (done ++ [p]) u v where
  same := followed.same
  force := followed.force
  now := by rw [streamsIn_snoc, if_neg other, followed.now]
  prev := by simp [shifted_snoc, other, followed.prev]
  streams := by rw [streamsIn_snoc, if_neg other, followed.streams]

theorem afterMove_skip (other : partId p ≠ hashId u) : afterMove (done ++ [p]) u d = afterMove done u d := by
  simp [afterMove, shifted_snoc, other]

section
variable (followed : Followed done u v)
include followed

theorem followed_still (still : shifted done u = false) : streams v = streams u := by
  rw [followed.streams]
  cases listed : streamsIn done (hashId u) with
  | none => rfl
  | some s => exact streamsIn_unshifted still listed

theorem followed_moved : moved p v = (u.incallPrev && !shifted done u && decide ((p.ssrca, p.ssrcv) ≠ streams u)) := by
  rw [moved, followed.prev]
  cases still : shifted done u with
  | true => simp
  | false =>
    have same := followed_still followed still
    simp only [streams, Prod.mk.injEq] at same
    simp [streams, same, eq_comm, ← Bool.not_and]

theorem followed_take (same : partId p = hashId u) (pos : UInt32) : Followed (done ++ [p]) u (listedAs p pos v) where
  same := ⟨followed.same.addr, followed.same.hash, followed.same.userid, followed.same.clientid, followed.same.approved⟩
  force := followed.force
  now := by rw [streamsIn_snoc, if_pos same]; rfl
  prev := by
    simp only [listedAs, followed_moved followed, followed.prev, shifted_snoc, same, decide_true, Bool.true_and]
    cases u.incallPrev <;> cases shifted done u <;> simp
  streams := by rw [streamsIn_snoc, if_pos same]; rfl

/-- The decoder of a user that an entry lists: it is removed where the entry moves it. -/
theorem afterMove_take (same : partId p = hashId u)
    (before : ∀ d, run (decode u.addr) d calls = afterMove done u d) (d : Option (UInt32 × UInt32)) :
    run (decode u.addr) d (if moved p v then calls ++ [.remove v (p.ssrcv = 0)] else calls) =
      afterMove (done ++ [p]) u d := by
  rw [followed_moved followed]
  by_cases moves : (u.incallPrev && !shifted done u && decide ((p.ssrca, p.ssrcv) ≠ streams u)) = true
  · rw [if_pos moves, run_bind, before]
    simp only [Bool.and_eq_true, Bool.not_eq_true', decide_eq_true_eq] at moves
    obtain ⟨⟨prev, still⟩, other⟩ := moves
    simp [afterMove, shifted_snoc, prev, still, same, other, run, decode, followed.same.addr,
      followed_still followed still]
  · rw [if_neg moves, before]
    simp only [afterMove, shifted_snoc, same]
    cases prev : u.incallPrev <;> cases still : shifted done u <;> simp_all

end

/-- A user the loop started with, or one that it added. -/
def Origin (start : Userlist) (u : UserInfo) : Prop :=
  u ∈ start.users ∨
    (start.nextAddr ≤ u.addr ∧ Unnamed u ∧ u.incallPrev = false ∧ u.forceDecoder = false)

/-- What the loop over the participants has done to the users and their decoders once `done` of them are taken. -/
structure Listing (start : Userlist) (done : List Part) (s : SftUpdate) : Prop where
  next : start.nextAddr ≤ s.list.nextAddr
  stays : ∀ u ∈ start.users, ∃ v ∈ s.list.users, v.addr = u.addr
  followed : ∀ v ∈ s.list.users, ∃ u, Origin start u ∧ Followed done u v ∧
    ∀ d, run (decode u.addr) d s.calls = afterMove done u d
  silent : ∀ a, (∀ v ∈ s.list.users, v.addr ≠ a) → ∀ call ∈ s.calls, concerns a call = false

section
variable {names : Naming} {start : Userlist} {first : Option Nat}

section
variable (valid : WellFormed names s.list) (listing : Listing start done s)
include valid listing

theorem takeSelf_listing (me : isSelf s.list p) : Listing start (done ++ [p]) (takeSelf first s p) := by
  refine ⟨listing.next, listing.stays, fun v member => ?_, listing.silent⟩
  obtain ⟨u, origin, followed, calls⟩ := listing.followed v member
  have other : partId p ≠ hashId u := by
    rw [← isSelf_iff.mp me, ← followed.same.hash]
    exact (valid.notSelf v member).symm
  exact ⟨u, origin, followed_skip followed other, fun d => (calls d).trans (afterMove_skip other).symm⟩

theorem takeFound_listing {w : UserInfo}
    (found : findPart s.list p = some w) : Listing start (done ++ [p]) (takeFound first s p w) := by
  obtain ⟨memberW, hashW⟩ := findPart_some found
  have keeps : ∀ v, Same (if v.addr = w.addr then listedAs p s.place.toUInt32 v else v) v :=
    modify_same (listedAs_same s.place.toUInt32)
  have only : ∀ call ∈ (takeFound first s p w).calls, call ∈ s.calls ∨ call = .remove w (p.ssrcv = 0) := by
    intro call member
    simp only [takeFound] at member
    split at member
    · simpa using member
    · exact .inl member
  refine ⟨listing.next, ?_, ?_, ?_⟩
  · intro u member
    obtain ⟨v, at_, same⟩ := listing.stays u member
    exact ⟨_, mem_map_of_mem at_, (keeps v).addr.trans same⟩
  · intro v' member
    obtain ⟨v, at_, rfl⟩ := mem_map.mp member
    obtain ⟨u, origin, followed, calls⟩ := listing.followed v at_
    by_cases same : v.addr = w.addr
    · obtain rfl := addr_unique valid at_ memberW same
      have listed : partId p = hashId u := hashW.symm.trans followed.same.hash
      rw [if_pos rfl]
      exact ⟨u, origin, followed_take followed listed _, afterMove_take followed listed calls⟩
    · have other : partId p ≠ hashId u := by
        rw [← hashW, ← followed.same.hash]
        exact fun hashes => same (congrArg _ (hashId_unique valid memberW at_ hashes)).symm
      rw [if_neg same]
      refine ⟨u, origin, followed_skip followed other, fun d => ?_⟩
      rw [afterMove_skip other, ← calls d]
      simp only [takeFound]
      split
      · refine run_then_others ?_ d
        intro call member
        rw [mem_singleton.mp member]
        exact decide_eq_false (fun here => same (followed.same.addr.trans here.symm))
      · rfl
  · intro a absent call member
    have gone : ∀ v ∈ s.list.users, v.addr ≠ a := by
      intro v at_
      rw [← (keeps v).addr]
      exact absent _ (mem_map_of_mem at_)
    rcases only call member with old | rfl
    · exact listing.silent a gone call old
    · exact decide_eq_false (gone w memberW)

theorem takeMissing_listing (missing : findPart s.list p = none) : Listing start (done ++ [p]) (takeMissing s p) := by
  refine ⟨Nat.le_succ_of_le listing.next, ?_, ?_, ?_⟩
  · intro u member
    obtain ⟨v, at_, same⟩ := listing.stays u member
    exact ⟨v, mem_append_left _ at_, same⟩
  · intro v member
    rcases mem_append.mp member with old | added
    · obtain ⟨u, origin, followed, calls⟩ := listing.followed v old
      have other : partId p ≠ hashId u := followed.same.hash ▸ (findPart_none missing v old).symm
      exact ⟨u, origin, followed_skip followed other, fun d => (calls d).trans (afterMove_skip other).symm⟩
    · obtain rfl := mem_singleton.mp added
      have listed : streamsIn (done ++ [p]) (partId p) = some (p.ssrca, p.ssrcv) := by
        rw [streamsIn_snoc, if_pos rfl]
      -- The new user counts as one that was not in the call before.
      refine ⟨{ zalloc s.list.nextAddr with useridHash := some p.userid, clientidHash := some p.clientid },
        .inr ⟨listing.next, ⟨rfl, rfl⟩, rfl, rfl⟩, ⟨⟨rfl, rfl, rfl, rfl, rfl⟩, rfl, ?_, rfl, ?_⟩, ?_⟩
      · exact (congrArg Option.isSome listed).symm
      · exact (congrArg (Option.getD · _) listed).symm
      · intro d
        exact run_others (listing.silent _ (fun v at_ => Nat.ne_of_lt (valid.below v at_)))
  · intro a absent call member
    exact listing.silent a (fun v at_ => absent v (mem_append_left _ at_)) call member

theorem takePart_listing : Listing start (done ++ [p]) (takePart first s p) := by
  rw [takePart]
  split
  · next me => exact takeSelf_listing valid listing me
  · split
    · next found => exact takeFound_listing valid listing found
    · next missing => exact takeMissing_listing valid listing missing

end

def held (u : UserInfo) : Option (UInt32 × UInt32) :=
  if u.seApproved && u.incallPrev && hasStream u then some (streams u) else none

/-- The user is approved and has a decoder if it moves, and has one if it leaves approved. -/
structure UserFits (partlist : List Part) (u : UserInfo) : Prop where
  moves : u.incallPrev = true → shifted partlist u = true → u.seApproved = true ∧ hasStream u = true
  leaves : u.incallPrev = true → u.seApproved = true → streamsIn partlist (hashId u) = none → hasStream u = true

theorem hasStream_streams : hasStream u = ((streams u).1 ≠ 0 || (streams u).2 ≠ 0) := rfl

theorem afterMove_held (fits : UserFits partlist u) :
    afterMove partlist u (held u) = some (if u.incallPrev && shifted partlist u then none else held u) := by
  unfold afterMove
  split
  · next moves =>
    obtain ⟨prev, moves⟩ := Bool.and_eq_true_iff.mp moves
    obtain ⟨approved, stream⟩ := fits.moves prev moves
    simp [held, approved, prev, stream]
  · rfl

theorem settleCalls_due (fits : UserFits partlist u)
    (followed : Followed partlist u v) (unforced : u.forceDecoder = false) :
    run (decode v.addr) (if u.incallPrev && shifted partlist u then none else held u) (settleCalls v) =
      some (due partlist v) := by
  have force : v.forceDecoder = false := followed.force.trans unforced
  have joined : joins v = (u.seApproved && (v.incallNow && !v.incallPrev)) := by
    rw [joins, force, Bool.false_or, followed.same.approved]
  have left : leaves v = (u.seApproved && !joins v && !v.incallNow && v.incallPrev) := by
    rw [leaves, followed.same.approved]
  have dues : due partlist v = if u.seApproved then (streamsIn partlist (hashId u)).filter
      (fun s => s.1 ≠ 0 || s.2 ≠ 0) else none := by
    rw [due, followed.same.approved, followed.same.hash]
  rw [dues, settleCalls, left, joined, followed.now, followed.prev]
  cases approved : u.seApproved with
  | false => simp [held, approved, run]
  | true =>
    cases listed : streamsIn partlist (hashId u) with
    | none =>
      have still := shifted_none listed
      have same := followed_still followed still
      cases prev : u.incallPrev with
      | false => simp [held, prev, still, run]
      | true =>
        have stream := fits.leaves prev approved listed
        simp [held, approved, prev, still, stream, run, decode, same]
    | some s =>
      have listedAt : streams v = s := by rw [followed.streams, listed, getD_some]
      have stream : hasStream v = (s.1 ≠ 0 || s.2 ≠ 0) := by rw [hasStream_streams, listedAt]
      have filtered : (some s).filter (fun s => s.1 ≠ 0 || s.2 ≠ 0) = if hasStream v then some s else none := by
        rw [stream, filter_some]
      rw [filtered]
      by_cases stays : (u.incallPrev && !shifted partlist u) = true
      · -- A user that stays where it was keeps its decoder.
        obtain ⟨prev, still⟩ := Bool.and_eq_true_iff.mp stays
        rw [Bool.not_eq_true'] at still
        have same := followed_still followed still
        have streamU : hasStream u = hasStream v := by rw [hasStream_streams, hasStream_streams, same]
        simp [held, approved, prev, still, streamU, run, ← same, listedAt]
      · -- A user that joins, or moved, has none and is given one.
        have none_ : (if (u.incallPrev && shifted partlist u) = true then none else held u) = none := by
          cases prev : u.incallPrev with
          | false => simp [held, prev]
          | true => simp_all
        rw [none_]
        simp only [stays, isSome_some, Bool.true_and, Bool.not_false, if_true]
        cases hasStream v <;> simp [run, decode, listedAt]

theorem settleCalls_other (other : u.addr ≠ a) : ∀ call ∈ settleCalls u, concerns a call = false := by
  intro call member
  unfold settleCalls at member
  split at member
  · split at member
    · rw [mem_singleton.mp member]
      exact decide_eq_false other
    · simp at member
  · split at member
    · rw [mem_singleton.mp member]
      exact decide_eq_false other
    · simp at member

theorem run_settleCalls {users : List UserInfo} (distinct : (users.map (·.addr)).Nodup) (member : v ∈ users) :
    run (decode v.addr) d (users.flatMap settleCalls) = run (decode v.addr) d (settleCalls v) := by
  obtain ⟨front, back, rfl⟩ := append_of_mem member
  simp only [map_append, map_cons, nodup_append, nodup_cons, mem_cons] at distinct
  have before : ∀ call ∈ front.flatMap settleCalls, concerns v.addr call = false := by
    intro call called
    obtain ⟨u, old, called⟩ := mem_flatMap.mp called
    exact settleCalls_other (distinct.2.2 _ (mem_map_of_mem old) _ (.inl rfl)) call called
  have after : ∀ call ∈ back.flatMap settleCalls, concerns v.addr call = false := by
    intro call called
    obtain ⟨u, new, called⟩ := mem_flatMap.mp called
    refine settleCalls_other (fun same => distinct.2.1.1 ?_) call called
    exact same ▸ mem_map_of_mem new
  rw [flatMap_append, flatMap_cons, run_bind, run_others before, bind_some, run_then_others after]

theorem trackKeygeneratorChange_other {prev : Option UserRef} :
    ∀ call ∈ trackKeygeneratorChange list prev, concerns a call = false := by
  intro call member
  unfold trackKeygeneratorChange at member
  split at member
  · simp at member
  · split at member
    · simp at member
    · rw [mem_singleton.mp member]
      rfl

end

/-- What a user list and the calls so far say about each other. -/
structure Fitted (names : Naming) (view : View) (calls : List UserCall) : Prop where
  valid : WellFormed names view.list
  unforced : ∀ u ∈ view.list.users, u.forceDecoder = false
  now : ∀ u ∈ view.list.users, u.incallNow = (streamsIn view.last (hashId u)).isSome
  streams : ∀ u ∈ view.list.users, ∀ s, streamsIn view.last (hashId u) = some s → streams u = s
  known : ∀ p ∈ view.last, partId p = hashId view.list.self ∨ ∃ u ∈ view.list.users, hashId u = partId p
  decoders : ∀ u ∈ view.list.users, decoder u.addr calls = some (due view.last u)
  others : ∀ a, (∀ u ∈ view.list.users, u.addr ≠ a) → decoder a calls = some none

section
variable {names : Naming} {view : View} {list' : Userlist} {selfChanged : Bool}

theorem due_eq {last : List Part} (now : u.incallNow = (streamsIn last (hashId u)).isSome)
    (listed : ∀ s, streamsIn last (hashId u) = some s → streams u = s) :
    due last u = if u.seApproved && u.incallNow && hasStream u then some (streams u) else none := by
  cases found : streamsIn last (hashId u) with
  | none => simp [due, found, now]
  | some s =>
    simp only [due, now, found, isSome_some, Bool.and_true, filter_some, ← listed s found]
    cases u.seApproved <;> rfl

theorem due_held (fitted : Fitted names view calls) (member : u ∈ view.list.users) :
    due view.last u = held (clearCall u) :=
  due_eq (fitted.now u member) (fitted.streams u member)

theorem origin_held (fitted : Fitted names view calls)
    (fits : SftFits view.list partlist) (origin : Origin (beginSft view.list) u) :
    decoder u.addr calls = some (held u) ∧ UserFits partlist u ∧ u.forceDecoder = false := by
  rcases origin with old | ⟨fresh, unnamed, absent, unforced⟩
  · obtain ⟨w, member, rfl⟩ := mem_map.mp old
    refine ⟨?_, ⟨?_, ?_⟩, fitted.unforced w member⟩
    · rw [← due_held fitted member]
      exact fitted.decoders w member
    · intro prev shifts
      obtain ⟨p, listed, moves⟩ := any_eq_true.mp shifts
      simp only [Bool.and_eq_true, decide_eq_true_eq] at moves
      exact fits.moves w member prev p listed moves.1 moves.2
    · intro prev approved unlisted
      exact fits.leaves w member prev approved (streamsIn_none.mp unlisted)
  · refine ⟨?_, ⟨?_, ?_⟩, unforced⟩
    · have none_ : held u = none := by simp [held, absent]
      rw [none_]
      refine fitted.others u.addr (fun w member same => ?_)
      have below := fitted.valid.below w member
      have above : view.list.nextAddr ≤ u.addr := fresh
      omega
    · simp [absent]
    · simp [absent]

theorem takeParts_listing (valid : WellFormed names list) (partlist : List Part) (selfChanged : Bool) :
    Taking names (beginSft list) partlist (takeParts (beginSft list) partlist selfChanged) ∧
      Listing (beginSft list) partlist (takeParts (beginSft list) partlist selfChanged) := by
  refine foldl_taken (fun done s => Taking names (beginSft list) done s ∧ Listing (beginSft list) done s)
    (fun _ _ _ _ whole both => ⟨takePart_first whole both.1, takePart_listing both.1.valid both.2⟩)
    ⟨beginSft_taking valid selfChanged, Nat.le_refl _, fun u member => ⟨u, member, rfl⟩, ?_, ?_⟩
  · intro v member
    obtain ⟨u, old, rfl⟩ := mem_map.mp member
    refine ⟨clearCall u, .inl member, ⟨Same.refl _, rfl, rfl, ?_, rfl⟩, fun d => ?_⟩
    · simp [shifted]
    · simp [afterMove, shifted, run]
  · exact fun _ _ _ member => absurd member not_mem_nil

theorem settle_streams (now : u.incallNow = true) : streams (settle u) = streams u := by
  have stays : leaves u = false := by simp [leaves, now]
  unfold settle
  rw [stays]
  split <;> rfl

theorem settle_unforced (unforced : u.forceDecoder = false) : (settle u).forceDecoder = false := by
  unfold settle
  split
  · rfl
  · split <;> exact unforced

theorem settled_fitted (fitted : Fitted names view calls) (fits : SftFits view.list partlist)
    (taking : Taking names (beginSft view.list) partlist s) (listing : Listing (beginSft view.list) partlist s)
    (users : list'.users.Perm (s.list.users.map settle)) (self : list'.self = s.list.self)
    (next : list'.nextAddr = s.list.nextAddr) (quiet : ∀ a, ∀ call ∈ more, concerns a call = false) :
    Fitted names ⟨list', partlist⟩ (calls ++ (s.calls ++ s.list.users.flatMap settleCalls ++ more)) := by
  have of_mem : ∀ w ∈ list'.users, ∃ v ∈ s.list.users, settle v = w :=
    fun w member => mem_map.mp (users.mem_iff.mp member)
  have to_mem : ∀ v ∈ s.list.users, settle v ∈ list'.users :=
    fun v member => users.mem_iff.mpr (mem_map_of_mem member)
  have settled : WellFormed names { s.list with users := s.list.users.map settle } :=
    wellFormed_same taking.valid rfl (Same.refl _) rfl settle_same
  constructor
  case valid => exact wellFormed_perm settled users (self ▸ Same.refl _) next
  case unforced =>
    intro w member
    obtain ⟨v, at_, rfl⟩ := of_mem w member
    obtain ⟨u, origin, followed, -⟩ := listing.followed v at_
    exact settle_unforced (followed.force.trans (origin_held fitted fits origin).2.2)
  case now =>
    intro w member
    obtain ⟨v, at_, rfl⟩ := of_mem w member
    obtain ⟨u, -, followed, -⟩ := listing.followed v at_
    rw [settle_now, followed.now, (settle_same v).hash, followed.same.hash]
  case streams =>
    intro w member t listed
    obtain ⟨v, at_, rfl⟩ := of_mem w member
    obtain ⟨u, -, followed, -⟩ := listing.followed v at_
    rw [(settle_same v).hash, followed.same.hash] at listed
    have now : v.incallNow = true := by rw [followed.now, listed, isSome_some]
    rw [settle_streams now, followed.streams, listed, getD_some]
  case known =>
    intro p member
    refine (taking.known p member).imp (fun mine => self ▸ mine) ?_
    rintro ⟨v, at_, same, -⟩
    exact ⟨settle v, to_mem v at_, (settle_same v).hash.trans same⟩
  case decoders =>
    intro w member
    obtain ⟨v, at_, rfl⟩ := of_mem w member
    obtain ⟨u, origin, followed, moved⟩ := listing.followed v at_
    obtain ⟨before, userFits, unforced⟩ := origin_held fitted fits origin
    have same : due partlist (settle v) = due partlist v := by
      rw [due, due, (settle_same v).approved, (settle_same v).hash]
    rw [(settle_same v).addr, same, decoder, run_bind, ← decoder, followed.same.addr, before, bind_some,
      run_then_others (quiet _), run_bind, moved, afterMove_held userFits, bind_some,
      ← followed.same.addr, run_settleCalls taking.valid.distinct at_]
    exact settleCalls_due userFits followed unforced
  case others =>
    intro a absent
    have gone : ∀ v ∈ s.list.users, v.addr ≠ a :=
      fun v at_ => (settle_same v).addr ▸ absent (settle v) (to_mem v at_)
    have before : decoder a calls = some none := by
      refine fitted.others a (fun u member same => ?_)
      obtain ⟨v, at_, addr⟩ := listing.stays (clearCall u) (mem_map_of_mem member)
      exact gone v at_ (addr.trans same)
    have ended : ∀ call ∈ s.list.users.flatMap settleCalls, concerns a call = false := by
      intro call called
      obtain ⟨v, at_, called⟩ := mem_flatMap.mp called
      exact settleCalls_other (gone v at_) call called
    rw [decoder, run_bind, ← decoder, before, bind_some, run_then_others (quiet a),
      run_then_others ended]
    exact run_others (listing.silent a gone)

theorem updateFromSftlist_fitted (fitted : Fitted names view calls) (fits : SftFits view.list partlist) :
    Fitted names ⟨(updateFromSftlist view.list partlist selfChanged).list, partlist⟩
      (calls ++ (updateFromSftlist view.list partlist selfChanged).calls) := by
  obtain ⟨taking, listing⟩ := takeParts_listing fitted.valid partlist selfChanged
  unfold updateFromSftlist updateBeforeSort
  generalize takeParts (beginSft view.list) partlist selfChanged = s at taking listing
  simp only [append_assoc]
  rw [← append_assoc s.calls]
  refine settled_fitted fitted fits taking listing (perm_insertionSort _ _) rfl rfl ?_
  intro a call member
  rcases mem_append.mp member with synced | tracked
  · split at synced
    · rw [mem_singleton.mp synced]
      rfl
    · simp at synced
  · exact trackKeygeneratorChange_other call tracked

end

end Avs.Userlist
