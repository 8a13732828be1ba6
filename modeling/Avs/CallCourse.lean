import Avs.CcallEvents
import Avs.Incall

/-!
The course of a call: its state, its inner call, the configuration it waits for, its error, what it knows of
the other participants and what it has told of its end (`Course`). Most functions leave the course alone and
hand on nothing that would carry the call forward (`Beside`; `Aside` for the first four only).
-/
namespace Avs.Ccall

/-- A CONFCONN, or a message for the inner call. -/
def forward : Output → Bool
  | .sft _ (.confConn _ _ _ _) _ => true
  | .ecallMsgRecv _ => true
  | _ => false

/-- What says that the call is over: the leave and the close handler, and CONFEND. -/
def notable : Output → Bool
  | .leaveh _ => true
  | .closeh _ => true
  | .send (.confEnd _ _) _ _ _ => true
  | _ => false

/-- Where a call stands, and what it has told of its end. -/
structure Course where
  state : CcallState
  je : Option JoinElem
  ecall : Option Nat
  error : Option Errno
  receivedConfpart : Bool
  confconnStatus : ConfconnStatus
  /-- The timers of a participant that is alone, and of a rejection by the SFT. -/
  alone : Bool
  sftReject : Bool
  /-- Somebody else is in the call. -/
  incall : Bool
  told : List Output
  deriving DecidableEq, Repr

/-- The course of a call, read from its fields. -/
def course (cc : Ccall) : Course where
  state := cc.state
  je := cc.je
  ecall := cc.ecall
  error := cc.error
  receivedConfpart := cc.receivedConfpart
  confconnStatus := cc.confconnStatus
  alone := .alone ∈ cc.timers
  sftReject := .sftReject ∈ cc.timers
  incall := cc.userl.someoneIn
  told := cc.out.filter notable

/-- The outputs are kept, and none of the new ones is marked by `p`. -/
def Adds (p : Output → Bool) (cc cc' : Ccall) : Prop := ∃ extra, cc'.out = cc.out ++ extra ∧ ∀ o ∈ extra, p o = false

variable {cc : Ccall} {a b c cc' : Ccall} {o : Output} {t : CcallTimer} {p : Output → Bool}

theorem Adds.of_eq (out : cc'.out = cc.out) : Adds p cc cc' := ⟨[], by simp [out], by simp⟩

theorem Adds.trans (first : Adds p a b) (second : Adds p b c) : Adds p a c := by
  obtain ⟨extra, out, none_⟩ := first
  obtain ⟨extra', out', none_'⟩ := second
  refine ⟨extra ++ extra', by rw [out', out, List.append_assoc], ?_⟩
  intro o member
  rcases List.mem_append.mp member with old | new
  · exact none_ o old
  · exact none_' o new

theorem adds_tell (other : p o = false) : Adds p cc (cc.tell o) := ⟨[o], rfl, by simpa using other⟩

/-- The state, the inner call, the awaited configuration and the error stay. -/
structure Aside (cc cc' : Ccall) : Prop where
  state : cc'.state = cc.state
  je : cc'.je = cc.je
  ecall : cc'.ecall = cc.ecall
  error : cc'.error = cc.error
  out : Adds forward cc cc'

theorem Aside.refl (cc : Ccall) : Aside cc cc := ⟨rfl, rfl, rfl, rfl, .of_eq rfl⟩

theorem Aside.trans (first : Aside a b) (second : Aside b c) : Aside a c :=
  ⟨second.state.trans first.state, second.je.trans first.je, second.ecall.trans first.ecall,
    second.error.trans first.error, first.out.trans second.out⟩

theorem aside_of_eq (same : (cc'.state, cc'.je, cc'.ecall, cc'.error, cc'.out) =
    (cc.state, cc.je, cc.ecall, cc.error, cc.out)) : Aside cc cc' := by
  simp only [Prod.mk.injEq] at same
  obtain ⟨state, je, ecall, error, out⟩ := same
  exact ⟨state, je, ecall, error, .of_eq out⟩

theorem tell_aside (other : forward o = false) : Aside cc (cc.tell o) := ⟨rfl, rfl, rfl, rfl, adds_tell other⟩

theorem tmrStart_aside : Aside cc (cc.tmrStart t) := aside_of_eq rfl

theorem tmrCancel_aside (ts : List CcallTimer) : Aside cc (cc.tmrCancel ts) := aside_of_eq rfl

theorem ite_aside {p : Prop} [Decidable p] (aside : Aside a b) : Aside a (if p then b else a) := by
  split
  · exact aside
  · exact .refl a

/-- The course is left alone, and nothing carries the call forward. -/
structure Beside (cc cc' : Ccall) : Prop where
  course : cc'.course = cc.course
  out : Adds forward cc cc'

theorem Beside.refl (cc : Ccall) : Beside cc cc := ⟨rfl, .of_eq rfl⟩

/-- Leaving the course alone leaves the first four of its parts alone. -/
theorem Beside.aside (beside : Beside cc cc') : Aside cc cc' :=
  ⟨congrArg (·.state) beside.course, congrArg (·.je) beside.course, congrArg (·.ecall) beside.course,
    congrArg (·.error) beside.course, beside.out⟩

theorem Beside.trans (first : Beside a b) (second : Beside b c) : Beside a c :=
  ⟨second.course.trans first.course, first.out.trans second.out⟩

theorem beside_of_eq (course : cc'.course = cc.course) (out : cc'.out = cc.out) : Beside cc cc' := ⟨course, .of_eq out⟩

theorem users_beside {list : Userlist} (incall : list.someoneIn = cc.userl.someoneIn) :
    Beside cc { cc with userl := list } :=
  beside_of_eq (by simp only [course, incall]) rfl

/-- An output is part of the course where it says that the call is over. -/
theorem tell_course :
    (cc.tell o).course = { cc.course with told := cc.course.told ++ if notable o then [o] else [] } := by
  have told : (cc.out ++ [o]).filter notable = cc.out.filter notable ++ if notable o then [o] else [] := by
    cases marked : notable o <;> simp [List.filter_append, marked]
  exact congrArg (fun told => { cc.course with told := told }) told

theorem tell_plain (cc : Ccall) (plain : notable o = false) : (cc.tell o).course = cc.course := by
  rw [tell_course, plain]
  exact congrArg (fun told => { cc.course with told := told }) (List.append_nil _)

theorem tell_beside (other : forward o = false) (plain : notable o = false) : Beside cc (cc.tell o) :=
  ⟨tell_plain cc plain, adds_tell other⟩

/-- The timers that are part of the course. -/
def watched : CcallTimer → Bool
  | .alone => true
  | .sftReject => true
  | _ => false

theorem tmrStart_beside (other : watched t = false) : Beside cc (cc.tmrStart t) := by
  have alone : CcallTimer.alone ≠ t := by
    rintro rfl
    simp [watched] at other
  have reject : CcallTimer.sftReject ≠ t := by
    rintro rfl
    simp [watched] at other
  refine beside_of_eq ?_ rfl
  simp [course, tmrStart, alone, reject]

/-- Cancelling any other timers leaves the course alone. -/
theorem tmrCancel_beside (cc : Ccall) {ts : List CcallTimer} (others : ts.any watched = false) :
    Beside cc (cc.tmrCancel ts) := by
  have unwatched : ∀ {t : CcallTimer}, watched t = true → t ∉ ts := by
    intro t marked member
    simp [List.any_eq_false.mp others t member] at marked
  have alone : CcallTimer.alone ∉ ts := unwatched rfl
  have reject : CcallTimer.sftReject ∉ ts := unwatched rfl
  refine beside_of_eq ?_ rfl
  simp [course, tmrCancel, alone, reject]

theorem ite_beside {p : Prop} [Decidable p] (beside : Beside a b) : Beside a (if p then b else a) := by
  split
  · exact beside
  · exact .refl a

end Avs.Ccall
