import Mathlib.Data.List.Sort

/-!
Lists whose elements strictly ascend along a natural-number key: what sorting makes of a list with distinct
keys, and the cut that drops a list's front down to one element before the first element of a kind
(`cutBefore`).
-/
namespace Avs.KeyedList
open List

variable {α : Type*}

def Ascending (key : α → Nat) (l : List α) : Prop := l.Pairwise (fun a b => key a < key b)

theorem ascending_nil {key : α → Nat} : Ascending key [] := List.Pairwise.nil

theorem ascending_distinct {key : α → Nat} {l : List α} (ascending : Ascending key l) : (l.map key).Nodup := by
  rw [List.Nodup, pairwise_map]
  exact ascending.imp (fun lt => Nat.ne_of_lt lt)

theorem ascending_suffix {key : α → Nat} {l l' : List α} (suffix : l' <:+ l) (ascending : Ascending key l) :
    Ascending key l' :=
  ascending.sublist suffix.sublist

section
variable {key : α → Nat} {le : α → α → Prop} [DecidableRel le]

section
variable (agrees : ∀ a b, le a b ↔ key a ≤ key b)
include agrees

theorem ascending_sort {l : List α} (distinct : (l.map key).Nodup) : Ascending key (l.insertionSort le) := by
  have total : Std.Total le := ⟨fun a b => by rw [agrees, agrees]; exact Nat.le_total _ _⟩
  have trans : IsTrans α le := ⟨fun a b c ab bc => by rw [agrees] at *; exact Nat.le_trans ab bc⟩
  have sorted : (l.insertionSort le).Pairwise le := pairwise_insertionSort le l
  have distinct' : (l.insertionSort le).Pairwise (fun a b => key a ≠ key b) := by
    have := ((perm_insertionSort le l).map key).nodup_iff.mpr distinct
    rwa [List.Nodup, pairwise_map] at this
  exact sorted.imp₂ (fun a b ab ne => Nat.lt_of_le_of_ne ((agrees a b).mp ab) ne) distinct'

theorem sort_ascending {l : List α} (ascending : Ascending key l) : l.insertionSort le = l :=
  List.Pairwise.insertionSort_eq (ascending.imp (fun {a b} lt => (agrees a b).mpr (Nat.le_of_lt lt)))

/-- Sorting finds the one ascending order of a list's elements. -/
theorem sort_unique {l l' : List α} (perm : l.Perm l') (ascending : Ascending key l') : l.insertionSort le = l' := by
  have distinct : (l.map key).Nodup := (perm.map key).nodup_iff.mpr (ascending_distinct ascending)
  refine List.Perm.eq_of_pairwise ?_ (ascending_sort agrees distinct) ascending
    ((perm_insertionSort le l).trans perm)
  intro a b _ _ ab ba
  exact absurd ab (Nat.lt_asymm ba)

end

end

/-- The front is dropped, element by element, as long as neither the first nor the second element satisfies `p`. -/
def cutBefore (p : α → Prop) [DecidablePred p] : List α → List α
  | a :: b :: rest => if ¬ p a ∧ ¬ p b then cutBefore p (b :: rest) else a :: b :: rest
  | l => l

section
variable {p : α → Prop} [DecidablePred p]

theorem cutBefore_suffix {l : List α} : cutBefore p l <:+ l := by
  fun_induction cutBefore p l with
  | case1 a b rest _ ih => exact ih.trans (suffix_cons a (b :: rest))
  | case2 => exact suffix_refl _
  | case3 => exact suffix_refl _

theorem cutBefore_head {x : α} (holds : p x) {post : List α} : cutBefore p (x :: post) = x :: post := by
  cases post with
  | nil => rfl
  | cons b rest => simp [cutBefore, holds]

/-- Of what stands before the first element that satisfies `p`, the last element stays; that element and all after it
    stay. -/
theorem cutBefore_split {x : α} (holds : p x) (post : List α) : ∀ pre : List α, (∀ y ∈ pre, ¬ p y) →
      cutBefore p (pre ++ x :: post) = pre.drop (pre.length - 1) ++ x :: post := by
  intro pre
  induction pre with
  | nil => intro _; exact cutBefore_head holds
  | cons a rest ih =>
    intro before
    have notA : ¬ p a := before a (by simp)
    cases rest with
    | nil => simp [cutBefore, notA, holds]
    | cons b rest =>
      have notB : ¬ p b := before b (by simp)
      have cut := ih (fun y member => before y (by simp [member]))
      simp only [cons_append] at cut ⊢
      rw [cutBefore, if_pos ⟨notA, notB⟩, cut]
      simp

end

end Avs.KeyedList
