import Mathlib.Algebra.GroupWithZero.Nat
import Mathlib.Algebra.Order.BigOperators.Group.List
import Mathlib.Algebra.Order.Group.Nat
import Mathlib.Data.List.DropRight
import Mathlib.Tactic.Common

/-!
# Keeping the newest under a count and a budget

A loop walks over a list, the newest first, counts the entries and adds up their sizes, and gives up an
entry when `count` entries came before it or when the sum exceeds `budget`. The sum saturates at `top`.
What it keeps is a front of the list (`Within`): no more than `count` entries, of no more than `budget`
together, and every front that meets both bounds is kept.
-/

namespace Lib.Retention

variable {α : Type} (size : α → Nat) (count budget top : Nat)

/-- The entries the loop gives up, `index` entries of the size `total` in. -/
def overflow : Nat → Nat → List α → List α
  | _, _, [] => []
  | index, total, a :: rest =>
    if count ≤ index ∨ budget < min (total + size a) top then
      a :: overflow (index + 1) (min (total + size a) top) rest
    else overflow (index + 1) (min (total + size a) top) rest

def sumOf (l : List α) : Nat := (l.map size).sum

variable {size count budget top} {index total : Nat} {a : α} {l front : List α}

@[simp]
theorem sumOf_nil : sumOf size ([] : List α) = 0 := rfl

@[simp]
theorem sumOf_cons : sumOf size (a :: l) = size a + sumOf size l := by
  rw [sumOf, List.map_cons, List.sum_cons, sumOf]

@[simp]
theorem sumOf_append (l' : List α) : sumOf size (l ++ l') = sumOf size l + sumOf size l' := by
  rw [sumOf, List.map_append, List.sum_append, sumOf, sumOf]

theorem sumOf_reverse (l : List α) : sumOf size l.reverse = sumOf size l := by
  rw [sumOf, List.map_reverse, List.sum_reverse, sumOf]

/-- Once the count or the budget is passed, everything is given up. -/
theorem overflow_of_over (htop : budget < top) (h : count ≤ index ∨ budget < total) :
    overflow size count budget top index total l = l := by
  induction l generalizing index total with
  | nil => rfl
  | cons a rest ih =>
    have hover : count ≤ index ∨ budget < min (total + size a) top := by omega
    rw [overflow, if_pos hover, ih (by omega)]

/-- What is kept of `l` when `index` entries of the size `total` came before it. -/
structure Within (size : α → Nat) (count budget index total : Nat) (l kept : List α) : Prop where
  count_le : index + kept.length ≤ count
  size_le : total + sumOf size kept ≤ budget
  keeps : ∀ front, front <+: l → index + front.length ≤ count → total + sumOf size front ≤ budget →
    front <+: kept

theorem overflow_spec (size : α → Nat) (l : List α) (htop : budget < top) (hindex : index ≤ count)
    (htotal : total ≤ budget) :
    ∃ kept, l = kept ++ overflow size count budget top index total l ∧
      Within size count budget index total l kept := by
  induction l generalizing index total with
  | nil => exact ⟨[], rfl, hindex, htotal, fun front hfront _ _ => hfront⟩
  | cons a rest ih =>
    rw [overflow]
    by_cases hover : count ≤ index ∨ budget < min (total + size a) top
    · rw [if_pos hover, overflow_of_over htop (by omega)]
      refine ⟨[], rfl, hindex, htotal, fun front hfront hcount hsize => ?_⟩
      obtain rfl | ⟨front, rfl, -⟩ := List.prefix_cons_iff.mp hfront
      · exact List.nil_prefix
      · -- a front that holds `a` passes a bound
        rw [List.length_cons] at hcount
        rw [sumOf_cons] at hsize
        omega
    · rw [if_neg hover, Nat.min_eq_left (by omega)]
      obtain ⟨kept, hsplit, hwithin⟩ := @ih (index + 1) (total + size a) (by omega) (by omega)
      refine ⟨a :: kept, congrArg (a :: ·) hsplit, ?_, ?_, fun front hfront hcount hsize => ?_⟩
      · have hcount := hwithin.count_le
        rw [List.length_cons]
        omega
      · have hsize := hwithin.size_le
        rw [sumOf_cons]
        omega
      · obtain rfl | ⟨front, rfl, hrest⟩ := List.prefix_cons_iff.mp hfront
        · exact List.nil_prefix
        · rw [List.length_cons] at hcount
          rw [sumOf_cons] at hsize
          exact List.prefix_cons_inj a |>.mpr
            (hwithin.keeps front hrest (by omega) (by omega))

/-! ### The end of a list -/

section

variable {l l' back whole : List α}

/-- An end of both of two ends of one list, if it is no longer than either. -/
theorem suffix_of_both (h : back <:+ l) (hl : l <:+ whole) (hl' : l' <:+ whole)
    (hlength : back.length ≤ l'.length) : back <:+ l' :=
  List.suffix_of_suffix_length_le (h.trans hl) hl' hlength

theorem rtake_suffix (n : Nat) (l : List α) : l.rtake n <:+ l := by
  rw [List.rtake]
  apply List.drop_suffix

theorem length_rtake (n : Nat) (l : List α) : (l.rtake n).length = min n l.length := by
  rw [List.rtake, List.length_drop]
  omega

end

end Lib.Retention
