import Mathlib.Order.PiLex
import Mathlib.Data.Prod.Lex

/-!
# Lists compared position by position

Lists of different lengths are compared after the shorter one is filled up with a default, so they
are sequences under the lexicographic order, which is linear. A loop that looks for the first position
where they differ decides it.
-/

namespace Lib

variable {α : Type}

/-- A list as a sequence, the default beyond its end. -/
def padded (default : α) (l : List α) : Lex (Nat → α) := toLex fun i => l.getD i default

section Loop

variable [LinearOrder α]

/-- Whether `f` is the larger one at the first position below `n` where the two differ. -/
def firstDifference (f g : Nat → α) (n : Nat) : Option Bool :=
  (List.range n).findSome? fun i => if f i ≠ g i then some (decide (g i < f i)) else none

theorem firstDifference_succ (f g : Nat → α) (n : Nat) :
    firstDifference f g (n + 1) = (firstDifference f g n).or
      (if f n ≠ g n then some (decide (g n < f n)) else none) := by
  rw [firstDifference, firstDifference, List.range_succ, List.findSome?_append,
    List.findSome?_singleton]

/-- What the loop finds: nothing when all positions agree, or the order at the first that does not. -/
theorem firstDifference_spec (f g : Nat → α) (n : Nat) :
    match firstDifference f g n with
    | none => ∀ i < n, f i = g i
    | some larger => ∃ i, (∀ j < i, f j = g j) ∧ f i ≠ g i ∧ larger = decide (g i < f i) := by
  induction n with
  | zero =>
    intro i h
    omega
  | succ n ih =>
    rw [firstDifference_succ]
    cases hfirst : firstDifference f g n with
    | some larger =>
      rw [hfirst] at ih
      exact ih
    | none =>
      rw [hfirst] at ih
      by_cases h : f n = g n
      · simp only [h, ne_eq, not_true_eq_false, if_false, Option.or_none]
        intro i hi
        rcases Nat.lt_succ_iff_lt_or_eq.mp hi with hlt | rfl
        · exact ih i hlt
        · exact h
      · simp only [ne_eq, h, not_false_eq_true, if_true, Option.none_or]
        exact ⟨n, ih, h, rfl⟩

/-- The loop, with a tie decided by `tie`, is the lexicographic order with the tie as last place. -/
theorem firstDifference_getD {f g : Nat → α} {n : Nat} (hbeyond : ∀ i, n ≤ i → f i = g i)
    (tie : Bool) : (firstDifference f g n).getD tie = true ↔
      toLex g < toLex f ∨ f = g ∧ tie = true := by
  have hspec := firstDifference_spec f g n
  cases hfirst : firstDifference f g n with
  | none =>
    rw [hfirst] at hspec
    have heq : f = g := by
      funext i
      rcases Nat.lt_or_ge i n with h | h
      · exact hspec i h
      · exact hbeyond i h
    subst heq
    rw [Option.getD_none]
    refine ⟨fun htie => Or.inr ⟨rfl, htie⟩, ?_⟩
    rintro (⟨k, -, hlt⟩ | ⟨-, htie⟩)
    · exact absurd rfl (ne_of_lt hlt)
    · exact htie
  | some larger =>
    rw [hfirst] at hspec
    obtain ⟨i, hbefore, hne, rfl⟩ := hspec
    have hdiffer : f ≠ g := fun heq => hne (congrFun heq i)
    simp only [Option.getD_some, decide_eq_true_eq, hdiffer, false_and, or_false]
    constructor
    · intro hlt
      exact ⟨i, fun j hj => (hbefore j hj).symm, hlt⟩
    · -- a smaller sequence is smaller at the same position
      rintro ⟨k, hk, hlt⟩
      rcases Nat.lt_trichotomy k i with h | rfl | h
      · exact absurd (hbefore k h).symm (ne_of_lt hlt)
      · exact hlt
      · exact absurd (hk i h).symm hne

end Loop

theorem padded_append_default (default : α) (l : List α) :
    padded default (l ++ [default]) = padded default l := by
  funext i
  change (l ++ [default]).getD i default = l.getD i default
  rw [List.getD_eq_getElem?_getD, List.getD_eq_getElem?_getD, List.getElem?_append]
  split
  · rfl
  · rename_i h
    rw [List.getElem?_eq_none (Nat.not_lt.mp h)]
    cases hend : i - l.length <;> rfl

end Lib
