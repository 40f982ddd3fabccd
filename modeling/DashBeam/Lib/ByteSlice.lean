import DashBeam.Lib.Unicode

/-!
# Slicing texts at byte positions

A text of scalar values is sliced at a number of bytes. That works where the position is between two
characters and nowhere else: `sliceFrom` has no result in the middle of a character or beyond the end.
-/

namespace Lib

/-- The text from a byte position on. -/
def sliceFrom : Text → Nat → Option Text
  | text, 0 => some text
  | [], _ + 1 => none
  | c :: text, n + 1 => if c.utf8Size ≤ n + 1 then sliceFrom text (n + 1 - c.utf8Size) else none

/-- The byte position of the first `c`. -/
def findChar (c : Char) (text : Text) : Option Nat :=
  if c ∈ text then some (utf8 (text.takeWhile fun x => x ≠ c)).length else none

/-- The position is between two characters, or at an end. -/
def IsBoundary (text : Text) (n : Nat) : Prop :=
  ∃ front back, text = front ++ back ∧ (utf8 front).length = n

theorem length_utf8_append (front back : Text) :
    (utf8 (front ++ back)).length = (utf8 front).length + (utf8 back).length := by
  rw [utf8, List.flatMap_append, List.length_append]
  rfl

theorem sliceFrom_zero (text : Text) : sliceFrom text 0 = some text := by cases text <;> rfl

theorem sliceFrom_cons (c : Char) (text : Text) (n : Nat) :
    sliceFrom (c :: text) (c.utf8Size + n) = sliceFrom text n := by
  have hpos := c.utf8Size_pos
  obtain ⟨m, hm⟩ : ∃ m, c.utf8Size + n = m + 1 := ⟨c.utf8Size + n - 1, by omega⟩
  rw [hm, sliceFrom, if_pos (by omega), ← hm, Nat.add_sub_cancel_left]

theorem sliceFrom_append (front back : Text) (n : Nat) :
    sliceFrom (front ++ back) ((utf8 front).length + n) = sliceFrom back n := by
  induction front with
  | nil =>
    rw [show (utf8 []).length = 0 from rfl, Nat.zero_add]
    rfl
  | cons c front ih => rw [List.cons_append, length_utf8_cons, Nat.add_assoc, sliceFrom_cons, ih]

theorem sliceFrom_eq_some {text back : Text} {n : Nat} :
    sliceFrom text n = some back ↔ ∃ front, text = front ++ back ∧ (utf8 front).length = n := by
  constructor
  · intro h
    induction text generalizing n with
    | nil =>
      cases n with
      | zero => exact ⟨[], Option.some.inj h, rfl⟩
      | succ n => cases h
    | cons c text ih =>
      cases n with
      | zero => exact ⟨[], Option.some.inj h, rfl⟩
      | succ n =>
        rw [sliceFrom] at h
        split at h
        · rename_i hle
          obtain ⟨front, rfl, hlength⟩ := ih h
          refine ⟨c :: front, rfl, ?_⟩
          rw [length_utf8_cons, hlength]
          omega
        · cases h
  · rintro ⟨front, rfl, rfl⟩
    have h := sliceFrom_append front back 0
    rwa [Nat.add_zero, sliceFrom_zero] at h

theorem sliceFrom_isSome {text : Text} {n : Nat} :
    (sliceFrom text n).isSome = true ↔ IsBoundary text n := by
  rw [Option.isSome_iff_exists]
  constructor
  · rintro ⟨back, h⟩
    obtain ⟨front, htext, hlength⟩ := sliceFrom_eq_some.mp h
    exact ⟨front, back, htext, hlength⟩
  · rintro ⟨front, back, htext, hlength⟩
    exact ⟨back, sliceFrom_eq_some.mpr ⟨front, htext, hlength⟩⟩

theorem findChar_eq_some {c : Char} {text : Text} {n : Nat} (h : findChar c text = some n) :
    ∃ front back, text = front ++ c :: back ∧ c ∉ front ∧ (utf8 front).length = n := by
  rw [findChar] at h
  split at h
  · rename_i hmem
    obtain ⟨front, back, rfl, hfront⟩ := List.eq_append_cons_of_mem hmem
    have htake : (front ++ c :: back).takeWhile (fun x => decide (x ≠ c)) = front := by
      have hall : ∀ x ∈ front, decide (x ≠ c) = true := by
        intro x hx
        exact decide_eq_true fun heq => hfront (heq ▸ hx)
      rw [List.takeWhile_append_of_pos hall, List.takeWhile_cons, if_neg (by simp), List.append_nil]
    rw [htake] at h
    exact ⟨front, back, rfl, hfront, Option.some.inj h⟩
  · cases h

theorem findChar_eq_none {c : Char} {text : Text} (h : findChar c text = none) : c ∉ text := by
  rw [findChar] at h
  split at h
  · cases h
  · assumption

end Lib
