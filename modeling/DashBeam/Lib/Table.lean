import Mathlib.Data.List.Infix
import Mathlib.Data.List.Nodup

/-!
# Tables kept as lists

A table is a list of rows, and a row is changed in place: `updateFirst p f` rewrites the first row
that `p` finds, as a loop over `iter_mut().find(p)` does. A row of the new table is a row of the old
one that was not found, or the rewritten row. A table of keys and values is a map when no key has two
rows.
-/

namespace Lib

variable {α : Type}

/-- Rewrites the first row satisfying `p`. -/
def updateFirst (p : α → Bool) (f : α → α) : List α → List α
  | [] => []
  | a :: l => if p a then f a :: l else a :: updateFirst p f l

theorem updateFirst_of_none {p : α → Bool} {f : α → α} {l : List α} (h : l.find? p = none) :
    updateFirst p f l = l := by
  induction l with
  | nil => rfl
  | cons a l ih =>
    rw [List.find?_cons] at h
    split at h
    · cases h
    · rename_i hp
      rw [updateFirst, hp, ih h]
      rfl

/-- The rows of an updated table: the rewritten row and the rows left when the first match is
taken out. -/
theorem mem_updateFirst {p : α → Bool} {f : α → α} {l : List α} {a : α} (h : l.find? p = some a)
    {b : α} : b ∈ updateFirst p f l ↔ b = f a ∨ b ∈ l.eraseP p := by
  induction l with
  | nil => cases h
  | cons c l ih =>
    rw [List.find?_cons] at h
    by_cases hp : p c = true
    · rw [hp] at h
      obtain rfl := Option.some.inj h
      simp [updateFirst, hp]
    · simp only [Bool.not_eq_true] at hp
      rw [hp] at h
      simp only [updateFirst, hp, Bool.false_eq_true, if_false, List.mem_cons, ih h,
        List.eraseP_cons, cond_false]
      tauto

theorem mem_iff_found_or_other {p : α → Bool} {l : List α} {a : α} (h : l.find? p = some a)
    {b : α} : b ∈ l ↔ b = a ∨ b ∈ l.eraseP p := by
  induction l with
  | nil => cases h
  | cons c l ih =>
    rw [List.find?_cons] at h
    by_cases hp : p c = true
    · rw [hp] at h
      obtain rfl := Option.some.inj h
      simp [hp]
    · simp only [Bool.not_eq_true] at hp
      rw [hp] at h
      simp only [List.mem_cons, ih h, List.eraseP_cons, hp, cond_false]
      tauto

theorem find?_updateFirst {p : α → Bool} {f : α → α} {l : List α} {a : α} (h : l.find? p = some a)
    (hf : p (f a) = true) : (updateFirst p f l).find? p = some (f a) := by
  induction l with
  | nil => cases h
  | cons c l ih =>
    rw [List.find?_cons] at h
    by_cases hp : p c = true
    · rw [hp] at h
      obtain rfl := Option.some.inj h
      simp [updateFirst, hp, hf]
    · simp only [Bool.not_eq_true] at hp
      rw [hp] at h
      simp only [updateFirst, hp, Bool.false_eq_true, if_false, List.find?_cons]
      exact ih h

/-- A change that keeps what a search looks at and what is read off its result. -/
theorem find?_updateFirst_map {β : Type} {p q : α → Bool} {f : α → α} {g : α → β}
    (hq : ∀ a, q (f a) = q a) (hg : ∀ a, g (f a) = g a) (l : List α) :
    ((updateFirst p f l).find? q).map g = (l.find? q).map g := by
  induction l with
  | nil => rfl
  | cons a l ih =>
    rw [updateFirst]
    split
    · rw [List.find?_cons, List.find?_cons, hq]
      split
      · exact congrArg some (hg a)
      · rfl
    · rw [List.find?_cons, List.find?_cons]
      split
      · rfl
      · exact ih

/-- Rewriting the first match rewrites every match, when no two rows match. -/
theorem updateFirst_eq_map {p : α → Bool} {f : α → α} {l : List α}
    (h : l.Pairwise fun a b => ¬ (p a = true ∧ p b = true)) :
    updateFirst p f l = l.map fun a => if p a then f a else a := by
  induction l with
  | nil => rfl
  | cons a l ih =>
    rw [List.pairwise_cons] at h
    rw [updateFirst, List.map_cons]
    split
    · rename_i hp
      have hrest : l.map (fun b => if p b then f b else b) = l.map id :=
        List.map_congr_left fun b hb => if_neg fun hpb => h.1 b hb ⟨hp, hpb⟩
      rw [hrest, List.map_id]
    · rw [ih h.2]

/-- Taking out the first match takes out every match, when no two rows match. -/
theorem eraseP_eq_filter {p : α → Bool} {l : List α}
    (h : l.Pairwise fun a b => ¬ (p a = true ∧ p b = true)) :
    l.eraseP p = l.filter fun a => !p a := by
  induction l with
  | nil => rfl
  | cons a l ih =>
    rw [List.pairwise_cons] at h
    rw [List.eraseP_cons]
    cases hp : p a with
    | true =>
      have hrest : l.filter (fun b => !p b) = l := by
        rw [List.filter_eq_self]
        intro b hb
        have hpb : p b ≠ true := fun hpb => h.1 b hb ⟨hp, hpb⟩
        simpa using hpb
      simp [hp, hrest]
    | false => simp [hp, ih h.2]

/-- What is left of the front of a list when it is cut is what does not lie beyond the cut. -/
theorem mem_take_of_prefix {front l : List α} (hl : l.Nodup) (hfront : front <+: l) (n : Nat)
    {a : α} : a ∈ front.take n ↔ a ∈ front ∧ a ∉ l.drop n := by
  obtain ⟨back, rfl⟩ := hfront
  have hdisjoint : List.Disjoint ((front ++ back).take n) ((front ++ back).drop n) :=
    List.disjoint_of_nodup_append ((List.take_append_drop n _).symm ▸ hl)
  rw [List.take_append, List.drop_append] at hdisjoint
  constructor
  · intro h
    refine ⟨List.mem_of_mem_take h, ?_⟩
    rw [List.drop_append]
    exact hdisjoint (List.mem_append_left _ h)
  · rintro ⟨hmem, hnot⟩
    rw [← List.take_append_drop n front, List.mem_append] at hmem
    rw [List.drop_append] at hnot
    exact hmem.resolve_right fun hdrop => hnot (List.mem_append_left _ hdrop)

/-! ### Tables of keys and values -/

section Pairs

variable {κ ν : Type} [DecidableEq κ]

theorem lookup_replace (l : List (κ × ν)) (key other : κ) (value : ν) :
    (l.map fun entry => if entry.1 = key then (key, value) else entry).lookup other =
      if other = key then (l.lookup key).map fun _ => value else l.lookup other := by
  induction l with
  | nil => simp
  | cons entry l ih =>
    obtain ⟨k, v⟩ := entry
    rw [List.map_cons]
    by_cases hk : k = key
    · subst hk
      by_cases hother : other = k
      · simp [hother]
      · have hne : (other == k) = false := by simpa using hother
        simp [List.lookup_cons, hne, ih, hother]
    · have hkey : (key == k) = false := by simpa using Ne.symm hk
      by_cases hother : other = key
      · subst hother
        simp [List.lookup_cons, hk, hkey, ih]
      · simp [List.lookup_cons, hk, ih, hother]

/-- Reading a key of a table with one row a key after rows were dropped by their value. -/
theorem lookup_filter {l : List (κ × ν)} (h : (l.map Prod.fst).Nodup) (p : ν → Bool) (key : κ) :
    (l.filter fun entry => p entry.2).lookup key = (l.lookup key).filter p := by
  induction l with
  | nil => rfl
  | cons entry l ih =>
    obtain ⟨k, v⟩ := entry
    rw [List.map_cons, List.nodup_cons] at h
    have hrest := ih h.2
    by_cases hkey : key = k
    · subst hkey
      have hnone : l.lookup key = none := by
        rw [List.lookup_eq_none_iff]
        intro row hrow
        have hmem : row.1 ∈ l.map Prod.fst := List.mem_map_of_mem hrow
        have hne : key ≠ row.1 := fun heq => h.1 (heq ▸ hmem)
        simpa using hne
      rw [hnone] at hrest
      cases hp : p v with
      | true => simp [hp, Option.filter]
      | false => simp [hp, hrest, Option.filter]
    · have hne : (key == k) = false := by simpa using hkey
      cases hp : p v with
      | true => simp [hp, List.lookup_cons, hne, hrest]
      | false => simp [hp, List.lookup_cons, hne, hrest]

end Pairs

end Lib
