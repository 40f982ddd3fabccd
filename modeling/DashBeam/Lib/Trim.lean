import Mathlib.Data.List.DropRight
import Mathlib.Data.List.Infix

/-!
# Trimming and cutting lists

`trimEnds p` drops what satisfies `p` at both ends, and `Trimmed p` says that there is nothing to drop.
Trimming a list that has only such elements around a trimmed one gives the trimmed one.
-/

namespace Lib

variable {α : Type}

/-- Without the elements at either end that satisfy `p`. -/
def trimEnds (p : α → Bool) (l : List α) : List α := (l.dropWhile p).rdropWhile p

/-- Neither end satisfies `p`. -/
structure Trimmed (p : α → Bool) (l : List α) : Prop where
  head : ∀ a, l.head? = some a → p a = false
  last : ∀ a, l.getLast? = some a → p a = false

theorem trimmed_of_all {p : α → Bool} {l : List α} (h : ∀ a ∈ l, p a = false) : Trimmed p l :=
  ⟨fun a ha => h a (List.mem_of_head? ha), fun a ha => h a (List.mem_of_getLast? ha)⟩

theorem head?_dropWhile {p : α → Bool} {l : List α} {a : α} (h : (l.dropWhile p).head? = some a) :
    p a = false := by
  have hnot := List.head?_dropWhile_not p l
  rw [h] at hnot
  simpa using hnot

theorem head?_of_isPrefix {l l' : List α} {a : α} (hpre : l <+: l') (h : l.head? = some a) :
    l'.head? = some a := by
  obtain ⟨rest, rfl⟩ := hpre
  rw [List.head?_append, h]
  rfl

theorem last_rdropWhile {p : α → Bool} {l : List α} {a : α}
    (h : (l.rdropWhile p).getLast? = some a) : p a = false := by
  obtain ⟨hne, hlast⟩ := List.mem_getLast?_eq_getLast h
  have hnot := List.rdropWhile_last_not p l hne
  rw [← hlast] at hnot
  simpa using hnot

theorem trimmed_trimEnds (p : α → Bool) (l : List α) : Trimmed p (trimEnds p l) := by
  constructor
  · intro a ha
    exact head?_dropWhile (head?_of_isPrefix (List.rdropWhile_prefix p _) ha)
  · intro a ha
    exact last_rdropWhile ha

theorem trimEnds_isInfix (p : α → Bool) (l : List α) : trimEnds p l <:+: l :=
  (List.rdropWhile_prefix p _).isInfix.trans (List.dropWhile_suffix p).isInfix

theorem mem_of_mem_trimEnds {p : α → Bool} {l : List α} {a : α} (h : a ∈ trimEnds p l) : a ∈ l :=
  (trimEnds_isInfix p l).subset h

theorem dropWhile_congr {p q : α → Bool} {l : List α} (h : ∀ a ∈ l, p a = q a) :
    l.dropWhile p = l.dropWhile q := by
  induction l with
  | nil => rfl
  | cons a l ih =>
    rw [List.forall_mem_cons] at h
    rw [List.dropWhile_cons, List.dropWhile_cons, h.1, ih h.2]

theorem trimEnds_congr {p q : α → Bool} {l : List α} (h : ∀ a ∈ l, p a = q a) :
    trimEnds p l = trimEnds q l := by
  have hback : ∀ a ∈ (l.dropWhile q).reverse, p a = q a :=
    fun a ha => h a ((List.dropWhile_sublist q).subset (List.mem_reverse.mp ha))
  rw [trimEnds, dropWhile_congr h, List.rdropWhile, dropWhile_congr hback]
  rfl

theorem dropWhile_of_head {p : α → Bool} {l : List α}
    (h : ∀ a, l.head? = some a → p a = false) : l.dropWhile p = l := by
  cases l with
  | nil => rfl
  | cons a l => rw [List.dropWhile_cons, if_neg (by rw [h a rfl]; exact Bool.false_ne_true)]

theorem rdropWhile_of_last {p : α → Bool} {l : List α}
    (h : ∀ a, l.getLast? = some a → p a = false) : l.rdropWhile p = l := by
  rw [List.rdropWhile_eq_self_iff]
  intro hne
  rw [h _ (List.getLast?_eq_some_getLast hne)]
  exact Bool.false_ne_true

theorem trimEnds_of_trimmed {p : α → Bool} {l : List α} (h : Trimmed p l) : trimEnds p l = l := by
  rw [trimEnds, dropWhile_of_head h.head, rdropWhile_of_last h.last]

theorem dropWhile_append_of_all {p : α → Bool} {front l : List α} (h : ∀ a ∈ front, p a = true) :
    (front ++ l).dropWhile p = l.dropWhile p := by
  induction front with
  | nil => rfl
  | cons a front ih =>
    rw [List.forall_mem_cons] at h
    rw [List.cons_append, List.dropWhile_cons, if_pos h.1, ih h.2]

theorem rdropWhile_append_of_all {p : α → Bool} {l back : List α} (h : ∀ a ∈ back, p a = true) :
    (l ++ back).rdropWhile p = l.rdropWhile p := by
  have hreverse : ∀ a ∈ back.reverse, p a = true := fun a ha => h a (List.mem_reverse.mp ha)
  rw [List.rdropWhile, List.reverse_append, dropWhile_append_of_all hreverse, List.rdropWhile]

theorem trimEnds_surrounded {p : α → Bool} {front l back : List α} (hfront : ∀ a ∈ front, p a = true)
    (hback : ∀ a ∈ back, p a = true) (hne : l ≠ []) (h : Trimmed p l) :
    trimEnds p (front ++ l ++ back) = l := by
  have hhead : ∀ a, (l ++ back).head? = some a → p a = false := by
    intro a ha
    rw [List.head?_append_of_ne_nil l hne] at ha
    exact h.head a ha
  rw [trimEnds, List.append_assoc, dropWhile_append_of_all hfront, dropWhile_of_head hhead,
    rdropWhile_append_of_all hback, rdropWhile_of_last h.last]

/-- What satisfies `p` around a list makes no difference. -/
theorem trimEnds_append_of_all {p : α → Bool} {front l back : List α}
    (hfront : ∀ a ∈ front, p a = true) (hback : ∀ a ∈ back, p a = true) :
    trimEnds p (front ++ l ++ back) = trimEnds p l := by
  rw [trimEnds, trimEnds, List.append_assoc, dropWhile_append_of_all hfront, List.dropWhile_append]
  split
  · rename_i hempty
    have hall : back.dropWhile p = [] := by
      have h := dropWhile_append_of_all (l := []) hback
      rwa [List.append_nil] at h
    rw [List.isEmpty_iff.mp hempty, hall]
  · exact rdropWhile_append_of_all hback

theorem rdropWhile_append_cons {p : α → Bool} {x : α} (hx : p x = false) (front back : List α) :
    (front ++ x :: back).rdropWhile p = front ++ x :: back.rdropWhile p := by
  rw [List.rdropWhile, List.rdropWhile, List.reverse_append, List.reverse_cons, List.append_assoc,
    List.singleton_append, List.dropWhile_append]
  split
  · rename_i hempty
    rw [List.isEmpty_iff.mp hempty, List.dropWhile_cons, hx]
    simp
  · simp

theorem trimEnds_append_cons {p : α → Bool} {x : α} (hx : p x = false) {l : List α}
    (h : Trimmed p l) (rest : List α) :
    trimEnds p (l ++ x :: rest) = l ++ x :: rest.rdropWhile p := by
  have hhead : ∀ a, (l ++ x :: rest).head? = some a → p a = false := by
    intro a ha
    cases l with
    | nil =>
      obtain rfl := Option.some.inj ha
      exact hx
    | cons b l => exact h.head a ha
  rw [trimEnds, dropWhile_of_head hhead, rdropWhile_append_cons hx]

theorem head?_splitOn [DecidableEq α] (a : α) (l : List α) :
    (l.splitOn a).head? = some (l.takeWhile (· ≠ a)) := by
  induction l with
  | nil => rfl
  | cons x l ih =>
    rw [List.splitOn_cons_eq_if_modifyHead, List.takeWhile_cons]
    by_cases hx : x = a
    · simp [hx]
    · simp [hx, List.head?_modifyHead, ih]

theorem mem_splitOn_of_mem [DecidableEq α] {a x : α} {l : List α} (h : x ∈ l) (hx : x ≠ a) :
    ∃ piece ∈ l.splitOn a, x ∈ piece := by
  induction l with
  | nil => exact absurd h List.not_mem_nil
  | cons y l ih =>
    rw [List.splitOn_cons_eq_if_modifyHead]
    by_cases hy : y = a
    · have hmem : x ∈ l := by
        rcases List.mem_cons.mp h with rfl | h
        · exact absurd hy hx
        · exact h
      obtain ⟨piece, hpiece, hin⟩ := ih hmem
      rw [if_pos (beq_iff_eq.mpr hy)]
      exact ⟨piece, List.mem_cons_of_mem _ hpiece, hin⟩
    · rw [if_neg (by simpa using hy)]
      cases hsplit : l.splitOn a with
      | nil => exact absurd hsplit (List.splitOn_ne_nil _ _)
      | cons first rest =>
        rw [hsplit] at ih
        rw [List.modifyHead_cons]
        rcases List.mem_cons.mp h with rfl | h
        · exact ⟨_, List.mem_cons_self, List.mem_cons_self⟩
        · obtain ⟨piece, hpiece, hin⟩ := ih h
          rcases List.mem_cons.mp hpiece with rfl | hpiece
          · exact ⟨_, List.mem_cons_self, List.mem_cons_of_mem _ hin⟩
          · exact ⟨piece, List.mem_cons_of_mem _ hpiece, hin⟩

theorem mem_of_mem_splitOn [DecidableEq α] {a x : α} {l piece : List α} (h : piece ∈ l.splitOn a)
    (hx : x ∈ piece) : x ∈ l := by
  induction l generalizing piece with
  | nil =>
    rw [List.splitOn_nil, List.mem_singleton] at h
    rwa [h] at hx
  | cons y l ih =>
    rw [List.splitOn_cons_eq_if_modifyHead] at h
    split at h
    · rcases List.mem_cons.mp h with rfl | h
      · exact absurd hx List.not_mem_nil
      · exact List.mem_cons_of_mem _ (ih h hx)
    · cases hsplit : l.splitOn a with
      | nil => exact absurd hsplit (List.splitOn_ne_nil _ _)
      | cons first rest =>
        rw [hsplit] at h ih
        rw [List.modifyHead_cons] at h
        rcases List.mem_cons.mp h with rfl | h
        · rcases List.mem_cons.mp hx with rfl | hx
          · exact List.mem_cons_self
          · exact List.mem_cons_of_mem _ (ih List.mem_cons_self hx)
        · exact List.mem_cons_of_mem _ (ih (List.mem_cons_of_mem _ h) hx)

theorem notMem_of_mem_splitOn [DecidableEq α] {a : α} {l piece : List α} (h : piece ∈ l.splitOn a) :
    a ∉ piece := by
  induction l generalizing piece with
  | nil =>
    rw [List.splitOn_nil, List.mem_singleton] at h
    rw [h]
    exact List.not_mem_nil
  | cons y l ih =>
    rw [List.splitOn_cons_eq_if_modifyHead] at h
    split at h
    · rcases List.mem_cons.mp h with rfl | h
      · exact List.not_mem_nil
      · exact ih h
    · rename_i hy
      cases hsplit : l.splitOn a with
      | nil => exact absurd hsplit (List.splitOn_ne_nil _ _)
      | cons first rest =>
        rw [hsplit] at h ih
        rw [List.modifyHead_cons] at h
        rcases List.mem_cons.mp h with rfl | h
        · rw [List.mem_cons, not_or]
          exact ⟨fun heq => hy (beq_iff_eq.mpr heq.symm), ih List.mem_cons_self⟩
        · exact ih (List.mem_cons_of_mem _ h)

end Lib
