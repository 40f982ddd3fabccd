import Mathlib.Data.List.Pairwise
import Mathlib.Order.Defs.LinearOrder
import Mathlib.Order.Lattice

/-!
# Maps in the order of their keys

`SortedMap κ ν` is a list of entries whose keys ascend, so its values come out in the order of their
keys and no key twice. What an operation does is said by what is found under a key after it.
-/

namespace Lib

/-- A finite map as its entries, with ascending keys. -/
structure SortedMap (κ ν : Type) [LinearOrder κ] where
  entries : List (κ × ν)
  sorted : entries.Pairwise fun a b => a.1 < b.1

namespace SortedMap

variable {κ ν : Type} [LinearOrder κ]

def empty : SortedMap κ ν := ⟨[], List.Pairwise.nil⟩

def get (m : SortedMap κ ν) (key : κ) : Option ν := m.entries.lookup key

/-- Puts an entry in its place, instead of one of the same key. -/
def insertEntry (key : κ) (value : ν) : List (κ × ν) → List (κ × ν)
  | [] => [(key, value)]
  | head :: rest =>
    if key < head.1 then (key, value) :: head :: rest
    else if key = head.1 then (key, value) :: rest
    else head :: insertEntry key value rest

theorem mem_insertEntry {key : κ} {value : ν} {entries : List (κ × ν)} {entry : κ × ν}
    (h : entry ∈ insertEntry key value entries) : entry = (key, value) ∨ entry ∈ entries := by
  induction entries with
  | nil => exact Or.inl (List.mem_singleton.mp h)
  | cons head rest ih =>
    rw [insertEntry] at h
    split at h
    · exact List.mem_cons.mp h
    · split at h
      · rcases List.mem_cons.mp h with h | h
        · exact Or.inl h
        · exact Or.inr (List.mem_cons_of_mem _ h)
      · rcases List.mem_cons.mp h with h | h
        · exact Or.inr (h ▸ List.mem_cons_self)
        · exact (ih h).imp id (List.mem_cons_of_mem _)

theorem sorted_insertEntry (key : κ) (value : ν) {entries : List (κ × ν)}
    (h : entries.Pairwise fun a b => a.1 < b.1) :
    (insertEntry key value entries).Pairwise fun a b => a.1 < b.1 := by
  induction entries with
  | nil => exact List.pairwise_singleton _ _
  | cons head rest ih =>
    obtain ⟨hhead, hrest⟩ := List.pairwise_cons.mp h
    rw [insertEntry]
    split
    · rename_i hlt
      refine List.pairwise_cons.mpr ⟨fun entry hentry => ?_, h⟩
      rcases List.mem_cons.mp hentry with rfl | hentry
      · exact hlt
      · exact lt_trans hlt (hhead entry hentry)
    · rename_i hnot
      split
      · rename_i heq
        refine List.pairwise_cons.mpr ⟨fun entry hentry => ?_, hrest⟩
        exact heq ▸ hhead entry hentry
      · rename_i hne
        refine List.pairwise_cons.mpr ⟨fun entry hentry => ?_, ih hrest⟩
        rcases mem_insertEntry hentry with rfl | hentry
        · exact lt_of_le_of_ne (not_lt.mp hnot) (Ne.symm hne)
        · exact hhead entry hentry

def insert (m : SortedMap κ ν) (key : κ) (value : ν) : SortedMap κ ν :=
  ⟨insertEntry key value m.entries, sorted_insertEntry key value m.sorted⟩

def erase (m : SortedMap κ ν) (key : κ) : SortedMap κ ν :=
  ⟨m.entries.filter fun entry => entry.1 ≠ key, m.sorted.filter _⟩

/-- Changes the value of a key in place. -/
def modify (m : SortedMap κ ν) (key : κ) (f : ν → ν) : SortedMap κ ν where
  entries := m.entries.map fun entry => if entry.1 = key then (entry.1, f entry.2) else entry
  sorted := by
    refine List.Pairwise.map _ (fun a b hlt => ?_) m.sorted
    have hkey : ∀ entry : κ × ν,
        (if entry.1 = key then (entry.1, f entry.2) else entry).1 = entry.1 := by
      intro entry
      split <;> rfl
    rwa [hkey, hkey]

/-! ## What is found -/

theorem lookup_cons_if (key : κ) (head : κ × ν) (rest : List (κ × ν)) :
    (head :: rest).lookup key = if key = head.1 then some head.2 else rest.lookup key := by
  rw [List.lookup_cons]
  by_cases h : key = head.1
  · rw [beq_iff_eq.mpr h, if_pos h]
  · rw [beq_eq_false_iff_ne.mpr h, if_neg h]

theorem get_eq_some {m : SortedMap κ ν} {key : κ} {value : ν} :
    m.get key = some value ↔ (key, value) ∈ m.entries := by
  obtain ⟨entries, hsorted⟩ := m
  rw [get]
  dsimp only
  induction entries with
  | nil => simp
  | cons head rest ih =>
    obtain ⟨hhead, hrest⟩ := List.pairwise_cons.mp hsorted
    rw [lookup_cons_if, List.mem_cons]
    by_cases hkey : key = head.1
    · have hnot : (key, value) ∉ rest := by
        intro hmem
        have hlt := hhead _ hmem
        rw [← hkey] at hlt
        exact lt_irrefl _ hlt
      rw [if_pos hkey, or_iff_left hnot, Prod.ext_iff, Option.some.injEq]
      exact ⟨fun h => ⟨hkey, h.symm⟩, fun h => h.2.symm⟩
    · have hne : (key, value) ≠ head := fun h => hkey (congrArg Prod.fst h)
      rw [if_neg hkey, ih hrest, or_iff_right hne]

theorem lookup_insertEntry (key : κ) (value : ν) (entries : List (κ × ν)) (other : κ) :
    (insertEntry key value entries).lookup other =
      if other = key then some value else entries.lookup other := by
  induction entries with
  | nil => exact lookup_cons_if other (key, value) []
  | cons head rest ih =>
    rw [insertEntry]
    split
    · exact lookup_cons_if other (key, value) (head :: rest)
    · split
      · rename_i heq
        rw [lookup_cons_if, lookup_cons_if, heq]
        split <;> rfl
      · rename_i hne
        rw [lookup_cons_if, lookup_cons_if, ih]
        by_cases h : other = key
        · rw [if_pos h, if_pos h, if_neg (h ▸ hne)]
        · rw [if_neg h, if_neg h]

theorem get_insert (m : SortedMap κ ν) (key : κ) (value : ν) (other : κ) :
    (m.insert key value).get other = if other = key then some value else m.get other :=
  lookup_insertEntry key value m.entries other

theorem get_erase (m : SortedMap κ ν) (key other : κ) :
    (m.erase key).get other = if other = key then none else m.get other := by
  refine Option.ext fun value => ?_
  rw [get_eq_some, erase, List.mem_filter, ← get_eq_some, decide_eq_true_eq]
  by_cases h : other = key <;> simp [h]

theorem get_modify (m : SortedMap κ ν) (key : κ) (f : ν → ν) (other : κ) :
    (m.modify key f).get other = if other = key then (m.get other).map f else m.get other := by
  obtain ⟨entries, hsorted⟩ := m
  simp only [get, modify]
  clear hsorted
  induction entries with
  | nil => simp
  | cons head rest ih =>
    rw [List.map_cons, lookup_cons_if, lookup_cons_if, ih]
    by_cases hhead : head.1 = key
    · rw [if_pos hhead]
      by_cases h : other = key
      · rw [if_pos h, if_pos h, if_pos (h.trans hhead.symm), if_pos (h.trans hhead.symm)]
        rfl
      · rw [if_neg h, if_neg h]
        have hne : other ≠ head.1 := fun heq => h (heq.trans hhead)
        rw [if_neg hne, if_neg hne]
    · rw [if_neg hhead]
      by_cases h : other = key
      · have hne : other ≠ head.1 := fun heq => hhead (heq.symm.trans h)
        rw [if_pos h, if_pos h, if_neg hne, if_neg hne]
      · rw [if_neg h, if_neg h]

end SortedMap

end Lib
