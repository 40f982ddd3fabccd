import Mathlib.Algebra.BigOperators.Group.Finset.Basic
import Mathlib.Algebra.GroupWithZero.Nat
import Mathlib.Algebra.Order.BigOperators.Group.List
import Mathlib.Algebra.Order.Group.Nat
import Mathlib.Data.List.AList

/-!
# Sums over the entries of a map

`Map κ ν` is Mathlib's association list with one value type, and `Map.sumOf f m` the sum of `f` over
its entries. Taking a key out and putting a value in are the two operations every update is made of,
so the lemmas are about those: the sum splits off the entry of a key, and the entries of the other
keys stay.
-/

namespace Lib

/-- A finite map with values of one type. -/
abbrev Map (κ ν : Type) : Type := AList fun _ : κ => ν

namespace Map

set_option linter.unusedSectionVars false

variable {κ ν : Type} [DecidableEq κ]

def size (m : Map κ ν) : Nat := m.entries.length

/-- The sum of `f` over the entries. -/
def sumOf (f : κ → ν → Nat) (m : Map κ ν) : Nat := (m.entries.map fun e => f e.1 e.2).sum

theorem sumOf_erase (f : κ → ν → Nat) {m : Map κ ν} {k : κ} {v : ν} (h : m.lookup k = some v) :
    sumOf f m = f k v + sumOf f (m.erase k) := by
  have hmem : k ∈ m.entries.keys := AList.lookup_isSome.mp (by rw [h]; rfl)
  obtain ⟨v', front, back, hfront, hentries, herase⟩ := List.exists_of_kerase hmem
  have hlookup : v' ∈ m.lookup k := by
    rw [AList.mem_lookup_iff, hentries]
    simp
  rw [h, Option.mem_some_iff] at hlookup
  subst hlookup
  have hrest : (m.erase k).entries = front ++ back := herase
  rw [sumOf, sumOf, hentries, hrest]
  simp only [List.map_append, List.map_cons, List.sum_append, List.sum_cons]
  omega

theorem sumOf_insert (f : κ → ν → Nat) (m : Map κ ν) (k : κ) (v : ν) :
    sumOf f (m.insert k v) = f k v + sumOf f (m.erase k) := by
  have hentries : (AList.insert k v m).entries = ⟨k, v⟩ :: (m.erase k).entries :=
    AList.entries_insert
  rw [sumOf, sumOf, hentries, List.map_cons, List.sum_cons]

theorem erase_of_lookup_none {m : Map κ ν} {k : κ} (h : m.lookup k = none) : m.erase k = m := by
  have hnot : k ∉ m.entries.keys := AList.lookup_eq_none.mp h
  exact AList.ext (List.kerase_of_notMem_keys hnot)

/-- Two summands that agree on every entry. -/
theorem sumOf_congr {f g : κ → ν → Nat} {m : Map κ ν}
    (h : ∀ k v, m.lookup k = some v → f k v = g k v) : sumOf f m = sumOf g m := by
  rw [sumOf, sumOf]
  congr 1
  apply List.map_congr_left
  intro e he
  exact h e.1 e.2 (AList.mem_lookup_iff.mpr he)

theorem sumOf_le {f g : κ → ν → Nat} {m : Map κ ν}
    (h : ∀ k v, m.lookup k = some v → f k v ≤ g k v) : sumOf f m ≤ sumOf g m := by
  rw [sumOf, sumOf]
  apply List.sum_le_sum
  intro e he
  exact h e.1 e.2 (AList.mem_lookup_iff.mpr he)

theorem sumOf_eq_sum {f : κ → ν → Nat} {g : κ → Nat} {m : Map κ ν}
    (h : ∀ k v, m.lookup k = some v → f k v = g k) : sumOf f m = ∑ k ∈ m.keys.toFinset, g k := by
  have hkeys : (AList.keys m).Nodup := m.nodupKeys
  rw [List.sum_toFinset g hkeys, sumOf]
  congr 1
  change _ = (m.entries.map Sigma.fst).map g
  rw [List.map_map]
  exact List.map_congr_left fun e he => h e.1 e.2 (AList.mem_lookup_iff.mpr he)

theorem size_eq_sumOf (m : Map κ ν) : size m = sumOf (fun _ _ => 1) m := by
  rw [size, sumOf, List.map_const', List.sum_replicate]
  simp

theorem size_erase {m : Map κ ν} {k : κ} {v : ν} (h : m.lookup k = some v) :
    size m = 1 + size (m.erase k) := by
  rw [size_eq_sumOf, size_eq_sumOf, sumOf_erase _ h]

theorem size_insert (m : Map κ ν) (k : κ) (v : ν) :
    size (m.insert k v) = 1 + size (m.erase k) := by
  rw [size_eq_sumOf, size_eq_sumOf, sumOf_insert]

theorem sumOf_le_size_mul {f : κ → ν → Nat} {m : Map κ ν} {bound : Nat}
    (h : ∀ k v, m.lookup k = some v → f k v ≤ bound) : sumOf f m ≤ bound * size m := by
  have hconst : sumOf (fun _ _ => bound) m = bound * size m := by
    rw [sumOf, size, List.map_const', List.sum_replicate]
    simp [Nat.mul_comm]
  exact (sumOf_le h).trans_eq hconst

end Map

end Lib
