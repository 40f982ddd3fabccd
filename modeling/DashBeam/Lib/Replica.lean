import Mathlib.Data.Set.Insert
import Mathlib.Tactic.Common

/-!
# A replica of a set that is kept by news

A source set is copied into a replica by news of what came and went, delivered in order. A piece of
news that something came starts a refetch, and the refetch puts it into the replica. `Synced` says that
every difference between the two is still to be told: an element that the replica misses has news or a
refetch on the way, an element that it has too much has news on the way, and whatever is in the source
was told last as having come. Each thing that can happen to the source, the replica or the news has a
rule that keeps `Synced`, and once nothing is on the way the sets are equal.
-/

namespace Lib

/-- An element came or went. -/
inductive News (α : Type)
  | found (a : α)
  | lost (a : α)
  deriving DecidableEq, Repr

structure Synced {α : Type} (source replica refetching : Set α) (news : List (News α)) : Prop where
  ordered : ∀ a ∈ source, ∀ front back, news = front ++ .lost a :: back → .found a ∈ back
  missing : ∀ a ∈ source, a ∈ replica ∨ .found a ∈ news ∨ a ∈ refetching
  surplus : ∀ a ∈ replica, a ∈ source ∨ .lost a ∈ news

namespace Synced

variable {α : Type} {source replica refetching : Set α} {news : List (News α)}

theorem empty : Synced (∅ : Set α) ∅ ∅ [] where
  ordered _ ha := absurd ha (Set.notMem_empty _)
  missing _ ha := absurd ha (Set.notMem_empty _)
  surplus _ ha := absurd ha (Set.notMem_empty _)

theorem eq_of_quiet (h : Synced source replica refetching news) (hnews : news = [])
    (hrefetching : ∀ a, a ∉ refetching) : replica = source := by
  ext a
  constructor
  · intro ha
    rcases h.surplus a ha with hsource | hlost
    · exact hsource
    · rw [hnews] at hlost
      cases hlost
  · intro ha
    rcases h.missing a ha with hreplica | hfound | hfetch
    · exact hreplica
    · rw [hnews] at hfound
      cases hfound
    · exact absurd hfetch (hrefetching a)

theorem mono (h : Synced source replica refetching news) {refetching' : Set α}
    (hsub : ∀ a ∈ source, a ∈ refetching → a ∈ refetching') :
    Synced source replica refetching' news where
  ordered := h.ordered
  missing a ha := (h.missing a ha).imp_right (Or.imp_right (hsub a ha))
  surplus := h.surplus

theorem came (h : Synced source replica refetching news) (a : α) :
    Synced (insert a source) replica refetching (news ++ [.found a]) where
  ordered b hb front back hsplit := by
    rcases List.append_eq_append_iff.mp hsplit with ⟨mid, hfront, hback⟩ | ⟨mid, hnews, hback⟩
    · -- the lost one would be the news of the arrival, or stand after it
      cases mid with
      | nil => cases hback
      | cons x mid =>
        obtain ⟨-, htail⟩ := List.cons.inj hback
        cases mid <;> cases htail
    · cases mid with
      | nil => cases hback
      | cons x mid =>
        obtain ⟨rfl, rfl⟩ := List.cons.inj hback
        rcases Set.mem_insert_iff.mp hb with rfl | hb
        · exact List.mem_append_right _ (List.mem_singleton_self _)
        · exact List.mem_append_left _ (h.ordered b hb front mid hnews)
  missing b hb := by
    rcases Set.mem_insert_iff.mp hb with rfl | hb
    · exact Or.inr (Or.inl (List.mem_append_right _ (List.mem_singleton_self _)))
    · rcases h.missing b hb with hreplica | hfound | hfetch
      · exact Or.inl hreplica
      · exact Or.inr (Or.inl (List.mem_append_left _ hfound))
      · exact Or.inr (Or.inr hfetch)
  surplus b hb := by
    rcases h.surplus b hb with hsource | hlost
    · exact Or.inl (Set.mem_insert_of_mem a hsource)
    · exact Or.inr (List.mem_append_left _ hlost)

/-- An element goes without being told, and the replica does not have it or has news of an earlier
departure to come. -/
theorem dropped (h : Synced source replica refetching news) {a : α}
    (ha : a ∈ source → a ∈ replica → .lost a ∈ news) :
    Synced (source \ {a}) replica refetching news where
  ordered b hb := h.ordered b hb.1
  missing b hb := h.missing b hb.1
  surplus b hb := by
    rcases h.surplus b hb with hsource | hlost
    · by_cases heq : b = a
      · subst heq
        exact Or.inr (ha hsource hb)
      · exact Or.inl ⟨hsource, heq⟩
    · exact Or.inr hlost

theorem went (h : Synced source replica refetching news) (a : α) :
    Synced (source \ {a}) replica refetching (news ++ [.lost a]) where
  ordered b hb front back hsplit := by
    rcases List.append_eq_append_iff.mp hsplit with ⟨mid, hfront, hback⟩ | ⟨mid, hnews, hback⟩
    · cases mid with
      | nil =>
        obtain ⟨heq, -⟩ := List.cons.inj hback
        cases heq
        exact absurd rfl hb.2
      | cons x mid =>
        obtain ⟨-, htail⟩ := List.cons.inj hback
        cases mid <;> cases htail
    · cases mid with
      | nil =>
        obtain ⟨heq, -⟩ := List.cons.inj hback
        cases heq
        exact absurd rfl hb.2
      | cons x mid =>
        obtain ⟨rfl, rfl⟩ := List.cons.inj hback
        exact List.mem_append_left _ (h.ordered b hb.1 front mid hnews)
  missing b hb := by
    rcases h.missing b hb.1 with hreplica | hfound | hfetch
    · exact Or.inl hreplica
    · exact Or.inr (Or.inl (List.mem_append_left _ hfound))
    · exact Or.inr (Or.inr hfetch)
  surplus b hb := by
    rcases h.surplus b hb with hsource | hlost
    · by_cases heq : b = a
      · subst heq
        exact Or.inr (List.mem_append_right _ (List.mem_singleton_self _))
      · exact Or.inl ⟨hsource, heq⟩
    · exact Or.inr (List.mem_append_left _ hlost)

theorem heardFound {a : α} (h : Synced source replica refetching (.found a :: news)) :
    Synced source replica (insert a refetching) news where
  ordered b hb front back hsplit := h.ordered b hb (.found a :: front) back (by rw [hsplit]; rfl)
  missing b hb := by
    rcases h.missing b hb with hreplica | hfound | hfetch
    · exact Or.inl hreplica
    · rcases List.mem_cons.mp hfound with heq | hfound
      · cases heq
        exact Or.inr (Or.inr (Set.mem_insert _ _))
      · exact Or.inr (Or.inl hfound)
    · exact Or.inr (Or.inr (Set.mem_insert_of_mem _ hfetch))
  surplus b hb := by
    rcases h.surplus b hb with hsource | hlost
    · exact Or.inl hsource
    · rcases List.mem_cons.mp hlost with heq | hlost
      · cases heq
      · exact Or.inr hlost

theorem heardLost {a : α} (h : Synced source replica refetching (.lost a :: news)) :
    Synced source (replica \ {a}) refetching news where
  ordered b hb front back hsplit := h.ordered b hb (.lost a :: front) back (by rw [hsplit]; rfl)
  missing b hb := by
    by_cases heq : b = a
    · subst heq
      exact Or.inr (Or.inl (h.ordered b hb [] news rfl))
    · rcases h.missing b hb with hreplica | hfound | hfetch
      · exact Or.inl ⟨hreplica, heq⟩
      · rcases List.mem_cons.mp hfound with hhead | hfound
        · cases hhead
        · exact Or.inr (Or.inl hfound)
      · exact Or.inr (Or.inr hfetch)
  surplus b hb := by
    rcases h.surplus b hb.1 with hsource | hlost
    · exact Or.inl hsource
    · rcases List.mem_cons.mp hlost with heq | hlost
      · cases heq
        exact absurd rfl hb.2
      · exact Or.inr hlost

/-- A refetch puts an element into the replica, which is in the source or has news of its departure to
come. -/
theorem refetched (h : Synced source replica refetching news) {a : α}
    (ha : a ∈ source ∨ .lost a ∈ news) {refetching' : Set α}
    (hrest : refetching \ {a} ⊆ refetching') :
    Synced source (insert a replica) refetching' news where
  ordered := h.ordered
  missing b hb := by
    by_cases heq : b = a
    · subst heq
      exact Or.inl (Set.mem_insert _ _)
    · rcases h.missing b hb with hreplica | hfound | hfetch
      · exact Or.inl (Set.mem_insert_of_mem _ hreplica)
      · exact Or.inr (Or.inl hfound)
      · exact Or.inr (Or.inr (hrest ⟨hfetch, heq⟩))
  surplus b hb := by
    rcases Set.mem_insert_iff.mp hb with rfl | hb
    · exact ha
    · exact h.surplus b hb

theorem overwritten (h : Synced source replica refetching news) {replica' : Set α}
    (hsurplus : ∀ a ∈ replica', a ∈ source ∨ .lost a ∈ news)
    (hmissing : ∀ a ∈ source, a ∈ replica' ∨ .found a ∈ news ∨ a ∈ refetching) :
    Synced source replica' refetching news where
  ordered := h.ordered
  missing := hmissing
  surplus := hsurplus

end Synced

end Lib
