import Mathlib.Algebra.Order.BigOperators.Group.Finset
import Mathlib.Data.List.Count
import Mathlib.Data.List.Nodup

/-!
# Numbering repeated names

A list of names is made distinct by giving the `k`-th repetition of a name its `k`-th label. The
pairs of a name and the number of its earlier occurrences are always distinct, so the labels are
distinct exactly when no label that is given to a repetition is itself a name of the list, as long as
labels of repetitions determine the name and the number.
-/

namespace Lib

variable {ν : Type} [DecidableEq ν]

/-- Each name with the number of its earlier occurrences, `seen` counting those before the list. -/
def occurrencesFrom (seen : ν → Nat) : List ν → List (ν × Nat)
  | [] => []
  | n :: ns => (n, seen n) :: occurrencesFrom (Function.update seen n (seen n + 1)) ns

/-- Each name with the number of its earlier occurrences. -/
def occurrences (names : List ν) : List (ν × Nat) := occurrencesFrom (fun _ => 0) names

/-- The list with the `k`-th repetition of a name replaced by its `k`-th label. -/
def numbered (label : ν → Nat → ν) (names : List ν) : List ν :=
  (occurrences names).map fun e => label e.1 e.2

/-- What makes a label usable: the first occurrence keeps its name, and the labels of repetitions
are never given twice. -/
structure Labels (label : ν → Nat → ν) : Prop where
  first : ∀ n, label n 0 = n
  repeated : ∀ {n m j k}, 0 < j → 0 < k → label n j = label m k → n = m ∧ j = k

theorem length_occurrencesFrom (seen : ν → Nat) (names : List ν) :
    (occurrencesFrom seen names).length = names.length := by
  induction names generalizing seen with
  | nil => rfl
  | cons n ns ih => rw [occurrencesFrom, List.length_cons, ih, List.length_cons]

theorem mem_occurrencesFrom [BEq ν] [LawfulBEq ν] {seen : ν → Nat} {names : List ν} {n : ν} {k : Nat} :
    (n, k) ∈ occurrencesFrom seen names ↔ seen n ≤ k ∧ k < seen n + names.count n := by
  induction names generalizing seen with
  | nil => simp [occurrencesFrom]
  | cons m ms ih =>
    rw [occurrencesFrom, List.mem_cons, ih]
    by_cases h : m = n
    · subst h
      simp only [Function.update_self, List.count_cons_self, Prod.mk.injEq, true_and]
      omega
    · rw [Function.update_of_ne (Ne.symm h), List.count_cons_of_ne h]
      have hne : ¬ (n, k) = (m, seen m) := fun heq => h (congrArg Prod.fst heq).symm
      simp only [hne, false_or]

theorem nodup_occurrencesFrom (seen : ν → Nat) (names : List ν) :
    (occurrencesFrom seen names).Nodup := by
  induction names generalizing seen with
  | nil => exact List.nodup_nil
  | cons n ns ih =>
    rw [occurrencesFrom, List.nodup_cons]
    refine ⟨?_, ih _⟩
    rw [mem_occurrencesFrom, Function.update_self]
    omega

theorem mem_occurrences [BEq ν] [LawfulBEq ν] {names : List ν} {n : ν} {k : Nat} :
    (n, k) ∈ occurrences names ↔ k < names.count n := by
  rw [occurrences, mem_occurrencesFrom]
  omega

@[simp]
theorem length_numbered (label : ν → Nat → ν) (names : List ν) :
    (numbered label names).length = names.length := by
  rw [numbered, List.length_map, occurrences, length_occurrencesFrom]

theorem occurrencesFrom_of_nodup {seen : ν → Nat} {names : List ν} (h : names.Nodup)
    (hseen : ∀ n ∈ names, seen n = 0) :
    occurrencesFrom seen names = names.map fun n => (n, 0) := by
  induction names generalizing seen with
  | nil => rfl
  | cons n ns ih =>
    rw [List.nodup_cons] at h
    rw [List.forall_mem_cons] at hseen
    have hrest : ∀ m ∈ ns, Function.update seen n (seen n + 1) m = 0 := by
      intro m hm
      have hne : m ≠ n := fun heq => h.1 (heq ▸ hm)
      rw [Function.update_of_ne hne]
      exact hseen.2 m hm
    rw [occurrencesFrom, ih h.2 hrest, hseen.1, List.map_cons]

theorem numbered_of_nodup {label : ν → Nat → ν} (L : Labels label) {names : List ν}
    (h : names.Nodup) : numbered label names = names := by
  rw [numbered, occurrences, occurrencesFrom_of_nodup h fun _ _ => rfl, List.map_map]
  exact (List.map_congr_left fun n _ => L.first n).trans (List.map_id names)

theorem mem_numbered [BEq ν] [LawfulBEq ν] {label : ν → Nat → ν} {names : List ν} {a : ν} :
    a ∈ numbered label names ↔ ∃ n k, k < names.count n ∧ label n k = a := by
  rw [numbered, List.mem_map]
  constructor
  · rintro ⟨⟨n, k⟩, hmem, heq⟩
    exact ⟨n, k, mem_occurrences.mp hmem, heq⟩
  · rintro ⟨n, k, hk, heq⟩
    exact ⟨(n, k), mem_occurrences.mpr hk, heq⟩

omit [DecidableEq ν] in
/-- Two labelled occurrences agree when they are the same or when one of them is a repetition whose
label is the name of the other. -/
theorem Labels.eq_or_clash {label : ν → Nat → ν} (L : Labels label) {n m : ν} {j k : Nat}
    (h : label n j = label m k) :
    (n = m ∧ j = k) ∨ (0 < j ∧ k = 0 ∧ label n j = m) ∨ (j = 0 ∧ 0 < k ∧ label m k = n) := by
  rcases Nat.eq_zero_or_pos j with rfl | hj
  · rw [L.first] at h
    rcases Nat.eq_zero_or_pos k with rfl | hk
    · rw [L.first] at h
      exact Or.inl ⟨h, rfl⟩
    · exact Or.inr (Or.inr ⟨rfl, hk, h.symm⟩)
  · rcases Nat.eq_zero_or_pos k with rfl | hk
    · rw [L.first] at h
      exact Or.inr (Or.inl ⟨hj, rfl, h⟩)
    · exact Or.inl (L.repeated hj hk h)

/-- Numbering makes a list distinct exactly when no label given to a repetition is a name of the
list. -/
theorem nodup_numbered_iff [BEq ν] [LawfulBEq ν] {label : ν → Nat → ν} (L : Labels label)
    (names : List ν) :
    (numbered label names).Nodup ↔
      ∀ n k, 0 < k → k < names.count n → label n k ∉ names := by
  have hinj : (numbered label names).Nodup ↔
      ∀ e ∈ occurrences names, ∀ e' ∈ occurrences names,
        label e.1 e.2 = label e'.1 e'.2 → e = e' :=
    List.nodup_map_iff_inj_on (nodup_occurrencesFrom _ _)
  rw [hinj]
  constructor
  · intro h n k hk hcount hmem
    have hpos : 0 < names.count (label n k) := List.count_pos_iff.mpr hmem
    have heq := h (n, k) (mem_occurrences.mpr hcount) (label n k, 0) (mem_occurrences.mpr hpos)
      (L.first (label n k)).symm
    have hzero : k = 0 := congrArg Prod.snd heq
    omega
  · rintro h ⟨n, j⟩ hn ⟨m, k⟩ hm heq
    rw [mem_occurrences] at hn hm
    rcases L.eq_or_clash heq with ⟨rfl, rfl⟩ | ⟨hj, -, rfl⟩ | ⟨-, hk, rfl⟩
    · rfl
    · exact absurd (List.count_pos_iff.mp (Nat.zero_lt_of_lt hm)) (h n j hj hn)
    · exact absurd (List.count_pos_iff.mp (Nat.zero_lt_of_lt hn)) (h m k hk hm)

theorem nodup_of_card_toFinset {l : List ν} (h : l.toFinset.card = l.length) : l.Nodup :=
  Multiset.toFinset_card_eq_card_iff_nodup.mp h

theorem card_occurrences_le_two {label : ν → Nat → ν} (L : Labels label) (names : List ν) (a : ν) :
    ((occurrences names).toFinset.filter fun e => label e.1 e.2 = a).card ≤ 2 := by
  have hinj : Set.InjOn (fun e : ν × Nat => decide (e.2 = 0))
      ((occurrences names).toFinset.filter fun e => label e.1 e.2 = a) := by
    rintro ⟨n, j⟩ hn ⟨m, k⟩ hm heq
    simp only [Finset.coe_filter, Set.mem_ofPred_eq] at hn hm
    have hzero : j = 0 ↔ k = 0 := decide_eq_decide.mp heq
    rcases L.eq_or_clash (hn.2.trans hm.2.symm) with ⟨rfl, rfl⟩ | ⟨hj, hk, -⟩ | ⟨hj, hk, -⟩
    · rfl
    · omega
    · omega
  have hle := Finset.card_le_card_of_injOn _ (fun _ _ => Finset.mem_coe.mpr (Finset.mem_univ _)) hinj
  rwa [Finset.card_univ, Fintype.card_bool] at hle

theorem length_le_two_mul_card {label : ν → Nat → ν} (L : Labels label) (names : List ν) :
    names.length ≤ 2 * (numbered label names).toFinset.card := by
  have himage : (numbered label names).toFinset =
      (occurrences names).toFinset.image fun e => label e.1 e.2 := by
    ext a
    simp only [numbered, List.mem_toFinset, List.mem_map, Finset.mem_image]
  have hcard : (occurrences names).toFinset.card = names.length := by
    rw [occurrences, List.toFinset_card_of_nodup (nodup_occurrencesFrom _ _),
      length_occurrencesFrom]
  rw [himage, ← hcard]
  apply Finset.card_le_mul_card_image
  intro a _
  exact card_occurrences_le_two L names a

theorem count_numbered [BEq ν] [LawfulBEq ν] (label : ν → Nat → ν) (names : List ν) (a : ν) :
    (numbered label names).count a =
      ((occurrences names).toFinset.filter fun e => label e.1 e.2 = a).card := by
  have hnodup : (occurrences names).Nodup := nodup_occurrencesFrom _ _
  have hfilter : (occurrences names).toFinset.filter (fun e => label e.1 e.2 = a) =
      ((occurrences names).filter fun e => decide (label e.1 e.2 = a)).toFinset := by
    rw [List.toFinset_filter]
    simp only [decide_eq_true_eq]
  rw [hfilter, List.toFinset_card_of_nodup (hnodup.filter _), numbered, List.count_eq_countP,
    List.countP_map, List.countP_eq_length_filter]
  congr 1
  refine List.filter_congr fun e _ => ?_
  rw [Function.comp_apply, Bool.eq_iff_iff, beq_iff_eq, decide_eq_true_iff]

theorem count_numbered_le_two [BEq ν] [LawfulBEq ν] {label : ν → Nat → ν} (L : Labels label)
    (names : List ν) (a : ν) :
    (numbered label names).count a ≤ 2 := by
  rw [count_numbered]
  exact card_occurrences_le_two L names a

theorem two_le_count_numbered [BEq ν] [LawfulBEq ν] {label : ν → Nat → ν} (L : Labels label)
    {names : List ν} {a : ν} :
    2 ≤ (numbered label names).count a ↔
      a ∈ names ∧ ∃ n k, 0 < k ∧ k < names.count n ∧ label n k = a := by
  have hmem : ∀ e : ν × Nat, e ∈ (occurrences names).toFinset.filter (fun e => label e.1 e.2 = a) ↔
      e.2 < names.count e.1 ∧ label e.1 e.2 = a := by
    rintro ⟨n, k⟩
    rw [Finset.mem_filter, List.mem_toFinset, mem_occurrences]
  rw [count_numbered]
  constructor
  · intro htwo
    obtain ⟨⟨n, j⟩, hn, ⟨m, k⟩, hm, hne⟩ := Finset.one_lt_card.mp htwo
    obtain ⟨hj, hnlabel⟩ := (hmem _).mp hn
    obtain ⟨hk, hmlabel⟩ := (hmem _).mp hm
    rcases L.eq_or_clash (hnlabel.trans hmlabel.symm) with
      ⟨rfl, rfl⟩ | ⟨hpos, rfl, heq⟩ | ⟨rfl, hpos, heq⟩
    · exact absurd rfl hne
    · rw [L.first] at hmlabel
      exact ⟨hmlabel ▸ List.count_pos_iff.mp hk, n, j, hpos, hj, hnlabel⟩
    · rw [L.first] at hnlabel
      exact ⟨hnlabel ▸ List.count_pos_iff.mp hj, m, k, hpos, hk, hmlabel⟩
  · rintro ⟨hname, n, k, hpos, hk, hlabel⟩
    refine Finset.one_lt_card.mpr ⟨(a, 0), (hmem _).mpr ⟨List.count_pos_iff.mpr hname, L.first a⟩,
      (n, k), (hmem _).mpr ⟨hk, hlabel⟩, ?_⟩
    intro heq
    have hzero := congrArg Prod.snd heq
    dsimp only at hzero
    omega

/-- A count that wraps at `M` and is at least half of what it counts has not wrapped. -/
theorem lt_of_mod_eq_of_le_two_mul {M n c : Nat} (hM : 0 < M) (hmod : n % M = c) (htwice : n ≤ 2 * c) :
    n < M := by
  by_contra hge
  have hlt := Nat.mod_lt n hM
  have hdiv := Nat.div_add_mod n M
  have hone : 1 ≤ n / M := (Nat.one_le_div_iff hM).mpr (by omega)
  have hmul : M ≤ M * (n / M) := Nat.le_mul_of_pos_right M hone
  omega

section Merged

variable [BEq ν] [LawfulBEq ν] {label : ν → Nat → ν} {names front back : List ν}

theorem mem_merged (a : ν) :
    a ∈ (numbered label front ++ back).toFinset ↔
      (∃ n k, k < front.count n ∧ label n k = a) ∨ a ∈ back := by
  rw [List.mem_toFinset, List.mem_append, mem_numbered]

theorem count_eq_one_of_merged (L : Labels label)
    (hsplit : ∀ n, names.count n = front.count n + back.count n)
    (hsame : (numbered label names).toFinset = (numbered label front ++ back).toFinset)
    (hclear : ∀ n k, 0 < k → k < names.count n → label n k ∉ names) :
    ∀ n ∈ back, names.count n = 1 := by
  intro n hback
  have hbackPos : 0 < back.count n := List.count_pos_iff.mpr hback
  have hcount := hsplit n
  by_contra hne
  -- the last label of the name is not among those of `front`
  have hlast : label n (names.count n - 1) ∈ (numbered label names).toFinset := by
    rw [List.mem_toFinset, mem_numbered]
    exact ⟨n, names.count n - 1, by omega, rfl⟩
  rw [hsame, mem_merged] at hlast
  have hnot := hclear n (names.count n - 1) (by omega) (by omega)
  rcases hlast with ⟨m, k, hk, heq⟩ | hlast
  · have hm : m ∈ names := by
      have hcountM := hsplit m
      exact List.count_pos_iff.mp (by omega)
    rcases L.eq_or_clash heq with ⟨rfl, rfl⟩ | ⟨-, hzero, -⟩ | ⟨-, -, heq⟩
    · omega
    · omega
    · exact hnot (heq ▸ hm)
  · have hlastCount := hsplit (label n (names.count n - 1))
    have hpos : 0 < back.count (label n (names.count n - 1)) := List.count_pos_iff.mpr hlast
    exact hnot (List.count_pos_iff.mp (by omega))

theorem merged_eq_of_count_eq_one (L : Labels label)
    (hsplit : ∀ n, names.count n = front.count n + back.count n)
    (honce : ∀ n ∈ back, names.count n = 1) :
    (numbered label names).toFinset = (numbered label front ++ back).toFinset := by
  ext a
  rw [mem_merged, List.mem_toFinset, mem_numbered]
  constructor
  · rintro ⟨n, k, hk, rfl⟩
    have hcount := hsplit n
    by_cases hback : n ∈ back
    · have hone := honce n hback
      obtain rfl : k = 0 := by omega
      rw [L.first]
      exact Or.inr hback
    · have hzero : back.count n = 0 := List.count_eq_zero.mpr hback
      exact Or.inl ⟨n, k, by omega, rfl⟩
  · rintro (⟨n, k, hk, rfl⟩ | hback)
    · have hcount := hsplit n
      exact ⟨n, k, by omega, rfl⟩
    · exact ⟨a, 0, by rw [honce a hback]; exact Nat.one_pos, L.first a⟩

/-- Numbering all names of a list, against numbering those of `front` only and keeping those of
`back`: both give the same names, and as many as a counter of `M` values says, exactly when the
counter does not wrap, a name of `back` occurs once in all, and no label of a repetition is a
name. -/
theorem numbered_eq_merged_iff (L : Labels label) {M : Nat} (hM : 0 < M)
    (hsplit : ∀ n, names.count n = front.count n + back.count n) :
    ((numbered label names).toFinset = (numbered label front ++ back).toFinset ∧
      names.length % M = (numbered label front ++ back).toFinset.card) ↔
    names.length < M ∧ (∀ n ∈ back, names.count n = 1) ∧
      ∀ n k, 0 < k → k < names.count n → label n k ∉ names := by
  constructor
  · rintro ⟨hsame, hcard⟩
    rw [← hsame] at hcard
    have hlt := lt_of_mod_eq_of_le_two_mul hM hcard (length_le_two_mul_card L names)
    rw [Nat.mod_eq_of_lt hlt] at hcard
    have hnodup : (numbered label names).Nodup :=
      nodup_of_card_toFinset (by rw [← hcard, length_numbered])
    have hclear := (nodup_numbered_iff L names).mp hnodup
    exact ⟨hlt, count_eq_one_of_merged L hsplit hsame hclear, hclear⟩
  · rintro ⟨hlt, honce, hclear⟩
    have hsame := merged_eq_of_count_eq_one L hsplit honce
    refine ⟨hsame, ?_⟩
    rw [← hsame, Nat.mod_eq_of_lt hlt,
      List.toFinset_card_of_nodup ((nodup_numbered_iff L names).mpr hclear), length_numbered]

end Merged

/-- Two lists of one length have the same elements, and as many as they are long, exactly when
neither repeats an element and one is contained in the other. -/
theorem toFinset_eq_and_length_iff {l l' : List ν} (hlength : l.length = l'.length) :
    (l.toFinset = l'.toFinset ∧ l.length = l'.toFinset.card) ↔
      l'.Nodup ∧ l.Nodup ∧ ∀ a ∈ l, a ∈ l' := by
  constructor
  · rintro ⟨hsame, hcard⟩
    have hnodup' : l'.Nodup := nodup_of_card_toFinset (by omega)
    have hnodup : l.Nodup := nodup_of_card_toFinset (by rw [hsame, hcard])
    refine ⟨hnodup', hnodup, ?_⟩
    intro a ha
    rw [← List.mem_toFinset, ← hsame]
    exact List.mem_toFinset.mpr ha
  · rintro ⟨hnodup', hnodup, hsub⟩
    have hcard' := List.toFinset_card_of_nodup hnodup'
    have hcard := List.toFinset_card_of_nodup hnodup
    refine ⟨Finset.eq_of_subset_of_card_le ?_ ?_, ?_⟩
    · intro a ha
      exact List.mem_toFinset.mpr (hsub a (List.mem_toFinset.mp ha))
    · omega
    · omega

/-- A list is split in one way at the last occurrence of an element. -/
theorem append_cons_inj_last {α : Type} {a : α} {front front' back back' : List α}
    (hback : a ∉ back) (hback' : a ∉ back') (h : front ++ a :: back = front' ++ a :: back') :
    front = front' ∧ back = back' := by
  rcases List.append_eq_append_iff.mp h with ⟨mid, rfl, hmid⟩ | ⟨mid, rfl, hmid⟩
  · cases mid with
    | nil => exact ⟨(List.append_nil front).symm, (List.cons.inj hmid).2⟩
    | cons b mid =>
      refine absurd ?_ hback
      rw [(List.cons.inj hmid).2]
      exact List.mem_append_right mid List.mem_cons_self
  · cases mid with
    | nil => exact ⟨List.append_nil front', (List.cons.inj hmid).2.symm⟩
    | cons b mid =>
      refine absurd ?_ hback'
      rw [(List.cons.inj hmid).2]
      exact List.mem_append_right mid List.mem_cons_self

end Lib
