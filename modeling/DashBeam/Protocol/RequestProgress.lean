import Mathlib.Algebra.Order.BigOperators.Group.Finset
import DashBeam.Protocol.Transmission

/-!
# What one request counts

The payload bytes of a get request after any reports, in any order: `credits` are the offsets that
count, each with the index of the blob it was reported for and cut to the size that blob was begun
with, and a request counts the largest credit of every payload blob.
-/

namespace DashBeam

open Lib

/-! ## What the reports credit -/

def currentBlob (current : Option (Nat × Nat)) : List BlobReport → Option (Nat × Nat)
  | [] => current
  | .started index size :: later => currentBlob (some (index, size)) later
  | .progress _ :: later => currentBlob current later

/-- What an offset reported for the current blob is worth. -/
def credit (current : Option (Nat × Nat)) (endOffset : Nat) : List (Nat × Nat) :=
  (current.map fun blob => (blob.1, min endOffset blob.2)).toList

def credits (current : Option (Nat × Nat)) : List BlobReport → List (Nat × Nat)
  | [] => []
  | .started index size :: later => credits (some (index, size)) later
  | .progress endOffset :: later => credit current endOffset ++ credits current later

/-- The largest credit of a blob, 0 if it has none. -/
def highest (index : Nat) (found : List (Nat × Nat)) : Nat :=
  ((found.filter fun entry => entry.1 = index).map Prod.snd).foldr max 0

def payloadIndices (found : List (Nat × Nat)) : Finset Nat :=
  (found.map Prod.fst).toFinset.filter fun index => firstPayloadBlobIndex ≤ index

/-- The largest credits of all payload blobs together. -/
def payloadOf (found : List (Nat × Nat)) : Nat :=
  ∑ index ∈ payloadIndices found, highest index found

/-- What the reports say was sent of the payload. -/
def reportedPayload (reports : List BlobReport) : Nat := payloadOf (credits none reports)

theorem currentBlob_append (current : Option (Nat × Nat)) (front back : List BlobReport) :
    currentBlob current (front ++ back) = currentBlob (currentBlob current front) back := by
  induction front generalizing current with
  | nil => rfl
  | cons report front ih => cases report <;> exact ih _

theorem credits_append (current : Option (Nat × Nat)) (front back : List BlobReport) :
    credits current (front ++ back) =
      credits current front ++ credits (currentBlob current front) back := by
  induction front generalizing current with
  | nil => rfl
  | cons report front ih =>
    cases report with
    | started index size => exact ih _
    | progress endOffset =>
      rw [List.cons_append, credits, credits, ih, List.append_assoc, currentBlob]

/-! ## The largest credits -/

theorem highest_append (index : Nat) (front back : List (Nat × Nat)) :
    highest index (front ++ back) = max (highest index front) (highest index back) := by
  induction front with
  | nil => simp [highest]
  | cons entry front ih =>
    rw [highest, highest] at ih
    rw [highest, highest, List.cons_append, List.filter_cons, List.filter_cons]
    split
    · rw [List.map_cons, List.map_cons, List.foldr_cons, List.foldr_cons, ih]
      exact (max_assoc _ _ _).symm
    · exact ih

theorem highest_eq_zero {index : Nat} {found : List (Nat × Nat)}
    (h : index ∉ found.map Prod.fst) : highest index found = 0 := by
  have hnone : (found.filter fun entry => entry.1 = index) = [] := by
    rw [List.filter_eq_nil_iff]
    intro entry hentry heq
    exact h (List.mem_map.mpr ⟨entry, hentry, of_decide_eq_true heq⟩)
  rw [highest, hnone]
  rfl

theorem highest_credit (index : Nat) (current : Option (Nat × Nat)) (endOffset : Nat) :
    highest index (credit current endOffset) =
      (current.filter fun blob => blob.1 = index).elim 0 fun blob => min endOffset blob.2 := by
  cases current with
  | none => rfl
  | some blob =>
    by_cases h : blob.1 = index <;> simp [credit, highest, Option.filter, h]

theorem payloadOf_eq_sum {found : List (Nat × Nat)} {indices : Finset Nat}
    (h : ∀ index ∈ payloadIndices found, index ∈ indices)
    (hpayload : ∀ index ∈ indices, firstPayloadBlobIndex ≤ index) :
    payloadOf found = ∑ index ∈ indices, highest index found := by
  refine Finset.sum_subset h fun index hindex hnot => highest_eq_zero fun hmem => hnot ?_
  rw [payloadIndices, Finset.mem_filter, List.mem_toFinset]
  exact ⟨hmem, hpayload index hindex⟩

theorem payloadOf_le_append (front back : List (Nat × Nat)) :
    payloadOf front ≤ payloadOf (front ++ back) := by
  have hsub : payloadIndices front ⊆ payloadIndices (front ++ back) := by
    intro index h
    rw [payloadIndices, Finset.mem_filter, List.mem_toFinset] at h ⊢
    rw [List.map_append, List.mem_append]
    exact ⟨Or.inl h.1, h.2⟩
  rw [payloadOf_eq_sum hsub fun index h => (Finset.mem_filter.mp h).2, payloadOf]
  refine Finset.sum_le_sum fun index _ => ?_
  rw [highest_append]
  exact le_max_left _ _

theorem payloadOf_overhead {front middle back : List (Nat × Nat)}
    (h : ∀ entry ∈ middle, entry.1 < firstPayloadBlobIndex) :
    payloadOf (front ++ middle ++ back) = payloadOf (front ++ back) := by
  have hindices : payloadIndices (front ++ middle ++ back) = payloadIndices (front ++ back) := by
    ext index
    simp only [payloadIndices, Finset.mem_filter, List.mem_toFinset, List.map_append,
      List.mem_append]
    constructor
    · rintro ⟨(hfront | hmiddle) | hback, hpayload⟩
      · exact ⟨Or.inl hfront, hpayload⟩
      · obtain ⟨entry, hentry, rfl⟩ := List.mem_map.mp hmiddle
        exact absurd (h entry hentry) (Nat.not_lt.mpr hpayload)
      · exact ⟨Or.inr hback, hpayload⟩
    · rintro ⟨hfront | hback, hpayload⟩
      · exact ⟨Or.inl (Or.inl hfront), hpayload⟩
      · exact ⟨Or.inr hback, hpayload⟩
  rw [payloadOf, payloadOf, hindices]
  refine Finset.sum_congr rfl fun index hindex => ?_
  have hzero : highest index middle = 0 := by
    refine highest_eq_zero fun hmem => ?_
    obtain ⟨entry, hentry, rfl⟩ := List.mem_map.mp hmem
    exact absurd (h entry hentry) (Nat.not_lt.mpr (Finset.mem_filter.mp hindex).2)
  rw [highest_append, highest_append, highest_append, hzero, Nat.max_zero]

/-! ## The request holds them -/

/-- The request knows the current blob and the largest credit of every blob. -/
structure Counts (reports : List BlobReport) (r : RequestProgress) : Prop where
  current : r.currentIndex = (currentBlob none reports).map Prod.fst
  size : ∀ index size, currentBlob none reports = some (index, size) →
    r.sizes.lookup index = some size
  ends : ∀ index, (r.ends.lookup index).getD 0 = highest index (credits none reports)

theorem counts_nil : Counts [] .new where
  current := rfl
  size := by
    intro index size h
    cases h
  ends := fun _ => rfl

theorem Counts.started {reports : List BlobReport} {r : RequestProgress} (h : Counts reports r)
    (index size : Nat) : Counts (reports ++ [.started index size]) (r.blobStarted index size) where
  current := by
    rw [currentBlob_append]
    rfl
  size := by
    intro index' size' hcurrent
    rw [currentBlob_append] at hcurrent
    cases hcurrent
    exact AList.lookup_insert _
  ends := by
    intro other
    have hsame : credits none (reports ++ [.started index size]) = credits none reports := by
      rw [credits_append]
      exact List.append_nil _
    rw [hsame, ← h.ends other, RequestProgress.blobStarted]
    by_cases hother : other = index
    · rw [hother, AList.lookup_insert]
      rfl
    · rw [AList.lookup_insert_ne hother]

theorem Counts.progress {reports : List BlobReport} {r : RequestProgress} (h : Counts reports r)
    (endOffset : Nat) : Counts (reports ++ [.progress endOffset]) (r.blobProgress endOffset) := by
  have hblob : currentBlob none (reports ++ [.progress endOffset]) = currentBlob none reports :=
    currentBlob_append _ _ _
  have hcredits : credits none (reports ++ [.progress endOffset]) =
      credits none reports ++ credit (currentBlob none reports) endOffset := by
    rw [credits_append, credits, credits, List.append_nil]
  cases hcurrent : currentBlob none reports with
  | none =>
    have hidle : r.blobProgress endOffset = r := by
      rw [RequestProgress.blobProgress, h.current, hcurrent]
      rfl
    rw [hidle]
    refine ⟨by rw [hblob]; exact h.current, by rw [hblob]; exact h.size, fun index => ?_⟩
    rw [hcredits, hcurrent, h.ends]
    exact congrArg (highest index) (List.append_nil _).symm
  | some blob =>
    obtain ⟨index, size⟩ := blob
    have hstep : r.blobProgress endOffset = { r with
        ends := r.ends.insert index (max ((r.ends.lookup index).getD 0) (min endOffset size)) } := by
      rw [RequestProgress.blobProgress, h.current, hcurrent]
      simp only [Option.map_some, h.size index size hcurrent]
    rw [hstep]
    refine ⟨by rw [hblob]; exact h.current, by rw [hblob]; exact h.size, fun other => ?_⟩
    rw [hcredits, hcurrent, highest_append, highest_credit, ← h.ends other]
    by_cases hother : other = index
    · subst hother
      simp [Option.filter]
    · have hne : index ≠ other := fun heq => hother heq.symm
      simp [AList.lookup_insert_ne hother, Option.filter, hne]

theorem counts_requestAfter (reports : List BlobReport) : Counts reports (requestAfter reports) := by
  induction reports using List.reverseRecOn with
  | nil => exact counts_nil
  | append_singleton reports report ih =>
    rw [requestAfter, List.foldl_append, List.foldl_cons, List.foldl_nil]
    cases report with
    | started index size => exact ih.started index size
    | progress endOffset => exact ih.progress endOffset

theorem payloadSum_requestAfter (reports : List BlobReport) :
    (requestAfter reports).payloadSum = reportedPayload reports := by
  have hr := counts_requestAfter reports
  have hsum : (requestAfter reports).payloadSum = ∑ index ∈ (requestAfter reports).ends.keys.toFinset,
      if firstPayloadBlobIndex ≤ index then highest index (credits none reports) else 0 := by
    refine Map.sumOf_eq_sum fun index reached hlookup => ?_
    rw [← hr.ends index, hlookup]
    rfl
  rw [hsum, ← Finset.sum_filter, reportedPayload, payloadOf]
  refine Finset.sum_congr_of_eq_on_inter ?_ ?_ fun _ _ _ => rfl
  · intro index hindex hnot
    refine highest_eq_zero fun hmem => hnot ?_
    rw [payloadIndices, Finset.mem_filter, List.mem_toFinset]
    exact ⟨hmem, (Finset.mem_filter.mp hindex).2⟩
  · intro index hindex hnot
    rw [← hr.ends index]
    have hnone : (requestAfter reports).ends.lookup index = none := by
      rw [AList.lookup_eq_none]
      intro hmem
      refine hnot (Finset.mem_filter.mpr ⟨List.mem_toFinset.mpr hmem, ?_⟩)
      exact (Finset.mem_filter.mp hindex).2
    rw [hnone]
    rfl

/-- A report before any blob was begun, or about the overhead, counts for nothing. -/
theorem reportedPayload_skip {front back : List BlobReport} {endOffset : Nat}
    (h : ∀ index size, currentBlob none front = some (index, size) →
      index < firstPayloadBlobIndex) :
    reportedPayload (front ++ .progress endOffset :: back) = reportedPayload (front ++ back) := by
  rw [reportedPayload, reportedPayload, credits_append, credits_append, credits,
    ← List.append_assoc]
  apply payloadOf_overhead
  intro entry hentry
  cases hcurrent : currentBlob none front with
  | none =>
    rw [hcurrent] at hentry
    cases hentry
  | some blob =>
    rw [hcurrent] at hentry
    obtain rfl := List.mem_singleton.mp hentry
    exact h blob.1 blob.2 hcurrent

/-- A request counts the largest offset reported for each payload blob, each cut to the size in force
then; the count never goes down, and reports before any blob or about the overhead do not enter it. -/
theorem payload_counts_reported (reports : List BlobReport)
    (hfits : reportedPayload reports < 2 ^ 64) :
    (requestAfter reports).payloadBytes = reportedPayload reports ∧
    (∀ earlier later, earlier <+: later → later <+: reports →
      (requestAfter earlier).payloadBytes ≤ (requestAfter later).payloadBytes) ∧
    ∀ front back endOffset, reports = front ++ .progress endOffset :: back →
      (∀ index size, currentBlob none front = some (index, size) → index < 2) →
      (requestAfter reports).payloadBytes = (requestAfter (front ++ back)).payloadBytes := by
  have hgrows : ∀ earlier later, earlier <+: later →
      reportedPayload earlier ≤ reportedPayload later := by
    rintro earlier later ⟨rest, rfl⟩
    rw [reportedPayload, reportedPayload, credits_append]
    exact payloadOf_le_append _ _
  have hexact : ∀ later, later <+: reports →
      (requestAfter later).payloadBytes = reportedPayload later := by
    intro later hlater
    rw [RequestProgress.payloadBytes, payloadSum_requestAfter]
    exact wrap_of_lt (Nat.lt_of_le_of_lt (hgrows later reports hlater) hfits)
  refine ⟨hexact reports (List.prefix_refl _), ?_, ?_⟩
  · intro earlier later hearlier hlater
    rw [hexact earlier (hearlier.trans hlater), hexact later hlater]
    exact hgrows earlier later hearlier
  · rintro front back endOffset rfl hcurrent
    rw [RequestProgress.payloadBytes, RequestProgress.payloadBytes, payloadSum_requestAfter,
      payloadSum_requestAfter, reportedPayload_skip hcurrent]

/-- A blob begun again with another size, with the metadata in between. -/
theorem payload_counts_reported_restart :
    (requestAfter [.progress 9, .started 2 100, .progress 80, .started 1 50, .progress 50,
      .started 2 60, .progress 90, .started 3 10, .progress 4]).payloadBytes = 84 :=
  (payload_counts_reported _ (by decide)).1

end DashBeam
