import DashBeam.Protocol.Ledger

/-!
# Both ends count the same bytes

The provider sends the blobs of a hash sequence in order: the root, the collection metadata, then the
files. It reports each blob begun and how far it has written it. The sender adds up the ends of the
blobs from index 2 on; the receiver knows only how many bytes came in altogether and takes the
overhead off. The two agree at every moment of the transmission.
-/

namespace DashBeam

open Lib

/-! ## The transmission -/

/-- What the provider reports of one request (`RequestUpdate::Started` and `Progress`). -/
inductive BlobReport where
  | started (index size : Nat)
  | progress (endOffset : Nat)
deriving DecidableEq, Repr

/-- The sender's accounting of a report. -/
def RequestProgress.report (r : RequestProgress) : BlobReport → RequestProgress
  | .started index size => r.blobStarted index size
  | .progress endOffset => r.blobProgress endOffset

/-- The sender's request after a list of reports. -/
def requestAfter (reports : List BlobReport) : RequestProgress :=
  reports.foldl RequestProgress.report .new

/-- `Transmits blobs reports begun written`: of `blobs`, sent in order, `begun` have been begun and
`written` bytes of the last one of these have been written, and `reports` are what the provider said
on the way. The next blob begins once the one before it is written to its end; an offset reported
late changes nothing. -/
inductive Transmits (blobs : List Nat) : List BlobReport → Nat → Nat → Prop
  | idle : Transmits blobs [] 0 0
  | begin {reports begun written size} (sent : Transmits blobs reports begun written)
      (done : ∀ last, begun = last + 1 → blobs[last]? = some written)
      (next : blobs[begun]? = some size) :
      Transmits blobs (reports ++ [.started begun size]) (begun + 1) 0
  | write {reports last written size} (endOffset : Nat)
      (sent : Transmits blobs reports (last + 1) written)
      (current : blobs[last]? = some size) (within : endOffset ≤ size) :
      Transmits blobs (reports ++ [.progress endOffset]) (last + 1) (max written endOffset)

/-- All bytes written so far: the blobs before the current one, and what is written of it. -/
def bytesWritten (blobs : List Nat) (begun written : Nat) : Nat :=
  (blobs.take (begun - 1)).sum + written

/-- The size of the hash-seq root: one hash for each child (`hash_seq.len().saturating_mul(32)`). -/
def rootBytes (childSizes : List Nat) : Nat := saturatingMul childSizes.length 32

/-- The receiver's byte count when its stream stands at `offset`. -/
def received (split : PayloadSizes) (offset : Nat) : Nat :=
  min (offset - split.overheadBytes) split.payloadBytes

/-! ## Where a transmission stands -/

theorem sum_take_succ {blobs : List Nat} {index size : Nat} (h : blobs[index]? = some size) :
    (blobs.take (index + 1)).sum = (blobs.take index).sum + size := by
  rw [List.take_add_one, h]
  simp

theorem sum_take_le (blobs : List Nat) {m n : Nat} (h : m ≤ n) :
    (blobs.take m).sum ≤ (blobs.take n).sum := by
  have hsplit : (blobs.take n).take m ++ (blobs.take n).drop m = blobs.take n :=
    List.take_append_drop m _
  have hsum := congrArg List.sum hsplit
  rw [List.sum_append, List.take_take, Nat.min_eq_left h] at hsum
  omega

/-- The sender's request in the middle of a transmission. Its payload is what was written past the
overhead, which ends where blob 2 begins. -/
structure Standing (blobs : List Nat) (begun written : Nat) (r : RequestProgress) : Prop where
  current : r.currentIndex = if begun = 0 then none else some (begun - 1)
  reached : ∀ last, begun = last + 1 → r.ends.lookup last = some written
  size : ∀ last, begun = last + 1 → r.sizes.lookup last = blobs[last]?
  ahead : ∀ index, begun ≤ index → r.ends.lookup index = none
  within : ∀ last, begun = last + 1 → ∃ size, blobs[last]? = some size ∧ written ≤ size
  idle : begun = 0 → written = 0
  payload : r.payloadSum = bytesWritten blobs begun written - (blobs.take 2).sum

theorem standing_idle (blobs : List Nat) : Standing blobs 0 0 .new where
  current := rfl
  reached := by intro last h; omega
  size := by intro last h; omega
  ahead := by intro index _; rfl
  within := by intro last h; omega
  idle := fun _ => rfl
  payload := by simp [bytesWritten]

/-- Beginning a blob writes nothing yet. -/
theorem bytesWritten_begin {blobs : List Nat} {begun written : Nat}
    (hidle : begun = 0 → written = 0)
    (done : ∀ last, begun = last + 1 → blobs[last]? = some written) :
    bytesWritten blobs (begun + 1) 0 = bytesWritten blobs begun written := by
  cases begun with
  | zero => simp [bytesWritten, hidle rfl]
  | succ last =>
    have hsum := sum_take_succ (done last rfl)
    show (blobs.take (last + 1)).sum + 0 = (blobs.take last).sum + written
    omega

theorem Standing.begin {blobs : List Nat} {begun written size : Nat} {r : RequestProgress}
    (hr : Standing blobs begun written r)
    (done : ∀ last, begun = last + 1 → blobs[last]? = some written)
    (next : blobs[begun]? = some size) :
    Standing blobs (begun + 1) 0 (r.blobStarted begun size) := by
  have hfresh := hr.ahead begun (Nat.le_refl _)
  refine ⟨rfl, ?_, ?_, ?_, ?_, ?_, ?_⟩
  · intro last h
    obtain rfl : begun = last := Nat.succ.inj h
    rw [RequestProgress.blobStarted, hfresh]
    exact AList.lookup_insert _
  · intro last h
    obtain rfl : begun = last := Nat.succ.inj h
    rw [next]
    exact AList.lookup_insert _
  · intro index h
    have hne : index ≠ begun := by omega
    have hahead := hr.ahead index (by omega)
    exact (AList.lookup_insert_ne hne).trans hahead
  · intro last h
    obtain rfl : begun = last := Nat.succ.inj h
    exact ⟨size, next, Nat.zero_le _⟩
  · intro h
    omega
  · have hsame : (r.blobStarted begun size).payloadSum = r.payloadSum := by
      rw [RequestProgress.payloadSum, RequestProgress.payloadSum, RequestProgress.blobStarted,
        Map.sumOf_insert, Map.erase_of_lookup_none hfresh, hfresh]
      simp
    rw [hsame, hr.payload, bytesWritten_begin hr.idle done]

theorem Standing.write {blobs : List Nat} {last written size endOffset : Nat} {r : RequestProgress}
    (hr : Standing blobs (last + 1) written r) (current : blobs[last]? = some size)
    (within : endOffset ≤ size) :
    Standing blobs (last + 1) (max written endOffset) (r.blobProgress endOffset) := by
  have hindex : r.currentIndex = some last := hr.current
  have hreached := hr.reached last rfl
  have hsize : r.sizes.lookup last = some size := (hr.size last rfl).trans current
  have heq : r.blobProgress endOffset
      = { r with ends := r.ends.insert last (max written endOffset) } := by
    simp [RequestProgress.blobProgress, hindex, hsize, hreached, Nat.min_eq_left within]
  have hwritten : written ≤ size := by
    obtain ⟨size', hsize', hle⟩ := hr.within last rfl
    obtain rfl := Option.some.inj (current.symm.trans hsize')
    exact hle
  rw [heq]
  refine ⟨hr.current, ?_, ?_, ?_, ?_, ?_, ?_⟩
  · intro last' h
    obtain rfl : last = last' := Nat.succ.inj h
    exact AList.lookup_insert _
  · intro last' h
    exact hr.size last' h
  · intro index h
    have hne : index ≠ last := by omega
    exact (AList.lookup_insert_ne hne).trans (hr.ahead index h)
  · intro last' h
    obtain rfl : last = last' := Nat.succ.inj h
    exact ⟨size, current, by omega⟩
  · intro h
    omega
  · have hnew : RequestProgress.payloadSum { r with ends := r.ends.insert last (max written endOffset) }
        = (if firstPayloadBlobIndex ≤ last then max written endOffset else 0)
          + Map.sumOf (fun index reached => if firstPayloadBlobIndex ≤ index then reached else 0)
            (r.ends.erase last) := Map.sumOf_insert _ _ _ _
    have hold : r.payloadSum
        = (if firstPayloadBlobIndex ≤ last then written else 0)
          + Map.sumOf (fun index reached => if firstPayloadBlobIndex ≤ index then reached else 0)
            (r.ends.erase last) := Map.sumOf_erase _ hreached
    have hpayload := hr.payload
    have hstep := sum_take_succ current
    have hbefore : bytesWritten blobs (last + 1) written = (blobs.take last).sum + written := rfl
    have hafter : bytesWritten blobs (last + 1) (max written endOffset)
        = (blobs.take last).sum + max written endOffset := rfl
    rw [hnew, hafter]
    rw [hold, hbefore] at hpayload
    -- before blob 2 everything written is overhead, from there on everything new is payload
    by_cases hlast : firstPayloadBlobIndex ≤ last
    · have hover := sum_take_le blobs hlast
      rw [if_pos hlast] at hpayload ⊢
      rw [firstPayloadBlobIndex] at hover
      omega
    · have hunder : (blobs.take (last + 1)).sum ≤ (blobs.take 2).sum := by
        apply sum_take_le
        rw [firstPayloadBlobIndex] at hlast
        omega
      rw [if_neg hlast] at hpayload ⊢
      omega

theorem requestAfter_snoc (reports : List BlobReport) (report : BlobReport) :
    requestAfter (reports ++ [report]) = (requestAfter reports).report report := by
  simp [requestAfter]

theorem standing {blobs : List Nat} {reports : List BlobReport} {begun written : Nat}
    (h : Transmits blobs reports begun written) :
    Standing blobs begun written (requestAfter reports) := by
  induction h with
  | idle => exact standing_idle blobs
  | begin sent done next ih =>
    rw [requestAfter_snoc]
    exact ih.begin done next
  | write endOffset sent current within ih =>
    rw [requestAfter_snoc]
    exact ih.write current within

theorem bytesWritten_le {blobs : List Nat} {begun written : Nat} {r : RequestProgress}
    (hr : Standing blobs begun written r) : bytesWritten blobs begun written ≤ blobs.sum := by
  have hall : (blobs.take blobs.length).sum = blobs.sum := by rw [List.take_length]
  cases begun with
  | zero =>
    rw [hr.idle rfl]
    simp [bytesWritten]
  | succ last =>
    obtain ⟨size, hsize, hle⟩ := hr.within last rfl
    have hstep := sum_take_succ hsize
    have hlast : last < blobs.length := (List.getElem?_eq_some_iff.mp hsize).1
    have htake := sum_take_le blobs (m := last + 1) (n := blobs.length) hlast
    show (blobs.take last).sum + written ≤ blobs.sum
    omega

/-! ## The sender's ledger -/

/-- What the share's progress task does with a report on `key`: a request that reports progress before
any blob is registered first. -/
def ShareProgress.report (s : ShareProgress) (key : RequestKey) (started : Bool) :
    BlobReport → ShareProgress
  | .started index size => s.blobStarted key index size
  | .progress endOffset =>
    (if started then s else s.ensureRequest key).blobProgress key endOffset

/-- The ledger of a share of `shareSize` bytes that serves one request. -/
def senderLedger (shareSize : Nat) (key : RequestKey) (reports : List BlobReport) : ShareProgress :=
  (reports.foldl (fun (s, started) report => (s.report key started report, true))
    (.new shareSize, false)).1

/-- The ledger with one active request and nothing retired. -/
def oneRequest (shareSize : Nat) (key : RequestKey) (r : RequestProgress) : ShareProgress where
  shareSize := shareSize
  active := (∅ : Map RequestKey RequestProgress).insert key r
  finishedBytes := 0
  finishedRequests := 0

theorem report_oneRequest (shareSize : Nat) (key : RequestKey) (r : RequestProgress)
    (report : BlobReport) :
    (oneRequest shareSize key r).report key true report
      = oneRequest shareSize key (r.report report) := by
  have hlookup : (oneRequest shareSize key r).active.lookup key = some r := AList.lookup_insert _
  cases report with
  | started index size =>
    rw [ShareProgress.report, ShareProgress.blobStarted, ShareProgress.requestOf, hlookup]
    simp [oneRequest, RequestProgress.report]
  | progress endOffset =>
    rw [ShareProgress.report, if_pos rfl, ShareProgress.blobProgress, hlookup]
    simp [oneRequest, RequestProgress.report]

theorem senderLedger_eq (shareSize : Nat) (key : RequestKey) (reports : List BlobReport)
    (hreports : reports ≠ []) :
    senderLedger shareSize key reports = oneRequest shareSize key (requestAfter reports) := by
  have hstate : reports.foldl (fun (s, started) report => (s.report key started report, true))
      (ShareProgress.new shareSize, false)
      = (oneRequest shareSize key (requestAfter reports), true) := by
    induction reports using List.reverseRecOn with
    | nil => exact absurd rfl hreports
    | append_singleton reports report ih =>
      rw [List.foldl_append, requestAfter_snoc]
      by_cases hempty : reports = []
      · subst hempty
        cases report with
        | started index size => rfl
        | progress endOffset =>
          have hfirst := report_oneRequest shareSize key .new (.progress endOffset)
          exact congrArg (·, true) hfirst
      · rw [ih hempty]
        simp only [List.foldl_cons, List.foldl_nil, report_oneRequest]
  rw [senderLedger, hstate]

theorem snapshot_oneRequest {shareSize : Nat} (hfits : shareSize < 2 ^ 64) (key : RequestKey)
    (r : RequestProgress) :
    (oneRequest shareSize key r).snapshot = ⟨min r.payloadBytes shareSize, shareSize⟩ := by
  have hsize : Map.size (oneRequest shareSize key r).active = 1 := Map.size_insert _ _ _
  have hsum : (oneRequest shareSize key r).activeSum = min r.payloadBytes shareSize := by
    rw [ShareProgress.activeSum, oneRequest, Map.sumOf_insert]
    rfl
  have hsound : (oneRequest shareSize key r).Sound := by
    refine ⟨Nat.zero_le _, ?_⟩
    rw [hsize]
    show shareSize * (0 + 1) < 2 ^ 64
    omega
  rw [hsound.snapshot_eq, hsize, hsum]
  simp [oneRequest]

/-! ## Agreement -/

/-- The receiver's split of a hash sequence whose bytes fit. -/
theorem splitChildSizes_eq {metadata : Nat} {files : List Nat}
    (hfits : 32 * (files.length + 1) + metadata + files.sum < 2 ^ 64) :
    splitChildSizes (rootBytes (metadata :: files)) (metadata :: files)
      = ⟨32 * (files.length + 1) + metadata, files.sum⟩ := by
  have hroot : rootBytes (metadata :: files) = 32 * (files.length + 1) := by
    rw [rootBytes, List.length_cons, saturatingMul_of_lt (by omega)]
    omega
  rw [splitChildSizes, hroot]
  simp only [List.head?_cons, Option.getD_some, List.drop_one, List.tail_cons]
  rw [wrap_of_lt (by omega), wrap_of_lt (by omega)]

/-- At every moment of an in-order transmission the sender's payload bytes are the receiver's, the
sender's ledger shows them against the receiver's total, and at the end both show all file bytes. -/
theorem ends_agree (metadata : Nat) (files : List Nat) (reports : List BlobReport)
    (begun written : Nat)
    (hfits : 32 * (files.length + 1) + metadata + files.sum < 2 ^ 64)
    (htransmits : Transmits (32 * (files.length + 1) :: metadata :: files) reports begun written) :
    let split := splitChildSizes (rootBytes (metadata :: files)) (metadata :: files)
    let offset := bytesWritten (32 * (files.length + 1) :: metadata :: files) begun written
    (requestAfter reports).payloadBytes = received split offset ∧
    (∀ key, reports ≠ [] → (senderLedger files.sum key reports).snapshot
      = ⟨received split offset, split.payloadBytes⟩) ∧
    (offset = (32 * (files.length + 1) :: metadata :: files).sum →
      (requestAfter reports).payloadBytes = files.sum ∧ received split offset = files.sum) := by
  intro split offset
  have hsplit : split = ⟨32 * (files.length + 1) + metadata, files.sum⟩ := splitChildSizes_eq hfits
  have hstanding := standing htransmits
  have hsent : offset ≤ 32 * (files.length + 1) + (metadata + files.sum) := by
    have hle := bytesWritten_le hstanding
    rwa [List.sum_cons, List.sum_cons] at hle
  have hpayload : (requestAfter reports).payloadSum
      = offset - (32 * (files.length + 1) + metadata) := by
    have h := hstanding.payload
    simpa using h
  have hreceived : received split offset = offset - (32 * (files.length + 1) + metadata) := by
    rw [received, hsplit]
    show min (offset - (32 * (files.length + 1) + metadata)) files.sum = _
    omega
  have hbytes : (requestAfter reports).payloadBytes = received split offset := by
    rw [RequestProgress.payloadBytes, hpayload, hreceived, wrap_of_lt (by omega)]
  refine ⟨hbytes, ?_, ?_⟩
  · intro key hreports
    rw [senderLedger_eq _ _ _ hreports, snapshot_oneRequest (by omega), hbytes, hreceived, hsplit]
    congr 1
    omega
  · intro hend
    rw [List.sum_cons, List.sum_cons] at hend
    rw [hbytes, hreceived]
    omega

/-- A collection of two files, interrupted in the middle of the second one. -/
theorem ends_agree_twoFiles :
    (requestAfter [.started 0 96, .progress 96, .started 1 7, .progress 7, .started 2 5, .progress 5,
      .started 3 4, .progress 3]).payloadBytes = 8 ∧
    received (splitChildSizes (rootBytes [7, 5, 4]) [7, 5, 4]) (96 + 7 + 5 + 3) = 8 := by
  have htransmits : Transmits [96, 7, 5, 4] [.started 0 96, .progress 96, .started 1 7, .progress 7,
      .started 2 5, .progress 5, .started 3 4, .progress 3] 4 3 := by
    have hidle : Transmits [96, 7, 5, 4] [] 0 0 := .idle
    have hroot := Transmits.write 96 (hidle.begin (by intro last h; omega) rfl) rfl (by decide)
    have hmetadata := Transmits.write 7 (hroot.begin (by rintro last ⟨⟩; rfl) rfl) rfl (by decide)
    have hfirst := Transmits.write 5 (hmetadata.begin (by rintro last ⟨⟩; rfl) rfl) rfl (by decide)
    exact Transmits.write 3 (hfirst.begin (by rintro last ⟨⟩; rfl) rfl) rfl (by decide)
  obtain ⟨hagree, _⟩ := ends_agree 7 [5, 4] _ 4 3 (by decide) htransmits
  have hreceived : received (splitChildSizes (rootBytes [7, 5, 4]) [7, 5, 4]) (96 + 7 + 5 + 3) = 8 := by
    decide
  exact ⟨hagree.trans hreceived, hreceived⟩

end DashBeam
