import DashBeam.Protocol.Progress
import Mathlib.Data.List.Induction
import Mathlib.Data.List.Infix

/-!
# The share ledger over whole runs

Every sequence of ledger operations, over any keys, indices, sizes and offsets, keeps the session's
bytes below its total as long as the numbers the session stands for fit in 64 bits. The bytes of a
request are bounded by the blob sizes it reported, which is what keeps its own sum from wrapping;
the bytes of the session are bounded by one share for every request it counts.
-/

namespace DashBeam

open Lib

/-! ## Operations and runs -/

inductive LedgerOp where
  | ensureRequest (key : RequestKey)
  | blobStarted (key : RequestKey) (index size : Nat)
  | blobProgress (key : RequestKey) (endOffset : Nat)
  | retire (key : RequestKey) (credited : Bool)

namespace LedgerOp

def key : LedgerOp → RequestKey
  | ensureRequest key => key
  | blobStarted key _ _ => key
  | blobProgress key _ => key
  | retire key _ => key

def apply (s : ShareProgress) : LedgerOp → ShareProgress
  | ensureRequest key => s.ensureRequest key
  | blobStarted key index size => s.blobStarted key index size
  | blobProgress key endOffset => s.blobProgress key endOffset
  | retire key credited => (s.retire key credited).1

/-- What an operation adds to the blob sizes reported on `key`: a retired request starts over. -/
def report (key : RequestKey) (sofar : Nat) : LedgerOp → Nat
  | blobStarted key' _ size => if key' = key then sofar + size else sofar
  | retire key' _ => if key' = key then 0 else sofar
  | ensureRequest _ => sofar
  | blobProgress _ _ => sofar

end LedgerOp

/-- The ledger of a share after a sequence of operations. -/
def ledgerAfter (shareSize : Nat) (ops : List LedgerOp) : ShareProgress :=
  ops.foldl LedgerOp.apply (.new shareSize)

/-- The sum of the blob sizes reported on `key` since its last retirement. -/
def reported (key : RequestKey) (ops : List LedgerOp) : Nat :=
  ops.foldl (LedgerOp.report key) 0

/-- The share times the requests counted, and each request's reported sizes, fit in 64 bits all
along. -/
def LedgerFits (shareSize : Nat) (ops : List LedgerOp) : Prop :=
  ∀ sofar, sofar <+: ops →
    shareSize * ((ledgerAfter shareSize sofar).finishedRequests
      + (ledgerAfter shareSize sofar).activeRequests) < 2 ^ 64 ∧
    ∀ key, reported key sofar < 2 ^ 64

theorem ledgerAfter_snoc (shareSize : Nat) (ops : List LedgerOp) (op : LedgerOp) :
    ledgerAfter shareSize (ops ++ [op]) = op.apply (ledgerAfter shareSize ops) := by
  simp [ledgerAfter]

theorem reported_snoc (key : RequestKey) (ops : List LedgerOp) (op : LedgerOp) :
    reported key (ops ++ [op]) = op.report key (reported key ops) := by
  simp [reported]

/-! ## One request

`weight` counts a blob with the larger of its end and its size, so a report can only move the end
towards what is counted already, and a blob started again adds at most the size it comes with.
-/

namespace RequestProgress

def weight (r : RequestProgress) : Nat :=
  r.ends.sumOf fun index reached => max reached ((r.sizes.lookup index).getD 0)

/-- The current blob has been started: its size and its end are both recorded. -/
def Started (r : RequestProgress) : Prop :=
  ∀ index, r.currentIndex = some index →
    (∃ size, r.sizes.lookup index = some size) ∧ ∃ reached, r.ends.lookup index = some reached

theorem started_new : Started new := by
  intro index h
  cases h

@[simp]
theorem payloadSum_new : payloadSum new = 0 := rfl

theorem payloadSum_le_weight (r : RequestProgress) : r.payloadSum ≤ r.weight := by
  apply Map.sumOf_le
  intro index reached _
  split <;> omega

theorem started_blobStarted (r : RequestProgress) (index size : Nat) :
    (r.blobStarted index size).Started := by
  intro current h
  obtain rfl : index = current := Option.some.inj h
  exact ⟨⟨size, AList.lookup_insert _⟩, _, AList.lookup_insert _⟩

theorem weight_blobStarted (r : RequestProgress) (index size : Nat) :
    (r.blobStarted index size).weight ≤ r.weight + size := by
  have hrest : Map.sumOf (fun i reached =>
        max reached (((r.sizes.insert index size).lookup i).getD 0)) (r.ends.erase index)
      = Map.sumOf (fun i reached => max reached ((r.sizes.lookup i).getD 0))
        (r.ends.erase index) := by
    apply Map.sumOf_congr
    intro i reached hi
    have hne : i ≠ index := by
      rintro rfl
      simp at hi
    rw [AList.lookup_insert_ne hne]
  have hnew : (r.blobStarted index size).weight
      = max ((r.ends.lookup index).getD 0) size
        + Map.sumOf (fun i reached => max reached ((r.sizes.lookup i).getD 0))
          (r.ends.erase index) := by
    rw [weight, blobStarted, Map.sumOf_insert, hrest, AList.lookup_insert]
    rfl
  rw [hnew, weight]
  cases h : r.ends.lookup index with
  | none =>
    rw [Map.erase_of_lookup_none h]
    simp only [Option.getD_none]
    omega
  | some reached =>
    rw [Map.sumOf_erase _ h]
    simp only [Option.getD_some]
    omega

theorem blobProgress_of_started {r : RequestProgress} (hr : r.Started) {index : Nat}
    (h : r.currentIndex = some index) (endOffset : Nat) :
    ∃ size reached, r.sizes.lookup index = some size ∧ r.ends.lookup index = some reached ∧
      r.blobProgress endOffset
        = { r with ends := r.ends.insert index (max reached (min endOffset size)) } := by
  obtain ⟨⟨size, hsize⟩, reached, hreached⟩ := hr index h
  refine ⟨size, reached, hsize, hreached, ?_⟩
  simp [blobProgress, h, hsize, hreached]

theorem blobProgress_of_none {r : RequestProgress} (h : r.currentIndex = none) (endOffset : Nat) :
    r.blobProgress endOffset = r := by
  simp [blobProgress, h]

theorem started_blobProgress {r : RequestProgress} (hr : r.Started) (endOffset : Nat) :
    (r.blobProgress endOffset).Started := by
  cases h : r.currentIndex with
  | none => rwa [blobProgress_of_none h]
  | some index =>
    obtain ⟨size, reached, hsize, hreached, heq⟩ := blobProgress_of_started hr h endOffset
    rw [heq]
    intro current hcurrent
    obtain rfl : index = current := Option.some.inj (h.symm.trans hcurrent)
    exact ⟨⟨size, hsize⟩, _, AList.lookup_insert _⟩

theorem weight_blobProgress {r : RequestProgress} (hr : r.Started) (endOffset : Nat) :
    (r.blobProgress endOffset).weight = r.weight := by
  cases h : r.currentIndex with
  | none => rw [blobProgress_of_none h]
  | some index =>
    obtain ⟨size, reached, hsize, hreached, heq⟩ := blobProgress_of_started hr h endOffset
    rw [heq, weight, weight, Map.sumOf_insert, Map.sumOf_erase _ hreached, hsize]
    simp only [Option.getD_some]
    omega

theorem payloadSum_blobProgress {r : RequestProgress} (hr : r.Started) (endOffset : Nat) :
    r.payloadSum ≤ (r.blobProgress endOffset).payloadSum := by
  cases h : r.currentIndex with
  | none => rw [blobProgress_of_none h]
  | some index =>
    obtain ⟨size, reached, hsize, hreached, heq⟩ := blobProgress_of_started hr h endOffset
    rw [heq, payloadSum, payloadSum, Map.sumOf_insert, Map.sumOf_erase _ hreached]
    split <;> omega

end RequestProgress

/-! ## The session -/

/-- What holds of the ledger after `ops`, overflow or not: credited bytes are bounded by the credited
requests, the bytes of an active request by the sizes it reported. -/
structure LedgerInv (shareSize : Nat) (ops : List LedgerOp) (s : ShareProgress) : Prop where
  shareSize_eq : s.shareSize = shareSize
  finished : s.finishedBytes ≤ shareSize * s.finishedRequests
  active : ∀ key request, s.active.lookup key = some request →
    request.Started ∧ request.weight ≤ reported key ops

theorem wrap_le (n : Nat) : wrap n ≤ n := Nat.mod_le n _

/-- Putting a request back keeps the invariant once that request keeps it: no other key is touched. -/
theorem LedgerInv.insert {shareSize : Nat} {ops : List LedgerOp} {op : LedgerOp} {s : ShareProgress}
    (hs : LedgerInv shareSize ops s) {key : RequestKey} {request : RequestProgress}
    (hother : ∀ other, reported other ops ≤ op.report other (reported other ops))
    (hstarted : request.Started) (hweight : request.weight ≤ op.report key (reported key ops)) :
    LedgerInv shareSize (ops ++ [op]) { s with active := s.active.insert key request } := by
  refine ⟨hs.shareSize_eq, hs.finished, ?_⟩
  intro other found hfound
  rw [reported_snoc]
  by_cases hkey : other = key
  · subst hkey
    rw [AList.lookup_insert] at hfound
    obtain rfl := Option.some.inj hfound
    exact ⟨hstarted, hweight⟩
  · rw [AList.lookup_insert_ne hkey] at hfound
    obtain ⟨hfoundStarted, hfoundWeight⟩ := hs.active other found hfound
    exact ⟨hfoundStarted, hfoundWeight.trans (hother other)⟩

/-- The entry an operation works on, fresh or not. -/
theorem LedgerInv.requestOf {shareSize : Nat} {ops : List LedgerOp} {s : ShareProgress}
    (hs : LedgerInv shareSize ops s) (key : RequestKey) :
    (s.requestOf key).Started ∧ (s.requestOf key).weight ≤ reported key ops := by
  rw [ShareProgress.requestOf]
  cases h : s.active.lookup key with
  | none => exact ⟨RequestProgress.started_new, Nat.zero_le _⟩
  | some request => exact hs.active key request h

theorem LedgerInv.retire {shareSize : Nat} {ops : List LedgerOp} {s : ShareProgress}
    (hs : LedgerInv shareSize ops s) (key : RequestKey) (credited : Bool) :
    LedgerInv shareSize (ops ++ [.retire key credited]) (s.retire key credited).1 := by
  have hothers : ∀ other found, other ≠ key → s.active.lookup other = some found →
      found.Started ∧ found.weight ≤ reported other (ops ++ [.retire key credited]) := by
    intro other found hne hfound
    rw [reported_snoc, LedgerOp.report, if_neg (Ne.symm hne)]
    exact hs.active other found hfound
  have herased : ∀ other found, (s.active.erase key).lookup other = some found →
      found.Started ∧ found.weight ≤ reported other (ops ++ [.retire key credited]) := by
    intro other found hfound
    have hne : other ≠ key := by
      rintro rfl
      rw [AList.lookup_erase] at hfound
      cases hfound
    rw [AList.lookup_erase_ne hne] at hfound
    exact hothers other found hne hfound
  rw [ShareProgress.retire]
  cases h : s.active.lookup key with
  | none =>
    refine ⟨hs.shareSize_eq, hs.finished, ?_⟩
    intro other found hfound
    have hne : other ≠ key := by
      rintro rfl
      rw [h] at hfound
      cases hfound
    exact hothers other found hne hfound
  | some request =>
    cases credited with
    | false => exact ⟨hs.shareSize_eq, hs.finished, herased⟩
    | true =>
      refine ⟨hs.shareSize_eq, ?_, herased⟩
      have hwrap := wrap_le (s.finishedBytes + s.clamped request)
      have hclamped : s.clamped request ≤ shareSize := by
        rw [ShareProgress.clamped, hs.shareSize_eq]
        omega
      have hfinished := hs.finished
      have hmul : shareSize * (s.finishedRequests + 1)
          = shareSize * s.finishedRequests + shareSize := Nat.mul_succ _ _
      show wrap (s.finishedBytes + s.clamped request) ≤ shareSize * (s.finishedRequests + 1)
      omega

theorem LedgerInv.apply {shareSize : Nat} {ops : List LedgerOp} {s : ShareProgress}
    (hs : LedgerInv shareSize ops s) (op : LedgerOp) :
    LedgerInv shareSize (ops ++ [op]) (op.apply s) := by
  cases op with
  | ensureRequest key =>
    obtain ⟨hstarted, hweight⟩ := hs.requestOf key
    exact hs.insert (fun _ => Nat.le_refl _) hstarted hweight
  | blobStarted key index size =>
    obtain ⟨_, hweight⟩ := hs.requestOf key
    have hgrow : ∀ other, reported other ops
        ≤ (LedgerOp.blobStarted key index size).report other (reported other ops) := by
      intro other
      rw [LedgerOp.report]
      split <;> omega
    have hadd := (s.requestOf key).weight_blobStarted index size
    refine hs.insert hgrow ((s.requestOf key).started_blobStarted index size) ?_
    rw [LedgerOp.report, if_pos rfl]
    omega
  | blobProgress key endOffset =>
    rw [LedgerOp.apply, ShareProgress.blobProgress]
    cases h : s.active.lookup key with
    | none =>
      refine ⟨hs.shareSize_eq, hs.finished, ?_⟩
      intro other found hfound
      rw [reported_snoc]
      exact hs.active other found hfound
    | some request =>
      obtain ⟨hstarted, hweight⟩ := hs.active key request h
      refine hs.insert (fun _ => Nat.le_refl _) (request.started_blobProgress hstarted endOffset) ?_
      rw [request.weight_blobProgress hstarted endOffset]
      exact hweight
  | retire key credited => exact hs.retire key credited

theorem ledgerInv (shareSize : Nat) (ops : List LedgerOp) :
    LedgerInv shareSize ops (ledgerAfter shareSize ops) := by
  induction ops using List.reverseRecOn with
  | nil =>
    refine ⟨rfl, Nat.zero_le _, ?_⟩
    intro key request h
    cases h
  | append_singleton ops op ih =>
    rw [ledgerAfter_snoc]
    exact ih.apply op

/-! ## Snapshots without overflow -/

namespace ShareProgress

/-- The bytes of the active requests, before the sum is cut to 64 bits. -/
def activeSum (s : ShareProgress) : Nat := s.active.sumOf fun _ => s.clamped

/-- The ledger's numbers fit: nothing in `snapshot` wraps or saturates. -/
structure Sound (s : ShareProgress) : Prop where
  finished : s.finishedBytes ≤ s.shareSize * s.finishedRequests
  fits : s.shareSize * (s.finishedRequests + s.active.size) < 2 ^ 64

theorem clamped_le (s : ShareProgress) (request : RequestProgress) :
    s.clamped request ≤ s.shareSize := Nat.min_le_right _ _

theorem activeSum_le (s : ShareProgress) : s.activeSum ≤ s.shareSize * s.active.size :=
  Map.sumOf_le_size_mul fun _ request _ => s.clamped_le request

theorem Sound.bytes_le {s : ShareProgress} (hs : s.Sound) :
    s.finishedBytes + s.activeSum ≤ s.shareSize * (s.finishedRequests + s.active.size) := by
  have hfinished := hs.finished
  have hactive := s.activeSum_le
  rw [Nat.mul_add]
  omega

theorem Sound.snapshot_eq {s : ShareProgress} (hs : s.Sound) :
    s.snapshot = ⟨s.finishedBytes + s.activeSum,
      s.shareSize * (s.finishedRequests + s.active.size)⟩ := by
  have hbytes := hs.bytes_le
  have hfits := hs.fits
  have hactive : s.activeBytes = s.activeSum := by
    show wrap s.activeSum = s.activeSum
    exact wrap_of_lt (by omega)
  rw [snapshot, hactive, wrap_of_lt (by omega), saturatingMul_of_lt hfits]

/-! What each operation does to the numbers. -/

theorem activeSum_erase {s : ShareProgress} {key : RequestKey} {request : RequestProgress}
    (h : s.active.lookup key = some request) :
    s.activeSum = s.clamped request + Map.sumOf (fun _ => s.clamped) (s.active.erase key) :=
  Map.sumOf_erase _ h

theorem retire_true {s : ShareProgress} (hs : s.Sound) {key : RequestKey}
    {request : RequestProgress} (h : s.active.lookup key = some request) :
    (s.retire key true).1.snapshot = s.snapshot := by
  have hsum := activeSum_erase h
  have hsize := Map.size_erase h
  have hbytes := hs.bytes_le
  have hfits := hs.fits
  have hclamped := s.clamped_le request
  have hfinished := hs.finished
  have hmul : s.shareSize * (s.finishedRequests + 1)
      = s.shareSize * s.finishedRequests + s.shareSize := Nat.mul_succ _ _
  have hrequests : s.finishedRequests + 1 + Map.size (s.active.erase key)
      = s.finishedRequests + s.active.size := by omega
  have heq : (s.retire key true).1 =
      { s with
        active := s.active.erase key
        finishedBytes := s.finishedBytes + s.clamped request
        finishedRequests := s.finishedRequests + 1 } := by
    rw [← wrap_of_lt (n := s.finishedBytes + s.clamped request) (by omega), retire, h]
    rfl
  have hsound : (s.retire key true).1.Sound := by
    rw [heq]
    refine ⟨?_, ?_⟩
    · show s.finishedBytes + s.clamped request ≤ s.shareSize * (s.finishedRequests + 1)
      omega
    · show s.shareSize * (s.finishedRequests + 1 + Map.size (s.active.erase key)) < 2 ^ 64
      rw [hrequests]
      exact hfits
  rw [hsound.snapshot_eq, hs.snapshot_eq, heq]
  show ProgressSnapshot.mk
      (s.finishedBytes + s.clamped request + Map.sumOf (fun _ => s.clamped) (s.active.erase key))
      (s.shareSize * (s.finishedRequests + 1 + Map.size (s.active.erase key))) = _
  rw [hrequests, hsum, Nat.add_assoc]

theorem retire_false {s : ShareProgress} (hs : s.Sound) {key : RequestKey}
    {request : RequestProgress} (h : s.active.lookup key = some request) :
    (s.retire key false).1.snapshot.bytes + s.requestBytes key = s.snapshot.bytes ∧
      (s.retire key false).1.snapshot.total + s.shareSize = s.snapshot.total := by
  have hsum := activeSum_erase h
  have hsize := Map.size_erase h
  have hmul : s.shareSize * (s.finishedRequests + s.active.size)
      = s.shareSize * (s.finishedRequests + Map.size (s.active.erase key)) + s.shareSize := by
    rw [hsize, ← Nat.mul_succ]
    congr 1
    omega
  have heq : (s.retire key false).1 = { s with active := s.active.erase key } := by
    rw [retire, h]
    rfl
  have hsound : (s.retire key false).1.Sound := by
    rw [heq]
    refine ⟨hs.finished, ?_⟩
    have hfits := hs.fits
    show s.shareSize * (s.finishedRequests + Map.size (s.active.erase key)) < 2 ^ 64
    omega
  have hrequest : s.requestBytes key = s.clamped request := by
    simp [requestBytes, h]
  rw [hsound.snapshot_eq, hs.snapshot_eq, heq, hrequest]
  refine ⟨?_, hmul.symm⟩
  show s.finishedBytes + Map.sumOf (fun _ => s.clamped) (s.active.erase key) + s.clamped request
    = s.finishedBytes + s.activeSum
  omega

/-- A report on an active request whose sizes fit moves no other number than its own bytes. -/
theorem blobProgress_le {s : ShareProgress} (hs : s.Sound) {key : RequestKey}
    (hrequest : ∀ request, s.active.lookup key = some request →
      request.Started ∧ request.weight < 2 ^ 64) (endOffset : Nat) :
    s.snapshot.bytes ≤ (s.blobProgress key endOffset).snapshot.bytes ∧
      (s.blobProgress key endOffset).snapshot.total = s.snapshot.total := by
  rw [blobProgress]
  cases h : s.active.lookup key with
  | none => exact ⟨Nat.le_refl _, rfl⟩
  | some request =>
    obtain ⟨hstarted, hweight⟩ := hrequest request h
    have hpayload : request.payloadBytes ≤ (request.blobProgress endOffset).payloadBytes := by
      have hle := request.payloadSum_blobProgress hstarted endOffset
      have hbound := (request.blobProgress endOffset).payloadSum_le_weight
      rw [request.weight_blobProgress hstarted endOffset] at hbound
      rw [RequestProgress.payloadBytes, RequestProgress.payloadBytes, wrap_of_lt (by omega),
        wrap_of_lt (by omega)]
      exact hle
    have hclamped : s.clamped request ≤ s.clamped (request.blobProgress endOffset) := by
      rw [clamped, clamped]
      omega
    have hsize : Map.size (s.active.insert key (request.blobProgress endOffset)) = s.active.size := by
      rw [Map.size_insert, Map.size_erase h]
    have hsum : Map.sumOf (fun _ => s.clamped)
          (s.active.insert key (request.blobProgress endOffset))
        = s.clamped (request.blobProgress endOffset)
          + Map.sumOf (fun _ => s.clamped) (s.active.erase key) := Map.sumOf_insert _ _ _ _
    have hsound : Sound
        { s with active := s.active.insert key (request.blobProgress endOffset) } := by
      refine ⟨hs.finished, ?_⟩
      show s.shareSize * (s.finishedRequests
        + Map.size (s.active.insert key (request.blobProgress endOffset))) < 2 ^ 64
      rw [hsize]
      exact hs.fits
    show s.snapshot.bytes
        ≤ (snapshot { s with active := s.active.insert key (request.blobProgress endOffset) }).bytes
      ∧ (snapshot { s with active := s.active.insert key (request.blobProgress endOffset) }).total
        = s.snapshot.total
    rw [hsound.snapshot_eq, hs.snapshot_eq]
    refine ⟨?_, ?_⟩
    · show s.finishedBytes + s.activeSum ≤ s.finishedBytes
        + Map.sumOf (fun _ => s.clamped) (s.active.insert key (request.blobProgress endOffset))
      rw [hsum, activeSum_erase h]
      omega
    · show s.shareSize * (s.finishedRequests
        + Map.size (s.active.insert key (request.blobProgress endOffset))) = _
      rw [hsize]

theorem lookup_apply_of_ne (s : ShareProgress) (op : LedgerOp) {other : RequestKey}
    (hne : other ≠ op.key) : (op.apply s).active.lookup other = s.active.lookup other := by
  cases op with
  | ensureRequest key => exact AList.lookup_insert_ne hne
  | blobStarted key index size => exact AList.lookup_insert_ne hne
  | blobProgress key endOffset =>
    rw [LedgerOp.apply, blobProgress]
    split
    · rfl
    · exact AList.lookup_insert_ne hne
  | retire key credited =>
    rw [LedgerOp.apply, retire]
    split
    · rfl
    · split
      · exact AList.lookup_erase_ne hne
      · exact AList.lookup_erase_ne hne

theorem shareSize_apply (s : ShareProgress) (op : LedgerOp) :
    (op.apply s).shareSize = s.shareSize := by
  cases op with
  | ensureRequest key => rfl
  | blobStarted key index size => rfl
  | blobProgress key endOffset =>
    rw [LedgerOp.apply, blobProgress]
    split <;> rfl
  | retire key credited =>
    rw [LedgerOp.apply, retire]
    split
    · rfl
    · split <;> rfl

theorem requestBytes_apply_of_ne (s : ShareProgress) (op : LedgerOp) {other : RequestKey}
    (hne : other ≠ op.key) : (op.apply s).requestBytes other = s.requestBytes other := by
  have hclamped : (op.apply s).clamped = s.clamped := by
    funext request
    rw [clamped, clamped, shareSize_apply]
  rw [requestBytes, requestBytes, lookup_apply_of_ne s op hne, hclamped]

end ShareProgress

/-- A ledger reached within 64 bits takes its snapshots without overflow. -/
theorem sound_of_fits {shareSize : Nat} {ops : List LedgerOp} (hfits : LedgerFits shareSize ops) :
    (ledgerAfter shareSize ops).Sound := by
  have hinv := ledgerInv shareSize ops
  obtain ⟨hrequests, _⟩ := hfits ops (List.prefix_refl ops)
  refine ⟨?_, ?_⟩
  · rw [hinv.shareSize_eq]
    exact hinv.finished
  · rw [hinv.shareSize_eq]
    exact hrequests

/-- The ledger invariant: bytes never pass the total, a credited retirement is invisible, another one
takes back exactly what its request had added, reports only add bytes, and requests do not touch each
other. -/
theorem ledger_accounts (shareSize : Nat) (ops : List LedgerOp) (hfits : LedgerFits shareSize ops) :
    let s := ledgerAfter shareSize ops
    s.snapshot.bytes ≤ s.snapshot.total ∧
    (∀ key ∈ s.active, (s.retire key true).1.snapshot = s.snapshot) ∧
    (∀ key ∈ s.active,
      (s.retire key false).1.snapshot.bytes + s.requestBytes key = s.snapshot.bytes ∧
      (s.retire key false).1.snapshot.total + shareSize = s.snapshot.total) ∧
    (∀ key endOffset, s.snapshot.bytes ≤ (s.blobProgress key endOffset).snapshot.bytes ∧
      (s.blobProgress key endOffset).snapshot.total = s.snapshot.total) ∧
    ∀ op : LedgerOp, ∀ other, other ≠ op.key →
      (op.apply s).requestBytes other = s.requestBytes other := by
  intro s
  have hinv : LedgerInv shareSize ops s := ledgerInv shareSize ops
  have hsound : s.Sound := sound_of_fits hfits
  obtain ⟨_, hreported⟩ := hfits ops (List.prefix_refl ops)
  have hactive : ∀ key ∈ s.active, ∃ request, s.active.lookup key = some request := by
    intro key hkey
    exact Option.isSome_iff_exists.mp (AList.lookup_isSome.mpr hkey)
  refine ⟨?_, ?_, ?_, ?_, ?_⟩
  · rw [hsound.snapshot_eq]
    exact hsound.bytes_le
  · intro key hkey
    obtain ⟨request, hrequest⟩ := hactive key hkey
    exact ShareProgress.retire_true hsound hrequest
  · intro key hkey
    obtain ⟨request, hrequest⟩ := hactive key hkey
    rw [← hinv.shareSize_eq]
    exact ShareProgress.retire_false hsound hrequest
  · intro key endOffset
    apply ShareProgress.blobProgress_le hsound
    intro request hrequest
    obtain ⟨hstarted, hweight⟩ := hinv.active key request hrequest
    exact ⟨hstarted, lt_of_le_of_lt hweight (hreported key)⟩
  · intro op other hne
    exact s.requestBytes_apply_of_ne op hne

/-- Two peers pull a share of ten bytes; the first one gives up, comes back under its key and is
credited. -/
def twoPeers : List LedgerOp :=
  [.blobStarted (1, 0) 2 10, .blobProgress (1, 0) 4, .blobStarted (2, 0) 2 10,
    .retire (1, 0) false, .blobStarted (1, 0) 2 25, .blobProgress (1, 0) 25, .retire (1, 0) true,
    .blobProgress (2, 0) 7]

theorem reported_of_ne {ops : List LedgerOp} {key : RequestKey} (h : ∀ op ∈ ops, op.key ≠ key) :
    reported key ops = 0 := by
  induction ops using List.reverseRecOn with
  | nil => rfl
  | append_singleton ops op ih =>
    have hop : op.key ≠ key := h op (by simp)
    rw [reported_snoc, ih fun op' hop' => h op' (by simp [hop'])]
    cases op with
    | ensureRequest key' => rfl
    | blobProgress key' endOffset => rfl
    | blobStarted key' index size => exact if_neg hop
    | retire key' credited => exact if_neg hop

theorem twoPeers_fits : LedgerFits 10 twoPeers := by
  have hprefix : ∀ sofar ∈ twoPeers.inits,
      10 * ((ledgerAfter 10 sofar).finishedRequests + (ledgerAfter 10 sofar).activeRequests) < 100 ∧
        reported (1, 0) sofar < 100 ∧ reported (2, 0) sofar < 100 ∧
        ∀ op ∈ sofar, op.key = (1, 0) ∨ op.key = (2, 0) := by
    decide +kernel
  intro sofar hsofar
  obtain ⟨hrequests, hfirst, hsecond, hkeys⟩ :=
    hprefix sofar ((List.mem_inits _ _).mpr hsofar)
  refine ⟨by omega, ?_⟩
  intro key
  by_cases h1 : key = (1, 0)
  · subst h1
    omega
  · by_cases h2 : key = (2, 0)
    · subst h2
      omega
    · rw [reported_of_ne]
      · decide
      · intro op hop hkey
        rcases hkeys op hop with h | h
        · exact h1 (hkey ▸ h)
        · exact h2 (hkey ▸ h)

theorem ledger_accounts_twoPeers :
    LedgerFits 10 twoPeers ∧
      (ledgerAfter 10 twoPeers).snapshot = ⟨17, 20⟩ ∧
      ((ledgerAfter 10 twoPeers).retire (2, 0) true).1.snapshot = ⟨17, 20⟩ ∧
      ((ledgerAfter 10 twoPeers).retire (2, 0) false).1.snapshot.bytes + 7 = 17 := by
  obtain ⟨_, hcredited, hdropped, _⟩ := ledger_accounts 10 twoPeers twoPeers_fits
  have hkey : (2, 0) ∈ (ledgerAfter 10 twoPeers).active := by decide +kernel
  have hsnapshot : (ledgerAfter 10 twoPeers).snapshot = ⟨17, 20⟩ := by decide +kernel
  have hbytes : (ledgerAfter 10 twoPeers).requestBytes (2, 0) = 7 := by decide +kernel
  refine ⟨twoPeers_fits, hsnapshot, (hcredited _ hkey).trans hsnapshot, ?_⟩
  have hlower := (hdropped _ hkey).1
  rw [hsnapshot, hbytes] at hlower
  exact hlower

end DashBeam
