import DashBeam.Lib.Map

/-!
# Progress accounting of a transfer

`engine/protocol/src/progress.rs`: the payload bytes of one get request (`RequestProgress`), the
ledger of a whole share session (`ShareProgress`), and the split of a hash sequence's sizes that the
receiver subtracts from its running offset.

Byte counts are `u64`: additions and sums wrap at `2 ^ 64`, `saturating_mul` stops below it. The
number of requests is a plain count. `SpeedMeter`, `TransferClock` and `EmitThrottle` only decide
when a snapshot is shown and are left out.
-/

namespace DashBeam

open Lib

/-- What an overflowing `u64` addition leaves. -/
def wrap (n : Nat) : Nat := n % 2 ^ 64

def saturatingMul (a b : Nat) : Nat := min (a * b) (2 ^ 64 - 1)

theorem wrap_of_lt {n : Nat} (h : n < 2 ^ 64) : wrap n = n := Nat.mod_eq_of_lt h

theorem saturatingMul_of_lt {a b : Nat} (h : a * b < 2 ^ 64) : saturatingMul a b = a * b := by
  rw [saturatingMul]
  omega

/-- Blob indices below this are overhead: the hash-seq root and the collection metadata. -/
def firstPayloadBlobIndex : Nat := 2

/-! ## The receiver's split -/

structure PayloadSizes where
  overheadBytes : Nat
  payloadBytes : Nat
deriving DecidableEq, Repr

/-- `childSizes` holds the children only; its first entry is the collection metadata. -/
def splitChildSizes (rootBytes : Nat) (childSizes : List Nat) : PayloadSizes where
  overheadBytes := wrap (rootBytes + childSizes.head?.getD 0)
  payloadBytes := wrap (childSizes.drop 1).sum

/-! ## One request -/

structure RequestProgress where
  currentIndex : Option Nat
  ends : Map Nat Nat
  sizes : Map Nat Nat

namespace RequestProgress

def new : RequestProgress := ⟨none, ∅, ∅⟩

def blobStarted (r : RequestProgress) (index size : Nat) : RequestProgress where
  currentIndex := some index
  sizes := r.sizes.insert index size
  ends := r.ends.insert index ((r.ends.lookup index).getD 0)

/-- A report without a started blob counts for nothing; one past the blob's size is capped. -/
def blobProgress (r : RequestProgress) (endOffset : Nat) : RequestProgress :=
  match r.currentIndex with
  | none => r
  | some index =>
    let capped := match r.sizes.lookup index with
      | some size => min endOffset size
      | none => endOffset
    { r with ends := r.ends.insert index (max ((r.ends.lookup index).getD 0) capped) }

/-- The ends of the payload blobs, before the sum is cut to 64 bits. -/
def payloadSum (r : RequestProgress) : Nat :=
  r.ends.sumOf fun index size => if firstPayloadBlobIndex ≤ index then size else 0

def payloadBytes (r : RequestProgress) : Nat := wrap r.payloadSum

end RequestProgress

/-! ## The ledger of a share session -/

/-- A get request: connection id and request id. -/
abbrev RequestKey : Type := Nat × Nat

structure ProgressSnapshot where
  bytes : Nat
  total : Nat
deriving DecidableEq, Repr

structure ShareProgress where
  shareSize : Nat
  active : Map RequestKey RequestProgress
  finishedBytes : Nat
  finishedRequests : Nat

namespace ShareProgress

def new (shareSize : Nat) : ShareProgress := ⟨shareSize, ∅, 0, 0⟩

/-- `active.entry(key).or_default()`. -/
def requestOf (s : ShareProgress) (key : RequestKey) : RequestProgress :=
  (s.active.lookup key).getD .new

def blobStarted (s : ShareProgress) (key : RequestKey) (index size : Nat) : ShareProgress :=
  { s with active := s.active.insert key ((s.requestOf key).blobStarted index size) }

def blobProgress (s : ShareProgress) (key : RequestKey) (endOffset : Nat) : ShareProgress :=
  match s.active.lookup key with
  | none => s
  | some request => { s with active := s.active.insert key (request.blobProgress endOffset) }

/-- What a request counts for: its payload bytes, never more than the share. -/
def clamped (s : ShareProgress) (request : RequestProgress) : Nat :=
  min request.payloadBytes s.shareSize

/-- A credited request keeps its bytes and its share of the total, another one loses both. -/
def retire (s : ShareProgress) (key : RequestKey) (credited : Bool) : ShareProgress × Nat :=
  match s.active.lookup key with
  | none => (s, 0)
  | some request =>
    let bytes := s.clamped request
    if credited then
      ({ s with
        active := s.active.erase key
        finishedBytes := wrap (s.finishedBytes + bytes)
        finishedRequests := s.finishedRequests + 1 }, bytes)
    else ({ s with active := s.active.erase key }, bytes)

def requestBytes (s : ShareProgress) (key : RequestKey) : Nat :=
  ((s.active.lookup key).map s.clamped).getD 0

def ensureRequest (s : ShareProgress) (key : RequestKey) : ShareProgress :=
  { s with active := s.active.insert key (s.requestOf key) }

def activeRequests (s : ShareProgress) : Nat := s.active.size

def activeBytes (s : ShareProgress) : Nat := wrap (s.active.sumOf fun _ => s.clamped)

def snapshot (s : ShareProgress) : ProgressSnapshot where
  bytes := wrap (s.finishedBytes + s.activeBytes)
  total := saturatingMul s.shareSize (s.finishedRequests + s.active.size)

end ShareProgress

end DashBeam
