import Mathlib.Data.List.Basic
import Mathlib.Tactic.Common

/-!
# Transfer history and partial-receive stores

The part of `engine/native/src/history.rs` and `engine/native/src/storage.rs` that decides which
partial-receive directory a history row points at and whether it may be deleted, and the
read-modify-write operations of `TransferHistoryStore`. A row keeps the fields these functions read
or write (`id`, `status`, `blob_hash`, `resumable_store_path`).

A path is kept as its parent directory and its `file_name()`. `canonicalize` is the file system's:
`none` when the directory cannot be resolved.
-/

namespace DashBeam.Receive

def recvDirPrefix : String := ".dashbeam-recv-"

def partialStoreHashLen : Nat := 64

def maxRecords : Nat := 500

structure StorePath where
  parent : String
  fileName : String
  deriving DecidableEq, Repr

/-- Where the app keeps its blob stores, and how the file system resolves a directory. -/
structure FileSystem where
  tempDir : String
  canonicalize : String → Option String

inductive TransferStatus
  | inProgress | completed | failed | cancelled | interrupted
  deriving DecidableEq, Repr

structure TransferRecord where
  id : String
  status : TransferStatus
  blobHash : Option String
  resumableStorePath : Option StorePath
  deriving DecidableEq, Repr

def isAsciiHexdigit (c : Char) : Bool :=
  ('0' ≤ c && c ≤ '9') || ('a' ≤ c && c ≤ 'f') || ('A' ≤ c && c ≤ 'F')

def stripPrefix (pre name : String) : Option String :=
  if pre.toList.isPrefixOf name.toList then some (String.ofList (name.toList.drop pre.toList.length))
  else none

/-- `partial_store_hash`: the hash a partial-receive directory holds, if the path names one. -/
def partialStoreHash (path : StorePath) : Option String :=
  match stripPrefix recvDirPrefix path.fileName with
  | none => none
  | some hash =>
    if hash.toList.length ≠ partialStoreHashLen || !hash.toList.all isAsciiHexdigit then none
    else some hash

/-- `is_reclaimable_partial`: a generated name, directly in the temp dir. -/
def isReclaimablePartial (fs : FileSystem) (path : StorePath) : Bool :=
  (partialStoreHash path).isSome &&
    match fs.canonicalize path.parent, fs.canonicalize fs.tempDir with
    | some parent, some temp => parent == temp
    | _, _ => false

/-- `partial_store_path_for`: where a partial receive of `hash` lives. -/
def partialStorePathFor (fs : FileSystem) (hash : String) : StorePath :=
  ⟨fs.tempDir, recvDirPrefix ++ hash⟩

/-- The hash whose directory `reclaim_partial` deletes for this record, if it deletes one. -/
def reclaimTarget (fs : FileSystem) (record : TransferRecord) : Option String :=
  match record.resumableStorePath with
  | none => none
  | some path => if isReclaimablePartial fs path then partialStoreHash path else none

/-! ### `TransferHistoryStore`

Every operation takes whether its file access succeeds; a failed one leaves the rows alone. -/

/-- `open`: the new row goes first, the oldest beyond the cap are dropped. -/
def openRecord (rows : List TransferRecord) (record : TransferRecord) : List TransferRecord :=
  (record :: rows).take maxRecords

/-- `update`: applies `f` to the row with this id, if there is one. -/
def updateRecord (rows : List TransferRecord) (id : String) (f : TransferRecord → TransferRecord) :
    List TransferRecord :=
  match rows with
  | [] => []
  | r :: rest => if r.id = id then f r :: rest else r :: updateRecord rest id f

/-- `delete`: the rows without the first one with this id, and that row. -/
def deleteRecord (rows : List TransferRecord) (id : String) :
    Option (TransferRecord × List TransferRecord) :=
  match rows with
  | [] => none
  | r :: rest => if r.id = id then some (r, rest) else (deleteRecord rest id).map fun p => (p.1, r :: p.2)

/-! ### Rows by id -/

/-- The row with this id, as `updateRecord` finds it. -/
def rowOf (rows : List TransferRecord) (id : String) : Option TransferRecord :=
  rows.find? fun row => row.id = id

theorem rowOf_updateRecord {rows : List TransferRecord} {id : String}
    {f : TransferRecord → TransferRecord} (hf : ∀ row, (f row).id = row.id) :
    rowOf (updateRecord rows id f) id = (rowOf rows id).map f := by
  induction rows with
  | nil => rfl
  | cons row rest ih =>
    rw [updateRecord]
    by_cases h : row.id = id
    · simp [rowOf, h, hf]
    · rw [rowOf, rowOf] at ih
      simp [rowOf, h, ih]

theorem rowOf_updateRecord_of_ne {rows : List TransferRecord} {id other : String}
    {f : TransferRecord → TransferRecord} (hf : ∀ row, (f row).id = row.id) (hne : other ≠ id) :
    rowOf (updateRecord rows id f) other = rowOf rows other := by
  induction rows with
  | nil => rfl
  | cons row rest ih =>
    rw [updateRecord]
    by_cases h : row.id = id
    · have hother : id ≠ other := Ne.symm hne
      simp [rowOf, h, hf, hother]
    · rw [rowOf, rowOf] at ih
      rw [if_neg h, rowOf, rowOf, List.find?_cons, List.find?_cons, ih]

theorem rowOf_openRecord (rows : List TransferRecord) (record : TransferRecord) :
    rowOf (openRecord rows record) record.id = some record := by
  simp [rowOf, openRecord, maxRecords]

/-- A row that is not dropped at the cap is still found under a new one. -/
theorem rowOf_openRecord_of_ne {rows : List TransferRecord} {record : TransferRecord} {id : String}
    (hne : id ≠ record.id) (hkept : ∀ row ∈ rows.drop (maxRecords - 1), row.id ≠ id) :
    rowOf (openRecord rows record) id = rowOf rows id := by
  have hdropped : (rows.drop (maxRecords - 1)).find? (fun row => row.id = id) = none := by
    rw [List.find?_eq_none]
    intro row hrow
    simpa using hkept row hrow
  have hsplit : rowOf rows id = (rows.take (maxRecords - 1)).find? fun row => row.id = id := by
    rw [rowOf]
    conv_lhs => rw [← List.take_append_drop (maxRecords - 1) rows]
    rw [List.find?_append, hdropped, Option.or_none]
  have hopen : openRecord rows record = record :: rows.take (maxRecords - 1) := rfl
  have hrecord : record.id ≠ id := Ne.symm hne
  rw [hsplit, hopen, rowOf, List.find?_cons]
  simp [hrecord]

theorem rowOf_deleteRecord {rows rows' : List TransferRecord} {id other : String}
    {record : TransferRecord} (h : deleteRecord rows id = some (record, rows')) (hne : other ≠ id) :
    rowOf rows' other = rowOf rows other := by
  induction rows generalizing rows' with
  | nil => cases h
  | cons row rest ih =>
    rw [deleteRecord] at h
    split at h
    · rename_i hid
      have hother : row.id ≠ other := fun heq => hne (heq.symm.trans hid)
      cases h
      simp [rowOf, hother]
    · obtain ⟨⟨record', rest'⟩, hrest, heq⟩ := Option.map_eq_some_iff.mp h
      cases heq
      have htail := ih hrest
      rw [rowOf, rowOf] at htail ⊢
      rw [List.find?_cons, List.find?_cons, htail]

end DashBeam.Receive
