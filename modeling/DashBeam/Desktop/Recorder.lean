import DashBeam.Receive.Machine

/-!
# The history recorder

`HistoryRecordingEmitter` of `src-tauri/src/history.rs`: it stands in front of the event emitter of one
transfer, opens a history row at the first sign of the transfer and closes it at the first terminal
event. The row's status and its pointer to a partial store are kept; durations, byte counts, names
and peers are written by the same updates and read by nothing here. Store writes succeed.
-/

namespace DashBeam.Desktop

open DashBeam.Receive

/-- The events `note_event` tells apart, by what it does on them. -/
inductive NotedEvent where
  /-- `transfer-started`, `receive-started` -/
  | started
  /-- `transfer-completed`, `receive-completed` -/
  | completed
  /-- `transfer-failed` -/
  | failed
  /-- progress, file names, a connected peer, and every other name -/
  | other
deriving DecidableEq, Repr

/-- What the recorder knows of the transfer before it starts. -/
structure TransferContext where
  blobHash : Option String
  resumableStorePath : Option StorePath

/-- `OpenRow`: the row opened so far and whether a terminal state was written. -/
structure OpenRow where
  id : Option String
  finalized : Bool
deriving DecidableEq, Repr

/-- The recorder of one transfer over the store's rows; `newId` is the id its row gets. -/
structure Recorder where
  newId : String
  context : TransferContext
  row : OpenRow
  rows : List TransferRecord

namespace Recorder

def new (newId : String) (context : TransferContext) (rows : List TransferRecord) : Recorder :=
  ⟨newId, context, ⟨none, false⟩, rows⟩

def openRow (r : Recorder) : Recorder :=
  match r.row.id with
  | some _ => r
  | none =>
    let record : TransferRecord :=
      ⟨r.newId, .inProgress, r.context.blobHash, r.context.resumableStorePath⟩
    { r with row := { r.row with id := some r.newId }, rows := openRecord r.rows record }

/-- The first terminal state wins. -/
def finalize (r : Recorder) (status : TransferStatus) : Recorder :=
  match r.row.id with
  | none => r
  | some id =>
    if r.row.finalized then r
    else
      { r with
        row := { r.row with finalized := true }
        rows := updateRecord r.rows id (finalizeRecord status) }

def noteEvent (r : Recorder) : NotedEvent → Recorder
  | .started => r.openRow
  | .completed => r.finalize .completed
  | .failed => r.finalize .failed
  | .other => r

def noteEvents (r : Recorder) (events : List NotedEvent) : Recorder := events.foldl noteEvent r

def record (r : Recorder) : Option TransferRecord := rowOf r.rows r.newId

/-! ## The row over the operations -/

/-- A row is open under the recorder's id. -/
structure Opened (r : Recorder) (record : TransferRecord) : Prop where
  id : r.row.id = some r.newId
  record : r.record = some record

theorem opened_openRow {r : Recorder} (h : r.row.id = none) :
    r.openRow.Opened ⟨r.newId, .inProgress, r.context.blobHash, r.context.resumableStorePath⟩ := by
  have heq : r.openRow = { r with
      row := { r.row with id := some r.newId }
      rows := openRecord r.rows
        ⟨r.newId, .inProgress, r.context.blobHash, r.context.resumableStorePath⟩ } := by
    rw [openRow, h]
  rw [heq]
  exact ⟨rfl, rowOf_openRecord _ _⟩

theorem finalized_openRow (r : Recorder) : r.openRow.row.finalized = r.row.finalized := by
  rw [openRow]
  split <;> rfl

theorem finalize_eq {r : Recorder} {record : TransferRecord} (hr : r.Opened record)
    (hfinalized : r.row.finalized = false) (status : TransferStatus) :
    r.finalize status = { r with
      row := { r.row with finalized := true }
      rows := updateRecord r.rows r.newId (finalizeRecord status) } := by
  rw [finalize, hr.id]
  simp [hfinalized]

theorem opened_finalize {r : Recorder} {record : TransferRecord} (hr : r.Opened record)
    (hfinalized : r.row.finalized = false) (status : TransferStatus) :
    (r.finalize status).Opened (finalizeRecord status record) := by
  rw [finalize_eq hr hfinalized]
  refine ⟨hr.id, ?_⟩
  have hrecord : rowOf r.rows r.newId = some record := hr.record
  have hclose : ∀ row, (finalizeRecord status row).id = row.id := fun _ => rfl
  show rowOf (updateRecord r.rows r.newId (finalizeRecord status)) r.newId = _
  rw [rowOf_updateRecord hclose, hrecord]
  rfl

theorem finalize_of_finalized {r : Recorder} (h : r.row.finalized = true) (status : TransferStatus) :
    r.finalize status = r := by
  rw [finalize]
  split
  · rfl
  · rw [if_pos h]

theorem noteEvents_append (r : Recorder) (events later : List NotedEvent) :
    r.noteEvents (events ++ later) = (r.noteEvents events).noteEvents later := List.foldl_append

theorem noteEvents_other {r : Recorder} {events : List NotedEvent}
    (h : ∀ event ∈ events, event = .other) : r.noteEvents events = r := by
  induction events with
  | nil => rfl
  | cons event rest ih =>
    obtain rfl := h event (by simp)
    exact ih fun event' hevent' => h event' (by simp [hevent'])

end Recorder

end DashBeam.Desktop
