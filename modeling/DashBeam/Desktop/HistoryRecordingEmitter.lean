import DashBeam.Desktop.Recorder
import DashBeam.Lib.Past
import DashBeam.Native.TransferHistory

/-!
# The history-recording emitter

`HistoryRecordingEmitter` of `src-tauri/src/history.rs` with all it writes: it stands before the emitter
of one transfer, opens a history row at the first started event, collects progress, file names and
peers, writes the terminal state of the row once, and forwards every event. Its calls may be mixed with
operations of others on the same store. What it does is told by a row that is unopened, in progress or
closed: `Phase`.
-/

namespace DashBeam.Desktop.Recording

open Lib Receive
open Native (TransferDirection TransferPathType TransferPeer HistoryOp HistoryResult hasId)

/-- The event that tells a history list to read again. -/
def historyUpdatedEvent : String := "transfer-history-updated"

def maxFileNames : Nat := 20

/-! ## Payloads -/

/-- A JSON value as `serde_json` reads it; a number is a `u64`, a negative integer or the bits of an
`f64`. -/
inductive Json
  | null
  | bool (b : Bool)
  | unsigned (n : Nat)
  | negative (n : Int)
  | float (bits : Nat)
  | string (s : String)
  | array (items : List Json)
  | object (fields : List (String × Json))

namespace Json

/-- `Value::get` of a field. -/
def get (key : String) : Json → Option Json
  | object fields => fields.lookup key
  | _ => none

def asU64 : Json → Option Nat
  | unsigned n => some n
  | _ => none

def asString : Json → Option String
  | string s => some s
  | _ => none

end Json

/-- What the recorder uses of other libraries: `serde_json::from_str`, and the quotient of two `f64`. -/
structure Outside where
  fromStr : String → Option Json
  bytesPerSecond : Nat → Nat → Nat

/-- What a `transfer-completed` / `receive-completed` payload tells. -/
structure CompletionFacts where
  durationMs : Option Nat
  exportMs : Option Nat
  bytes : Option Nat
  deriving DecidableEq, Repr

def CompletionFacts.default : CompletionFacts := ⟨none, none, none⟩

def CompletionFacts.parse (outside : Outside) (payload : String) : CompletionFacts :=
  match outside.fromStr payload with
  | none => .default
  | some value =>
    ⟨(value.get "durationMs").bind Json.asU64, (value.get "exportMs").bind Json.asU64,
      (value.get "bytes").bind Json.asU64⟩

/-- Bytes per second over the engine's wire time. -/
def averageSpeedBps (outside : Outside) (payloadBytes : Nat) (durationMs : Option Nat) :
    Option Nat :=
  match durationMs with
  | some ms => if ms > 0 then some (outside.bytesPerSecond payloadBytes ms) else none
  | none => none

structure ReceivedShape where
  rootName : String
  itemCount : Nat
  pathType : Option TransferPathType
  deriving DecidableEq, Repr

/-- The first component of a file name. -/
def headOf (name : String) : String := String.ofList ((name.toList.splitOn '/').headD [])

/-- The first components of the file names, each once. -/
def topLevel (fileNames : List String) : List String :=
  fileNames.foldl (fun top name => if headOf name ∈ top then top else top ++ [headOf name]) []

def ReceivedShape.fromFileNames (fileNames : List String) : ReceivedShape :=
  match topLevel fileNames with
  | [] => ⟨"", 0, none⟩
  | [only] =>
    ⟨only, 1, some (if fileNames.any fun name => '/' ∈ name.toList then .directory else .file)⟩
  | many => ⟨"", many.length % 2 ^ 32, none⟩

/-- `str::parse::<u64>`. -/
def parseU64 (s : List Char) : Option Nat :=
  let digits := if s.head? = some '+' then s.tail else s
  if digits = [] ∨ !digits.all Char.isDigit then none
  else if Nat.ofDigitChars 10 digits 0 < 2 ^ 64 then some (Nat.ofDigitChars 10 digits 0) else none

/-- `<bytes>:<total>:<speed x1000>`. -/
def progressBytes (payload : String) : Option Nat :=
  ((payload.toList.splitOn ':').head?).bind parseU64

/-- `parse_file_names`: an array of strings. -/
def parseFileNames (outside : Outside) (payload : String) : Option (List String) :=
  match outside.fromStr payload with
  | some (.array items) => items.mapM Json.asString
  | _ => none

/-! ## The recorder -/

/-- Everything known about a transfer before its first byte moves. -/
structure TransferContext where
  rootName : String
  payloadBytes : Nat
  itemCount : Nat
  pathType : Option TransferPathType
  blobHash : Option String
  savePath : Option String
  resumableStorePath : Option StorePath
  peer : Option TransferPeer

/-- What a transfer accumulates between opening and finalizing. -/
structure OpenRow where
  id : Option String
  finalized : Bool
  bytesTransferred : Nat
  fileNames : List String
  peerCount : Nat

/-- The recorder of one transfer, and the rows of its store. -/
structure HistoryRecordingEmitter where
  direction : TransferDirection
  context : TransferContext
  row : OpenRow
  rows : List Native.TransferRecord

/-- What one call draws from outside: a fresh id, the time, and whether the store can write. -/
structure Io where
  newId : String
  now : Nat
  fault : Bool
  deriving DecidableEq, Repr

/-- An event for the inner emitter. -/
structure EmittedEvent where
  name : String
  payload : Option String
  deriving DecidableEq, Repr

/-- What a call does: it opens a row, announces a change, and forwards the event. -/
inductive Output
  | opened (record : Native.TransferRecord)
  | announced
  | forwarded (event : EmittedEvent)
  deriving DecidableEq, Repr

/-- The call on the inner emitter that an output is. -/
def Output.inner : Output → Option EmittedEvent
  | opened _ => none
  | announced => some ⟨historyUpdatedEvent, none⟩
  | forwarded event => some event

def Output.record : Output → Option Native.TransferRecord
  | opened record => some record
  | _ => none

def Output.event : Output → Option EmittedEvent
  | forwarded event => some event
  | _ => none

/-- A store operation: `none` when the file cannot be written. -/
def Io.store (io : Io) (rows : List Native.TransferRecord) (op : HistoryOp) :
    Option (HistoryResult × List Native.TransferRecord) :=
  if io.fault then none else some ((op.run rows).1, (op.run rows).2.getD rows)

/-- The kinds of events that `note_event` tells apart. -/
inductive EventKind
  | started | completed | failed | progress | fileNames | peerConnected | other
  deriving DecidableEq, Repr

def eventKind (name : String) : EventKind :=
  if name = "transfer-started" ∨ name = "receive-started" then .started
  else if name = "transfer-completed" ∨ name = "receive-completed" then .completed
  else if name = "transfer-failed" then .failed
  else if name = "transfer-progress" ∨ name = "receive-progress" then .progress
  else if name = "receive-file-names" then .fileNames
  else if name = "share-peer-connected" then .peerConnected
  else .other

namespace HistoryRecordingEmitter

def new (direction : TransferDirection) (context : TransferContext)
    (rows : List Native.TransferRecord) : HistoryRecordingEmitter :=
  ⟨direction, context, ⟨none, false, 0, [], 0⟩, rows⟩

/-- The row that `open_row` writes. -/
def openingRecord (e : HistoryRecordingEmitter) (io : Io) : Native.TransferRecord :=
  { Native.TransferRecord.new io.newId io.now e.direction e.context.rootName
      e.context.payloadBytes with
    itemCount := e.context.itemCount
    pathType := e.context.pathType
    blobHash := e.context.blobHash
    savePath := e.context.savePath
    resumableStorePath := e.context.resumableStorePath
    peer := e.context.peer }

def openRow (e : HistoryRecordingEmitter) (io : Io) : HistoryRecordingEmitter × List Output :=
  match e.row.id with
  | some _ => (e, [])
  | none =>
    match io.store e.rows (.open (e.openingRecord io)) with
    | some (.opened id, rows) =>
      ({ e with row := { e.row with id := some id }, rows := rows }, [.opened (e.openingRecord io)])
    | _ => (e, [])

/-- A store update of the recorder's row, announced if it found the row. -/
def updateRow (e : HistoryRecordingEmitter) (io : Io) (id : String) (f : Native.RowUpdate) :
    HistoryRecordingEmitter × List Output :=
  match io.store e.rows (.update id f) with
  | some (.row (some _), rows) => ({ e with rows := rows }, [.announced])
  | _ => (e, [])

/-- The terminal state of a row: what `finalize` writes. -/
def closing (outside : Outside) (now : Nat) (e : HistoryRecordingEmitter) (status : TransferStatus)
    (facts : CompletionFacts) (error : Option String) : Native.RowUpdate where
  apply record :=
    let shape := ReceivedShape.fromFileNames e.row.fileNames
    let payloadBytes := facts.bytes.getD record.payloadBytes
    let peerCount := max e.row.peerCount (if record.peer.isSome then 1 else 0)
    let named :=
      if e.row.fileNames = [] then record
      else { record with
        fileNamesTruncated := e.row.fileNames.length > maxFileNames
        fileNames := e.row.fileNames.take maxFileNames }
    let shaped :=
      if e.direction = .receive ∧ shape.itemCount > 0 then
        { named with
          rootName := shape.rootName, itemCount := shape.itemCount, pathType := shape.pathType }
      else named
    { shaped with
      status := status
      endedAt := some now
      durationMs := facts.durationMs
      exportMs := facts.exportMs
      payloadBytes := payloadBytes
      bytesTransferred := facts.bytes.getD e.row.bytesTransferred
      avgSpeedBps := averageSpeedBps outside payloadBytes facts.durationMs
      peerCount := peerCount
      peer := if peerCount > 1 then none else record.peer
      resumableStorePath := if status = .completed then none else record.resumableStorePath
      error := error }
  keepsId record := by
    dsimp only
    split <;> split <;> rfl

/-- The first terminal state wins. -/
def finalize (outside : Outside) (e : HistoryRecordingEmitter) (io : Io) (status : TransferStatus)
    (facts : CompletionFacts) (error : Option String) : HistoryRecordingEmitter × List Output :=
  match e.row.id with
  | none => (e, [])
  | some id =>
    if e.row.finalized then (e, [])
    else
      { e with row := { e.row with finalized := true } }.updateRow io id
        (closing outside io.now e status facts error)

/-- What `note_destination` writes. -/
def destination (path : String) (uri : Option String) : Native.RowUpdate where
  apply record := { record with savePath := some path, saveUri := uri }
  keepsId _ := rfl

def noteDestination (e : HistoryRecordingEmitter) (io : Io) (path : String) (uri : Option String) :
    HistoryRecordingEmitter × List Output :=
  match e.row.id with
  | none => (e, [])
  | some id => e.updateRow io id (destination path uri)

/-- `u32::saturating_add`. -/
def saturatingAdd32 (a b : Nat) : Nat := min (a + b) (2 ^ 32 - 1)

def noteEvent (outside : Outside) (e : HistoryRecordingEmitter) (io : Io) (event : EmittedEvent) :
    HistoryRecordingEmitter × List Output :=
  match eventKind event.name with
  | .started => e.openRow io
  | .completed =>
    let facts := (event.payload.map (CompletionFacts.parse outside)).getD .default
    finalize outside e io .completed facts none
  | .failed => finalize outside e io .failed .default none
  | .progress =>
    match event.payload.bind progressBytes with
    | some bytes => ({ e with row := { e.row with bytesTransferred := bytes } }, [])
    | none => (e, [])
  | .fileNames =>
    match event.payload.bind (parseFileNames outside) with
    | some names => ({ e with row := { e.row with fileNames := names } }, [])
    | none => (e, [])
  | .peerConnected =>
    ({ e with row := { e.row with peerCount := saturatingAdd32 e.row.peerCount 1 } }, [])
  | .other => (e, [])

/-- `emit_event` and `emit_event_with_payload`. -/
def emit (outside : Outside) (e : HistoryRecordingEmitter) (io : Io) (event : EmittedEvent) :
    HistoryRecordingEmitter × List Output :=
  let noted := noteEvent outside e io event
  (noted.1, noted.2 ++ [.forwarded event])

end HistoryRecordingEmitter

inductive Call
  | emitEvent (name : String)
  | emitEventWithPayload (name payload : String)
  | finalize (status : TransferStatus) (facts : CompletionFacts) (error : Option String)
  | noteDestination (path : String) (uri : Option String)
  | updateContext (f : TransferContext → TransferContext)
  | noteInvitedPeer (peer : TransferPeer)

/-- A step: a call, or an operation of another user of the store. -/
inductive RecordingStep
  | call (io : Io) (call : Call)
  | store (op : HistoryOp)

namespace HistoryRecordingEmitter

def call (outside : Outside) (e : HistoryRecordingEmitter) (io : Io) :
    Call → HistoryRecordingEmitter × List Output
  | .emitEvent name => e.emit outside io ⟨name, none⟩
  | .emitEventWithPayload name payload => e.emit outside io ⟨name, some payload⟩
  | .finalize status facts error => finalize outside e io status facts error
  | .noteDestination path uri => e.noteDestination io path uri
  | .updateContext f => ({ e with context := f e.context }, [])
  | .noteInvitedPeer peer => ({ e with context := { e.context with peer := some peer } }, [])

end HistoryRecordingEmitter

def recordingMachine (outside : Outside) : Machine HistoryRecordingEmitter RecordingStep Output where
  step e
    | .call io call => some (e.call outside io call)
    | .store op => some ({ e with rows := (op.run e.rows).2.getD e.rows }, [])

/-! ## What a row goes through -/

namespace RecordingStep

/-- The event that a step is given to forward. -/
def event : RecordingStep → Option EmittedEvent
  | .call _ (.emitEvent name) => some ⟨name, none⟩
  | .call _ (.emitEventWithPayload name payload) => some ⟨name, some payload⟩
  | _ => none

def starts (step : RecordingStep) : Bool :=
  step.event.any fun event => eventKind event.name = .started

/-- The status that a terminal event gives. -/
def eventStatus (event : EmittedEvent) : Option TransferStatus :=
  match eventKind event.name with
  | .completed => some .completed
  | .failed => some .failed
  | _ => none

def terminal : RecordingStep → Option TransferStatus
  | .call _ (.finalize status _ _) => some status
  | step => step.event.bind eventStatus

def destination : RecordingStep → Option (String × Option String)
  | .call _ (.noteDestination path uri) => some (path, uri)
  | _ => none

end RecordingStep

/-- A row is not there yet, in progress, or closed with a status. -/
inductive Phase
  | unopened
  | inProgress
  | closed (status : TransferStatus)
  deriving DecidableEq, Repr

namespace Phase

/-- The first started event opens the row, and the first terminal call after it closes it. -/
def next (p : Phase) (step : RecordingStep) : Phase :=
  match p with
  | unopened => if step.starts then inProgress else unopened
  | inProgress =>
    match step.terminal with
    | some status => closed status
    | none => inProgress
  | closed status => closed status

def status : Phase → Option TransferStatus
  | unopened => none
  | inProgress => some .inProgress
  | closed status => some status

def isClosed : Phase → Bool
  | closed _ => true
  | _ => false

def opens (p : Phase) (step : RecordingStep) : Bool := p = unopened && step.starts

/-- The step writes the terminal state of the row. -/
def finalizes (p : Phase) (step : RecordingStep) : Bool := p = inProgress && step.terminal.isSome

/-- The step writes the destination of the row. -/
def relocates (p : Phase) (step : RecordingStep) : Bool :=
  p ≠ unopened && step.destination.isSome

end Phase

def phaseOf (steps : List RecordingStep) : Phase := steps.foldl Phase.next .unopened

/-- What a step in a phase does: it opens a row, announces what it wrote, and forwards its event. -/
def Phase.outputs (p : Phase) (step : RecordingStep) (record : Native.TransferRecord) :
    List Output :=
  (if p.opens step then [.opened record] else []) ++
    (if p.finalizes step || p.relocates step then [.announced] else []) ++
    step.event.toList.map .forwarded

/-- What a step makes of a row that it does not finalize: it may note the destination. -/
def relocated (step : RecordingStep) (record : Native.TransferRecord) : Native.TransferRecord :=
  match step.destination with
  | some (path, uri) => { record with savePath := some path, saveUri := uri }
  | none => record

/-- The recorder's row, as the store has it. -/
def HistoryRecordingEmitter.record (e : HistoryRecordingEmitter) : Option Native.TransferRecord :=
  e.row.id.bind fun id => e.rows.find? (hasId id)

/-- Writes succeed, and other users of the store leave the recorder's row as it is. -/
def RowKept (e : HistoryRecordingEmitter) : RecordingStep → Prop
  | .call io _ => io.fault = false
  | .store op => ({ e with rows := (op.run e.rows).2.getD e.rows }).record = e.record

instance (e : HistoryRecordingEmitter) (step : RecordingStep) : Decidable (RowKept e step) := by
  cases step with
  | call io call => exact inferInstanceAs (Decidable (io.fault = false))
  | store op => exact inferInstanceAs (Decidable (_ = _))

/-! ## One call -/

namespace HistoryRecordingEmitter

variable {outside : Outside} {e : HistoryRecordingEmitter} {io : Io} {record : Native.TransferRecord}

def Follows (e : HistoryRecordingEmitter) : Phase → Prop
  | .unopened => e.row.id = none ∧ e.row.finalized = false
  | .inProgress => e.row.finalized = false ∧
      ∃ record, e.record = some record ∧ record.status = .inProgress
  | .closed status => e.row.finalized = true ∧
      ∃ record, e.record = some record ∧ record.status = status

theorem record_cases (h : e.record = some record) :
    ∃ id, e.row.id = some id ∧ e.rows.find? (hasId id) = some record :=
  Option.bind_eq_some_iff.mp h

theorem openRow_eq (hid : e.row.id = none) (hfault : io.fault = false) :
    e.openRow io = ({ e with
      row := { e.row with id := some io.newId }
      rows := (e.openingRecord io :: e.rows).take maxRecords }, [.opened (e.openingRecord io)]) := by
  have hstore : io.store e.rows (.open (e.openingRecord io)) =
      some (.opened io.newId, (e.openingRecord io :: e.rows).take maxRecords) := by
    rw [Io.store, hfault]
    rfl
  rw [openRow, hid]
  simp only [hstore]

theorem openRow_of_none (hid : e.row.id = none) (hfault : io.fault = false) :
    (e.openRow io).2 = [.opened (e.openingRecord io)] ∧
      (e.openRow io).1.record = some (e.openingRecord io) ∧
      (e.openRow io).1.row.finalized = e.row.finalized := by
  rw [openRow_eq hid hfault]
  refine ⟨rfl, ?_, rfl⟩
  change ((e.openingRecord io :: e.rows).take maxRecords).find? (hasId io.newId) = _
  rw [maxRecords, List.take_succ_cons, List.find?_cons]
  have hself : hasId io.newId (e.openingRecord io) = true := Native.hasId_iff.mpr rfl
  rw [hself]

theorem openRow_of_some {id : String} (hid : e.row.id = some id) : e.openRow io = (e, []) := by
  rw [openRow, hid]

theorem updateRow_eq {id : String} (hid : e.row.id = some id)
    (hrecord : e.rows.find? (hasId id) = some record) (hfault : io.fault = false)
    (f : Native.RowUpdate) :
    e.updateRow io id f = ({ e with rows := updateFirst (hasId id) f.apply e.rows }, [.announced]) ∧
      (e.updateRow io id f).1.record = some (f.apply record) := by
  have hstore : io.store e.rows (.update id f) =
      some (.row (some (f.apply record)), updateFirst (hasId id) f.apply e.rows) := by
    rw [Io.store, hfault, HistoryOp.run, hrecord]
    rfl
  have heq : e.updateRow io id f =
      ({ e with rows := updateFirst (hasId id) f.apply e.rows }, [.announced]) := by
    rw [updateRow, hstore]
  refine ⟨heq, ?_⟩
  have hself : hasId id (f.apply record) = true := by
    rw [Native.hasId_iff, f.keepsId]
    exact Native.hasId_iff.mp (List.find?_some hrecord)
  rw [heq, HistoryRecordingEmitter.record, hid, Option.bind_some]
  exact find?_updateFirst hrecord hself

theorem finalize_of_none (hid : e.row.id = none) (status : TransferStatus) (facts : CompletionFacts)
    (error : Option String) : finalize outside e io status facts error = (e, []) := by
  rw [finalize, hid]

theorem finalize_of_finalized (h : e.row.finalized = true) (status : TransferStatus)
    (facts : CompletionFacts) (error : Option String) :
    finalize outside e io status facts error = (e, []) := by
  rw [finalize]
  split
  · rfl
  · rw [if_pos h]

theorem finalize_inProgress (outside : Outside) (h : e.Follows .inProgress) (hfault : io.fault = false)
    (status : TransferStatus) (facts : CompletionFacts) (error : Option String) :
    (finalize outside e io status facts error).1.Follows (.closed status) ∧
      (finalize outside e io status facts error).2 = [.announced] := by
  obtain ⟨hopen, record, hrecord, -⟩ := h
  obtain ⟨id, hid, hfound⟩ := record_cases hrecord
  have hnot : ¬ e.row.finalized = true := by
    rw [hopen]
    decide
  have heq : finalize outside e io status facts error =
      { e with row := { e.row with finalized := true } }.updateRow io id
        (closing outside io.now e status facts error) := by
    rw [finalize, hid]
    exact if_neg hnot
  obtain ⟨hupdate, hafter⟩ := updateRow_eq (e := { e with row := { e.row with finalized := true } })
    hid hfound hfault (closing outside io.now e status facts error)
  rw [heq]
  refine ⟨⟨?_, _, hafter, rfl⟩, ?_⟩
  · rw [hupdate]
  · rw [hupdate]

theorem Follows.congr {e' : HistoryRecordingEmitter} {p : Phase} (h : e.Follows p)
    (hid : e'.row.id = e.row.id) (hfinalized : e'.row.finalized = e.row.finalized)
    (hrecord : e'.record = e.record) : e'.Follows p := by
  cases p with
  | unopened => exact ⟨hid.trans h.1, hfinalized.trans h.2⟩
  | inProgress =>
    obtain ⟨hopen, record, hfound, hstatus⟩ := h
    exact ⟨hfinalized.trans hopen, record, hrecord.trans hfound, hstatus⟩
  | closed status =>
    obtain ⟨hclosed, record, hfound, hstatus⟩ := h
    exact ⟨hfinalized.trans hclosed, record, hrecord.trans hfound, hstatus⟩

theorem Follows.id_some {p : Phase} (h : e.Follows p) (hp : p ≠ .unopened) :
    ∃ id record, e.row.id = some id ∧ e.rows.find? (hasId id) = some record := by
  have hrecord : ∃ record, e.record = some record := by
    cases p with
    | unopened => exact absurd rfl hp
    | inProgress =>
      obtain ⟨-, record, hfound, -⟩ := h
      exact ⟨record, hfound⟩
    | closed status =>
      obtain ⟨-, record, hfound, -⟩ := h
      exact ⟨record, hfound⟩
  obtain ⟨record, hrecord⟩ := hrecord
  obtain ⟨id, hid, hfound⟩ := record_cases hrecord
  exact ⟨id, record, hid, hfound⟩

theorem Follows.of_amended {e' : HistoryRecordingEmitter} {p : Phase} (h : e.Follows p)
    (hrecord : e.record = some record) (hrow : e'.row = e.row) {record' : Native.TransferRecord}
    (hrecord' : e'.record = some record') (hstatus : record'.status = record.status) :
    e'.Follows p := by
  obtain ⟨id, hid, -⟩ := record_cases hrecord
  cases p with
  | unopened =>
    rw [h.1] at hid
    cases hid
  | inProgress =>
    obtain ⟨hopen, found, hfound, hfoundStatus⟩ := h
    obtain rfl := Option.some.inj (hrecord.symm.trans hfound)
    exact ⟨by rw [hrow, hopen], record', hrecord', hstatus.trans hfoundStatus⟩
  | closed status =>
    obtain ⟨hclosed, found, hfound, hfoundStatus⟩ := h
    obtain rfl := Option.some.inj (hrecord.symm.trans hfound)
    exact ⟨by rw [hrow, hclosed], record', hrecord', hstatus.trans hfoundStatus⟩

/-- A step's effect on a recorder in a phase. -/
structure Effect (p : Phase) (step : RecordingStep) (e e' : HistoryRecordingEmitter)
    (out : List Output) : Prop where
  follows : e'.Follows (p.next step)
  out : ∃ record, out = p.outputs step record
  kept : p ≠ .unopened → p.finalizes step = false → e'.record = e.record.map (relocated step)

/-- A step that neither starts, ends nor relocates, and writes no row. -/
theorem Effect.of_quiet {p : Phase} {step : RecordingStep} {e' : HistoryRecordingEmitter}
    (h : e.Follows p) (hstarts : step.starts = false) (hterminal : step.terminal = none)
    (hdestination : step.destination = none) (hid : e'.row.id = e.row.id)
    (hfinalized : e'.row.finalized = e.row.finalized) (hrecord : e'.record = e.record) :
    Effect p step e e' (step.event.toList.map .forwarded) where
  follows := by
    have hnext : p.next step = p := by
      cases p with
      | unopened =>
        rw [Phase.next, hstarts]
        rfl
      | inProgress => rw [Phase.next, hterminal]
      | closed status => rfl
    rw [hnext]
    exact h.congr hid hfinalized hrecord
  out := by
    refine ⟨.new "" 0 .send "" 0, ?_⟩
    simp [Phase.outputs, Phase.opens, Phase.finalizes, Phase.relocates, hstarts, hterminal,
      hdestination]
  kept _ _ := by
    have hsame : relocated step = id := by
      funext record
      rw [relocated, hdestination]
      rfl
    rw [hsame, Option.map_id, hrecord]
    rfl

/-- A terminal step: the first one closes the row, the others do nothing. -/
theorem Effect.of_terminal {p : Phase} {step : RecordingStep} (h : e.Follows p)
    (hfault : io.fault = false) (hstarts : step.starts = false) {status : TransferStatus}
    (hterminal : step.terminal = some status) (hdestination : step.destination = none)
    (facts : CompletionFacts) (error : Option String) :
    Effect p step e (finalize outside e io status facts error).1
      ((finalize outside e io status facts error).2 ++ step.event.toList.map .forwarded) := by
  have hsame : relocated step = id := by
    funext record
    rw [relocated, hdestination]
    rfl
  have houtputs : ∀ record, p.outputs step record =
      (if p = .inProgress then [.announced] else []) ++ step.event.toList.map .forwarded := by
    intro record
    simp [Phase.outputs, Phase.opens, Phase.finalizes, Phase.relocates, hstarts, hterminal,
      hdestination]
  cases p with
  | unopened =>
    rw [finalize_of_none h.1]
    refine ⟨?_, ⟨.new "" 0 .send "" 0, ?_⟩, ?_⟩
    · rw [Phase.next, hstarts]
      exact h
    · rw [houtputs]
      rfl
    · intro hne
      exact absurd rfl hne
  | inProgress =>
    obtain ⟨hfollows, hout⟩ := finalize_inProgress outside h hfault status facts error
    refine ⟨?_, ⟨.new "" 0 .send "" 0, ?_⟩, ?_⟩
    · rw [Phase.next, hterminal]
      exact hfollows
    · rw [houtputs, hout]
      rfl
    · intro _ hfinalizes
      rw [Phase.finalizes, hterminal] at hfinalizes
      cases hfinalizes
  | closed old =>
    rw [finalize_of_finalized h.1]
    refine ⟨h, ⟨.new "" 0 .send "" 0, ?_⟩, ?_⟩
    · rw [houtputs]
      rfl
    · intro _ _
      rw [hsame, Option.map_id]
      rfl

theorem Effect.of_start {p : Phase} {step : RecordingStep} (h : e.Follows p)
    (hfault : io.fault = false) (hstarts : step.starts = true) (hterminal : step.terminal = none)
    (hdestination : step.destination = none) :
    Effect p step e (e.openRow io).1 ((e.openRow io).2 ++ step.event.toList.map .forwarded) := by
  have hsame : relocated step = id := by
    funext record
    rw [relocated, hdestination]
    rfl
  have houtputs : ∀ record, p.outputs step record =
      (if p = .unopened then [.opened record] else []) ++ step.event.toList.map .forwarded := by
    intro record
    simp [Phase.outputs, Phase.opens, Phase.finalizes, Phase.relocates, hstarts, hterminal,
      hdestination]
  by_cases hp : p = .unopened
  · subst hp
    obtain ⟨hout, hrecord, hfinalized⟩ := openRow_of_none h.1 hfault
    refine ⟨?_, ⟨e.openingRecord io, ?_⟩, ?_⟩
    · rw [Phase.next, if_pos hstarts]
      exact ⟨hfinalized.trans h.2, _, hrecord, rfl⟩
    · rw [houtputs, hout, if_pos rfl]
    · intro hne
      exact absurd rfl hne
  · obtain ⟨id, -, hid, -⟩ := h.id_some hp
    have hnext : p.next step = p := by
      cases p with
      | unopened => exact absurd rfl hp
      | inProgress => rw [Phase.next, hterminal]
      | closed status => rfl
    rw [openRow_of_some hid]
    refine ⟨?_, ⟨.new "" 0 .send "" 0, ?_⟩, ?_⟩
    · rw [hnext]
      exact h
    · rw [houtputs, if_neg hp]
    · intro _ _
      rw [hsame, Option.map_id]
      rfl

theorem Effect.of_destination {p : Phase} {path : String} {uri : Option String} (h : e.Follows p)
    (hfault : io.fault = false) :
    Effect p (.call io (.noteDestination path uri)) e (e.noteDestination io path uri).1
      (e.noteDestination io path uri).2 := by
  by_cases hp : p = .unopened
  · subst hp
    rw [noteDestination, h.1]
    exact ⟨h, ⟨.new "" 0 .send "" 0, rfl⟩, fun hne => absurd rfl hne⟩
  · obtain ⟨id, record, hid, hfound⟩ := h.id_some hp
    obtain ⟨hupdate, hafter⟩ := updateRow_eq hid hfound hfault (destination path uri)
    have hnext : p.next (.call io (.noteDestination path uri)) = p := by
      cases p with
      | unopened => exact absurd rfl hp
      | _ => rfl
    have hrecord : e.record = some record := by
      rw [HistoryRecordingEmitter.record, hid, Option.bind_some, hfound]
    have heq : e.noteDestination io path uri = e.updateRow io id (destination path uri) := by
      rw [noteDestination, hid]
    rw [heq]
    refine ⟨?_, ⟨.new "" 0 .send "" 0, ?_⟩, ?_⟩
    · rw [hnext]
      refine h.of_amended hrecord ?_ hafter rfl
      rw [hupdate]
    · have hrelocates : p.relocates (.call io (.noteDestination path uri)) = true := by
        rw [Phase.relocates]
        simp [RecordingStep.destination, hp]
      have hopens : p.opens (.call io (.noteDestination path uri)) = false := Bool.and_false _
      rw [hupdate, Phase.outputs, hopens, hrelocates, Bool.or_true]
      rfl
    · intro _ _
      rw [hafter, hrecord]
      rfl

theorem Effect.of_event {p : Phase} {step : RecordingStep} {event : EmittedEvent} (h : e.Follows p)
    (hfault : io.fault = false) (hevent : step.event = some event)
    (hterminal : step.terminal = RecordingStep.eventStatus event)
    (hdestination : step.destination = none) :
    Effect p step e (e.emit outside io event).1 (e.emit outside io event).2 := by
  have hforward : step.event.toList.map Output.forwarded = [.forwarded event] := by
    rw [hevent]
    rfl
  have hstarts : step.starts = decide (eventKind event.name = .started) := by
    rw [RecordingStep.starts, hevent]
    rfl
  rw [RecordingStep.eventStatus] at hterminal
  simp only [emit, noteEvent]
  rw [← hforward]
  cases hkind : eventKind event.name with
  | started =>
    rw [hkind] at hstarts hterminal
    exact .of_start h hfault hstarts hterminal hdestination
  | completed =>
    rw [hkind] at hstarts hterminal
    exact .of_terminal h hfault hstarts hterminal hdestination _ _
  | failed =>
    rw [hkind] at hstarts hterminal
    exact .of_terminal h hfault hstarts hterminal hdestination _ _
  | progress =>
    rw [hkind] at hstarts hterminal
    cases event.payload.bind progressBytes with
    | none => exact .of_quiet h hstarts hterminal hdestination rfl rfl rfl
    | some bytes => exact .of_quiet h hstarts hterminal hdestination rfl rfl rfl
  | fileNames =>
    rw [hkind] at hstarts hterminal
    cases event.payload.bind (parseFileNames outside) with
    | none => exact .of_quiet h hstarts hterminal hdestination rfl rfl rfl
    | some names => exact .of_quiet h hstarts hterminal hdestination rfl rfl rfl
  | peerConnected =>
    rw [hkind] at hstarts hterminal
    exact .of_quiet h hstarts hterminal hdestination rfl rfl rfl
  | other =>
    rw [hkind] at hstarts hterminal
    exact .of_quiet h hstarts hterminal hdestination rfl rfl rfl

theorem Effect.of_call {p : Phase} (h : e.Follows p) (hfault : io.fault = false) (call : Call) :
    Effect p (.call io call) e (e.call outside io call).1 (e.call outside io call).2 := by
  cases call with
  | emitEvent name => exact .of_event h hfault rfl rfl rfl
  | emitEventWithPayload name payload => exact .of_event h hfault rfl rfl rfl
  | finalize status facts error =>
    have heffect : Effect p (.call io (.finalize status facts error)) e
        (finalize outside e io status facts error).1
        ((finalize outside e io status facts error).2 ++ []) :=
      .of_terminal h hfault rfl rfl rfl facts error
    rwa [List.append_nil] at heffect
  | noteDestination path uri => exact .of_destination h hfault
  | updateContext f => exact .of_quiet h rfl rfl rfl rfl rfl rfl
  | noteInvitedPeer peer => exact .of_quiet h rfl rfl rfl rfl rfl rfl

theorem Effect.of_step {p : Phase} {step : RecordingStep} {e' : HistoryRecordingEmitter}
    {out : List Output} (h : e.Follows p) (hkept : RowKept e step)
    (hstep : (recordingMachine outside).step e step = some (e', out)) : Effect p step e e' out := by
  cases step with
  | call io call =>
    obtain ⟨rfl, rfl⟩ := Prod.mk.inj (Option.some.inj hstep)
    exact .of_call h hkept call
  | store op =>
    obtain ⟨rfl, rfl⟩ := Prod.mk.inj (Option.some.inj hstep)
    exact .of_quiet h rfl rfl rfl rfl rfl hkept

end HistoryRecordingEmitter

/-! ## Runs -/

open HistoryRecordingEmitter (Effect)

theorem phaseOf_snoc (steps : List RecordingStep) (step : RecordingStep) :
    phaseOf (steps ++ [step]) = (phaseOf steps).next step := by
  rw [phaseOf, List.foldl_append]
  rfl

theorem phaseOf_eq_unopened (steps : List RecordingStep) :
    phaseOf steps = .unopened ↔ ∀ step ∈ steps, step.starts = false := by
  induction steps using List.reverseRecOn with
  | nil => simp [phaseOf]
  | append_singleton steps step ih =>
    have hnext : ∀ p : Phase, p.next step = .unopened ↔ p = .unopened ∧ step.starts = false := by
      intro p
      cases p with
      | unopened =>
        rw [Phase.next]
        cases step.starts <;> simp
      | inProgress =>
        rw [Phase.next]
        cases step.terminal <;> simp
      | closed status => simp [Phase.next]
    rw [phaseOf_snoc, hnext, ih]
    simp only [List.mem_append, List.mem_singleton]
    constructor
    · rintro ⟨hsteps, hstep⟩ other (hother | rfl)
      · exact hsteps other hother
      · exact hstep
    · intro h
      exact ⟨fun other hother => h other (Or.inl hother), h step (Or.inr rfl)⟩

theorem effects_run {outside : Outside} {direction : TransferDirection} {context : TransferContext}
    {rows : List Native.TransferRecord}
    {tr : List (Entry HistoryRecordingEmitter RecordingStep Output)} {s : HistoryRecordingEmitter}
    (hrun : Run (recordingMachine outside) RowKept (.new direction context rows) tr s) :
    s.Follows (phaseOf (tr.map Entry.act)) ∧
      Each (fun past entry => Effect (phaseOf (past.map Entry.act)) entry.act entry.pre entry.post
        entry.out) tr := by
  refine hrun.invariant (I := fun tr s => s.Follows (phaseOf (tr.map Entry.act)) ∧
      Each (fun past entry => Effect (phaseOf (past.map Entry.act)) entry.act entry.pre entry.post
        entry.out) tr) ⟨⟨rfl, rfl⟩, .nil⟩ ?_
  rintro tr s s' step out ⟨hfollows, heach⟩ hkept hstep
  have heffect := Effect.of_step hfollows hkept hstep
  refine ⟨?_, heach.snoc heffect⟩
  rw [List.map_append, List.map_singleton, phaseOf_snoc]
  exact heffect.follows

theorem filterMap_record_outputs (p : Phase) (step : RecordingStep) (record : Native.TransferRecord) :
    ((p.outputs step record).filterMap Output.record).length = if p.opens step then 1 else 0 := by
  rw [Phase.outputs, List.filterMap_append, List.filterMap_append]
  cases p.opens step <;> cases p.finalizes step || p.relocates step <;> cases step.event <;> rfl

theorem filterMap_inner_outputs (p : Phase) (step : RecordingStep) (record : Native.TransferRecord) :
    (p.outputs step record).filterMap Output.inner =
      (if p.finalizes step || p.relocates step then [⟨historyUpdatedEvent, none⟩] else []) ++
        step.event.toList := by
  rw [Phase.outputs, List.filterMap_append, List.filterMap_append]
  cases p.opens step <;> cases p.finalizes step || p.relocates step <;> cases step.event <;> rfl

theorem filterMap_event_outputs (p : Phase) (step : RecordingStep) (record : Native.TransferRecord) :
    (p.outputs step record).filterMap Output.event = step.event.toList := by
  rw [Phase.outputs, List.filterMap_append, List.filterMap_append]
  cases p.opens step <;> cases p.finalizes step || p.relocates step <;> cases step.event <;> rfl

/-- A row is opened once if there is a started event, and never without one. -/
theorem length_opened {tr : List (Entry HistoryRecordingEmitter RecordingStep Output)}
    (h : Each (fun past entry => Effect (phaseOf (past.map Entry.act)) entry.act entry.pre
      entry.post entry.out) tr) :
    ((tr.flatMap Entry.out).filterMap Output.record).length =
      if phaseOf (tr.map Entry.act) = .unopened then 0 else 1 := by
  induction tr using List.reverseRecOn with
  | nil => rfl
  | append_singleton tr entry ih =>
    obtain ⟨htr, hentry⟩ := Each.snoc_iff.mp h
    obtain ⟨record, hout⟩ := hentry.out
    rw [List.flatMap_append, List.filterMap_append, List.length_append, ih htr,
      List.flatMap_singleton, hout, filterMap_record_outputs, List.map_append, List.map_singleton,
      phaseOf_snoc]
    generalize phaseOf (tr.map Entry.act) = p
    cases p with
    | unopened =>
      rw [Phase.next, Phase.opens]
      cases entry.act.starts <;> rfl
    | inProgress =>
      rw [Phase.next]
      cases entry.act.terminal <;> rfl
    | closed status => rfl

theorem forwarded_events {tr : List (Entry HistoryRecordingEmitter RecordingStep Output)}
    (h : Each (fun past entry => Effect (phaseOf (past.map Entry.act)) entry.act entry.pre
      entry.post entry.out) tr) :
    (tr.flatMap Entry.out).filterMap Output.event = tr.filterMap (fun entry => entry.act.event) := by
  induction tr using List.reverseRecOn with
  | nil => rfl
  | append_singleton tr entry ih =>
    obtain ⟨htr, hentry⟩ := Each.snoc_iff.mp h
    obtain ⟨record, hout⟩ := hentry.out
    rw [List.flatMap_append, List.filterMap_append, ih htr, List.flatMap_singleton, hout,
      filterMap_event_outputs, List.filterMap_append]
    cases hevent : entry.act.event with
    | none => simp [hevent]
    | some event => simp [hevent]

theorem HistoryRecordingEmitter.Follows.status {s : HistoryRecordingEmitter} {p : Phase}
    (h : s.Follows p) : s.record.map (·.status) = p.status := by
  cases p with
  | unopened =>
    rw [HistoryRecordingEmitter.record, h.1]
    rfl
  | inProgress =>
    obtain ⟨-, record, hrecord, hstatus⟩ := h
    rw [hrecord, Option.map_some, hstatus]
    rfl
  | closed status =>
    obtain ⟨-, record, hrecord, hstatus⟩ := h
    rw [hrecord, Option.map_some, hstatus]
    rfl

/-- Every run of a recorder whose writes succeed and whose row others leave alone. Its events are
forwarded in order; one row is opened at most; the row has the status of the first terminal call after
its opening. In each step, a row is opened by the first started event, the inner emitter gets an
announcement for the first terminal call and for every destination noted, then the event, and a closed
row changes in its destination only. -/
theorem recorder_runs {outside : Outside} {direction : TransferDirection} {context : TransferContext}
    {rows : List Native.TransferRecord}
    {tr : List (Entry HistoryRecordingEmitter RecordingStep Output)} {s : HistoryRecordingEmitter}
    (hrun : Run (recordingMachine outside) RowKept (.new direction context rows) tr s) :
    (tr.flatMap Entry.out).filterMap Output.event = tr.filterMap (fun entry => entry.act.event) ∧
    ((tr.flatMap Entry.out).filterMap Output.record).length ≤ 1 ∧
    s.record.map (·.status) = (phaseOf (tr.map Entry.act)).status ∧
    Each (fun past entry =>
      ((entry.out.filterMap Output.record).length =
        if entry.act.starts ∧ ∀ earlier ∈ past, earlier.act.starts = false then 1 else 0) ∧
      (entry.out.filterMap Output.inner =
        (if (phaseOf (past.map Entry.act)).finalizes entry.act ||
            (phaseOf (past.map Entry.act)).relocates entry.act then
          [⟨historyUpdatedEvent, none⟩] else []) ++ entry.act.event.toList) ∧
      ((phaseOf (past.map Entry.act)).isClosed →
        entry.post.record = entry.pre.record.map (relocated entry.act))) tr := by
  obtain ⟨hfollows, heach⟩ := effects_run hrun
  refine ⟨?_, ?_, ?_, ?_⟩
  · exact forwarded_events heach
  · rw [length_opened heach]
    split <;> omega
  · exact hfollows.status
  · refine heach.mono ?_
    intro past entry heffect
    obtain ⟨record, hout⟩ := heffect.out
    refine ⟨?_, ?_, ?_⟩
    · have hunopened := phaseOf_eq_unopened (past.map Entry.act)
      rw [List.forall_mem_map] at hunopened
      rw [hout, filterMap_record_outputs]
      refine if_congr ?_ rfl rfl
      rw [Phase.opens, Bool.and_eq_true, decide_eq_true_eq, hunopened]
      exact and_comm
    · rw [hout, filterMap_inner_outputs]
    · intro hclosed
      apply heffect.kept
      · intro hp
        rw [hp] at hclosed
        cases hclosed
      · rw [Phase.finalizes]
        cases hphase : phaseOf (past.map Entry.act) with
        | inProgress =>
          rw [hphase] at hclosed
          cases hclosed
        | unopened => rfl
        | closed status => rfl

/-- A share that completes and is then stopped; another transfer opens its row in between. -/
def stoppedShare : List RecordingStep :=
  [.call ⟨"a", 1, false⟩ (.emitEvent "transfer-started"),
    .store (.open (.new "b" 2 .receive "b.pdf" 20)),
    .call ⟨"c", 3, false⟩ (.emitEventWithPayload "transfer-progress" "7:10:0"),
    .call ⟨"d", 4, false⟩ (.emitEvent "transfer-completed"),
    .call ⟨"e", 5, false⟩ (.finalize .cancelled .default none)]

theorem recorder_runs_stoppedShare :
    ∃ tr s, Run (recordingMachine ⟨fun _ => none, fun _ _ => 0⟩) RowKept
        (.new .send ⟨"a.pdf", 10, 1, some .file, none, none, none, none⟩ []) tr s ∧
      tr.map (fun entry => entry.act.event) = stoppedShare.map RecordingStep.event ∧
      s.record.map (·.status) = some .completed := by
  obtain ⟨tr, s, hrun, htest⟩ := Run.of_check (recordingMachine ⟨fun _ => none, fun _ _ => 0⟩)
    RowKept (.new .send ⟨"a.pdf", 10, 1, some .file, none, none, none, none⟩ []) stoppedShare
    (fun tr _ => decide (tr.map (fun entry => entry.act.event) =
      stoppedShare.map RecordingStep.event ∧
      (phaseOf (tr.map Entry.act)).status = some .completed)) (by decide +kernel)
  obtain ⟨hevents, hphase⟩ := of_decide_eq_true htest
  obtain ⟨-, -, hstatus, -⟩ := recorder_runs hrun
  exact ⟨tr, s, hrun, hevents, hstatus.trans hphase⟩

/-! ## The recorder as the share sees it

The share sees of the recorder's rows the status and the pointer to a partial store. -/

/-- The event of `noteEvent` that a kind is. -/
def EventKind.noted : EventKind → NotedEvent
  | .started => .started
  | .completed => .completed
  | .failed => .failed
  | _ => .other

def HistoryRecordingEmitter.recorder (e : HistoryRecordingEmitter) (newId : String) : Recorder :=
  ⟨newId, ⟨e.context.blobHash, e.context.resumableStorePath⟩, ⟨e.row.id, e.row.finalized⟩,
    e.rows.map (·.toTransferRecord)⟩

theorem recorder_finalize {outside : Outside} {e : HistoryRecordingEmitter} {io : Io}
    (hfault : io.fault = false) (newId : String) (status : TransferStatus)
    (facts : CompletionFacts) (error : Option String) :
    (HistoryRecordingEmitter.finalize outside e io status facts error).1.recorder newId =
      (e.recorder newId).finalize status := by
  cases hid : e.row.id with
  | none =>
    rw [HistoryRecordingEmitter.finalize_of_none hid, Recorder.finalize]
    simp only [HistoryRecordingEmitter.recorder, hid]
  | some id =>
    by_cases hfinalized : e.row.finalized = true
    · rw [HistoryRecordingEmitter.finalize_of_finalized hfinalized,
        Recorder.finalize_of_finalized (r := e.recorder newId) hfinalized]
    · have hclosing : ∀ row, ((HistoryRecordingEmitter.closing outside io.now e status facts
          error).apply row).toTransferRecord = finalizeRecord status row.toTransferRecord := by
        intro row
        simp only [HistoryRecordingEmitter.closing]
        split <;> split <;> rfl
      have hrows := Native.update_toTransferRecord e.rows id
        (HistoryRecordingEmitter.closing outside io.now e status facts error)
        (finalizeRecord status) hclosing
      have hreduced : (e.recorder newId).finalize status =
          { e.recorder newId with
            row := ⟨some id, true⟩
            rows := updateRecord (e.rows.map (·.toTransferRecord)) id (finalizeRecord status) } := by
        rw [Recorder.finalize]
        simp only [HistoryRecordingEmitter.recorder, hid, hfinalized]
        rfl
      rw [hreduced, ← hrows, HistoryRecordingEmitter.finalize, hid]
      simp only [hfinalized, HistoryRecordingEmitter.updateRow, Io.store, hfault, HistoryOp.run]
      cases hfound : e.rows.find? (hasId id) with
      | none => simp [HistoryRecordingEmitter.recorder, hid]
      | some record => simp [HistoryRecordingEmitter.recorder, hid]

theorem recorder_noteEvent {outside : Outside} {e : HistoryRecordingEmitter} {io : Io}
    (hfault : io.fault = false) (event : EmittedEvent) :
    (HistoryRecordingEmitter.noteEvent outside e io event).1.recorder io.newId =
      (e.recorder io.newId).noteEvent (eventKind event.name).noted := by
  rw [HistoryRecordingEmitter.noteEvent]
  cases eventKind event.name with
  | started =>
    cases hid : e.row.id with
    | some id =>
      simp only [HistoryRecordingEmitter.openRow, hid, EventKind.noted, Recorder.noteEvent,
        Recorder.openRow, HistoryRecordingEmitter.recorder]
    | none =>
      have hrows := Native.open_toTransferRecord e.rows (e.openingRecord io)
      have hreduced : (e.recorder io.newId).openRow =
          { e.recorder io.newId with
            row := ⟨some io.newId, e.row.finalized⟩
            rows := openRecord (e.rows.map (·.toTransferRecord))
              (e.openingRecord io).toTransferRecord } := by
        rw [Recorder.openRow]
        simp only [HistoryRecordingEmitter.recorder, hid]
        rfl
      rw [EventKind.noted, Recorder.noteEvent, hreduced, ← hrows]
      simp only [HistoryRecordingEmitter.openRow_eq hid hfault]
      rfl
  | completed => exact recorder_finalize hfault _ _ _ _
  | failed => exact recorder_finalize hfault _ _ _ _
  | progress =>
    dsimp only
    cases event.payload.bind progressBytes <;> rfl
  | fileNames =>
    dsimp only
    cases event.payload.bind (parseFileNames outside) <;> rfl
  | peerConnected => rfl
  | other => rfl

end DashBeam.Desktop.Recording
