import DashBeam.Receive.History
import DashBeam.Lib.Past
import Mathlib.Data.Finset.Basic

/-!
# `receive_file`, `cancel_receive` and the commands that delete partial stores

The state shared by the receive commands of `src-tauri/src/commands.rs`: the three receive fields
of `AppState`, the history rows, the partial stores on disk, and any number of running invocations.
An invocation advances by one step per lock acquisition or await; the scheduler picks which one.

The cancel channel of a receive is a `oneshot`: its sender is named by the invocation that created
it, and its receiver is ready as soon as the sender has sent or was dropped (`Channel.ready`). The
`select!` of `engine::download` takes the cancel branch on either.

`AutoCleanupDir` removes its directory from a blocking task it spawns when it is dropped while
armed, so the removal of a completed download's store is a step of its own (`State.deferred`).
-/

namespace DashBeam.Receive

open Lib

/-- The state of a `oneshot` channel as its receiver sees it. -/
inductive Channel
  /-- The sender exists, in the function or in `AppState`. -/
  | held
  | sent
  | dropped
  deriving DecidableEq, Repr

/-- Whether awaiting the receiver returns. -/
def Channel.ready : Channel → Bool
  | .held => false
  | .sent | .dropped => true

/-- The result of `engine::download`; an error is its `to_string()`. -/
inductive DownloadResult
  | ok
  | err (e : String)
  deriving DecidableEq, Repr

/-- Where `engine::download` is. -/
inductive Download
  /-- Parsing the ticket, loading the key and binding the endpoint. -/
  | setup
  /-- In `create_recv_store`. -/
  | openStore
  /-- In `select!`: asking the store what it already has. -/
  | queryStore
  /-- In `select!`: connecting, asking for the sizes and reading the get stream. -/
  | fetching
  /-- In `select!`: `Collection::load`. -/
  | loading
  /-- In `select!`: `export_to_directory`. -/
  | exporting
  /-- The transfer finished; closing the endpoint. -/
  | closing
  /-- The transfer failed with `e`; closing the endpoint and shutting the store down. -/
  | failing (e : String)
  /-- The cancel branch was taken; shutting the store down and closing the endpoint. -/
  | cancelling
  deriving DecidableEq, Repr

/-- Where `receive_file` is. -/
inductive Phase
  | start
  /-- A stale hash other than the new one was taken; its store is about to be removed. -/
  | removeStale (stale : String)
  | install
  | download (d : Download)
  /-- `download` returned; the state update is still to come. -/
  | epilogue (result : DownloadResult)
  /-- The state was updated; `recorder.finalize` is still to come. -/
  | finalize (result : DownloadResult)
  | done
  deriving DecidableEq, Repr

/-- One invocation of `receive_file`. `recording` says whether history is enabled, `row` and
`finalized` are the recorder's `OpenRow`. -/
structure Invocation where
  hash : Option String
  phase : Phase
  channel : Channel
  recording : Bool
  row : Option String
  finalized : Bool
  deriving DecidableEq, Repr

/-- The receive fields of `AppState`. -/
structure AppState where
  currentReceiveCancel : Option Nat
  currentReceiveHash : Option String
  lastCancelledRecvHash : Option String
  deriving DecidableEq, Repr

/-- A history command between two of its steps. -/
inductive Command
  /-- Rows were taken out of the history; their stores are still to be reclaimed. -/
  | reclaim (records : List TransferRecord)
  /-- `clear_transfer_temp_data` found its record. -/
  | tempFound (record : TransferRecord)
  /-- `clear_transfer_temp_data` saw that the record's hash is not the one being received. -/
  | tempChecked (record : TransferRecord)
  /-- `clear_transfer_temp_data` reclaimed the store. -/
  | tempReclaimed (record : TransferRecord)
  | done
  deriving DecidableEq, Repr

structure State where
  app : AppState
  rows : List TransferRecord
  /-- Hashes whose partial store is on disk. -/
  stores : Finset String
  /-- Removals the cleanup guard spawned that have not run yet. -/
  deferred : List String
  receives : List Invocation
  commands : List Command

/-- What the awaited operation of a receive step does. `io` says whether a history write made by
the step succeeds, `uuid` is the id a row opened by the step gets. -/
inductive Progress
  | next
  /-- The awaited operation fails with this text. -/
  | fail (e : String)
  /-- The store already holds the whole payload. -/
  | complete
  /-- `select!` takes the cancel branch. -/
  | cancel
  deriving DecidableEq, Repr

inductive Act
  | receiveFile (hash : Option String) (recording : Bool)
  | receive (r : Nat) (p : Progress) (io : Bool) (uuid : String)
  | cancelReceive
  | deleteTransferRecord (id : String) (io : Bool)
  | clearTransferHistory (io : Bool)
  | clearTransferTempData (id : String) (io : Bool)
  | command (c : Nat) (io : Bool)
  /-- A removal spawned by the cleanup guard runs. -/
  | cleanup (io : Bool)
  deriving DecidableEq, Repr

inductive Out
  /-- The partial store of this hash was removed from disk. -/
  | removed (hash : String)
  deriving DecidableEq, Repr

/-! ### The recorder -/

def openRow (fs : FileSystem) (rows : List TransferRecord) (x : Invocation) (io : Bool) (uuid : String) :
    List TransferRecord × Invocation :=
  if !x.recording || x.row.isSome then (rows, x)
  else if io then
    (openRecord rows ⟨uuid, .inProgress, x.hash, x.hash.map (partialStorePathFor fs)⟩,
      { x with row := some uuid })
  else (rows, x)

/-- The closure `HistoryRecordingEmitter::finalize` applies to its row. -/
def finalizeRecord (status : TransferStatus) (r : TransferRecord) : TransferRecord :=
  { r with
    status := status
    resumableStorePath := if status = .completed then none else r.resumableStorePath }

def finalize (rows : List TransferRecord) (x : Invocation) (status : TransferStatus) (io : Bool) :
    List TransferRecord × Invocation :=
  match x.row with
  | none => (rows, x)
  | some id =>
    if x.finalized then (rows, x)
    else (if io then updateRecord rows id (finalizeRecord status) else rows, { x with finalized := true })

/-! ### Steps -/

/-- An error text of the libraries the setup calls; only the cancel branch says `cancelled`. -/
def LibraryError (e : String) : Prop := e ≠ "cancelled"

instance (e : String) : Decidable (LibraryError e) := inferInstanceAs (Decidable (_ ≠ _))

def setReceive (s : State) (r : Nat) (x : Invocation) : State :=
  { s with receives := s.receives.set r x }

/-- Removing a partial store that is there, when the file system lets us. -/
def removeStore (s : State) (hash : String) (io : Bool) : State × List Out :=
  if io ∧ hash ∈ s.stores then ({ s with stores := s.stores.erase hash }, [.removed hash])
  else (s, [])

/-- The stale-store block of `receive_file`: takes the recorded hash and decides about its store. -/
def takeStale (s : State) (r : Nat) (x : Invocation) : State :=
  match x.hash with
  | none => setReceive s r { x with phase := .install }
  | some new =>
    let s' := { s with app := { s.app with lastCancelledRecvHash := none } }
    match s.app.lastCancelledRecvHash with
    | none => setReceive s' r { x with phase := .install }
    | some stale =>
      setReceive s' r { x with phase := if stale ≠ new then .removeStale stale else .install }

/-- The install block: refuses when a cancel sender is stored, else stores its own. -/
def install (s : State) (r : Nat) (x : Invocation) : State :=
  if s.app.currentReceiveCancel.isSome then
    setReceive s r { x with phase := .done, channel := .dropped }
  else
    setReceive
      { s with app := { s.app with currentReceiveCancel := some r, currentReceiveHash := x.hash } }
      r { x with phase := .download .setup }

/-- Overwriting the stored cancel sender with `None` drops it. -/
def dropSender (receives : List Invocation) (slot : Option Nat) : List Invocation :=
  match slot with
  | none => receives
  | some r => receives.modify r fun x => if x.channel = .held then { x with channel := .dropped } else x

/-- The state update after `download` returned. -/
def epilogue (s : State) (r : Nat) (x : Invocation) (result : DownloadResult) : State :=
  { s with
    app :=
      { currentReceiveCancel := none
        currentReceiveHash := none
        lastCancelledRecvHash :=
          match result with
          | .ok => s.app.lastCancelledRecvHash
          | .err _ => x.hash }
    receives := (dropSender s.receives s.app.currentReceiveCancel).modify r fun x =>
      { x with phase := .finalize result } }

/-- One step of `engine::download`: the next phase, and the receive with its recorder's row. -/
def downloadStep (fs : FileSystem) (s : State) (r : Nat) (x : Invocation) (d : Download) (p : Progress)
    (io : Bool) (uuid : String) : Option State :=
  let goto (phase : Phase) : State := setReceive s r { x with phase := phase }
  match d, p with
  -- An unparseable ticket has no hash, and the setup fails on it.
  | .setup, .next => if x.hash.isSome then some (goto (.download .openStore)) else none
  | .setup, .fail e | .openStore, .fail e =>
    if LibraryError e then some (goto (.epilogue (.err e))) else none
  | .openStore, .next =>
    match x.hash with
    | none => none
    | some h => some { goto (.download .queryStore) with stores := insert h s.stores }
  | .queryStore, .next =>
    let (rows, x) := openRow fs s.rows x io uuid
    some { setReceive s r { x with phase := .download .fetching } with rows := rows }
  | .queryStore, .complete =>
    let (rows, x) := openRow fs s.rows x io uuid
    let (rows, x) := finalize rows x .completed io
    some { setReceive s r { x with phase := .download .loading } with rows := rows }
  | .fetching, .next => some (goto (.download .loading))
  | .loading, .next => some (goto (.download .exporting))
  | .exporting, .next =>
    let (rows, x) := finalize s.rows x .completed io
    some { setReceive s r { x with phase := .download .closing } with rows := rows }
  | .queryStore, .fail e | .fetching, .fail e | .loading, .fail e | .exporting, .fail e =>
    some (goto (.download (.failing e)))
  | .queryStore, .cancel | .fetching, .cancel | .loading, .cancel | .exporting, .cancel =>
    if x.channel.ready then some (goto (.download .cancelling)) else none
  -- The guard is still armed here: its drop spawns the removal.
  | .closing, .next =>
    match x.hash with
    | none => none
    | some h => some { goto (.epilogue .ok) with deferred := s.deferred ++ [h] }
  | .failing e, .next => some (goto (.epilogue (.err ("error: " ++ e))))
  | .cancelling, .next => some (goto (.epilogue (.err "cancelled")))
  | .failing _, .fail e | .cancelling, .fail e =>
    if LibraryError e then some (goto (.epilogue (.err e))) else none
  | _, _ => none

/-- The terminal status `receive_file` reports to the recorder. -/
def statusOf : DownloadResult → Option TransferStatus
  | .ok => none
  | .err e => some (if e = "cancelled" then .cancelled else .failed)

def receiveStep (fs : FileSystem) (s : State) (r : Nat) (x : Invocation) (p : Progress) (io : Bool)
    (uuid : String) : Option (State × List Out) :=
  match x.phase with
  | .start => some (takeStale s r x, [])
  | .removeStale stale =>
    some (removeStore (setReceive s r { x with phase := .install }) stale io)
  | .install => some (install s r x, [])
  | .download d => (downloadStep fs s r x d p io uuid).map (·, [])
  | .epilogue result => some (epilogue s r x result, [])
  | .finalize result =>
    match statusOf result with
    | none => some (setReceive s r { x with phase := .done }, [])
    | some status =>
      let (rows, x) := finalize s.rows x status io
      some ({ setReceive s r { x with phase := .done } with rows := rows }, [])
  | .done => none

/-- `cancel_receive`: takes the stored sender and fires it. -/
def cancelReceive (s : State) : State :=
  match s.app.currentReceiveCancel with
  | none => s
  | some r =>
    { s with
      app := { s.app with currentReceiveCancel := none }
      receives := s.receives.modify r fun x => { x with channel := .sent } }

def commandStep (fs : FileSystem) (s : State) (c : Nat) (cmd : Command) (io : Bool) :
    Option (State × List Out) :=
  let goto (cmd : Command) : State := { s with commands := s.commands.set c cmd }
  match cmd with
  | .reclaim [] => some (goto .done, [])
  | .reclaim (record :: rest) =>
    match reclaimTarget fs record with
    | none => some (goto (.reclaim rest), [])
    | some hash => some (removeStore (goto (.reclaim rest)) hash io)
  | .tempFound record =>
    -- Deleting the store a running download is writing into would corrupt it.
    match s.app.currentReceiveHash with
    | none => some (goto (.tempChecked record), [])
    | some active =>
      if record.blobHash = some active then some (goto .done, [])
      else some (goto (.tempChecked record), [])
  | .tempChecked record =>
    match reclaimTarget fs record with
    | none => some (goto (.tempReclaimed record), [])
    | some hash => some (removeStore (goto (.tempReclaimed record)) hash io)
  | .tempReclaimed record =>
    some ({ goto .done with
      rows := if io then updateRecord s.rows record.id fun r => { r with resumableStorePath := none }
        else s.rows }, [])
  | .done => none

def step (fs : FileSystem) (s : State) : Act → Option (State × List Out)
  | .receiveFile hash recording =>
    some ({ s with receives := s.receives ++ [⟨hash, .start, .held, recording, none, false⟩] }, [])
  | .receive r p io uuid =>
    match s.receives[r]? with
    | none => none
    | some x => receiveStep fs s r x p io uuid
  | .cancelReceive => some (cancelReceive s, [])
  | .deleteTransferRecord id io =>
    if io then
      match deleteRecord s.rows id with
      | none => some (s, [])
      | some (record, rows) =>
        some ({ s with rows := rows, commands := s.commands ++ [.reclaim [record]] }, [])
    else some (s, [])
  | .clearTransferHistory io =>
    if io then some ({ s with rows := [], commands := s.commands ++ [.reclaim s.rows] }, [])
    else some (s, [])
  | .clearTransferTempData id io =>
    if io then
      match s.rows.find? (·.id = id) with
      | none => some (s, [])
      | some record => some ({ s with commands := s.commands ++ [.tempFound record] }, [])
    else some (s, [])
  | .command c io =>
    match s.commands[c]? with
    | none => none
    | some cmd => commandStep fs s c cmd io
  | .cleanup io =>
    match s.deferred with
    | [] => none
    | h :: rest => some (removeStore { s with deferred := rest } h io)

def machine (fs : FileSystem) : Machine State Act Out := ⟨step fs⟩

/-- The app has just started: nothing is being received; the history and the disk are arbitrary. -/
def initial (rows : List TransferRecord) (stores : Finset String) (last : Option String) : State :=
  ⟨⟨none, none, last⟩, rows, stores, [], [], []⟩

end DashBeam.Receive
