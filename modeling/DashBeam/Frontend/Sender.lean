import DashBeam.Frontend.Receiver
import DashBeam.Lib.Past

/-!
# The sender of the frontend

The store `sender-store.ts`, the hook `useSender` and what the page `Sender.tsx` shows. The hook listens
to the events of the share, and its calls and its listeners go on after an `await` or a timer: a
completion waits ten milliseconds, a broadcast goes back to listening after two seconds, the answers of
`send_items`, `stop_sharing` and `get_file_size` come any time later. What goes on then looks at the
store of that moment or at what it kept from before, and does not ask whether it is still wanted.

The page shows one screen in every run in which broadcast mode is not switched on while a completion
waits (`shows_one_screen`); `blank_page` is a run in which it is. A page of an active share without a
ticket was stranded by a step that came too late (`stranded_by`); in `live_share_stranded` the answer to
an old `stop_sharing` takes the ticket from the share that was started after it.

The page stays mounted, and an event reaches the listeners or does not. What a click does is taken to
see the store as it is.
-/

namespace DashBeam.Frontend.Sender

open Lib
open Receiver (Number Platform TransferProgress PathType split nonEmpty parseProgressPayload
  parseCompletionPayload TransferCompletion)

/-! ## `sender-store.ts` -/

inductive ViewState
  | idle | sharing | transporting | success
  deriving DecidableEq, Repr

structure TransferMetadata where
  fileName : String
  fileSize : Number
  duration : Number
  startTime : Number
  endTime : Number
  wasStopped : Bool
  pathType : Option PathType
  itemCount : Nat
  deriving DecidableEq, Repr

structure SenderStore where
  viewState : ViewState
  ticket : Option String
  selectedPaths : List String
  selectedPath : Option String
  pathType : Option PathType
  transferMetadata : Option TransferMetadata
  transferProgress : Option TransferProgress
  isLoading : Bool
  isBroadcastMode : Bool
  activeConnectionCount : Number
  deriving DecidableEq, Repr

namespace SenderStore

def initial (nought : Number) : SenderStore :=
  ⟨.idle, none, [], none, none, none, none, false, false, nought⟩

def setSelectedPaths (store : SenderStore) (paths : List String) : SenderStore :=
  { store with selectedPaths := paths, selectedPath := paths.head? }

/-- `addSelectedPaths`: a set in the order of insertion. -/
def addSelectedPaths (store : SenderStore) (paths : List String) : SenderStore :=
  store.setSelectedPaths (paths.foldl (fun seen path => if path ∈ seen then seen else seen ++ [path])
    (store.selectedPaths.foldl (fun seen path => if path ∈ seen then seen else seen ++ [path]) []))

def removeSelectedPath (store : SenderStore) (path : String) : SenderStore :=
  let paths := store.selectedPaths.filter (· ≠ path)
  { store.setSelectedPaths paths with pathType := if paths = [] then none else store.pathType }

def setSelectedPath (store : SenderStore) (path : Option String) : SenderStore :=
  { store with selectedPath := path, selectedPaths := (path.bind nonEmpty).toList }

def resetToIdle (nought : Number) : SenderStore := initial nought

def resetForBroadcast (store : SenderStore) (nought : Number) : SenderStore :=
  { store with
    viewState := .sharing
    transferMetadata := none
    transferProgress := none
    activeConnectionCount := nought }

end SenderStore

/-! ## `Sender.tsx` -/

inductive Screen
  | select | success | active
  deriving DecidableEq, Repr

/-- The screens whose condition holds. -/
def screens (store : SenderStore) : List Screen :=
  (if store.viewState = .idle then [.select] else []) ++
  (if store.viewState = .success ∧ store.transferMetadata.isSome ∧ ¬ store.isBroadcastMode then
    [.success] else []) ++
  (if ((store.viewState = .sharing ∨ store.viewState = .transporting) ∧ ¬ store.isBroadcastMode) ∨
      (store.viewState = .sharing ∧ store.isBroadcastMode) then [.active] else [])

/-- The switch of broadcast mode is shown with the ticket. -/
def offersBroadcast (store : SenderStore) : Bool :=
  store.viewState = .sharing && (store.ticket.bind nonEmpty).isSome

/-! ## `useSender` -/

/-- A completion that waits: the store and the payload of its event. -/
structure Completion where
  store : SenderStore
  payload : Option String
  deriving DecidableEq, Repr

/-- A `get_file_size` that was asked for, with what its answer is put into. -/
structure Sizing where
  fileName : String
  duration : Number
  endTime : Number
  pathType : Option PathType
  itemCount : Nat
  deriving DecidableEq, Repr

structure State where
  store : SenderStore
  latestProgressRef : Option TransferProgress
  transferStartTimeRef : Option Number
  /-- The interval that shows the progress, with the view it shows it in. -/
  progressUpdateInterval : Option ViewState
  wasManuallyStoppedRef : Bool
  selectedPathRef : Option String
  pathTypeRef : Option PathType
  completions : List Completion
  sizings : List Sizing
  /-- The timers that go back to listening. -/
  broadcastTimers : Nat
  /-- The calls of `send_items` without an answer. -/
  starting : Nat
  /-- The calls of `stop_sharing` without an answer: whether the page is reset by it. -/
  stopping : List Bool
  deriving DecidableEq, Repr

def State.initial (nought : Number) : State :=
  ⟨.initial nought, none, none, none, false, none, none, [], [], 0, 0, []⟩

/-- What the hook asks of the backend. -/
inductive Output
  | sendItems (paths : List String)
  | stopSharing
  | checkPathType (path : String)
  | getFileSize (path : String)
  deriving DecidableEq, Repr

section

variable (platform : Platform)

def nought : Number := platform.ofNat 0

/-- `path.split('/').pop() || 'Unknown'`. -/
def fileNameOf (path : String) : String := (((split '/' path).getLast?).bind nonEmpty).getD "Unknown"

/-- A time of zero is falsy. -/
def startTimeOr (s : State) (endTime : Number) : Number :=
  ((s.transferStartTimeRef.filter fun time => time ≠ nought platform)).getD endTime

def elapsed (s : State) (endTime : Number) : Number :=
  ((s.transferStartTimeRef.filter fun time => time ≠ nought platform).map fun start =>
    platform.sub endTime start).getD (nought platform)

def onTransferStarted (s : State) (now : Number) : State :=
  { s with
    transferStartTimeRef := some now
    latestProgressRef := none
    wasManuallyStoppedRef := false
    progressUpdateInterval := some (if s.store.isBroadcastMode then .sharing else .transporting)
    store :=
      { s.store with
        viewState := if s.store.isBroadcastMode then s.store.viewState else .transporting
        transferProgress := none
        transferMetadata := none } }

def onTransferProgress (s : State) (payload : String) : State :=
  if s.store.viewState = .transporting ∨ (s.store.isBroadcastMode ∧ s.store.viewState = .sharing) then
    match parseProgressPayload platform payload with
    | some progress => { s with latestProgressRef := some progress }
    | none => s
  else s

/-- The guards of `transfer-completed` and `transfer-failed`. -/
def ignoresEnd (s : State) : Bool :=
  s.wasManuallyStoppedRef || s.store.viewState = .idle ||
    (s.store.selectedPath.bind nonEmpty).isNone ||
    (!s.store.isBroadcastMode && s.store.viewState ≠ .transporting)

def onTransferCompleted (s : State) (payload : Option String) : State :=
  if ignoresEnd s then s
  else
    { s with
      progressUpdateInterval := none
      store := { s.store with transferProgress := s.latestProgressRef.or s.store.transferProgress }
      completions := s.completions ++ [⟨s.store, payload⟩] }

/-- The rest of `transfer-completed`, after its ten milliseconds. -/
def finishCompletion (s : State) (completion : Completion) (endTime : Number) : State × List Output :=
  let duration := ((completion.payload.bind (parseCompletionPayload platform)).map
    TransferCompletion.durationMs).getD (elapsed platform s endTime)
  match (completion.store.selectedPath.bind nonEmpty).or (s.selectedPathRef.bind nonEmpty) with
  | none => (s, [])
  | some path =>
    let fileName := fileNameOf path
    let pathType := completion.store.pathType.or s.pathTypeRef
    let itemCount := completion.store.selectedPaths.length
    let fileSize := (s.latestProgressRef.map TransferProgress.totalBytes).getD (nought platform)
    let metadata : TransferMetadata :=
      ⟨fileName, fileSize, duration, startTimeOr platform s endTime, endTime, false, pathType, itemCount⟩
    let shown : State :=
      if completion.store.isBroadcastMode then
        { s with
          store := { s.store with transferMetadata := some metadata }
          broadcastTimers := s.broadcastTimers + 1 }
      else
        { s with
          store :=
            { s.store with
              transferMetadata := some metadata
              viewState := .success
              transferProgress := none } }
    if itemCount ≤ 1 then
      ({ shown with sizings := shown.sizings ++ [⟨fileName, duration, endTime, pathType, itemCount⟩] },
        [.getFileSize path])
    else (shown, [])

/-- `get_file_size` has answered. -/
def resolveSize (s : State) (sizing : Sizing) (size : Option Number) : State :=
  match size with
  | none => s
  | some size =>
    { s with
      store :=
        { s.store with
          transferMetadata := some ⟨sizing.fileName, size, sizing.duration,
            startTimeOr platform s sizing.endTime, sizing.endTime, false, sizing.pathType,
            sizing.itemCount⟩ } }

/-- The two seconds after a completed broadcast are over. -/
def backToListening (s : State) : State :=
  { s with
    store := s.store.resetForBroadcast (nought platform)
    latestProgressRef := none
    transferStartTimeRef := none }

/-- What a transfer that was stopped or failed shows. -/
def stoppedMetadata (s : State) (path : String) (duration endTime : Number)
    (pathType : Option PathType) : TransferMetadata :=
  ⟨fileNameOf path, nought platform, duration, startTimeOr platform s endTime, endTime, true, pathType,
    s.store.selectedPaths.length⟩

def onTransferFailed (s : State) (endTime : Number) : State :=
  if ignoresEnd s then s
  else if s.store.isBroadcastMode then
    { backToListening platform s with progressUpdateInterval := none }
  else
    match (s.store.selectedPath.bind nonEmpty).or (s.selectedPathRef.bind nonEmpty) with
    | none => { s with progressUpdateInterval := none }
    | some path =>
      { s with
        progressUpdateInterval := none
        store :=
          { s.store with
            transferMetadata := some (stoppedMetadata platform s path (elapsed platform s endTime)
              endTime (s.store.pathType.or s.pathTypeRef))
            viewState := .success
            transferProgress := none } }

def showProgress (s : State) : State :=
  match s.progressUpdateInterval, s.latestProgressRef with
  | some view, some progress =>
    if s.store.viewState = view then
      { s with store := { s.store with transferProgress := some progress } }
    else s
  | _, _ => s

def handleFilesSelect (s : State) (paths : List String) (provided : Option PathType) :
    State × List Output :=
  match paths with
  | [] => (s, [])
  | first :: _ =>
    let store := s.store.addSelectedPaths paths
    if store.selectedPaths.length > 1 then ({ s with store := { store with pathType := none } }, [])
    else if provided.isSome then ({ s with store := { store with pathType := provided } }, [])
    else if s.pathTypeRef.isSome then ({ s with store := store }, [])
    else ({ s with store := store }, [.checkPathType first])

def removeSelectedPath (s : State) (path : String) : State × List Output :=
  let store := s.store.removeSelectedPath path
  match store.selectedPaths with
  | [] => ({ s with store := { store with pathType := none } }, [])
  | [remaining] => ({ s with store := store }, [.checkPathType remaining])
  | _ => ({ s with store := { store with pathType := none } }, [])

/-- `startSharing` up to the answer of `send_items`. -/
def startSharing (s : State) : State × List Output :=
  if s.store.selectedPaths = [] then (s, [])
  else
    ({ s with
        store :=
          { s.store with
            viewState := .idle
            transferMetadata := none
            transferProgress := none
            activeConnectionCount := nought platform
            isLoading := true }
        transferStartTimeRef := none
        wasManuallyStoppedRef := false
        latestProgressRef := none
        starting := s.starting + 1 },
      [.sendItems s.store.selectedPaths])

/-- `send_items` has answered with a ticket, or failed. -/
def resolveStart (s : State) (ticket : Option String) : State :=
  { s with
    starting := s.starting - 1
    store :=
      match ticket with
      | some ticket => { s.store with ticket := some ticket, viewState := .sharing, isLoading := false }
      | none => { s.store with isLoading := false } }

/-- `stopSharing` up to the answer of `stop_sharing`. -/
def stopSharing (s : State) (endTime : Number) : State × List Output :=
  let wasActiveTransfer := s.store.viewState = .transporting ∧
    ¬ s.store.transferMetadata.any TransferMetadata.wasStopped
  let isCompletedTransfer := s.store.viewState = .success ∧ s.store.transferMetadata.isSome
  let store := { s.store with isBroadcastMode := false }
  if isCompletedTransfer then
    ({ s with
        store := .resetToIdle (nought platform)
        wasManuallyStoppedRef := false
        transferStartTimeRef := none
        latestProgressRef := none }, [.stopSharing])
  else
    match s.selectedPathRef.bind nonEmpty with
    | some path =>
      if wasActiveTransfer then
        ({ s with
            store :=
              { store with
                transferMetadata := some (stoppedMetadata platform s path (nought platform) endTime
                  s.pathTypeRef)
                viewState := .success }
            wasManuallyStoppedRef := true
            progressUpdateInterval := none
            latestProgressRef := none
            transferStartTimeRef := none
            stopping := s.stopping ++ [false] }, [.stopSharing])
      else ({ s with store := store, stopping := s.stopping ++ [true] }, [.stopSharing])
    | none => ({ s with store := store, stopping := s.stopping ++ [true] }, [.stopSharing])

/-- `stop_sharing` has answered. -/
def resolveStop (s : State) (resets ok : Bool) : State :=
  if !ok then s
  else if resets then
    { s with
      store := .resetToIdle (nought platform)
      wasManuallyStoppedRef := false
      transferStartTimeRef := none
      latestProgressRef := none }
  else
    { s with
      store :=
        { s.store.setSelectedPaths [] with
          ticket := none
          pathType := none
          transferProgress := none }
      transferStartTimeRef := none
      latestProgressRef := none }

def runEffects (s : State) : State :=
  { s with
    selectedPathRef := s.store.selectedPath
    pathTypeRef := s.store.pathType
    store :=
      if s.store.viewState = .idle then { s.store with isBroadcastMode := false } else s.store }

end

/-! ## Runs -/

inductive Act
  | activeConnectionCount (count : Number)
  | transferStarted (now : Number)
  | transferProgress (payload : String)
  | transferCompleted (payload : Option String)
  /-- The ten milliseconds of a completion are over. -/
  | completionGoesOn (index : Nat) (now : Number)
  | sizeAnswered (index : Nat) (size : Option Number)
  | broadcastTimer
  | transferFailed (now : Number)
  | progressInterval
  | filesSelected (paths : List String) (provided : Option PathType)
  | pathTypeAnswered (type : Option PathType)
  | selectionCleared
  | pathRemoved (path : String)
  /-- The app was opened with a path. -/
  | launchIntent (path : String)
  | startClicked
  | startAnswered (ticket : Option String)
  | stopClicked (now : Number)
  | stopAnswered (index : Nat) (ok : Bool)
  | broadcastSwitched (on : Bool)
  | rendered
  deriving DecidableEq, Repr

/-- One stretch of code between two awaits. Only what is under way goes on, and broadcast mode is
switched on where the page offers it. -/
def step (platform : Platform) (s : State) : Act → Option (State × List Output)
  | .activeConnectionCount count =>
    some ({ s with store := { s.store with activeConnectionCount := count } }, [])
  | .transferStarted now => some (onTransferStarted s now, [])
  | .transferProgress payload => some (onTransferProgress platform s payload, [])
  | .transferCompleted payload => some (onTransferCompleted s payload, [])
  | .completionGoesOn index now =>
    s.completions[index]?.map fun completion =>
      finishCompletion platform { s with completions := s.completions.eraseIdx index } completion now
  | .sizeAnswered index size =>
    s.sizings[index]?.map fun sizing =>
      (resolveSize platform { s with sizings := s.sizings.eraseIdx index } sizing size, [])
  | .broadcastTimer =>
    if s.broadcastTimers = 0 then none
    else some (backToListening platform { s with broadcastTimers := s.broadcastTimers - 1 }, [])
  | .transferFailed now => some (onTransferFailed platform s now, [])
  | .progressInterval => some (showProgress s, [])
  | .filesSelected paths provided => some (handleFilesSelect s paths provided)
  | .pathTypeAnswered type => some ({ s with store := { s.store with pathType := type } }, [])
  | .selectionCleared =>
    some ({ s with store := { s.store.setSelectedPaths [] with pathType := none } }, [])
  | .pathRemoved path => some (removeSelectedPath s path)
  | .launchIntent path =>
    some ({ s with store := s.store.setSelectedPath (some path) }, [.checkPathType path])
  | .startClicked => some (startSharing platform s)
  | .startAnswered ticket => if s.starting = 0 then none else some (resolveStart s ticket, [])
  | .stopClicked now => some (stopSharing platform s now)
  | .stopAnswered index ok =>
    s.stopping[index]?.map fun resets =>
      (resolveStop platform { s with stopping := s.stopping.eraseIdx index } resets ok, [])
  | .broadcastSwitched on =>
    if on && !offersBroadcast s.store then none
    else some ({ s with store := { s.store with isBroadcastMode := on } }, [])
  | .rendered => some (runEffects s, [])

def machine (platform : Platform) : Machine State Act Output := ⟨step platform⟩

abbrev SenderStep := Entry State Act Output

/-! ## What a step can do -/

def NoneNew (s s' : State) : Prop := ∀ completion ∈ s'.completions, completion ∈ s.completions

/-- What the page depends on is the same. -/
structure SameView (s s' : State) : Prop where
  view : s'.store.viewState = s.store.viewState
  ticket : s'.store.ticket = s.store.ticket
  metadata : s'.store.transferMetadata = s.store.transferMetadata
  mode : s'.store.isBroadcastMode = s.store.isBroadcastMode

/-- What a step does to the page and to the completions that wait. -/
inductive Effect (s s' : State) (a : Act) : Prop
  | same (view : SameView s s') (waiting : NoneNew s s')
  | waits (view : SameView s s') (completion : Completion) (kept : completion.store = s.store)
      (waiting : s'.completions = s.completions ++ [completion])
  | idled (view : s'.store.viewState = .idle)
      (mode : s'.store.isBroadcastMode = true → s.store.isBroadcastMode = true)
      (waiting : NoneNew s s')
  | shared (view : s'.store.viewState = .sharing) (ticket : s'.store.ticket ≠ none)
      (mode : s'.store.isBroadcastMode = s.store.isBroadcastMode) (waiting : NoneNew s s')
  | listening (cause : a = .broadcastTimer ∨ ∃ now, a = .transferFailed now)
      (view : s'.store.viewState = .sharing) (ticket : s'.store.ticket = s.store.ticket)
      (mode : s'.store.isBroadcastMode = s.store.isBroadcastMode) (waiting : NoneNew s s')
  | started (now : Number) (cause : a = .transferStarted now)
      (view : s'.store.viewState =
        if s.store.isBroadcastMode then s.store.viewState else .transporting)
      (ticket : s'.store.ticket = s.store.ticket)
      (mode : s'.store.isBroadcastMode = s.store.isBroadcastMode) (waiting : NoneNew s s')
  | described (metadata : s'.store.transferMetadata.isSome = true)
      (view : s'.store.viewState = s.store.viewState) (ticket : s'.store.ticket = s.store.ticket)
      (mode : s'.store.isBroadcastMode = s.store.isBroadcastMode) (waiting : NoneNew s s')
  | completed (completion : Completion) (waited : completion ∈ s.completions)
      (settled : completion.store.isBroadcastMode = false) (view : s'.store.viewState = .success)
      (metadata : s'.store.transferMetadata.isSome = true)
      (mode : s'.store.isBroadcastMode = s.store.isBroadcastMode) (waiting : NoneNew s s')
  | ended (view : s'.store.viewState = .success)
      (metadata : s'.store.transferMetadata.isSome = true)
      (mode : s'.store.isBroadcastMode = false) (waiting : NoneNew s s')
  | settled (view : s'.store.viewState = s.store.viewState)
      (ticket : s'.store.ticket = s.store.ticket)
      (metadata : s'.store.transferMetadata = s.store.transferMetadata)
      (mode : s'.store.isBroadcastMode = false) (waiting : NoneNew s s')
  | detached (index : Nat) (cause : a = .stopAnswered index true)
      (view : s'.store.viewState = s.store.viewState)
      (metadata : s'.store.transferMetadata = s.store.transferMetadata)
      (mode : s'.store.isBroadcastMode = s.store.isBroadcastMode) (waiting : NoneNew s s')
  | switched (cause : a = .broadcastSwitched true) (offered : s.store.viewState = .sharing)
      (view : s'.store.viewState = .sharing) (ticket : s'.store.ticket = s.store.ticket)
      (waiting : NoneNew s s')

section

variable {platform : Platform} {s s' : State} {a : Act} {out : List Output}

theorem NoneNew.refl (s : State) : NoneNew s s := fun _ hmem => hmem

theorem SameView.refl (s : State) : SameView s s := ⟨rfl, rfl, rfl, rfl⟩

theorem Effect.refl (s : State) (a : Act) : Effect s s a := .same (.refl s) (.refl s)

theorem effect_handleFilesSelect (paths : List String) (provided : Option PathType) :
    Effect s (handleFilesSelect s paths provided).1 a := by
  rw [handleFilesSelect.eq_def]
  split
  · exact .refl s a
  · dsimp only
    split
    · exact .same ⟨rfl, rfl, rfl, rfl⟩ fun _ hmem => hmem
    · split
      · exact .same ⟨rfl, rfl, rfl, rfl⟩ fun _ hmem => hmem
      · split
        · exact .same ⟨rfl, rfl, rfl, rfl⟩ fun _ hmem => hmem
        · exact .same ⟨rfl, rfl, rfl, rfl⟩ fun _ hmem => hmem

theorem effect_removeSelectedPath (path : String) : Effect s (removeSelectedPath s path).1 a := by
  rw [removeSelectedPath.eq_def]
  dsimp only
  split
  · exact .same ⟨rfl, rfl, rfl, rfl⟩ fun _ hmem => hmem
  · exact .same ⟨rfl, rfl, rfl, rfl⟩ fun _ hmem => hmem
  · exact .same ⟨rfl, rfl, rfl, rfl⟩ fun _ hmem => hmem

theorem effect_onTransferFailed (now : Number) :
    Effect s (onTransferFailed platform s now) (.transferFailed now) := by
  rw [onTransferFailed]
  split
  · exact .refl s _
  · split
    · exact .listening (Or.inr ⟨now, rfl⟩) rfl rfl rfl fun _ hmem => hmem
    · rename_i hmode
      split
      · exact .same ⟨rfl, rfl, rfl, rfl⟩ fun _ hmem => hmem
      · exact .ended rfl rfl (Bool.eq_false_iff.mpr hmode) fun _ hmem => hmem

theorem effect_finishCompletion {rest : State} {completion : Completion} (hstore : rest.store = s.store)
    (hrest : NoneNew s rest) (hmem : completion ∈ s.completions) (now : Number) :
    Effect s (finishCompletion platform rest completion now).1 a := by
  rw [finishCompletion]
  split
  · exact .same ⟨by rw [hstore], by rw [hstore], by rw [hstore], by rw [hstore]⟩ hrest
  · have hview : rest.store.viewState = s.store.viewState := congrArg SenderStore.viewState hstore
    have hticket : rest.store.ticket = s.store.ticket := congrArg SenderStore.ticket hstore
    have hbroadcast : rest.store.isBroadcastMode = s.store.isBroadcastMode :=
      congrArg SenderStore.isBroadcastMode hstore
    dsimp only
    by_cases hmode : completion.store.isBroadcastMode = true
    · simp only [if_pos hmode]
      split
      · exact .described rfl hview hticket hbroadcast hrest
      · exact .described rfl hview hticket hbroadcast hrest
    · simp only [if_neg hmode]
      have hsettled := Bool.eq_false_iff.mpr hmode
      split
      · exact .completed completion hmem hsettled rfl rfl hbroadcast hrest
      · exact .completed completion hmem hsettled rfl rfl hbroadcast hrest

theorem effect_startSharing : Effect s (startSharing platform s).1 a := by
  unfold startSharing
  split
  · exact .refl s a
  · exact .idled rfl id fun _ hmem => hmem

theorem effect_stopSharing (now : Number) : Effect s (stopSharing platform s now).1 a := by
  rw [stopSharing]
  dsimp only
  split
  · exact .idled rfl (fun hon => by cases hon) fun _ hmem => hmem
  · split
    · split
      · exact .ended rfl rfl rfl fun _ hmem => hmem
      · exact .settled rfl rfl rfl rfl fun _ hmem => hmem
    · exact .settled rfl rfl rfl rfl fun _ hmem => hmem

theorem effect_step (hstep : step platform s a = some (s', out)) : Effect s s' a := by
  cases a with
  | activeConnectionCount count =>
    obtain ⟨rfl, -⟩ := Prod.mk.inj (Option.some.inj hstep)
    exact .same ⟨rfl, rfl, rfl, rfl⟩ fun _ hmem => hmem
  | transferStarted now =>
    obtain ⟨rfl, -⟩ := Prod.mk.inj (Option.some.inj hstep)
    exact .started now rfl rfl rfl rfl fun _ hmem => hmem
  | transferProgress payload =>
    obtain ⟨rfl, -⟩ := Prod.mk.inj (Option.some.inj hstep)
    rw [onTransferProgress]
    split
    · split
      · exact .same ⟨rfl, rfl, rfl, rfl⟩ fun _ hmem => hmem
      · exact .refl s _
    · exact .refl s _
  | transferCompleted payload =>
    obtain ⟨rfl, -⟩ := Prod.mk.inj (Option.some.inj hstep)
    rw [onTransferCompleted]
    split
    · exact .refl s _
    · exact .waits ⟨rfl, rfl, rfl, rfl⟩ ⟨s.store, payload⟩ rfl rfl
  | completionGoesOn index now =>
    obtain ⟨completion, hget, heq⟩ := Option.map_eq_some_iff.mp hstep
    have hpost : s' = _ := (congrArg Prod.fst heq).symm
    rw [hpost]
    refine effect_finishCompletion ?_ ?_ (List.mem_of_getElem? hget) now
    · rfl
    · intro other hmem
      exact List.mem_of_mem_eraseIdx hmem
  | sizeAnswered index size =>
    obtain ⟨sizing, -, heq⟩ := Option.map_eq_some_iff.mp hstep
    obtain ⟨rfl, -⟩ := Prod.mk.inj heq
    cases size with
    | none => exact .same ⟨rfl, rfl, rfl, rfl⟩ fun _ hmem => hmem
    | some size => exact .described rfl rfl rfl rfl fun _ hmem => hmem
  | broadcastTimer =>
    rw [step] at hstep
    split at hstep
    · cases hstep
    · obtain ⟨rfl, -⟩ := Prod.mk.inj (Option.some.inj hstep)
      exact .listening (Or.inl rfl) rfl rfl rfl fun _ hmem => hmem
  | transferFailed now =>
    obtain ⟨rfl, -⟩ := Prod.mk.inj (Option.some.inj hstep)
    exact effect_onTransferFailed now
  | progressInterval =>
    obtain ⟨rfl, -⟩ := Prod.mk.inj (Option.some.inj hstep)
    rw [showProgress.eq_def]
    split
    · split
      · exact .same ⟨rfl, rfl, rfl, rfl⟩ fun _ hmem => hmem
      · exact .refl s _
    · exact .refl s _
  | filesSelected paths provided =>
    rw [← (Prod.mk.inj (Option.some.inj hstep)).1]
    exact effect_handleFilesSelect paths provided
  | pathTypeAnswered type =>
    obtain ⟨rfl, -⟩ := Prod.mk.inj (Option.some.inj hstep)
    exact .same ⟨rfl, rfl, rfl, rfl⟩ fun _ hmem => hmem
  | selectionCleared =>
    obtain ⟨rfl, -⟩ := Prod.mk.inj (Option.some.inj hstep)
    exact .same ⟨rfl, rfl, rfl, rfl⟩ fun _ hmem => hmem
  | pathRemoved path =>
    rw [← (Prod.mk.inj (Option.some.inj hstep)).1]
    exact effect_removeSelectedPath path
  | launchIntent path =>
    obtain ⟨rfl, -⟩ := Prod.mk.inj (Option.some.inj hstep)
    exact .same ⟨rfl, rfl, rfl, rfl⟩ fun _ hmem => hmem
  | startClicked =>
    rw [← (Prod.mk.inj (Option.some.inj hstep)).1]
    exact effect_startSharing
  | startAnswered ticket =>
    rw [step] at hstep
    split at hstep
    · cases hstep
    · obtain ⟨rfl, -⟩ := Prod.mk.inj (Option.some.inj hstep)
      cases ticket with
      | none => exact .same ⟨rfl, rfl, rfl, rfl⟩ fun _ hmem => hmem
      | some ticket => exact .shared rfl (Option.some_ne_none ticket) rfl fun _ hmem => hmem
  | stopClicked now =>
    rw [← (Prod.mk.inj (Option.some.inj hstep)).1]
    exact effect_stopSharing now
  | stopAnswered index ok =>
    obtain ⟨resets, -, heq⟩ := Option.map_eq_some_iff.mp hstep
    obtain ⟨rfl, -⟩ := Prod.mk.inj heq
    rw [resolveStop]
    split
    · exact .same ⟨rfl, rfl, rfl, rfl⟩ fun _ hmem => hmem
    · rename_i hok
      split
      · exact .idled rfl (fun hon => by cases hon) fun _ hmem => hmem
      · refine .detached index ?_ rfl rfl rfl fun _ hmem => hmem
        rw [Bool.not_eq_true, Bool.not_eq_false'] at hok
        rw [hok]
  | broadcastSwitched on =>
    rw [step] at hstep
    split at hstep
    · cases hstep
    · rename_i hoffers
      obtain ⟨rfl, -⟩ := Prod.mk.inj (Option.some.inj hstep)
      cases on with
      | false => exact .settled rfl rfl rfl rfl fun _ hmem => hmem
      | true =>
        rw [Bool.true_and, Bool.not_eq_true, Bool.not_eq_false', offersBroadcast,
          Bool.and_eq_true] at hoffers
        have hview := of_decide_eq_true hoffers.1
        exact .switched rfl hview hview rfl fun _ hmem => hmem
  | rendered =>
    obtain ⟨rfl, -⟩ := Prod.mk.inj (Option.some.inj hstep)
    by_cases hview : s.store.viewState = .idle
    · refine .settled ?_ ?_ ?_ ?_ fun _ hmem => hmem
      all_goals simp only [runEffects, if_pos hview]
    · refine .same ⟨?_, ?_, ?_, ?_⟩ fun _ hmem => hmem
      all_goals simp only [runEffects, if_neg hview]

end

/-! ## One screen -/

/-- Broadcast mode is not switched on while a completion waits. -/
def SwitchedInTime (s : State) (a : Act) : Prop :=
  a = .broadcastSwitched true → s.completions = []

instance (s : State) (a : Act) : Decidable (SwitchedInTime s a) := by
  unfold SwitchedInTime
  infer_instance

/-- A success has its metadata, broadcast mode its two views, and a completion that will show a success
finds no broadcast. -/
structure Showing (s : State) : Prop where
  success : s.store.viewState = .success → s.store.transferMetadata.isSome = true
  broadcast : s.store.isBroadcastMode = true →
    s.store.viewState = .idle ∨ s.store.viewState = .sharing
  waiting : ∀ completion ∈ s.completions, completion.store.isBroadcastMode = false →
    s.store.isBroadcastMode = false

section

variable {platform : Platform} {s s' : State} {a : Act} {out : List Output} {tr : List SenderStep}

theorem Showing.one_screen (h : Showing s) : (screens s.store).length = 1 := by
  have hsuccess := h.success
  have hbroadcast := h.broadcast
  unfold screens
  cases hview : s.store.viewState <;> cases hmode : s.store.isBroadcastMode <;> simp_all

theorem Showing.step_waiting (h : Showing s) (hwaiting : NoneNew s s')
    (hmode : s'.store.isBroadcastMode = true → s.store.isBroadcastMode = true) :
    ∀ completion ∈ s'.completions, completion.store.isBroadcastMode = false →
      s'.store.isBroadcastMode = false := by
  intro completion hmem hsettled
  have hoff := h.waiting completion (hwaiting completion hmem) hsettled
  apply Bool.eq_false_iff.mpr
  intro hon
  rw [hmode hon] at hoff
  cases hoff

theorem Showing.of_view {view : ViewState} (hview : s'.store.viewState = view) (hne : view ≠ .success)
    (hbroadcast : s'.store.isBroadcastMode = true → view = .idle ∨ view = .sharing)
    (hwaiting : ∀ completion ∈ s'.completions, completion.store.isBroadcastMode = false →
      s'.store.isBroadcastMode = false) : Showing s' where
  success hsuccess := absurd (hview.symm.trans hsuccess) hne
  broadcast hon := hview ▸ hbroadcast hon
  waiting := hwaiting

theorem showing_step (h : Showing s) (hok : SwitchedInTime s a)
    (hstep : step platform s a = some (s', out)) : Showing s' := by
  cases effect_step hstep with
  | same view waiting =>
    refine ⟨?_, ?_, h.step_waiting waiting fun hon => view.mode ▸ hon⟩
    · rw [view.view, view.metadata]
      exact h.success
    · rw [view.view, view.mode]
      exact h.broadcast
  | waits view completion kept waiting =>
    refine ⟨?_, ?_, ?_⟩
    · rw [view.view, view.metadata]
      exact h.success
    · rw [view.view, view.mode]
      exact h.broadcast
    · rw [waiting, view.mode]
      intro other hmem hsettled
      rcases List.mem_append.mp hmem with hmem | hnew
      · exact h.waiting other hmem hsettled
      · rwa [List.mem_singleton.mp hnew, kept] at hsettled
  | idled view mode waiting =>
    exact .of_view view (by decide) (fun _ => Or.inl rfl) (h.step_waiting waiting mode)
  | shared view ticket mode waiting =>
    exact .of_view view (by decide) (fun _ => Or.inr rfl)
      (h.step_waiting waiting fun hon => mode ▸ hon)
  | listening cause view ticket mode waiting =>
    exact .of_view view (by decide) (fun _ => Or.inr rfl)
      (h.step_waiting waiting fun hon => mode ▸ hon)
  | started now cause view ticket mode waiting =>
    have hlater := h.step_waiting waiting fun hon => mode ▸ hon
    cases hmode : s.store.isBroadcastMode with
    | false =>
      rw [hmode, if_neg Bool.false_ne_true] at view
      refine .of_view view (by decide) (fun hon => ?_) hlater
      rw [mode, hmode] at hon
      cases hon
    | true =>
      rw [hmode, if_pos rfl] at view
      rcases h.broadcast hmode with hview | hview
      · exact .of_view (view.trans hview) (by decide) (fun _ => Or.inl rfl) hlater
      · exact .of_view (view.trans hview) (by decide) (fun _ => Or.inr rfl) hlater
  | described metadata view ticket mode waiting =>
    refine ⟨fun _ => metadata, ?_, h.step_waiting waiting fun hon => mode ▸ hon⟩
    rw [view, mode]
    exact h.broadcast
  | completed completion waited settled view metadata mode waiting =>
    refine ⟨fun _ => metadata, fun hon => ?_, h.step_waiting waiting fun hon => mode ▸ hon⟩
    rw [mode, h.waiting completion waited settled] at hon
    cases hon
  | ended view metadata mode waiting =>
    refine ⟨fun _ => metadata, fun hon => ?_, fun _ _ _ => mode⟩
    rw [mode] at hon
    cases hon
  | settled view ticket metadata mode waiting =>
    refine ⟨?_, fun hon => ?_, fun _ _ _ => mode⟩
    · rw [view, metadata]
      exact h.success
    · rw [mode] at hon
      cases hon
  | detached index cause view metadata mode waiting =>
    refine ⟨?_, ?_, h.step_waiting waiting fun hon => mode ▸ hon⟩
    · rw [view, metadata]
      exact h.success
    · rw [view, mode]
      exact h.broadcast
  | switched cause offered view ticket waiting =>
    refine .of_view view (by decide) (fun _ => Or.inr rfl) fun completion hmem => ?_
    have hnone := waiting completion hmem
    rw [hok cause] at hnone
    cases hnone

/-- In every run in which broadcast mode is not switched on while a completion waits, the page shows
exactly one screen. -/
theorem shows_one_screen
    (hrun : Run (machine platform) SwitchedInTime (.initial (nought platform)) tr s) :
    (screens s.store).length = 1 := by
  have hshowing : Showing s := by
    refine hrun.stateInvariant (I := Showing) ?_ fun hI hok hs => showing_step hI hok hs
    have hidle : (State.initial (nought platform)).store.viewState = .idle := rfl
    refine .of_view hidle (by decide) (fun _ => Or.inl rfl) fun completion hmem => ?_
    cases hmem
  exact hshowing.one_screen

end

/-- A broadcast that is switched on as soon as it is offered, a transfer of it, and a second receiver. -/
def broadcastInTime : List Act :=
  [.filesSelected ["/photos"] (some .directory), .rendered, .startClicked, .startAnswered (some "ticket"),
    .broadcastSwitched true, .rendered, .transferStarted 1, .transferCompleted none,
    .completionGoesOn 0 5, .broadcastTimer, .transferStarted 6]

theorem shows_one_screen_broadcastInTime :
    ∃ tr s, Run (machine Receiver.desktop) SwitchedInTime (.initial (nought Receiver.desktop)) tr s ∧
      s.store.isBroadcastMode = true ∧ (screens s.store).length = 1 := by
  obtain ⟨tr, s, hrun, hmode⟩ := Run.of_check (machine Receiver.desktop) SwitchedInTime
    (.initial (nought Receiver.desktop)) broadcastInTime (fun _ s => s.store.isBroadcastMode)
    (by decide +kernel)
  exact ⟨tr, s, hrun, hmode, shows_one_screen hrun⟩

/-- Broadcast mode is switched off and on again around a completion: it is on when the completion that
waited shows its success. -/
def switchedLate : List Act :=
  [.filesSelected ["/photos"] (some .directory), .rendered, .startClicked, .startAnswered (some "ticket"),
    .broadcastSwitched true, .transferStarted 1, .transferCompleted none, .completionGoesOn 0 5,
    .broadcastSwitched false, .transferStarted 6, .transferCompleted none, .broadcastTimer,
    .broadcastSwitched true, .completionGoesOn 0 9]

theorem blank_page :
    ∃ tr s, Run (machine Receiver.desktop) anyStep (.initial (nought Receiver.desktop)) tr s ∧
      screens s.store = [] := by
  obtain ⟨tr, s, hrun, hblank⟩ := Run.of_check (machine Receiver.desktop) anyStep
    (.initial (nought Receiver.desktop)) switchedLate (fun _ s => screens s.store = [])
    (by decide +kernel)
  exact ⟨tr, s, hrun, of_decide_eq_true hblank⟩

/-! ## A page without a ticket -/

/-- The page shows a share or its transfer. -/
def Active (s : State) : Prop := s.store.viewState = .sharing ∨ s.store.viewState = .transporting

instance (s : State) : Decidable (Active s) := inferInstanceAs (Decidable (_ ∨ _))

/-- The page shows a share that has no ticket. -/
def Stranded (s : State) : Prop := Active s ∧ s.store.ticket = none

instance (s : State) : Decidable (Stranded s) := inferInstanceAs (Decidable (_ ∧ _))

/-- A step that comes too late and strands the page: what a share that is over still had under way
brings the page back, or the answer to the `stop_sharing` of an earlier share takes the ticket. -/
inductive Late (e : SenderStep) : Prop
  | revived (cause : (∃ now, e.act = .transferStarted now) ∨ e.act = .broadcastTimer ∨
        ∃ now, e.act = .transferFailed now)
      (gone : ¬ Active e.pre) (ticket : e.pre.store.ticket = none) (stranded : Stranded e.post)
  | untied (index : Nat) (cause : e.act = .stopAnswered index true) (live : Active e.pre)
      (ticket : e.pre.store.ticket ≠ none) (stranded : Stranded e.post)

section

variable {platform : Platform} {s s' : State} {a : Act} {out : List Output} {tr : List SenderStep}

theorem Active.congr (hview : s'.store.viewState = s.store.viewState) (h : Active s') : Active s := by
  unfold Active at h ⊢
  rwa [hview] at h

theorem Stranded.congr (hview : s'.store.viewState = s.store.viewState)
    (hticket : s'.store.ticket = s.store.ticket) (h : Stranded s') : Stranded s :=
  ⟨h.1.congr hview, hticket.symm.trans h.2⟩

theorem stranded_step (hbefore : ¬ Stranded s) (hafter : Stranded s')
    (hstep : step platform s a = some (s', out)) : Late ⟨s, a, s', out⟩ := by
  have hgone (hticket : s'.store.ticket = s.store.ticket) : ¬ Active s := by
    intro hactive
    exact hbefore ⟨hactive, hticket.symm.trans hafter.2⟩
  have hnot {view : ViewState} (hview : s'.store.viewState = view) :
      view = .sharing ∨ view = .transporting := by
    rw [← hview]
    exact hafter.1
  cases effect_step hstep with
  | same view _ => exact absurd (hafter.congr view.view view.ticket) hbefore
  | waits view _ _ _ => exact absurd (hafter.congr view.view view.ticket) hbefore
  | idled view _ _ => exact absurd (hnot view) (by decide)
  | shared _ ticket _ _ => exact absurd hafter.2 ticket
  | listening cause _ ticket _ _ =>
    apply Late.revived _ (hgone ticket) (ticket.symm.trans hafter.2) hafter
    exact Or.inr cause
  | started now cause _ ticket _ _ =>
    apply Late.revived _ (hgone ticket) (ticket.symm.trans hafter.2) hafter
    exact Or.inl ⟨now, cause⟩
  | described _ view ticket _ _ => exact absurd (hafter.congr view ticket) hbefore
  | completed _ _ _ view _ _ _ => exact absurd (hnot view) (by decide)
  | ended view _ _ _ => exact absurd (hnot view) (by decide)
  | settled view ticket _ _ _ => exact absurd (hafter.congr view ticket) hbefore
  | detached index cause view _ _ _ =>
    have hactive := hafter.1.congr view
    apply Late.untied index cause hactive _ hafter
    intro hticket
    exact hbefore ⟨hactive, hticket⟩
  | switched _ offered view ticket _ =>
    exact absurd (hafter.congr (view.trans offered.symm) ticket) hbefore

/-- In every run, a page that shows a share without a ticket was stranded by a late step, and has been
stranded since. -/
theorem stranded_by (hrun : Run (machine platform) anyStep (.initial (nought platform)) tr s)
    (hstranded : Stranded s) : Since Late (fun e => ¬ Stranded e.post) tr := by
  revert hstranded
  refine hrun.invariant (I := fun tr s => Stranded s → Since Late (fun e => ¬ Stranded e.post) tr) ?_ ?_
  · rintro ⟨hactive, -⟩
    exact absurd hactive (by simp [Active, State.initial, SenderStore.initial])
  · intro tr s s' a out ih _ hstep hafter
    by_cases hbefore : Stranded s
    · exact (ih hbefore).snoc_keep (not_not_intro hafter)
    · exact .snoc_now (stranded_step hbefore hafter hstep)

end

/-- A transfer is stopped and dismissed and a new share is started before `stop_sharing` has answered. -/
def stopAnswersLate : List Act :=
  [.filesSelected ["/a"] (some .file), .rendered, .startClicked, .startAnswered (some "first"),
    .rendered, .transferStarted 1, .rendered, .stopClicked 2, .rendered, .stopClicked 3, .rendered,
    .filesSelected ["/b"] (some .file), .rendered, .startClicked, .startAnswered (some "second"),
    .rendered, .stopAnswered 0 true]

/-- The theorem applies to a run in which the answer about the first share takes the ticket of the second
while the page shows it. -/
theorem live_share_stranded :
    ∃ tr s, Run (machine Receiver.desktop) anyStep (.initial (nought Receiver.desktop)) tr s ∧
      (∃ e ∈ tr, e.act = .stopAnswered 0 true ∧ Active e.pre ∧
        e.pre.store.ticket = some "second" ∧ Stranded e.post) ∧
      Stranded s ∧ Since Late (fun e => ¬ Stranded e.post) tr := by
  obtain ⟨tr, s, hrun, htest⟩ := Run.of_check (machine Receiver.desktop) anyStep
    (.initial (nought Receiver.desktop)) stopAnswersLate (fun tr s =>
      (∃ e ∈ tr, e.act = .stopAnswered 0 true ∧ Active e.pre ∧
        e.pre.store.ticket = some "second" ∧ Stranded e.post) ∧ Stranded s) (by decide +kernel)
  obtain ⟨hlate, hstranded⟩ := of_decide_eq_true htest
  exact ⟨tr, s, hrun, hlate, hstranded, stranded_by hrun hstranded⟩

end DashBeam.Frontend.Sender
