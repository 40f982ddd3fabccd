import DashBeam.Lib.Machine
import DashBeam.Native.PairedOperations

/-!
# The receiver of the frontend

The hook `useReceiver`: its state, what `receiveWithTicket` and `resetForNewTransfer` write, and the
listeners of the backend's receive events. Each event belongs to the transfer of one call of
`receiveWithTicket`; the events of one transfer arrive in order and any time later. A listener drops an
event when `transferSeqRef` is zero, and knows nothing of the transfer the event belongs to.
-/

namespace DashBeam.Frontend.Receiver

open Lib

/-! ## Values -/

/-- A JavaScript number; what its operations do is left to `Platform`. -/
abbrev Number : Type := Nat

/-- What the hook uses of the platform and of other modules: numbers, the translations, `JSON.parse` at
the types that the hook casts its results to (`none` where it throws), and the configuration. -/
structure Platform where
  isAndroid : Bool
  isWeb : Bool
  parseInt : String → Number
  isFinite : Number → Bool
  lt : Number → Number → Bool
  sub : Number → Number → Number
  mul : Number → Number → Number
  div : Number → Number → Number
  max : Number → Number → Number
  min : Number → Number → Number
  ofNat : Nat → Number
  translate : String → Option Nat → String
  parseNames : String → Option (List String)
  parseConflicts : String → Option (List (String × String))
  /-- The fields `durationMs`, `exportMs` and `outputDir`, where they are numbers and a string. -/
  parseCompletion : String → Option (Option Number × Option Number × Option String)
  relay : Option String
  discovery : Option String

structure TransferProgress where
  bytesTransferred : Number
  totalBytes : Number
  speedBps : Number
  percentage : Number
  etaSeconds : Option Number
  deriving DecidableEq, Repr

structure TransferCompletion where
  durationMs : Number
  exportMs : Option Number
  outputDir : Option String
  deriving DecidableEq, Repr

inductive PathType
  | file | directory
  deriving DecidableEq, Repr

structure TransferMetadata where
  fileName : String
  fileSize : Number
  duration : Number
  startTime : Number
  endTime : Number
  downloadPath : String
  itemCount : Option Nat
  pathType : Option PathType
  deriving DecidableEq, Repr

structure TicketPreviewMetadata where
  fileName : String
  itemCount : Nat
  size : Number
  mimeType : Option String
  deriving DecidableEq, Repr

inductive AlertType
  | success | error | info
  deriving DecidableEq, Repr

structure AlertDialogState where
  isOpen : Bool
  title : String
  description : String
  type : AlertType
  deriving DecidableEq, Repr

/-! ## Parsing -/

def split (c : Char) (s : String) : List String := (s.toList.splitOn c).map String.ofList

/-- The white space that `String.prototype.trim` removes. -/
def isJsWhitespace (c : Char) : Bool :=
  isWhitespace c && c.toNat ≠ 0x85 || c.toNat == 0xFEFF

theorem isJsWhitespace_ascii {c : Char} (h : c.toNat < 128) :
    isJsWhitespace c = isWhitespace c := by
  have hnext : c.toNat ≠ 0x85 := by omega
  have hmark : c.toNat ≠ 0xFEFF := by omega
  rw [isJsWhitespace, decide_eq_true hnext, Bool.and_true, beq_eq_false_iff_ne.mpr hmark,
    Bool.or_false]

def trim (s : String) : String := String.ofList (trimEnds isJsWhitespace s.toList)

def parseProgressPayload (platform : Platform) (payload : String) : Option TransferProgress :=
  match split ':' payload with
  | [first, second, third] =>
    let bytesTransferred := platform.parseInt first
    let totalBytes := platform.parseInt second
    let speedInt := platform.parseInt third
    let nought := platform.ofNat 0
    if !platform.isFinite bytesTransferred || !platform.isFinite totalBytes ||
        !platform.isFinite speedInt then none
    else
      let speedBps := platform.max (platform.div speedInt (platform.ofNat 1000)) nought
      let percentage :=
        if platform.lt nought totalBytes then
          platform.min (platform.mul (platform.div bytesTransferred totalBytes)
            (platform.ofNat 100)) (platform.ofNat 100)
        else nought
      let bytesRemaining := platform.max (platform.sub totalBytes bytesTransferred) nought
      let etaSeconds :=
        if platform.lt nought speedBps && platform.lt nought bytesRemaining then
          some (platform.div bytesRemaining speedBps)
        else none
      some ⟨bytesTransferred, totalBytes, speedBps, percentage, etaSeconds⟩
  | _ => none

def parseCompletionPayload (platform : Platform) (payload : String) : Option TransferCompletion :=
  match platform.parseCompletion payload with
  | some (some durationMs, exportMs, outputDir) =>
    if platform.isFinite durationMs then
      some ⟨durationMs, exportMs.filter platform.isFinite, outputDir.filter (· ≠ "")⟩
    else none
  | _ => none

def isAsciiLetter (c : Char) : Bool := ('A' ≤ c && c ≤ 'Z') || ('a' ≤ c && c ≤ 'z')

def isAbsolutePath (path : String) : Bool :=
  match path.toList with
  | '/' :: _ => true
  | drive :: ':' :: sep :: _ => isAsciiLetter drive && (sep = '\\' || sep = '/')
  | _ => false

def normalizeSeparators (path : String) : String :=
  String.ofList (path.toList.map fun c => if c = '\\' then '/' else c)

/-- The top-level item that a name adds, if it adds one. -/
def topLevelItem (name : String) : Option String :=
  let normalized := normalizeSeparators name
  if normalized = "" then none
  else if isAbsolutePath normalized then
    ((split '/' normalized).filter (· ≠ "")).getLast?
  else ((split '/' normalized).head?).filter (· ≠ "")

def countTopLevelItems (names : List String) : Nat := (names.filterMap topLevelItem).eraseDups.length

/-! ## The hook -/

/-- The state of the hook, and its refs. A setter is taken to write at once; the refs that follow the
state do so in `syncRefs`. -/
structure Hook where
  ticket : String
  isReceiving : Bool
  isTransporting : Bool
  isCompleted : Bool
  isExportPending : Bool
  savePath : String
  transferMetadata : Option TransferMetadata
  transferProgress : Option TransferProgress
  transferStartTime : Option Number
  fileNames : List String
  previewMetadata : Option TicketPreviewMetadata
  isPreviewLoading : Bool
  alertDialog : AlertDialogState
  downloadsUriRef : String
  downloadsPathRef : String
  pendingConflictNoticeRef : Option String
  androidMediaStoreUrisRef : List String
  androidMediaStorePathRef : String
  fileNamesRef : List String
  transferProgressRef : Option TransferProgress
  transferStartTimeRef : Option Number
  savePathRef : String
  folderOpenTriggeredRef : Bool
  androidOpenUriRef : String
  previewRequestSeqRef : Nat
  previewMetadataRef : Option TicketPreviewMetadata
  transferItemCountRef : Option Nat
  transferSeqRef : Nat
  completedOutputDirRef : String
  deriving DecidableEq, Repr

/-- The hook when it is mounted, with the download folder of the settings. -/
def Hook.initial (downloadsUri downloadsPath : String) : Hook where
  ticket := ""
  isReceiving := false
  isTransporting := false
  isCompleted := false
  isExportPending := false
  savePath := ""
  transferMetadata := none
  transferProgress := none
  transferStartTime := none
  fileNames := []
  previewMetadata := none
  isPreviewLoading := false
  alertDialog := ⟨false, "", "", .info⟩
  downloadsUriRef := downloadsUri
  downloadsPathRef := downloadsPath
  pendingConflictNoticeRef := none
  androidMediaStoreUrisRef := []
  androidMediaStorePathRef := ""
  fileNamesRef := []
  transferProgressRef := none
  transferStartTimeRef := none
  savePathRef := ""
  folderOpenTriggeredRef := false
  androidOpenUriRef := ""
  previewRequestSeqRef := 0
  previewMetadataRef := none
  transferItemCountRef := none
  transferSeqRef := 0
  completedOutputDirRef := ""

def Hook.showAlert (h : Hook) (title description : String) (type : AlertType) : Hook :=
  { h with alertDialog := ⟨true, title, description, type⟩ }

/-- The effects that keep refs equal to state, run after a render. -/
def Hook.syncRefs (h : Hook) : Hook :=
  { h with
    fileNamesRef := h.fileNames
    transferProgressRef := h.transferProgress
    transferStartTimeRef := h.transferStartTime
    savePathRef := h.savePath }

/-- The arguments of `receive_file`. -/
structure ReceiveFileArgs where
  ticket : String
  outputPath : String
  treeUri : Option String
  treeDisplayPath : Option String
  subFolder : Option String
  relay : Option String
  discovery : Option String
  deriving DecidableEq, Repr

/-- What the hook does beyond its state. -/
inductive Output
  | receiveFile (args : ReceiveFileArgs)
  | cancelReceive
  | systemNotification (title body : String)
  deriving DecidableEq, Repr

def nonEmpty (s : String) : Option String := if s = "" then none else some s

/-! ## Listeners -/

/-- The receive events whose listeners look at `transferSeqRef`. -/
inductive ReceiveEvent
  | started
  | progress (payload : String)
  | fileNames (payload : String)
  | conflicts (payload : String)
  | completed (payload : Option String)
  deriving DecidableEq, Repr

def onStarted (h : Hook) (now : Number) : Hook :=
  { h with
    isTransporting := true
    isCompleted := false
    transferStartTime := some now
    transferProgress := none }

def onProgress (platform : Platform) (h : Hook) (payload : String) : Hook :=
  match parseProgressPayload platform payload with
  | some progress => { h with transferProgress := some progress }
  | none => h

def onFileNames (platform : Platform) (h : Hook) (payload : String) : Hook :=
  match platform.parseNames payload with
  | some names => { h with fileNames := names, fileNamesRef := names }
  | none => h

def basename (path : String) : String :=
  (((split '/' (normalizeSeparators path)).getLast?).bind nonEmpty).getD path

def conflictNotice (platform : Platform) (conflicts : List (String × String)) : String :=
  let preview := "\n".intercalate ((conflicts.take 3).map fun conflict =>
    basename conflict.1 ++ " → " ++ basename conflict.2)
  if conflicts.length > 3 then
    preview ++ "\n" ++
      platform.translate "common:receiver.conflictsMore" (some (conflicts.length - 3))
  else preview

def onConflicts (platform : Platform) (h : Hook) (payload : String) : Hook :=
  match platform.parseConflicts payload with
  | none => h
  | some [] => h
  | some conflicts => { h with pendingConflictNoticeRef := some (conflictNotice platform conflicts) }

/-- The name that the success screen shows. -/
def displayName (platform : Platform) (h : Hook) (itemCount : Nat) : String :=
  match (h.previewMetadataRef.map TicketPreviewMetadata.fileName).bind nonEmpty with
  | some name => name
  | none =>
    match h.fileNamesRef with
    | [] => platform.translate "common:receiver.downloadedFile" none
    | firstPath :: _ =>
      if itemCount ≤ 1 then (((split '/' firstPath).getLast?).bind nonEmpty).getD firstPath
      else
        let multipleFilesLabel := platform.translate "common:transfer.multipleFiles" (some itemCount)
        match split '/' firstPath with
        | first :: _ :: _ => (nonEmpty first).getD multipleFilesLabel
        | _ => multipleFilesLabel

def pathTypeOf (h : Hook) (itemCount : Nat) : Option PathType :=
  match h.previewMetadataRef with
  | some preview =>
    if preview.mimeType = some "inode/directory" then some .directory else some .file
  | none =>
    if itemCount = 1 ∧ h.fileNamesRef.length > 1 then some .directory
    else if itemCount = 1 then some .file
    else none

/-- A time of zero is falsy. -/
def truthy (platform : Platform) (n : Option Number) : Option Number :=
  n.filter fun n => n ≠ platform.ofNat 0

def onCompleted (platform : Platform) (h : Hook) (endTime : Number) (payload : Option String) :
    Hook × List Output :=
  let completion := payload.bind (parseCompletionPayload platform)
  let startTime := truthy platform h.transferStartTimeRef
  let duration := (completion.map TransferCompletion.durationMs).getD
    ((startTime.map (platform.sub endTime)).getD (platform.ofNat 0))
  let itemCount := h.transferItemCountRef.getD (countTopLevelItems h.fileNamesRef)
  let name := displayName platform h itemCount
  let metadata : TransferMetadata :=
    ⟨name, ((h.transferProgressRef.map TransferProgress.totalBytes).getD (platform.ofNat 0)),
      duration, startTime.getD endTime, endTime, h.savePathRef,
      if itemCount > 1 then some itemCount else none, pathTypeOf h itemCount⟩
  let completed :=
    { h with
      isTransporting := false
      isCompleted := true
      transferProgress := none
      completedOutputDirRef := (completion.bind TransferCompletion.outputDir).getD ""
      transferMetadata := some metadata }
  let noticed :=
    match h.pendingConflictNoticeRef.bind nonEmpty with
    | some notice =>
      { completed.showAlert
          (platform.translate "common:receiver.downloadCompletedWithConflicts" none) notice .info with
        pendingConflictNoticeRef := none }
    | none => completed
  (noticed, [.systemNotification (platform.translate "common:receiver.downloadCompleted" none) name])

/-- The listeners of the receive events: every one drops its event when `transferSeqRef` is zero. -/
def listener (platform : Platform) (h : Hook) (now : Number) (event : ReceiveEvent) :
    Hook × List Output :=
  if h.transferSeqRef = 0 then (h, [])
  else
    match event with
    | .started => (onStarted h now, [])
    | .progress payload => (onProgress platform h payload, [])
    | .fileNames payload => (onFileNames platform h payload, [])
    | .conflicts payload => (onConflicts platform h payload, [])
    | .completed payload => onCompleted platform h now payload

/-! ## Calls -/

def receiveFileArgs (platform : Platform) (h : Hook) (ticket : String) (subFolder : Option String)
    (outputPath : String) : ReceiveFileArgs :=
  ⟨trim ticket, outputPath,
    if platform.isAndroid then nonEmpty (trim h.downloadsUriRef) else none,
    if platform.isAndroid then nonEmpty (trim h.downloadsPathRef) else none,
    (subFolder.map trim).bind nonEmpty, platform.relay, platform.discovery⟩

/-- `receiveWithTicket` up to its first `await`. -/
def beginReceive (platform : Platform) (h : Hook) : Hook :=
  { h with
    transferItemCountRef :=
      h.transferItemCountRef.or (((h.previewMetadataRef.or h.previewMetadata)).map
        TicketPreviewMetadata.itemCount)
    previewRequestSeqRef := h.previewRequestSeqRef + 1
    transferSeqRef := h.transferSeqRef + 1
    isReceiving := true
    isTransporting := false
    isCompleted := false
    transferMetadata := none
    transferProgress := none
    transferStartTime := none
    isPreviewLoading := false
    pendingConflictNoticeRef := none
    folderOpenTriggeredRef := false
    completedOutputDirRef := ""
    androidMediaStoreUrisRef := []
    androidMediaStorePathRef := ""
    isExportPending := platform.isAndroid
    androidOpenUriRef := if platform.isAndroid then trim h.downloadsUriRef else "" }

/-- The download folder has to be asked for first. -/
def awaitsDownloadDir (platform : Platform) (h : Hook) : Bool :=
  trim h.savePathRef = "" && !platform.isWeb && !platform.isAndroid

/-- The download folder came back. -/
def setOutputPath (h : Hook) (outputPath : String) : Hook :=
  { h with savePath := outputPath, savePathRef := outputPath }

/-- Why a receive failed: its text, and its message if it is an error of the web preview. -/
structure ReceiveError where
  text : String
  webPreviewMessage : Option String
  deriving DecidableEq, Repr

/-- What is shown of a failed receive. -/
def receiveErrorMessage (platform : Platform) (error : ReceiveError) : String :=
  match error.webPreviewMessage with
  | some message =>
    (nonEmpty (trim message)).getD
      (platform.translate "common:webPreview.transferUnavailable" none)
  | none => error.text

/-- The `catch` of `receiveWithTicket`. -/
def receiveFailed (platform : Platform) (h : Hook) (error : ReceiveError) : Hook :=
  let settled := { h with isExportPending := false }
  if error.text = "cancelled" ∨ ": cancelled".toList.isSuffixOf error.text.toList then settled
  else
    { settled.showAlert (platform.translate "common:errors.receiveFailed" none)
        (receiveErrorMessage platform error) .error with
      isReceiving := false
      isTransporting := false
      isCompleted := false }

def resetForNewTransfer (h : Hook) : Hook :=
  { h with
    transferSeqRef := 0
    previewRequestSeqRef := h.previewRequestSeqRef + 1
    isReceiving := false
    isTransporting := false
    isCompleted := false
    ticket := ""
    transferMetadata := none
    transferProgress := none
    transferStartTime := none
    fileNames := []
    previewMetadata := none
    isPreviewLoading := false
    pendingConflictNoticeRef := none
    folderOpenTriggeredRef := false
    androidOpenUriRef := ""
    androidMediaStoreUrisRef := []
    androidMediaStorePathRef := ""
    isExportPending := false
    transferItemCountRef := none }

/-! ## Steps -/

/-- The transfer of one call of `receiveWithTicket`: its arguments, whether `receive_file` was called,
whether `resetForNewTransfer` was called since, and its events that have not arrived. -/
structure Transfer where
  ticket : String
  subFolder : Option String
  invoked : Bool
  reset : Bool
  events : List ReceiveEvent
  deriving DecidableEq, Repr

structure World where
  hook : Hook
  transfers : List Transfer
  deriving DecidableEq, Repr

/-- What the rest of the hook does: the preview of a ticket, the choice of a folder, the notices of an
Android export, closing an alert. None of it writes `transferSeqRef`. -/
structure OtherUpdate where
  apply : Hook → Hook
  keepsSeq : ∀ h, (apply h).transferSeqRef = h.transferSeqRef

inductive Action
  | receiveWithTicket (ticket : String) (subFolder : Option String)
  | downloadDirResolved (k : Nat) (outputPath : String)
  | receiveRejected (k : Nat) (error : ReceiveError)
  | resetForNewTransfer
  | syncRefs
  | other (update : OtherUpdate)
  /-- The backend emits an event of a transfer, and its oldest event arrives. -/
  | emit (k : Nat) (event : ReceiveEvent)
  | deliver (k : Nat) (now : Number)

def World.start (platform : Platform) (w : World) (ticket : String) (subFolder : Option String) :
    World × List Output :=
  let hook := beginReceive platform w.hook
  let invoked := !awaitsDownloadDir platform hook
  ({ hook := hook, transfers := w.transfers ++ [⟨ticket, subFolder, invoked, false, []⟩] },
    if invoked then
      [.receiveFile (receiveFileArgs platform hook ticket subFolder (trim hook.savePathRef))]
    else [])

def World.reset (w : World) : World where
  hook := Receiver.resetForNewTransfer w.hook
  transfers := w.transfers.map fun t => { t with reset := true }

def receiverMachine (platform : Platform) : Machine World Action Output where
  step w
    | .receiveWithTicket ticket subFolder =>
      some (if trim ticket = "" then (w, []) else w.start platform ticket subFolder)
    | .downloadDirResolved k outputPath =>
      match w.transfers[k]? with
      | some t =>
        if t.invoked then none
        else
          let hook := setOutputPath w.hook outputPath
          some ({ hook := hook, transfers := w.transfers.set k { t with invoked := true } },
            [.receiveFile (receiveFileArgs platform hook t.ticket t.subFolder outputPath)])
      | none => none
    | .receiveRejected k error =>
      match w.transfers[k]? with
      | some _ => some ({ w with hook := receiveFailed platform w.hook error }, [])
      | none => none
    | .resetForNewTransfer => some (w.reset, [.cancelReceive])
    | .syncRefs => some ({ w with hook := w.hook.syncRefs }, [])
    | .other update => some ({ w with hook := update.apply w.hook }, [])
    | .emit k event =>
      match w.transfers[k]? with
      | some t =>
        if t.invoked then
          some ({ w with transfers := w.transfers.set k { t with events := t.events ++ [event] } }, [])
        else none
      | none => none
    | .deliver k now =>
      match w.transfers[k]? with
      | some t =>
        match t.events with
        | [] => none
        | event :: events =>
          let heard := listener platform w.hook now event
          some ({ hook := heard.1, transfers := w.transfers.set k { t with events := events } },
            heard.2)
      | none => none

/-- `resetForNewTransfer` was called since the transfer started. -/
def World.wasReset (w : World) (k : Nat) : Bool := (w.transfers[k]?).any Transfer.reset

/-- No transfer started since the last reset. -/
def World.idle (w : World) : Prop := ∀ t ∈ w.transfers, t.reset = true

instance (w : World) : Decidable w.idle := inferInstanceAs (Decidable (∀ _ ∈ _, _))

/-- An event of a transfer that was reset arrives only before the next transfer starts. -/
def LateOnlyWhenIdle (w : World) : Action → Prop
  | .deliver k _ => w.wasReset k = true → w.idle
  | _ => True

instance (w : World) (a : Action) : Decidable (LateOnlyWhenIdle w a) := by
  cases a with
  | deliver k now => exact inferInstanceAs (Decidable (_ → _))
  | _ => exact .isTrue trivial

/-- The world when the hook is mounted. -/
def World.initial (downloadsUri downloadsPath : String) : World :=
  ⟨.initial downloadsUri downloadsPath, []⟩

/-! ## The sequence number -/

theorem listener_seq (platform : Platform) (h : Hook) (now : Number) (event : ReceiveEvent) :
    (listener platform h now event).1.transferSeqRef = h.transferSeqRef := by
  unfold listener
  split
  · rfl
  · cases event with
    | started => rfl
    | progress payload =>
      dsimp only [onProgress]
      split <;> rfl
    | fileNames payload =>
      dsimp only [onFileNames]
      split <;> rfl
    | conflicts payload =>
      dsimp only [onConflicts]
      split <;> rfl
    | completed payload =>
      dsimp only [onCompleted]
      split <;> rfl

theorem receiveFailed_seq (platform : Platform) (h : Hook) (error : ReceiveError) :
    (receiveFailed platform h error).transferSeqRef = h.transferSeqRef := by
  dsimp only [receiveFailed]
  split <;> rfl

/-- The sequence number is zero exactly when no transfer started since the last reset. -/
def SeqTellsIdle (w : World) : Prop := w.hook.transferSeqRef = 0 ↔ w.idle

theorem SeqTellsIdle.set {w : World} {k : Nat} {t t' : Transfer} {hook : Hook} (h : SeqTellsIdle w)
    (ht : w.transfers[k]? = some t) (hreset : t'.reset = t.reset)
    (hseq : hook.transferSeqRef = w.hook.transferSeqRef) :
    SeqTellsIdle ⟨hook, w.transfers.set k t'⟩ := by
  have hidle : World.idle ⟨hook, w.transfers.set k t'⟩ ↔ w.idle := by
    constructor
    · intro hall other hother
      by_cases heq : other = t
      · rw [heq, ← hreset]
        exact hall t' (mem_set_self ht t')
      · exact hall other (mem_set_of_ne ht hother heq t')
    · intro hall other hother
      rcases List.mem_or_eq_of_mem_set hother with hold | rfl
      · exact hall other hold
      · rw [hreset]
        exact hall t (List.mem_of_getElem? ht)
  rw [SeqTellsIdle, hseq, hidle]
  exact h

theorem seqTellsIdle_step {platform : Platform} {w w' : World} {a : Action} {out : List Output}
    (h : SeqTellsIdle w) (hstep : (receiverMachine platform).step w a = some (w', out)) :
    SeqTellsIdle w' := by
  cases a with
  | receiveWithTicket ticket subFolder =>
    simp only [receiverMachine, Option.some.injEq] at hstep
    split at hstep
    · obtain rfl := congrArg Prod.fst hstep
      exact h
    · obtain rfl := congrArg Prod.fst hstep
      rw [SeqTellsIdle]
      have hseq : (w.start platform ticket subFolder).1.hook.transferSeqRef =
          w.hook.transferSeqRef + 1 := rfl
      have hbusy : ¬ (w.start platform ticket subFolder).1.idle := by
        intro hidle
        have hnew := hidle _ (List.mem_append_right _ (List.mem_singleton_self _))
        cases hnew
      constructor
      · intro hzero
        omega
      · intro hidle
        exact absurd hidle hbusy
  | resetForNewTransfer =>
    obtain ⟨rfl, -⟩ := Prod.mk.inj (Option.some.inj hstep)
    refine iff_of_true rfl ?_
    intro t ht
    obtain ⟨old, -, rfl⟩ := List.mem_map.mp ht
    rfl
  | syncRefs =>
    obtain ⟨rfl, -⟩ := Prod.mk.inj (Option.some.inj hstep)
    exact h
  | other update =>
    obtain ⟨rfl, -⟩ := Prod.mk.inj (Option.some.inj hstep)
    rw [SeqTellsIdle, update.keepsSeq]
    exact h
  | downloadDirResolved k outputPath =>
    simp only [receiverMachine] at hstep
    split at hstep
    · rename_i t ht
      split at hstep
      · cases hstep
      · obtain ⟨rfl, -⟩ := Prod.mk.inj (Option.some.inj hstep)
        exact h.set ht rfl rfl
    · cases hstep
  | receiveRejected k error =>
    simp only [receiverMachine] at hstep
    split at hstep
    · obtain ⟨rfl, -⟩ := Prod.mk.inj (Option.some.inj hstep)
      rw [SeqTellsIdle, receiveFailed_seq]
      exact h
    · cases hstep
  | emit k event =>
    simp only [receiverMachine] at hstep
    split at hstep
    · rename_i t ht
      split at hstep
      · obtain ⟨rfl, -⟩ := Prod.mk.inj (Option.some.inj hstep)
        exact h.set ht rfl rfl
      · cases hstep
    · cases hstep
  | deliver k now =>
    simp only [receiverMachine] at hstep
    split at hstep
    · rename_i t ht
      split at hstep
      · cases hstep
      · obtain ⟨rfl, -⟩ := Prod.mk.inj (Option.some.inj hstep)
        exact h.set ht rfl (listener_seq _ _ _ _)
    · cases hstep

theorem seqTellsIdle_run {platform : Platform} {downloadsUri downloadsPath : String}
    {ok : World → Action → Prop} {tr : List (Entry World Action Output)} {w : World}
    (hrun : Run (receiverMachine platform) ok (.initial downloadsUri downloadsPath) tr w) :
    SeqTellsIdle w := by
  refine hrun.stateInvariant (iff_of_true rfl ?_) fun h _ hstep => seqTellsIdle_step h hstep
  intro t ht
  cases ht

theorem deliver_hook {platform : Platform} {w w' : World} {k : Nat} {now : Number}
    {out : List Output} (hseq : w.hook.transferSeqRef = 0)
    (hstep : (receiverMachine platform).step w (.deliver k now) = some (w', out)) :
    w'.hook = w.hook ∧ out = [] := by
  simp only [receiverMachine] at hstep
  split at hstep
  · split at hstep
    · cases hstep
    · rename_i event events _
      have hignored : listener platform w.hook now event = (w.hook, []) := by
        unfold listener
        rw [if_pos hseq]
      rw [hignored] at hstep
      obtain ⟨rfl, rfl⟩ := Prod.mk.inj (Option.some.inj hstep)
      exact ⟨rfl, rfl⟩
  · cases hstep

/-- In every run in which events of reset transfers arrive only while no later transfer has started,
they leave the hook as it is and announce nothing. -/
theorem reset_events_ignored {platform : Platform} {downloadsUri downloadsPath : String}
    {tr : List (Entry World Action Output)} {w : World}
    (hrun : Run (receiverMachine platform) LateOnlyWhenIdle (.initial downloadsUri downloadsPath) tr
      w) :
    ∀ entry ∈ tr, ∀ k now, entry.act = .deliver k now → entry.pre.wasReset k = true →
      entry.post.hook = entry.pre.hook ∧ entry.out = [] := by
  intro entry hentry k now hact hreset
  obtain ⟨earlier, hearlier, -, hok, hstep⟩ := hrun.of_mem hentry
  rw [hact] at hok hstep
  have hidle : entry.pre.idle := hok hreset
  exact deliver_hook ((seqTellsIdle_run hearlier).mpr hidle) hstep

/-- A desktop whose numbers are natural, and on which nothing parses. -/
def desktop : Platform where
  isAndroid := false
  isWeb := false
  parseInt := fun s => s.toNat?.getD 0
  isFinite := fun _ => true
  lt := fun a b => a < b
  sub := fun a b => a - b
  mul := fun a b => a * b
  div := fun a b => a / b
  max := Nat.max
  min := Nat.min
  ofNat := id
  translate := fun key _ => key
  parseNames := fun _ => none
  parseConflicts := fun _ => none
  parseCompletion := fun _ => none
  relay := none
  discovery := none

/-- A transfer is cancelled, its last event arrives, and a second transfer starts. -/
def lateWhenIdle : List Action :=
  [.receiveWithTicket "first" none, .downloadDirResolved 0 "/downloads", .emit 0 .started,
    .resetForNewTransfer, .deliver 0 1, .receiveWithTicket "second" none, .emit 1 .started,
    .deliver 1 2]

theorem reset_events_ignored_lateWhenIdle :
    ∃ tr w, Run (receiverMachine desktop) LateOnlyWhenIdle (.initial "" "") tr w ∧
      w.hook.isTransporting = true ∧
      ∃ entry ∈ tr, entry.act = .deliver 0 1 ∧ entry.post.hook = entry.pre.hook := by
  obtain ⟨tr, w, hrun, htest⟩ := Run.of_check (receiverMachine desktop) LateOnlyWhenIdle
    (.initial "" "") lateWhenIdle
    (fun tr w => w.hook.isTransporting && tr.any fun entry =>
      match entry.act with
      | .deliver 0 1 => entry.pre.wasReset 0
      | _ => false) (by decide +kernel)
  rw [Bool.and_eq_true, List.any_eq_true] at htest
  obtain ⟨htransporting, entry, hentry, hmatch⟩ := htest
  split at hmatch
  · rename_i hact
    exact ⟨tr, w, hrun, htransporting, entry, hentry, hact,
      (reset_events_ignored hrun entry hentry 0 1 hact hmatch).1⟩
  · cases hmatch

/-- A transfer is cancelled when it has ended, and its completion arrives after a second one started. -/
def lateWhenBusy : List Action :=
  [.receiveWithTicket "first" none, .downloadDirResolved 0 "/downloads", .emit 0 .started,
    .deliver 0 1, .emit 0 (.completed none), .resetForNewTransfer, .receiveWithTicket "second" none,
    .deliver 0 2]

/-- The second transfer is shown as completed. -/
theorem reset_events_not_ignored :
    ¬ ∀ (platform : Platform) (downloadsUri downloadsPath : String)
      (tr : List (Entry World Action Output)) (w : World),
      Run (receiverMachine platform) anyStep (.initial downloadsUri downloadsPath) tr w →
      ∀ entry ∈ tr, ∀ k now, entry.act = .deliver k now → entry.pre.wasReset k = true →
        entry.post.hook = entry.pre.hook := by
  intro h
  obtain ⟨tr, w, hrun, htest⟩ := Run.of_check (receiverMachine desktop) anyStep (.initial "" "")
    lateWhenBusy
    (fun tr _ => tr.any fun entry =>
      match entry.act with
      | .deliver k _ => entry.pre.wasReset k &&
          (entry.post.hook.isCompleted && !entry.pre.hook.isCompleted)
      | _ => false) (by decide +kernel)
  obtain ⟨entry, hentry, hmatch⟩ := List.any_eq_true.mp htest
  split at hmatch
  · rename_i k now hact
    rw [Bool.and_eq_true] at hmatch
    have hsame := h desktop "" "" tr w hrun entry hentry k now hact hmatch.1
    rw [hsame] at hmatch
    cases hcompleted : entry.pre.hook.isCompleted with
    | true =>
      rw [hcompleted] at hmatch
      cases hmatch.2
    | false =>
      rw [hcompleted] at hmatch
      cases hmatch.2
  · cases hmatch

end DashBeam.Frontend.Receiver
