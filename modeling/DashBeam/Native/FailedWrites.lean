import DashBeam.Lib.FileSteps
import DashBeam.Native.StoreContent

/-!
# Operations whose write fails

`DeviceIdentity`, `PairedDeviceStore` and `TransferHistoryStore` with the steps of their writes: the
directory, the temporary file, the rename. Any step can fail, and an operation then returns an error.

The two stores keep nothing in memory, and a failed replacement leaves their files. The identity keeps
its `DeviceMetaFile` in memory and changes it before the write, so a failed `set_display_name` has
changed what `display_name` returns.
-/

namespace DashBeam.Native

open Lib Protocol

/-! ## The device -/

@[ext]
structure DeviceMetaFile where
  version : Nat
  endpointId : String
  displayName : String
  deviceType : String
  os : String
  createdAt : Nat
  nameIsCustom : Bool
  deriving DecidableEq, Repr

/-- What the program finds out about its machine: `detect_os`, `default_device_type` and
`default_display_name`. -/
structure Host where
  os : String
  deviceType : String
  displayName : String

/-- `trim().is_empty()`. -/
def blank (s : String) : Bool := (trim s).toList.isEmpty

namespace DeviceMetaFile

/-- `DeviceMetaFile::VERSION`. -/
def currentVersion : Nat := 2

/-- `DeviceMetaFile::new`, with the time it reads. -/
def new (host : Host) (now : Nat) (endpointId displayName deviceType : String) : DeviceMetaFile :=
  ⟨currentVersion, endpointId, displayName, deviceType, host.os, now, false⟩

/-- A field that older files may lack. -/
def filled (found default : String) : String := if blank found then default else found

def migrate (host : Host) (file : DeviceMetaFile) : DeviceMetaFile :=
  { file with
    os := filled file.os host.os
    deviceType := filled file.deviceType host.deviceType
    version := max file.version currentVersion }

theorem filled_filled (found default : String) :
    filled (filled found default) default = filled found default := by
  by_cases h : blank found
  · have hdefault : filled found default = default := if_pos h
    rw [hdefault, filled, ite_self]
  · have hfound : filled found default = found := if_neg h
    rw [hfound, hfound]

theorem migrate_migrate (file : DeviceMetaFile) (host : Host) :
    (file.migrate host).migrate host = file.migrate host := by
  simp only [migrate, filled_filled, Nat.max_assoc, Nat.max_self]

end DeviceMetaFile

def isPlaceholderDisplayName (name : String) : Bool :=
  blank name || ["dashbeam", "dashbeam device", "android phone", "android tablet"].any
    (eqIgnoreAsciiCase (trim name))

/-- `DeviceIdentity`. What it holds in memory has been migrated. -/
structure DeviceIdentity (host : Host) where
  endpointId : String
  info : DeviceMetaFile
  migrated : info.migrate host = info

/-- The data a load takes from a `device.json` that was there. -/
def reloaded {Id : Type} (I : Iroh Id) (host : Host) (endpointId : String) (file : DeviceMetaFile) :
    DeviceMetaFile :=
  let file := if I.toLowercase file.endpointId ≠ endpointId then
    { file with endpointId := endpointId } else file
  let file := file.migrate host
  let file := if file.nameIsCustom = false ∧ isPlaceholderDisplayName file.displayName then
    { file with displayName := host.displayName } else file
  let file := { file with os := DeviceMetaFile.filled file.os host.os }
  { file with deviceType := host.deviceType }

namespace DeviceIdentity

variable {host : Host}

def ofFile (host : Host) (endpointId : String) (file : DeviceMetaFile) : DeviceIdentity host where
  endpointId := endpointId
  info := file.migrate host
  migrated := file.migrate_migrate host

/-- What `load_or_create_identity` returns for a secret key, when its files work. -/
def load {Id : Type} (I : Iroh Id) (host : Host) (now : Nat) (endpointId : String) :
    Option DeviceMetaFile → DeviceIdentity host
  | none => ofFile host endpointId (.new host now endpointId host.displayName host.deviceType)
  | some file => ofFile host endpointId (reloaded I host endpointId file)

/-- What `set_display_name` makes of what is in memory. -/
def named (identity : DeviceIdentity host) (normalized : String) : DeviceIdentity host :=
  ofFile host identity.endpointId
    { identity.info with displayName := normalized, nameIsCustom := true }

theorem named_info (identity : DeviceIdentity host) (normalized : String) :
    (identity.named normalized).info =
      { identity.info with displayName := normalized, nameIsCustom := true } := by
  have hinfo := identity.migrated
  rw [DeviceMetaFile.ext_iff] at hinfo ⊢
  exact ⟨hinfo.1, hinfo.2.1, rfl, hinfo.2.2.2.1, hinfo.2.2.2.2.1, hinfo.2.2.2.2.2.1, rfl⟩

end DeviceIdentity

/-- `DeviceInfo::from`. -/
def DeviceIdentity.deviceInfo {host : Host} (identity : DeviceIdentity host) : DeviceInfo :=
  ⟨identity.endpointId, identity.info.displayName, identity.info.deviceType, identity.info.os⟩

/-! ## The files -/

inductive DataFile
  | device
  | deviceTmp
  | pairedDevices
  | pairedDevicesTmp
  | transferHistory
  | transferHistoryTmp
  /-- `CORRUPT_HISTORY_FILE`. -/
  | corruptHistory
  deriving DecidableEq, Repr

/-- How the three files are written and read. -/
structure Codecs (Content : Type) where
  device : DeviceMetaFile → Content
  paired : PairedCodec Content
  history : HistoryCodec Content

variable {Content Id : Type}

def writeMeta (codecs : Codecs Content) (file : DeviceMetaFile) : List (FileStep DataFile Content) :=
  replaceSteps .deviceTmp .device (codecs.device file) []

/-- `PairedDeviceStore::write_file`. -/
def writePaired (codecs : Codecs Content) (list : List PairedDevice) :
    List (FileStep DataFile Content) :=
  replaceSteps .pairedDevicesTmp .pairedDevices (codecs.paired.render list) []

/-- `TransferHistoryStore::write_file`. -/
def writeHistory (codecs : Codecs Content) (file : HistoryFile) : List (FileStep DataFile Content) :=
  replaceSteps .transferHistoryTmp .transferHistory (codecs.history.render file)
    [.sync .transferHistoryTmp]

def storeFiles (dir : FileDir DataFile Content) : DataDir Content :=
  ⟨dir.file .pairedDevices, dir.file .transferHistory, dir.file .corruptHistory⟩

/-- What the file system does in one operation. -/
structure OpIo (Content : Type) where
  read : Bool
  quarantine : StepOutcome Content
  steps : Nat → StepOutcome Content

/-- Where an operation ends. -/
inductive StoreError
  /-- The name is not one, or the device is not there. -/
  | refused (message : String)
  | read
  | write
  deriving DecidableEq, Repr

/-- An operation writes, and returns its result if the steps worked. -/
def writeThen {α : Type} (io : OpIo Content) (dir : FileDir DataFile Content)
    (steps : List (FileStep DataFile Content)) (result : α) :
    Except StoreError α × FileDir DataFile Content :=
  match runSteps io.steps steps dir with
  | (false, dir) => (.error .write, dir)
  | (true, dir) => (.ok result, dir)

/-- What an operation refuses before it reads. -/
def PairedOp.refuses : PairedOp → Option String
  | .rename _ displayName =>
    match normalizeDisplayName displayName with
    | .error err => some err
    | .ok _ => none
  | _ => none

/-- An operation of `PairedDeviceStore`. -/
def pairedOp (I : Iroh Id) (codecs : Codecs Content) (io : OpIo Content)
    (dir : FileDir DataFile Content) (op : PairedOp) :
    Except StoreError PairedResult × FileDir DataFile Content :=
  match op.refuses, readPaired codecs.paired ⟨io.read, true, true⟩ (storeFiles dir) with
  | some err, _ => (.error (.refused err), dir)
  | none, none => (.error .read, dir)
  | none, some devices =>
    match op.run I devices with
    | (.saved (.error err), _) => (.error (.refused err), dir)
    | (result, none) => (.ok result, dir)
    | (result, some written) => writeThen io dir (writePaired codecs written) result

/-- `TransferHistoryStore::read_file`. -/
def readHistoryFile (codecs : Codecs Content) (read : Bool) (quarantine : StepOutcome Content)
    (dir : FileDir DataFile Content) : Option HistoryFile × FileDir DataFile Content :=
  match dir.file .transferHistory with
  | none => (some .default, dir)
  | some content =>
    if read && codecs.history.utf8 content then
      match codecs.history.parse content with
      | some file => (some file, dir)
      | none =>
        (some .default, (FileStep.run quarantine dir (.rename .transferHistory .corruptHistory)).2)
    else (none, dir)

/-- An operation of `TransferHistoryStore`. -/
def historyOp (codecs : Codecs Content) (io : OpIo Content) (dir : FileDir DataFile Content)
    (op : HistoryOp) : Except StoreError HistoryResult × FileDir DataFile Content :=
  match readHistoryFile codecs io.read io.quarantine dir with
  | (none, dir) => (.error .read, dir)
  | (some file, dir) =>
    match op.run file.records with
    | (result, none) => (.ok result, dir)
    | (result, some records) =>
      writeThen io dir (writeHistory codecs { file with records := records }) result

/-- The three objects: what the identity has in memory, and the data directory. -/
structure Stores (host : Host) (Content : Type) where
  identity : DeviceIdentity host
  dir : FileDir DataFile Content

def Stores.setDisplayName {host : Host} (codecs : Codecs Content) (io : OpIo Content)
    (s : Stores host Content) (name : String) : Except StoreError DeviceInfo × Stores host Content :=
  match normalizeDisplayName name with
  | .error err => (.error (.refused err), s)
  | .ok normalized =>
    -- what is in memory is changed before the file is
    let identity := s.identity.named normalized
    let written := writeThen io s.dir (writeMeta codecs identity.info) identity.deviceInfo
    (written.1, ⟨identity, written.2⟩)

inductive StoreOp
  | setDisplayName (name : String)
  | paired (op : PairedOp)
  | history (op : HistoryOp)

/-- What an operation returns. -/
inductive StoreAnswer
  | device (info : DeviceInfo)
  | paired (result : PairedResult)
  | history (result : HistoryResult)
  deriving DecidableEq, Repr

def StoreOp.run {host : Host} (I : Iroh Id) (codecs : Codecs Content) (io : OpIo Content)
    (s : Stores host Content) : StoreOp → Except StoreError StoreAnswer × Stores host Content
  | .setDisplayName name =>
    ((s.setDisplayName codecs io name).1.map .device, (s.setDisplayName codecs io name).2)
  | .paired op =>
    ((pairedOp I codecs io s.dir op).1.map .paired, { s with dir := (pairedOp I codecs io s.dir op).2 })
  | .history op =>
    ((historyOp codecs io s.dir op).1.map .history, { s with dir := (historyOp codecs io s.dir op).2 })

/-! ## What later reads return -/

inductive StoreRead
  | displayName
  | deviceType
  | os
  | list
  | get (endpointId : String)
  | listHistory
  deriving DecidableEq, Repr

/-- What a read returns; `none` where it is an error. -/
inductive ReadResult
  | text (value : String)
  | devices (list : Option (List PairedDevice))
  | device (found : Option (Option PairedDevice))
  | records (list : Option (List TransferRecord))
  deriving DecidableEq, Repr

namespace Stores

variable {host : Host} (I : Iroh Id) (codecs : Codecs Content)

/-- What a read returns. A content that is no text is an error. -/
def value (s : Stores host Content) : StoreRead → ReadResult
  | .displayName => .text s.identity.info.displayName
  | .deviceType => .text s.identity.info.deviceType
  | .os => .text s.identity.info.os
  | .list => .devices (readPaired codecs.paired working (storeFiles s.dir))
  | .get endpointId =>
    .device ((readPaired codecs.paired working (storeFiles s.dir)).map fun list =>
      list.find? (StoreFile.sameId I endpointId))
  | .listHistory => .records ((readHistoryFile codecs true .works s.dir).1.map (·.records))

/-- What a read leaves: `list` of the history may move a content aside. -/
def afterRead (quarantine : StepOutcome Content) (s : Stores host Content) :
    StoreRead → Stores host Content
  | .listHistory => { s with dir := (readHistoryFile codecs true quarantine s.dir).2 }
  | _ => s

def results : Stores host Content → List (StoreRead × StepOutcome Content) → List ReadResult
  | _, [] => []
  | s, (read, quarantine) :: later =>
    s.value I codecs read :: results (s.afterRead codecs quarantine read) later

end Stores

/-- The operation changes nothing that later reads return, if it returns an error. -/
def FailsCleanly {host : Host} (I : Iroh Id) (codecs : Codecs Content) (io : OpIo Content)
    (s : Stores host Content) (op : StoreOp) : Prop :=
  (∃ err, (op.run I codecs io s).1 = .error err) →
    ∀ later, (op.run I codecs io s).2.results I codecs later = s.results I codecs later

/-! ## Reads -/

section Reads

variable {host : Host} {I : Iroh Id} {codecs : Codecs Content}

/-- What the reads return is the same. -/
structure ReadsSame (s s' : Stores host Content) (codecs : Codecs Content) : Prop where
  displayName : s'.identity.info.displayName = s.identity.info.displayName
  deviceType : s'.identity.info.deviceType = s.identity.info.deviceType
  os : s'.identity.info.os = s.identity.info.os
  paired : s'.dir.file .pairedDevices = s.dir.file .pairedDevices
  history : (readHistoryFile codecs true .works s'.dir).1 = (readHistoryFile codecs true .works s.dir).1

theorem readPaired_congr {dir dir' : FileDir DataFile Content} {io : StoreIo}
    (h : dir'.file .pairedDevices = dir.file .pairedDevices) :
    readPaired codecs.paired io (storeFiles dir') = readPaired codecs.paired io (storeFiles dir) := by
  have hfile : (storeFiles dir').pairedDevices = (storeFiles dir).pairedDevices := h
  rw [readPaired, readPaired, hfile]

theorem ReadsSame.value {s s' : Stores host Content} (h : ReadsSame s s' codecs) (read : StoreRead) :
    s'.value I codecs read = s.value I codecs read := by
  cases read with
  | displayName => exact congrArg ReadResult.text h.displayName
  | deviceType => exact congrArg ReadResult.text h.deviceType
  | os => exact congrArg ReadResult.text h.os
  | list => rw [Stores.value, Stores.value, readPaired_congr h.paired]
  | get endpointId => rw [Stores.value, Stores.value, readPaired_congr h.paired]
  | listHistory => rw [Stores.value, Stores.value, h.history]

theorem readHistoryFile_congr {dir dir' : FileDir DataFile Content}
    (h : dir'.file .transferHistory = dir.file .transferHistory) (read : Bool)
    (quarantine quarantine' : StepOutcome Content) :
    (readHistoryFile codecs read quarantine dir').1 =
      (readHistoryFile codecs read quarantine' dir).1 := by
  rw [readHistoryFile, readHistoryFile, h]
  cases dir.file .transferHistory with
  | none => rfl
  | some content =>
    dsimp only
    split
    · cases codecs.history.parse content <;> rfl
    · rfl

/-- A read leaves the directory, or finds a content that does not parse and moves it aside. -/
theorem readHistoryFile_dir (read : Bool) (quarantine : StepOutcome Content)
    (dir : FileDir DataFile Content) :
    (readHistoryFile codecs read quarantine dir).2 = dir ∨
      ∃ content, dir.file .transferHistory = some content ∧ codecs.history.utf8 content = true ∧
        codecs.history.parse content = none ∧ (readHistoryFile codecs read quarantine dir).2 =
          (dir.set .transferHistory none).set .corruptHistory (some content) := by
  cases hfile : dir.file .transferHistory with
  | none => exact Or.inl (by rw [readHistoryFile, hfile])
  | some content =>
    rw [readHistoryFile, hfile]
    dsimp only
    split
    · rename_i htext
      cases hparse : codecs.history.parse content with
      | some file => exact Or.inl rfl
      | none =>
        dsimp only
        cases hrenamed : (FileStep.run quarantine dir
            (.rename .transferHistory .corruptHistory)).1 with
        | false => exact Or.inl (FileStep.rename_failed hrenamed)
        | true =>
          obtain ⟨moved, hmoved, hdir⟩ := FileStep.rename_worked hrenamed
          obtain rfl : content = moved := Option.some.inj (hfile.symm.trans hmoved)
          exact Or.inr ⟨content, rfl, (Bool.and_eq_true_iff.mp htext).2, hparse, hdir⟩
    · exact Or.inl rfl

theorem readHistoryFile_again (read : Bool) (quarantine : StepOutcome Content)
    (dir : FileDir DataFile Content) :
    (readHistoryFile codecs true .works (readHistoryFile codecs read quarantine dir).2).1 =
      (readHistoryFile codecs true .works dir).1 := by
  rcases readHistoryFile_dir read quarantine dir with hsame | ⟨content, hfile, htext, hparse, hmoved⟩
  · rw [hsame]
  · have hgone : (readHistoryFile codecs read quarantine dir).2.file .transferHistory = none := by
      rw [hmoved, FileDir.file_set_ne _ (by exact nofun),
        FileDir.file_set_self (FileDir.present_of_file hfile)]
    have hbefore : (readHistoryFile codecs true .works dir).1 = some .default := by
      rw [readHistoryFile, hfile]
      dsimp only
      rw [Bool.true_and, htext, if_pos rfl, hparse]
    rw [hbefore, readHistoryFile, hgone]

theorem readHistoryFile_others (read : Bool) (quarantine : StepOutcome Content)
    (dir : FileDir DataFile Content) {name : DataFile} (hhistory : name ≠ .transferHistory)
    (hcorrupt : name ≠ .corruptHistory) :
    (readHistoryFile codecs read quarantine dir).2.file name = dir.file name := by
  rcases readHistoryFile_dir read quarantine dir with hsame | ⟨content, -, -, -, hmoved⟩
  · rw [hsame]
  · rw [hmoved, FileDir.file_set_ne _ hcorrupt, FileDir.file_set_ne _ hhistory]

theorem readsSame_afterRead (quarantine : StepOutcome Content) (s : Stores host Content)
    (read : StoreRead) : ReadsSame s (s.afterRead codecs quarantine read) codecs := by
  cases read with
  | listHistory =>
    exact ⟨rfl, rfl, rfl, readHistoryFile_others true quarantine s.dir nofun nofun,
      readHistoryFile_again true quarantine s.dir⟩
  | _ => exact ⟨rfl, rfl, rfl, rfl, rfl⟩

theorem results_eq_map (s : Stores host Content) (later : List (StoreRead × StepOutcome Content)) :
    s.results I codecs later = later.map fun read => s.value I codecs read.1 := by
  induction later generalizing s with
  | nil => rfl
  | cons read later ih =>
    obtain ⟨read, quarantine⟩ := read
    rw [Stores.results, ih, List.map_cons]
    congr 1
    exact List.map_congr_left fun later _ => (readsSame_afterRead quarantine s read).value later.1

theorem ReadsSame.results {s s' : Stores host Content} (h : ReadsSame s s' codecs)
    (later : List (StoreRead × StepOutcome Content)) :
    s'.results I codecs later = s.results I codecs later := by
  rw [results_eq_map, results_eq_map]
  exact List.map_congr_left fun read _ => h.value read.1

end Reads

/-! ## Operations that fail -/

section Operations

variable {host : Host} {I : Iroh Id} {codecs : Codecs Content} {io : OpIo Content}
  {dir : FileDir DataFile Content}

theorem neutral_nil : ∀ step ∈ ([] : List (FileStep DataFile Content)), step.neutral = true :=
  fun _ hstep => nomatch hstep

theorem neutral_sync (name : DataFile) :
    ∀ step ∈ ([.sync name] : List (FileStep DataFile Content)), step.neutral = true := by
  intro step hstep
  rw [List.mem_singleton.mp hstep]
  rfl

theorem writeThen_dir {α : Type} (steps : List (FileStep DataFile Content)) (result : α) :
    (writeThen io dir steps result).2 = (runSteps io.steps steps dir).2 := by
  rw [writeThen]
  rcases runSteps io.steps steps dir with ⟨_ | _, after⟩ <;> rfl

theorem writeThen_failed_iff {α : Type} {steps : List (FileStep DataFile Content)} {result : α} :
    (∃ err, (writeThen io dir steps result).1 = .error err) ↔
      (runSteps io.steps steps dir).1 = false := by
  rw [writeThen]
  rcases runSteps io.steps steps dir with ⟨_ | _, after⟩
  · exact iff_of_true ⟨_, rfl⟩ rfl
  · refine iff_of_false (fun h => ?_) nofun
    obtain ⟨err, herr⟩ := h
    cases herr

theorem run_of_refuses {op : PairedOp} {err : String} (h : op.refuses = some err)
    (devices : List PairedDevice) : (op.run I devices).2 = none := by
  cases op with
  | rename endpointId displayName =>
    unfold PairedOp.refuses at h
    dsimp only at h
    rw [PairedOp.run]
    cases hname : normalizeDisplayName displayName with
    | error err => rfl
    | ok normalized =>
      rw [hname] at h
      cases h
  | _ => cases h

theorem run_of_saved_error {op : PairedOp} {devices : List PairedDevice} {err : String}
    (h : (op.run I devices).1 = .saved (.error err)) : (op.run I devices).2 = none := by
  cases op with
  | rename endpointId displayName =>
    rw [PairedOp.run] at h ⊢
    cases hname : normalizeDisplayName displayName with
    | error err => rfl
    | ok normalized =>
      rw [hname] at h
      dsimp only at h ⊢
      cases hchange : PairedOp.change I devices endpointId (PairedOp.setDisplayName normalized) with
      | none => rfl
      | some changed =>
        rw [hchange] at h
        cases h
  | trustPairedDevice endpointId trust =>
    rw [PairedOp.run] at h ⊢
    cases hchange : PairedOp.change I devices endpointId (PairedOp.setTrusted trust) with
    | none => rfl
    | some changed =>
      rw [hchange] at h
      cases h
  | _ => cases h

/-- A paired-device operation leaves the directory or ends with one replacement, and so does the call
of the files as a whole. -/
theorem pairedOp_spec (I : Iroh Id) (codecs : Codecs Content) (io : OpIo Content)
    (dir : FileDir DataFile Content) (op : PairedOp) :
    ((pairedOp I codecs io dir op).2 = dir ∧ ∀ write, (PairedCall.write op).run I codecs.paired
        ⟨io.read, true, write⟩ (storeFiles dir) = storeFiles dir) ∨
      ∃ result written,
        pairedOp I codecs io dir op = writeThen io dir (writePaired codecs written) result ∧
        ∀ write, (PairedCall.write op).run I codecs.paired ⟨io.read, true, write⟩ (storeFiles dir) =
          if write then
            { storeFiles dir with pairedDevices := some (codecs.paired.render written) }
          else storeFiles dir := by
  have hreads : ∀ write, readPaired codecs.paired ⟨io.read, true, write⟩ (storeFiles dir) =
      readPaired codecs.paired ⟨io.read, true, true⟩ (storeFiles dir) := fun _ => rfl
  simp only [PairedCall.run, hreads]
  unfold pairedOp
  cases hread : readPaired codecs.paired ⟨io.read, true, true⟩ (storeFiles dir) with
  | none => cases op.refuses <;> exact Or.inl ⟨rfl, fun _ => rfl⟩
  | some devices =>
    cases hrefuses : op.refuses with
    | some err =>
      refine Or.inl ⟨rfl, fun write => ?_⟩
      dsimp only
      rw [run_of_refuses hrefuses]
    | none =>
      dsimp only
      rcases hrun : op.run I devices with ⟨result, _ | written⟩
      · dsimp only
        split
        · exact Or.inl ⟨rfl, fun _ => rfl⟩
        · exact Or.inl ⟨rfl, fun _ => rfl⟩
        · rename_i heq
          cases heq
      · refine Or.inr ⟨result, written, ?_, fun _ => rfl⟩
        split
        · rename_i err written' heq
          have hsaved : (op.run I devices).1 = .saved (.error err) := by
            rw [hrun]
            exact congrArg Prod.fst heq
          have hnone := run_of_saved_error hsaved
          rw [hrun] at hnone
          cases hnone
        · rename_i heq
          cases heq
        · rename_i heq
          cases heq
          rfl

theorem readHistoryFile_refines (read write : Bool) (quarantine : StepOutcome Content)
    (dir : FileDir DataFile Content) :
    readHistory codecs.history ⟨read, quarantine matches .works, write⟩ (storeFiles dir) =
      ((readHistoryFile codecs read quarantine dir).1,
        storeFiles (readHistoryFile codecs read quarantine dir).2) := by
  rw [readHistory, readHistoryFile]
  change (match dir.file .transferHistory with
    | none => _
    | some content => _) = _
  cases hfile : dir.file .transferHistory with
  | none => rfl
  | some content =>
    dsimp only
    split
    · cases codecs.history.parse content with
      | some file => rfl
      | none =>
        cases quarantine with
        | fails left => rfl
        | works =>
          have hpresent := FileDir.present_of_file hfile
          have hmoved : (FileStep.run .works dir (.rename .transferHistory .corruptHistory)).2 =
              (dir.set .transferHistory none).set .corruptHistory (some content) := by
            simp only [FileStep.run, hfile]
          have hfiles : storeFiles ((dir.set .transferHistory none).set .corruptHistory
              (some content)) = ⟨dir.file .pairedDevices, none, some content⟩ := by
            simp [storeFiles, FileDir.set, hpresent]
          dsimp only
          rw [hmoved, hfiles]
          rfl
    · rfl

/-- An operation of the history reads, and then leaves the directory or ends with one replacement, and
so does the call of the files as a whole. -/
theorem historyOp_spec (codecs : Codecs Content) (io : OpIo Content) (op : HistoryOp)
    {dir after : FileDir DataFile Content}
    (hafter : (readHistoryFile codecs io.read io.quarantine dir).2 = after) :
    ((historyOp codecs io dir op).2 = after ∧ ∀ write, (HistoryCall.write op).run codecs.history
        ⟨io.read, io.quarantine matches .works, write⟩ (storeFiles dir) = storeFiles after) ∨
      ∃ result file,
        historyOp codecs io dir op = writeThen io after (writeHistory codecs file) result ∧
        ∀ write, (HistoryCall.write op).run codecs.history
            ⟨io.read, io.quarantine matches .works, write⟩ (storeFiles dir) =
          if write then { storeFiles after with transferHistory := some (codecs.history.render file) }
          else storeFiles after := by
  simp only [HistoryCall.run, readHistoryFile_refines]
  unfold historyOp
  rcases hread : readHistoryFile codecs io.read io.quarantine dir with ⟨_ | file, read⟩
  · rw [hread] at hafter
    exact Or.inl ⟨hafter, fun _ => congrArg storeFiles hafter⟩
  · rw [hread] at hafter
    obtain rfl : read = after := hafter
    dsimp only
    rcases op.run file.records with ⟨result, _ | records⟩
    · exact Or.inl ⟨rfl, fun _ => rfl⟩
    · exact Or.inr ⟨result, _, rfl, fun _ => rfl⟩

/-! ## The files as a whole -/

/-- The directory is there or can be made, and the other steps of a write work. -/
def OpIo.StepsWork (io : OpIo Content) (dir : FileDir DataFile Content) (steps : Nat) : Prop :=
  (dir.present = true ∨ io.steps 0 = .works) ∧ ∀ n, 0 < n → n < steps → io.steps n = .works

theorem storeFiles_writePaired (written : List PairedDevice) :
    storeFiles (runSteps io.steps (writePaired codecs written) dir).2 =
      if (runSteps io.steps (writePaired codecs written) dir).1 then
        { storeFiles dir with pairedDevices := some (codecs.paired.render written) }
      else storeFiles dir := by
  have hfile : ∀ name ≠ DataFile.pairedDevicesTmp,
      (runSteps io.steps (writePaired codecs written) dir).2.file name =
        if (runSteps io.steps (writePaired codecs written) dir).1 = true ∧ name = .pairedDevices
          then some (codecs.paired.render written) else dir.file name :=
    fun name hname => replace_file neutral_nil hname
  rw [storeFiles, hfile .pairedDevices nofun, hfile .transferHistory nofun,
    hfile .corruptHistory nofun]
  cases (runSteps io.steps (writePaired codecs written) dir).1 <;> rfl

theorem storeFiles_writeHistory (file : HistoryFile) :
    storeFiles (runSteps io.steps (writeHistory codecs file) dir).2 =
      if (runSteps io.steps (writeHistory codecs file) dir).1 then
        { storeFiles dir with transferHistory := some (codecs.history.render file) }
      else storeFiles dir := by
  have hfile : ∀ name ≠ DataFile.transferHistoryTmp,
      (runSteps io.steps (writeHistory codecs file) dir).2.file name =
        if (runSteps io.steps (writeHistory codecs file) dir).1 = true ∧ name = .transferHistory
          then some (codecs.history.render file) else dir.file name :=
    fun name hname => replace_file (neutral_sync _) hname
  rw [storeFiles, hfile .pairedDevices nofun, hfile .transferHistory nofun,
    hfile .corruptHistory nofun]
  cases (runSteps io.steps (writeHistory codecs file) dir).1 <;> rfl

theorem writePaired_worked_iff (codecs : Codecs Content) (written : List PairedDevice) :
    (runSteps io.steps (writePaired codecs written) dir).1 = true ↔ io.StepsWork dir 3 :=
  replace_worked_iff neutral_nil

theorem writeHistory_worked_iff (codecs : Codecs Content) (file : HistoryFile) :
    (runSteps io.steps (writeHistory codecs file) dir).1 = true ↔ io.StepsWork dir 4 :=
  replace_worked_iff (neutral_sync _)

theorem pairedOp_refines (I : Iroh Id) (codecs : Codecs Content) (io : OpIo Content)
    (dir : FileDir DataFile Content) (op : PairedOp) :
    ∃ write, (write = true ↔ io.StepsWork dir 3) ∧ storeFiles (pairedOp I codecs io dir op).2 =
      (PairedCall.write op).run I codecs.paired ⟨io.read, true, write⟩ (storeFiles dir) := by
  rcases pairedOp_spec I codecs io dir op with ⟨hsame, hcall⟩ | ⟨result, written, hwritten, hcall⟩
  · refine ⟨_, writePaired_worked_iff codecs [], ?_⟩
    rw [hsame, hcall]
  · refine ⟨_, writePaired_worked_iff codecs written, ?_⟩
    rw [hcall, hwritten, writeThen_dir]
    exact storeFiles_writePaired written

theorem historyOp_refines (codecs : Codecs Content) (io : OpIo Content)
    (dir : FileDir DataFile Content) (op : HistoryOp) :
    ∃ write, (write = true ↔ io.StepsWork dir 4) ∧ storeFiles (historyOp codecs io dir op).2 =
      (HistoryCall.write op).run codecs.history ⟨io.read, io.quarantine matches .works, write⟩
        (storeFiles dir) := by
  have hpresent : (readHistoryFile codecs io.read io.quarantine dir).2.present = dir.present := by
    rcases readHistoryFile_dir io.read io.quarantine dir with hsame | ⟨content, -, -, -, hmoved⟩
    · rw [hsame]
    · rw [hmoved]
      rfl
  have hworks : ∀ file, (runSteps io.steps (writeHistory codecs file)
      (readHistoryFile codecs io.read io.quarantine dir).2).1 = true ↔ io.StepsWork dir 4 := by
    intro file
    rw [writeHistory_worked_iff, OpIo.StepsWork, OpIo.StepsWork, hpresent]
  rcases historyOp_spec codecs io op rfl with ⟨hsame, hcall⟩ | ⟨result, file, hwritten, hcall⟩
  · refine ⟨_, hworks .default, ?_⟩
    rw [hsame, hcall]
  · refine ⟨_, hworks file, ?_⟩
    rw [hcall, hwritten, writeThen_dir]
    exact storeFiles_writeHistory file

/-! ## What a failed operation leaves -/

theorem pairedOp_failed {op : PairedOp} (h : ∃ err, (pairedOp I codecs io dir op).1 = .error err)
    {name : DataFile} (hname : name ≠ .pairedDevicesTmp) :
    (pairedOp I codecs io dir op).2.file name = dir.file name := by
  rcases pairedOp_spec I codecs io dir op with ⟨hsame, -⟩ | ⟨result, written, hwritten, -⟩
  · rw [hsame]
  · rw [hwritten] at h ⊢
    rw [writeThen_dir]
    exact replace_failed neutral_nil (writeThen_failed_iff.mp h) hname

theorem historyOp_failed {op : HistoryOp} (h : ∃ err, (historyOp codecs io dir op).1 = .error err)
    {name : DataFile} (hname : name ≠ .transferHistoryTmp) :
    (historyOp codecs io dir op).2.file name =
      (readHistoryFile codecs io.read io.quarantine dir).2.file name := by
  rcases historyOp_spec codecs io op (Eq.refl (readHistoryFile codecs io.read io.quarantine dir).2) with
    ⟨hsame, -⟩ | ⟨result, file, hwritten, -⟩
  · rw [hsame]
  · rw [hwritten] at h ⊢
    rw [writeThen_dir]
    exact replace_failed (neutral_sync _) (writeThen_failed_iff.mp h) hname

theorem readsSame_paired {s : Stores host Content} {op : PairedOp}
    (h : ∃ err, (pairedOp I codecs io s.dir op).1 = .error err) :
    ReadsSame s { s with dir := (pairedOp I codecs io s.dir op).2 } codecs :=
  ⟨rfl, rfl, rfl, pairedOp_failed h nofun, readHistoryFile_congr (pairedOp_failed h nofun) _ _ _⟩

theorem readsSame_history {s : Stores host Content} {op : HistoryOp}
    (h : ∃ err, (historyOp codecs io s.dir op).1 = .error err) :
    ReadsSame s { s with dir := (historyOp codecs io s.dir op).2 } codecs := by
  have hname : DataFile.pairedDevices ≠ .transferHistoryTmp := nofun
  refine ⟨rfl, rfl, rfl, ?_, ?_⟩
  · exact (historyOp_failed h hname).trans (readHistoryFile_others _ _ _ nofun nofun)
  · exact (readHistoryFile_congr (historyOp_failed h nofun) _ _ _).trans
      (readHistoryFile_again _ _ _)

/-- The name in memory is the new one, whatever became of the write. -/
theorem setDisplayName_identity {s : Stores host Content} {name normalized : String}
    (hname : normalizeDisplayName name = .ok normalized) :
    (s.setDisplayName codecs io name).2.identity = s.identity.named normalized := by
  rw [Stores.setDisplayName, hname]

theorem setDisplayName_failed_iff {s : Stores host Content} {name normalized : String}
    (hname : normalizeDisplayName name = .ok normalized) :
    (∃ err, (s.setDisplayName codecs io name).1 = .error err) ↔ ¬ io.StepsWork s.dir 3 := by
  rw [Stores.setDisplayName, hname]
  dsimp only
  rw [writeThen_failed_iff, ← Bool.not_eq_true]
  exact not_congr (replace_worked_iff neutral_nil)

theorem readsSame_setDisplayName {s : Stores host Content} {name : String}
    (hname : normalizeDisplayName name = .ok s.identity.info.displayName)
    (h : ∃ err, (s.setDisplayName codecs io name).1 = .error err) :
    ReadsSame s (s.setDisplayName codecs io name).2 codecs := by
  have hinfo : (s.setDisplayName codecs io name).2.identity.info =
      { s.identity.info with nameIsCustom := true } := by
    rw [setDisplayName_identity hname, DeviceIdentity.named_info]
  have hkept : ∀ file ≠ DataFile.deviceTmp,
      (s.setDisplayName codecs io name).2.dir.file file = s.dir.file file := by
    intro file hfile
    rw [Stores.setDisplayName, hname] at h ⊢
    dsimp only at h ⊢
    rw [writeThen_dir]
    exact replace_failed neutral_nil (writeThen_failed_iff.mp h) hfile
  exact ⟨by rw [hinfo], by rw [hinfo], by rw [hinfo], hkept _ nofun,
    readHistoryFile_congr (hkept _ nofun) _ _ _⟩

end Operations

/-- An operation that returns an error changes nothing that later reads return, exactly when it is not a
`set_display_name` to a new name whose write fails. -/
theorem failsCleanly_iff {host : Host} (I : Iroh Id) (codecs : Codecs Content) (io : OpIo Content)
    (s : Stores host Content) (op : StoreOp) :
    FailsCleanly I codecs io s op ↔ ∀ name normalized, op = .setDisplayName name →
      normalizeDisplayName name = .ok normalized → normalized ≠ s.identity.info.displayName →
        io.StepsWork s.dir 3 := by
  have hresult : ∀ {α β : Type} {result : Except StoreError α} {f : α → β},
      (∃ err, result.map f = .error err) ↔ ∃ err, result = .error err := by
    intro α β result f
    cases result <;> simp [Except.map]
  cases op with
  | paired op =>
    refine iff_of_true (fun h later => ?_) nofun
    exact (readsSame_paired (hresult.mp h)).results later
  | history op =>
    refine iff_of_true (fun h later => ?_) nofun
    exact (readsSame_history (hresult.mp h)).results later
  | setDisplayName name =>
    unfold FailsCleanly
    rw [StoreOp.run]
    dsimp only
    rw [hresult]
    cases hname : normalizeDisplayName name with
    | error err =>
      have hsame : (s.setDisplayName codecs io name).2 = s := by rw [Stores.setDisplayName, hname]
      refine iff_of_true (fun _ later => by rw [hsame]) fun name' normalized hop hname' => ?_
      cases hop
      rw [hname] at hname'
      cases hname'
    | ok normalized =>
      rw [setDisplayName_failed_iff hname]
      constructor
      · intro hcleanly name' normalized' hop hname' hne
        cases hop
        obtain rfl : normalized = normalized' := Except.ok.inj (hname.symm.trans hname')
        by_contra hfails
        -- the display name is read once
        have hread := hcleanly hfails [(.displayName, .works)]
        rw [results_eq_map, results_eq_map, List.map_singleton, List.map_singleton] at hread
        have htext := ReadResult.text.inj (List.singleton_inj.mp hread)
        rw [setDisplayName_identity hname, DeviceIdentity.named_info] at htext
        exact hne htext
      · intro hworks hfails later
        by_cases heq : normalized = s.identity.info.displayName
        · rw [heq] at hname
          exact (readsSame_setDisplayName hname ((setDisplayName_failed_iff hname).mpr hfails)).results
            later
        · exact absurd (hworks name normalized rfl hname heq) hfails

/-- A device that was loaded, with an empty data directory. -/
def demoStores : Stores ⟨"linux", "laptop", "Old"⟩ DemoContent where
  identity := .load Key.iroh _ 0 Key.alice.hex none
  dir := ⟨true, fun _ => none, nofun⟩

def demoCodecs : Codecs DemoContent where
  device file := .text file.displayName
  paired := demoPaired
  history := demoHistory

/-- A rename of the device fails at the rename of its file, and the device has its new name. -/
theorem display_name_changed_by_failed_write :
    ¬ ∀ (io : OpIo DemoContent) (op : StoreOp),
      FailsCleanly Key.iroh demoCodecs io demoStores op := by
  intro hall
  have hread := hall ⟨true, .works, fun n => if n = 2 then .fails none else .works⟩
    (.setDisplayName "New") ⟨.write, by decide +kernel⟩ [(.displayName, .works)]
  revert hread
  decide +kernel

end DashBeam.Native
