import DashBeam.Lib.Machine
import DashBeam.Lib.Past
import DashBeam.Native.FailedWrites

/-!
# A device whose key changes

`load_or_create_identity` of `device_identity.rs` and the beginning of `NodeService::start`. The key comes
from the identity store and may be another one than at the last launch. `device.json` names the id that
was there before: when the two differ the new id is written to it, and the paired devices that are still
`Active` are marked as paired with the old identity.

The id is written before the devices are marked, and a launch that ends in between has used up the one
trace of the change. In every run an `Active` device was paired since the id last changed, unless such a
launch happened since the devices were last marked (`active_since_rotation`). `mark_lost` is a run in
which it did.
-/

namespace DashBeam.Native

open Lib Protocol
open StoreFile (sameId unpaired stale)

namespace IdentityRotation

variable {Content Id : Type}

/-! ## A launch -/

/-- The files with their formats. `DeviceMetaFile` holds strings, integers and a flag, which survive as
they are. -/
structure Formats (Content : Type) where
  device : Codec Content DeviceMetaFile Eq
  paired : PairedCodec Content
  history : HistoryCodec Content

def Formats.codecs (formats : Formats Content) : Codecs Content :=
  ⟨formats.device.render, formats.paired, formats.history⟩

/-- What the rest of the system does in one launch: the data directory is created, the identity store
gives the id of a key, `device.json` is read and written, the devices are listed and marked, and the
endpoint is built. -/
structure LaunchIo (Content : Type) where
  created : StepOutcome Content
  secret : Option String
  now : Nat
  metaRead : Bool
  metaWrite : Nat → StepOutcome Content
  listed : Bool
  mark : OpIo Content
  built : Bool

section Launch

variable (I : Iroh Id) (formats : Formats Content) (host : Host) (io : LaunchIo Content)
  (dir : FileDir DataFile Content)

/-- The identity is written to `device.json`. -/
def writeIdentity (id : String) (found : Option DeviceMetaFile) :
    Option (DeviceIdentity host × Bool) × FileDir DataFile Content :=
  let identity := DeviceIdentity.load I host io.now id found
  match runSteps io.metaWrite (writeMeta formats.codecs identity.info) dir with
  | (false, dir) => (none, dir)
  | (true, dir) => (some (identity, found.any fun file => I.toLowercase file.endpointId ≠ id), dir)

/-- `device.json`, if there is one; no result where it cannot be read or does not parse. -/
def readMeta : Option (Option DeviceMetaFile) :=
  match dir.file .device with
  | none => some none
  | some content =>
    if io.metaRead && formats.device.utf8 content then (formats.device.parse content).map some
    else none

/-- `load_or_create_identity`, and whether the id was another one. -/
def loadOrCreateIdentity : Option (DeviceIdentity host × Bool) × FileDir DataFile Content :=
  match FileStep.run io.created dir .createDir with
  | (false, dir) => (none, dir)
  | (true, dir) =>
    match io.secret, readMeta formats io dir with
    | some id, some found => writeIdentity I formats host io dir id found
    | _, _ => (none, dir)

/-- `NodeService::start`, as far as the files go. The count of a marking that fails is taken as 0. -/
def start : Option (DeviceIdentity host) × FileDir DataFile Content :=
  match loadOrCreateIdentity I formats host io dir with
  | (none, dir) => (none, dir)
  | (some (identity, rotated), dir) =>
    match readPaired formats.paired ⟨io.listed, true, true⟩ (storeFiles dir) with
    | none => (none, dir)
    | some _ =>
      let dir := if rotated then
        (pairedOp I formats.codecs io.mark dir .markStaleAfterLocalIdentityRotation).2 else dir
      (if io.built then some identity else none, dir)

end Launch

/-! ## Runs -/

/-- The data directory, and the identity of the process that runs. -/
structure State (host : Host) (Content : Type) where
  dir : FileDir DataFile Content
  running : Option (DeviceIdentity host)

inductive Act (Content : Type)
  /-- The last process ended, however it did, and the app is launched again. -/
  | launch (io : LaunchIo Content)
  | paired (op : PairedOp) (io : OpIo Content)
  | setDisplayName (name : String) (io : OpIo Content)

abbrev Out : Type := Except StoreError PairedResult

def step {host : Host} (I : Iroh Id) (formats : Formats Content) (s : State host Content) :
    Act Content → Option (State host Content × List Out)
  | .launch io =>
    let started := start I formats host io s.dir
    some (⟨started.2, started.1⟩, [])
  | .paired op io =>
    s.running.map fun _ =>
      let result := pairedOp I formats.codecs io s.dir op
      ({ s with dir := result.2 }, [result.1])
  | .setDisplayName name io =>
    s.running.map fun identity =>
      let stores := (Stores.setDisplayName formats.codecs io ⟨identity, s.dir⟩ name).2
      (⟨stores.dir, some stores.identity⟩, [])

def machine (I : Iroh Id) (formats : Formats Content) (host : Host) :
    Machine (State host Content) (Act Content) Out := ⟨step I formats⟩

abbrev RotationStep (host : Host) (Content : Type) := Entry (State host Content) (Act Content) Out

/-- The app was never launched: the data directory is empty. -/
def initial (host : Host) (Content : Type) : State host Content :=
  ⟨⟨false, fun _ => none, fun _ _ => rfl⟩, none⟩

/-- The id that `device.json` names, up to case. -/
def named (I : Iroh Id) (formats : Formats Content) (dir : FileDir DataFile Content) : Option String :=
  ((dir.file .device).bind formats.device.deserialize).map fun file => I.toLowercase file.endpointId

def devices (formats : Formats Content) (dir : FileDir DataFile Content) : List PairedDevice :=
  (((dir.file .pairedDevices).bind formats.paired.deserialize)).getD []

section

variable {host : Host}

/-- The step changes the id that `device.json` names. -/
def Rotates (I : Iroh Id) (formats : Formats Content) (e : RotationStep host Content) : Prop :=
  match named I formats e.pre.dir, named I formats e.post.dir with
  | some old, some new => old ≠ new
  | _, _ => False

/-- A launch that cannot list the devices, or not mark them. -/
def Fails (e : RotationStep host Content) : Prop :=
  match e.act with
  | .launch io => io.listed = false ∨ io.mark.read = false ∨ ∃ n < 3, io.mark.steps n ≠ .works
  | _ => False

/-- The id changes and the devices are not marked. -/
def Slips (I : Iroh Id) (formats : Formats Content) (e : RotationStep host Content) : Prop :=
  Rotates I formats e ∧ Fails e

/-- The id changes and the devices are marked. -/
def Marks (I : Iroh Id) (formats : Formats Content) (e : RotationStep host Content) : Prop :=
  Rotates I formats e ∧ ¬ Fails e

/-- A device is paired, and its record written. -/
def Pairs (I : Iroh Id) (key : String) (e : RotationStep host Content) : Prop :=
  match e.act, e.out with
  | .paired (.remember device) _, [.ok _] => idKey I device = key
  | _, _ => False

end

/-! ## One launch -/

section

variable {host : Host} {I : Iroh Id} {formats : Formats Content} {io : LaunchIo Content}
  {dir dir' : FileDir DataFile Content} {tr : List (RotationStep host Content)}
  {e : RotationStep host Content} {s s' : State host Content} {device : PairedDevice}

theorem createDir_file {Name : Type} [DecidableEq Name] (outcome : StepOutcome Content)
    (dir : FileDir Name Content) (name : Name) :
    (FileStep.run outcome dir .createDir).2.file name = dir.file name :=
  FileStep.run_untouched id outcome dir

/-- What `device.json` holds after a launch that wrote it. -/
structure Written (I : Iroh Id) (formats : Formats Content) (io : LaunchIo Content)
    (dir dir' : FileDir DataFile Content) (identity : DeviceIdentity host) (rotated : Bool) : Prop where
  device : dir'.file .device = some (formats.device.render identity.info)
  others : ∀ name, name ≠ .device → name ≠ .deviceTmp → dir'.file name = dir.file name
  rotated : ∀ old, named I formats dir = some old → rotated = false →
    I.toLowercase identity.info.endpointId = old

theorem reloaded_endpointId (id : String) (file : DeviceMetaFile) :
    (reloaded I host id file).endpointId =
      if I.toLowercase file.endpointId ≠ id then id else file.endpointId := by
  unfold reloaded
  dsimp only
  split
  · split <;> rfl
  · split <;> rfl

theorem named_of_device {info : DeviceMetaFile}
    (h : dir.file .device = some (formats.device.render info)) :
    named I formats dir = some (I.toLowercase info.endpointId) := by
  obtain ⟨file, hfile, rfl⟩ := formats.device.deserialize_render info
  rw [named, h, Option.bind_some, hfile, Option.map_some]

/-- `device.json` holds what was written if every step worked, and else what it held. -/
theorem writeMeta_file (formats : Formats Content) (info : DeviceMetaFile)
    (outcomes : Nat → StepOutcome Content) (dir : FileDir DataFile Content) (name : DataFile)
    (hname : name ≠ .deviceTmp) :
    (runSteps outcomes (writeMeta formats.codecs info) dir).2.file name =
      if (runSteps outcomes (writeMeta formats.codecs info) dir).1 = true ∧ name = .device then
        some (formats.device.render info)
      else dir.file name :=
  replace_file neutral_nil hname

theorem writeIdentity_spec {id : String} {found : Option DeviceMetaFile}
    (hfound : (dir.file .device).bind formats.device.deserialize = found) :
    ((writeIdentity I formats host io dir id found).1 = none ∧ ∀ name ≠ .deviceTmp,
        (writeIdentity I formats host io dir id found).2.file name = dir.file name) ∨
      ∃ identity rotated, (writeIdentity I formats host io dir id found).1 = some (identity, rotated) ∧
        Written I formats io dir (writeIdentity I formats host io dir id found).2 identity rotated := by
  rw [writeIdentity]
  have hfile := writeMeta_file formats (DeviceIdentity.load I host io.now id found).info io.metaWrite dir
  rcases hrun : runSteps io.metaWrite (writeMeta formats.codecs
    (DeviceIdentity.load I host io.now id found).info) dir with ⟨_ | _, after⟩
  · rw [hrun] at hfile
    exact Or.inl ⟨rfl, fun name hname => (hfile name hname).trans (if_neg (by simp))⟩
  · rw [hrun] at hfile
    have hdevice := (hfile .device (by decide)).trans (if_pos ⟨rfl, rfl⟩)
    refine Or.inr ⟨_, _, rfl, hdevice, fun name hdevice htmp =>
      (hfile name htmp).trans (if_neg fun hboth => hdevice hboth.2), ?_⟩
    intro old hold hrotated
    rw [named, hfound] at hold
    obtain ⟨file, rfl, rfl⟩ := Option.map_eq_some_iff.mp hold
    have hsame : I.toLowercase file.endpointId = id := by simpa using hrotated
    show I.toLowercase ((reloaded I host id file).migrate host).endpointId = _
    rw [DeviceMetaFile.migrate]
    dsimp only
    rw [reloaded_endpointId, if_neg (not_not.mpr hsame)]

theorem readMeta_found {found : Option DeviceMetaFile} (h : readMeta formats io dir = some found) :
    (dir.file .device).bind formats.device.deserialize = found := by
  rw [readMeta] at h
  cases hfile : dir.file .device with
  | none =>
    rw [hfile] at h
    exact Option.some.inj h
  | some content =>
    rw [hfile] at h
    dsimp only at h
    split at h
    · rename_i hread
      obtain ⟨file, hparse, rfl⟩ := Option.map_eq_some_iff.mp h
      rw [Option.bind_some, Codec.deserialize, if_pos (Bool.and_eq_true_iff.mp hread).2, hparse]
    · cases h

/-- A launch gives no identity and leaves the files but the temporary one, or writes the identity. -/
theorem loadOrCreateIdentity_spec (I : Iroh Id) (formats : Formats Content) (host : Host)
    (io : LaunchIo Content) (dir : FileDir DataFile Content) :
    ((loadOrCreateIdentity I formats host io dir).1 = none ∧ ∀ name ≠ .deviceTmp,
        (loadOrCreateIdentity I formats host io dir).2.file name = dir.file name) ∨
      ∃ identity rotated, (loadOrCreateIdentity I formats host io dir).1 = some (identity, rotated) ∧
        Written I formats io dir (loadOrCreateIdentity I formats host io dir).2 identity rotated := by
  rcases hcreated : FileStep.run io.created dir .createDir with ⟨works, made⟩
  have hmade : ∀ name, made.file name = dir.file name := by
    intro name
    have hfile := createDir_file io.created dir name
    rwa [hcreated] at hfile
  rw [loadOrCreateIdentity, hcreated]
  cases works with
  | false => exact Or.inl ⟨rfl, fun name _ => hmade name⟩
  | true =>
    dsimp only
    split
    · rename_i id found hsecret hread
      rcases writeIdentity_spec (readMeta_found hread) with ⟨hnone, hkept⟩ | ⟨identity, rotated, hsome, h⟩
      · exact Or.inl ⟨hnone, fun name hname => (hkept name hname).trans (hmade name)⟩
      · refine Or.inr ⟨identity, rotated, hsome, h.device,
          fun name hdevice htmp => (h.others name hdevice htmp).trans (hmade name), fun old hold => ?_⟩
        apply h.rotated
        rwa [named, hmade]
    · exact Or.inl ⟨rfl, fun name _ => hmade name⟩

/-! ## One operation -/

theorem readPaired_devices {io : StoreIo} {list : List PairedDevice}
    (h : readPaired formats.paired io (storeFiles dir) = some list) : devices formats dir = list := by
  rw [readPaired] at h
  change (match dir.file .pairedDevices with
    | none => some []
    | some content => if io.read && formats.paired.utf8 content then
        some ((formats.paired.parse content).getD []) else none) = some list at h
  rw [devices]
  cases hfile : dir.file .pairedDevices with
  | none =>
    rw [hfile] at h
    exact Option.some.inj h
  | some content =>
    rw [hfile] at h
    dsimp only at h
    split at h
    · rename_i hread
      rw [Option.bind_some, Codec.deserialize, if_pos (Bool.and_eq_true_iff.mp hread).2]
      exact Option.some.inj h
    · cases h

theorem devices_of_file {list : List PairedDevice}
    (h : dir.file .pairedDevices = some (formats.paired.render list)) : devices formats dir = list := by
  obtain ⟨list', hlist, rfl⟩ := formats.paired.deserialize_render list
  rw [devices, h, Option.bind_some, hlist, Option.getD_some]

theorem devices_congr (h : dir'.file .pairedDevices = dir.file .pairedDevices) :
    devices formats dir' = devices formats dir := by
  rw [devices, devices, h]

theorem named_congr (h : dir'.file .device = dir.file .device) :
    named I formats dir' = named I formats dir := by
  rw [named, named, h]

/-- The list holds what was written if every step worked, and else what it held. -/
theorem writePaired_file (formats : Formats Content) (list : List PairedDevice)
    (outcomes : Nat → StepOutcome Content) (dir : FileDir DataFile Content) (name : DataFile)
    (hname : name ≠ .pairedDevicesTmp) :
    (runSteps outcomes (writePaired formats.codecs list) dir).2.file name =
      if (runSteps outcomes (writePaired formats.codecs list) dir).1 = true ∧
        name = .pairedDevices then some (formats.paired.render list)
      else dir.file name :=
  replace_file neutral_nil hname

/-- An operation leaves the devices, because it fails or has nothing to write, or succeeds and makes of
them what it makes of a list. -/
theorem pairedOp_devices (I : Iroh Id) (formats : Formats Content) (op : PairedOp) (io : OpIo Content)
    (dir : FileDir DataFile Content) :
    (devices formats (pairedOp I formats.codecs io dir op).2 = devices formats dir ∧
        ((∃ err, (pairedOp I formats.codecs io dir op).1 = .error err) ∨
          (op.run I (devices formats dir)).2 = none)) ∨
      (pairedOp I formats.codecs io dir op).1 = .ok (op.run I (devices formats dir)).1 ∧
        devices formats (pairedOp I formats.codecs io dir op).2 =
          (op.run I (devices formats dir)).2.getD (devices formats dir) := by
  unfold pairedOp
  split
  · exact Or.inl ⟨rfl, Or.inl ⟨_, rfl⟩⟩
  · exact Or.inl ⟨rfl, Or.inl ⟨_, rfl⟩⟩
  · rename_i list hrefuses hread
    rw [readPaired_devices hread]
    split
    · exact Or.inl ⟨readPaired_devices hread, Or.inl ⟨_, rfl⟩⟩
    · rename_i result hsaved hrun
      rw [hrun]
      exact Or.inl ⟨readPaired_devices hread, Or.inr rfl⟩
    · rename_i result written hsaved hrun
      rw [hrun, writeThen]
      have hfile := writePaired_file formats written io.steps dir .pairedDevices (by decide)
      rcases hsteps : runSteps io.steps (writePaired formats.codecs written) dir with ⟨_ | _, after⟩
      · rw [hsteps] at hfile
        refine Or.inl ⟨(devices_congr ?_).trans (readPaired_devices hread), Or.inl ⟨_, rfl⟩⟩
        exact hfile.trans (if_neg (by simp))
      · rw [hsteps] at hfile
        exact Or.inr ⟨rfl, devices_of_file (hfile.trans (if_pos ⟨rfl, rfl⟩))⟩

theorem pairedOp_device (I : Iroh Id) (formats : Formats Content) (op : PairedOp) (io : OpIo Content)
    (dir : FileDir DataFile Content) :
    (pairedOp I formats.codecs io dir op).2.file .device = dir.file .device := by
  rcases pairedOp_spec I formats.codecs io dir op with ⟨hsame, -⟩ | ⟨result, written, hwritten, -⟩
  · rw [hsame]
  · rw [hwritten, writeThen_dir, writePaired_file formats written io.steps dir _ (by decide),
      if_neg fun hboth => absurd hboth.2 (by decide)]

theorem amend_active {op : PairedOp} (h : (op.amend I device).pairingStatus = .active) :
    device.pairingStatus = .active ∨
      ∃ paired, op = .remember paired ∧ idKey I paired = idKey I device := by
  have honly : ∀ (f : PairedDevice → PairedDevice) (endpointId : String),
      (∀ d, (f d).pairingStatus = .active → d.pairingStatus = .active) →
      (PairedOp.onlyId I endpointId f device).pairingStatus = .active →
      device.pairingStatus = .active := by
    intro f endpointId hf hactive
    unfold PairedOp.onlyId at hactive
    split at hactive
    · exact hf device hactive
    · exact hactive
  cases op with
  | remember paired =>
    by_cases hsame : sameId I paired.endpointId device = true
    · exact Or.inr ⟨paired, rfl, (sameId_iff.mp hsame).symm⟩
    · unfold PairedOp.amend PairedOp.onlyId at h
      dsimp only at h
      rw [if_neg hsame] at h
      exact Or.inl h
  | rename endpointId displayName =>
    cases hname : normalizeDisplayName displayName with
    | error err =>
      simp only [PairedOp.amend, hname] at h
      exact Or.inl h
    | ok normalized =>
      simp only [PairedOp.amend, hname] at h
      exact Or.inl (honly (PairedOp.setDisplayName normalized) endpointId (fun d hd => hd) h)
  | trustPairedDevice endpointId trust =>
    exact Or.inl (honly (PairedOp.setTrusted trust) endpointId (fun d hd => hd) h)
  | forget endpointId => exact Or.inl h
  | touch endpointId lastSeenAt =>
    exact Or.inl (honly (PairedOp.setLastSeenAt lastSeenAt) endpointId (fun d hd => hd) h)
  | markUnpairedRemotely endpointId =>
    exact Or.inl (honly unpaired endpointId (fun d hd => by cases hd) h)
  | markStaleAfterLocalIdentityRotation =>
    change (stale device).pairingStatus = .active at h
    unfold stale at h
    split at h
    · cases h
    · exact Or.inl h

theorem run_active {op : PairedOp} {list : List PairedDevice} (hkeys : (list.map (idKey I)).Nodup)
    (hmem : device ∈ (op.run I list).2.getD list) (hactive : device.pairingStatus = .active) :
    (∃ old ∈ list, idKey I old = idKey I device ∧ old.pairingStatus = .active) ∨
      ∃ paired, op = .remember paired ∧ idKey I paired = idKey I device := by
  rw [run_list op hkeys] at hmem
  rcases List.mem_append.mp hmem with hamended | hadded
  · obtain ⟨old, hold, rfl⟩ := List.mem_map.mp hamended
    rcases amend_active hactive with hold' | ⟨paired, rfl, hkey⟩
    · exact Or.inl ⟨old, (List.mem_filter.mp hold).1, (amend_idKey op old).symm, hold'⟩
    · exact Or.inr ⟨paired, rfl, hkey.trans (amend_idKey _ old).symm⟩
  · exact Or.inr ⟨device, (added_fresh (Option.mem_toList.mp hadded)).1, rfl⟩

theorem marked_stale {io : OpIo Content}
    (htext : ∀ content, dir.file .pairedDevices = some content → formats.paired.utf8 content = true)
    (hread : io.read = true) (hworks : ∀ n < 3, io.steps n = .works) (hmem : device ∈
      devices formats (pairedOp I formats.codecs io dir .markStaleAfterLocalIdentityRotation).2) :
    device.pairingStatus ≠ .active := by
  intro hactive
  have hdevices : readPaired formats.paired ⟨io.read, true, true⟩ (storeFiles dir) =
      some (devices formats dir) := by
    cases hlist : readPaired formats.paired ⟨io.read, true, true⟩ (storeFiles dir) with
    | some list => rw [readPaired_devices hlist]
    | none =>
      rw [readPaired] at hlist
      change (match dir.file .pairedDevices with
        | none => some []
        | some content => if io.read && formats.paired.utf8 content then
            some ((formats.paired.parse content).getD []) else none) = none at hlist
      cases hfile : dir.file .pairedDevices with
      | none =>
        rw [hfile] at hlist
        cases hlist
      | some content =>
        rw [hfile] at hlist
        dsimp only at hlist
        rw [hread, htext content hfile] at hlist
        cases hlist
  have hsucceeds : ¬ ∃ err, (pairedOp I formats.codecs io dir
      .markStaleAfterLocalIdentityRotation).1 = .error err := by
    rintro ⟨err, hfails⟩
    unfold pairedOp at hfails
    split at hfails
    · rename_i hrefuses
      cases hrefuses
    · rename_i hrefuses hlist
      cases hdevices.symm.trans hlist
    · split at hfails
      · rename_i hrun
        cases congrArg Prod.fst hrun
      · cases hfails
      · have hfailed := writeThen_failed_iff.mp ⟨err, hfails⟩
        rw [(writePaired_worked_iff formats.codecs _).mpr ⟨Or.inr (hworks 0 (by decide)),
          fun n _ hn => hworks n hn⟩] at hfailed
        cases hfailed
  rcases pairedOp_devices I formats .markStaleAfterLocalIdentityRotation io dir with
    ⟨hsame, hfails | hnone⟩ | ⟨-, hlist⟩
  · exact hsucceeds hfails
  · -- nothing was active
    rw [hsame] at hmem
    change (if (devices formats dir).countP PairedOp.isActive > 0 then _ else none) = none at hnone
    split at hnone
    · cases hnone
    · rename_i hcount
      apply hcount
      exact List.countP_pos_iff.mpr ⟨device, hmem, by rw [PairedOp.isActive, hactive]; rfl⟩
  · rw [hlist] at hmem
    change device ∈ (if (devices formats dir).countP PairedOp.isActive > 0 then
      some ((devices formats dir).map stale) else none).getD (devices formats dir) at hmem
    split at hmem
    · obtain ⟨old, -, rfl⟩ := List.mem_map.mp hmem
      unfold stale at hactive
      split at hactive
      · cases hactive
      · rename_i hnot
        exact hnot hactive
    · rename_i hcount
      apply hcount
      exact List.countP_pos_iff.mpr ⟨device, hmem, by rw [PairedOp.isActive, hactive]; rfl⟩

/-! ## What a run keeps -/

/-- Where an `Active` record comes from. -/
def Accounted (I : Iroh Id) (formats : Formats Content) (tr : List (RotationStep host Content))
    (device : PairedDevice) : Prop :=
  Since (Pairs I (idKey I device)) (Rotates I formats) tr ∨
    Since (Slips I formats) (Marks I formats) tr

structure Attested (I : Iroh Id) (formats : Formats Content) (tr : List (RotationStep host Content))
    (s : State host Content) : Prop where
  text : ∀ content, s.dir.file .pairedDevices = some content → formats.paired.utf8 content = true
  tracked : ∃ history, Tracks I history (devices formats s.dir)
  running : ∀ identity ∈ s.running,
    named I formats s.dir = some (I.toLowercase identity.info.endpointId)
  active : ∀ device ∈ devices formats s.dir, device.pairingStatus = .active →
    Accounted I formats tr device

theorem Accounted.snoc (h : Accounted I formats tr device) (he : ¬ Rotates I formats e) :
    Accounted I formats (tr ++ [e]) device :=
  h.imp (fun hpaired => hpaired.snoc_keep he)
    (fun hslipped => hslipped.snoc_keep fun hmarks => he hmarks.1)

theorem Accounted.of_idKey {other : PairedDevice} (h : Accounted I formats tr device)
    (hkey : idKey I device = idKey I other) : Accounted I formats tr other := by
  rw [Accounted] at h ⊢
  rwa [← hkey]

theorem rotates_iff : Rotates I formats e ↔ ∃ old new, named I formats e.pre.dir = some old ∧
    named I formats e.post.dir = some new ∧ old ≠ new := by
  rw [Rotates]
  cases named I formats e.pre.dir <;> cases named I formats e.post.dir <;> simp

theorem not_rotates_of_named (h : named I formats e.post.dir = named I formats e.pre.dir) :
    ¬ Rotates I formats e := by
  rw [rotates_iff]
  rintro ⟨old, new, hold, hnew, hne⟩
  rw [h, hold] at hnew
  exact hne (Option.some.inj hnew)

theorem pairedOp_text (op : PairedOp) (io : OpIo Content)
    (h : ∀ content, dir.file .pairedDevices = some content → formats.paired.utf8 content = true) :
    ∀ content, (pairedOp I formats.codecs io dir op).2.file .pairedDevices = some content →
      formats.paired.utf8 content = true := by
  intro content hcontent
  rcases pairedOp_spec I formats.codecs io dir op with ⟨hsame, -⟩ | ⟨result, written, hwritten, -⟩
  · rw [hsame] at hcontent
    exact h content hcontent
  · rw [hwritten, writeThen_dir, writePaired_file formats written io.steps dir _ (by decide)] at hcontent
    split at hcontent
    · rw [← Option.some.inj hcontent]
      exact formats.paired.utf8_render written
    · exact h content hcontent

/-- What a launch does: nothing to the files, or it writes the identity, and then cannot list the
devices, or marks them if the id was another one. -/
theorem start_cases (I : Iroh Id) (formats : Formats Content) (host : Host) (io : LaunchIo Content)
    (htext : ∀ content, dir.file .pairedDevices = some content → formats.paired.utf8 content = true) :
    ((start I formats host io dir).1 = none ∧ ∀ name ≠ .deviceTmp,
        (start I formats host io dir).2.file name = dir.file name) ∨
      ∃ identity rotated mid, Written I formats io dir mid identity rotated ∧
        ((io.listed = false ∧ start I formats host io dir = (none, mid)) ∨
          start I formats host io dir = (if io.built then some identity else none,
            if rotated then
              (pairedOp I formats.codecs io.mark mid .markStaleAfterLocalIdentityRotation).2
            else mid)) := by
  have hspec := loadOrCreateIdentity_spec I formats host io dir
  rw [start]
  rcases hload : loadOrCreateIdentity I formats host io dir with ⟨loaded, mid⟩
  rw [hload] at hspec
  rcases hspec with ⟨hnone, hkept⟩ | ⟨identity, rotated, hsome, hwritten⟩
  · obtain rfl : loaded = none := hnone
    exact Or.inl ⟨rfl, hkept⟩
  · obtain rfl : loaded = some (identity, rotated) := hsome
    refine Or.inr ⟨identity, rotated, mid, hwritten, ?_⟩
    dsimp only
    cases hread : readPaired formats.paired ⟨io.listed, true, true⟩ (storeFiles mid) with
    | some list => exact Or.inr rfl
    | none =>
      refine Or.inl ⟨?_, rfl⟩
      rw [readPaired] at hread
      change (match mid.file .pairedDevices with
        | none => some []
        | some content => if io.listed && formats.paired.utf8 content then
            some ((formats.paired.parse content).getD []) else none) = none at hread
      cases hfile : mid.file .pairedDevices with
      | none =>
        rw [hfile] at hread
        cases hread
      | some content =>
        have hcontent : formats.paired.utf8 content = true :=
          htext content ((hwritten.others .pairedDevices (by decide) (by decide)).symm.trans hfile)
        rw [hfile] at hread
        dsimp only at hread
        rw [hcontent, Bool.and_true] at hread
        split at hread
        · cases hread
        · rename_i hnot
          exact Bool.eq_false_iff.mpr hnot

/-- What a step makes of records that it leaves. -/
theorem Attested.left (h : Attested I formats tr s) (hfile : s'.dir.file .pairedDevices =
      s.dir.file .pairedDevices)
    (hrunning : ∀ identity ∈ s'.running,
      named I formats s'.dir = some (I.toLowercase identity.info.endpointId))
    (hactive : ∀ device, Accounted I formats tr device → Accounted I formats (tr ++ [e]) device) :
    Attested I formats (tr ++ [e]) s' := by
  have hlist : devices formats s'.dir = devices formats s.dir := devices_congr hfile
  refine ⟨fun content hcontent => h.text content (hfile ▸ hcontent), ?_, hrunning, ?_⟩
  · rw [hlist]
    exact h.tracked
  · intro device hdevice hstatus
    rw [hlist] at hdevice
    exact hactive device (h.active device hdevice hstatus)

/-- Without a rotation the id stays. -/
theorem Written.not_rotates {mid : FileDir DataFile Content} {identity : DeviceIdentity host}
    {rotated : Bool} (h : Written I formats io e.pre.dir mid identity rotated)
    (hdevice : e.post.dir.file .device = mid.file .device) (hrotated : rotated = false) :
    ¬ Rotates I formats e := by
  rw [rotates_iff]
  rintro ⟨old, new, hold, hnew, hne⟩
  rw [named_congr hdevice, named_of_device h.device] at hnew
  exact hne ((h.rotated old hold hrotated).symm.trans (Option.some.inj hnew))

/-- A step that fails to mark the records accounts for those it leaves. -/
theorem Accounted.fails (h : Accounted I formats tr device) (hfails : Fails e) :
    Accounted I formats (tr ++ [e]) device := by
  by_cases hrotates : Rotates I formats e
  · exact Or.inr (Since.snoc_now ⟨hrotates, hfails⟩)
  · exact h.snoc hrotates

/-- A launch that writes another id and gets to marking the devices. -/
theorem Attested.mark {mid : FileDir DataFile Content} {identity : DeviceIdentity host}
    {rotated : Bool} (h : Attested I formats tr e.pre) (hact : e.act = .launch io)
    (hwritten : Written I formats io e.pre.dir mid identity rotated)
    (hpost : e.post = ⟨(pairedOp I formats.codecs io.mark mid
      .markStaleAfterLocalIdentityRotation).2, if io.built then some identity else none⟩) :
    Attested I formats (tr ++ [e]) e.post := by
  have hpaired := hwritten.others .pairedDevices (by decide) (by decide)
  have hlist : devices formats mid = devices formats e.pre.dir := devices_congr hpaired
  have htext : ∀ content, mid.file .pairedDevices = some content →
      formats.paired.utf8 content = true := fun content hcontent => h.text content (hpaired ▸ hcontent)
  obtain ⟨history, htracks⟩ := h.tracked
  rw [← hlist] at htracks
  have hdevices := pairedOp_devices I formats .markStaleAfterLocalIdentityRotation io.mark mid
  rw [hpost]
  refine ⟨pairedOp_text _ _ htext, ?_, fun started hstarted => ?_, fun device hmem hactive => ?_⟩
  · rcases hdevices with ⟨hsame, -⟩ | ⟨-, hrun⟩
    · rw [hsame]
      exact ⟨history, htracks⟩
    · rw [hrun]
      exact ⟨_, htracks.step⟩
  · dsimp only at hstarted
    split at hstarted
    · obtain rfl := Option.some.inj hstarted
      rw [named_congr (pairedOp_device _ _ _ _ _), named_of_device hwritten.device]
    · cases hstarted
  · by_cases hfails : Fails e
    · have hold : ∃ old ∈ devices formats mid, idKey I old = idKey I device ∧
          old.pairingStatus = .active := by
        rcases hdevices with ⟨hsame, -⟩ | ⟨-, hrun⟩
        · exact ⟨device, hsame ▸ hmem, rfl, hactive⟩
        · rw [hrun] at hmem
          exact (run_active htracks.keys hmem hactive).resolve_right fun ⟨_, hop, _⟩ => by cases hop
      obtain ⟨old, hmem, hkey, hstatus⟩ := hold
      rw [hlist] at hmem
      exact ((h.active old hmem hstatus).fails hfails).of_idKey hkey
    · -- the marking worked
      rw [Fails, hact] at hfails
      refine absurd hactive (marked_stale htext ?_ (fun n hn => ?_) hmem)
      · by_contra hnot
        exact hfails (Or.inr (Or.inl (Bool.eq_false_iff.mpr hnot)))
      · by_contra hnot
        exact hfails (Or.inr (Or.inr ⟨n, hn, hnot⟩))

theorem attested_launch (h : Attested I formats tr e.pre) (hact : e.act = .launch io)
    (hpost : e.post = ⟨(start I formats host io e.pre.dir).2,
      (start I formats host io e.pre.dir).1⟩) :
    Attested I formats (tr ++ [e]) e.post := by
  rcases start_cases I formats host io h.text with
    ⟨hnone, hkept⟩ | ⟨identity, rotated, mid, hwritten, hlater⟩
  · have hquiet : ¬ Rotates I formats e := by
      apply not_rotates_of_named
      rw [hpost]
      exact named_congr (hkept .device (by decide))
    rw [hpost]
    refine h.left (hkept .pairedDevices (by decide)) ?_ fun device hdevice => hdevice.snoc hquiet
    rw [hnone]
    exact fun identity hidentity => absurd hidentity (Option.not_mem_none identity)
  · have hpaired := hwritten.others .pairedDevices (by decide) (by decide)
    rcases hlater with ⟨hlisted, hstart⟩ | hstart
    · -- the devices cannot be listed
      rw [hstart] at hpost
      have hfails : Fails e := by
        rw [Fails, hact]
        exact Or.inl hlisted
      rw [hpost]
      refine h.left hpaired ?_ fun device hdevice => hdevice.fails hfails
      exact fun identity hidentity => absurd hidentity (Option.not_mem_none identity)
    · rw [hstart] at hpost
      cases rotated with
      | true => exact h.mark hact hwritten hpost
      | false =>
        have hquiet := hwritten.not_rotates (e := e) (by rw [hpost]; rfl) rfl
        rw [hpost]
        refine h.left hpaired (fun started hstarted => ?_) fun device hdevice => hdevice.snoc hquiet
        dsimp only at hstarted
        split at hstarted
        · obtain rfl := Option.some.inj hstarted
          exact named_of_device hwritten.device
        · cases hstarted

theorem attested_paired {op : PairedOp} {io : OpIo Content} (h : Attested I formats tr e.pre)
    (hact : e.act = .paired op io)
    (hpost : e.post = { e.pre with dir := (pairedOp I formats.codecs io e.pre.dir op).2 })
    (hout : e.out = [(pairedOp I formats.codecs io e.pre.dir op).1]) :
    Attested I formats (tr ++ [e]) e.post := by
  obtain ⟨history, htracks⟩ := h.tracked
  have hnamed : named I formats (pairedOp I formats.codecs io e.pre.dir op).2 =
      named I formats e.pre.dir := named_congr (pairedOp_device I formats op io e.pre.dir)
  have hquiet : ¬ Rotates I formats e := by
    apply not_rotates_of_named
    rw [hpost]
    exact hnamed
  rw [hpost]
  refine ⟨pairedOp_text _ _ h.text, ?_, fun identity hidentity => ?_, fun device hmem hactive => ?_⟩
  · rcases pairedOp_devices I formats op io e.pre.dir with ⟨hsame, -⟩ | ⟨-, hrun⟩
    · rw [hsame]
      exact ⟨history, htracks⟩
    · rw [hrun]
      exact ⟨_, htracks.step⟩
  · rw [hnamed]
    exact h.running identity hidentity
  · rcases pairedOp_devices I formats op io e.pre.dir with ⟨hsame, -⟩ | ⟨hresult, hrun⟩
    · rw [hsame] at hmem
      exact (h.active device hmem hactive).snoc hquiet
    · rw [hrun] at hmem
      rcases run_active htracks.keys hmem hactive with ⟨old, hold, hkey, hstatus⟩ | ⟨paired, rfl, hkey⟩
      · exact ((h.active old hold hstatus).snoc hquiet).of_idKey hkey
      · refine Or.inl (Since.snoc_now ?_)
        rw [Pairs, hact, hout, hresult]
        exact hkey

theorem attested_setDisplayName {name : String} {io : OpIo Content} {identity : DeviceIdentity host}
    (h : Attested I formats tr e.pre) (hrunning : e.pre.running = some identity)
    (hpost : e.post = ⟨(Stores.setDisplayName formats.codecs io ⟨identity, e.pre.dir⟩ name).2.dir,
      some (Stores.setDisplayName formats.codecs io ⟨identity, e.pre.dir⟩ name).2.identity⟩) :
    Attested I formats (tr ++ [e]) e.post := by
  have hid := h.running identity hrunning
  rw [Stores.setDisplayName] at hpost
  cases hname : normalizeDisplayName name with
  | error err =>
    rw [hname] at hpost
    have hquiet : ¬ Rotates I formats e := by
      apply not_rotates_of_named
      rw [hpost]
    rw [hpost]
    refine h.left rfl (fun running hrunning' => ?_) fun device hdevice => hdevice.snoc hquiet
    obtain rfl := Option.some.inj hrunning'
    exact hid
  | ok normalized =>
    rw [hname] at hpost
    dsimp only at hpost
    rw [writeThen_dir] at hpost
    have hfile := writeMeta_file formats (identity.named normalized).info io.steps e.pre.dir
    -- the name is another one, the id is not
    have hnamed : named I formats (runSteps io.steps
        (writeMeta formats.codecs (identity.named normalized).info) e.pre.dir).2 =
          named I formats e.pre.dir := by
      have hdevice := hfile .device (by decide)
      split at hdevice
      · rw [hid]
        exact (named_of_device hdevice).trans (by rw [DeviceIdentity.named_info])
      · exact named_congr hdevice
    have hquiet : ¬ Rotates I formats e := by
      apply not_rotates_of_named
      rw [hpost]
      exact hnamed
    rw [hpost]
    refine h.left ((hfile .pairedDevices (by decide)).trans (if_neg fun hboth =>
      absurd hboth.2 (by decide))) (fun running hrunning' => ?_) fun device hdevice =>
        hdevice.snoc hquiet
    obtain rfl := Option.some.inj hrunning'
    have hinfo : (identity.named normalized).info.endpointId = identity.info.endpointId := by
      rw [DeviceIdentity.named_info]
    exact hnamed.trans (hid.trans (by rw [hinfo]))

theorem attested_step {a : Act Content} {out : List Out} (h : Attested I formats tr s)
    (hstep : step I formats s a = some (s', out)) :
    Attested I formats (tr ++ [⟨s, a, s', out⟩]) s' := by
  cases a with
  | launch io =>
    obtain ⟨hpost, rfl⟩ := Prod.mk.inj (Option.some.inj hstep)
    exact attested_launch (e := ⟨s, _, s', _⟩) h rfl hpost.symm
  | paired op io =>
    obtain ⟨identity, -, heq⟩ := Option.map_eq_some_iff.mp hstep
    obtain ⟨hpost, rfl⟩ := Prod.mk.inj heq
    exact attested_paired (e := ⟨s, _, s', _⟩) h rfl hpost.symm rfl
  | setDisplayName name io =>
    obtain ⟨identity, hrunning, heq⟩ := Option.map_eq_some_iff.mp hstep
    obtain ⟨hpost, rfl⟩ := Prod.mk.inj heq
    exact attested_setDisplayName (e := ⟨s, _, s', _⟩) h hrunning hpost.symm

end

/-- In every run from an empty data directory, an `Active` device was paired since the id last changed,
or the devices were not marked at a change of the id since they last were. -/
theorem active_since_rotation (I : Iroh Id) (formats : Formats Content) (host : Host)
    (tr : List (RotationStep host Content)) (s : State host Content)
    (hrun : Run (machine I formats host) anyStep (initial host Content) tr s)
    (device : PairedDevice) (hdevice : device ∈ devices formats s.dir)
    (hactive : device.pairingStatus = .active) :
    Since (Pairs I (idKey I device)) (Rotates I formats) tr ∨
      Since (Slips I formats) (Marks I formats) tr := by
  have hattested : Attested I formats tr s := by
    refine hrun.invariant (I := Attested I formats) ?_ fun hI _ hs => attested_step hI hs
    refine ⟨fun content hcontent => ?_, ⟨[], ?_⟩, fun identity hidentity => ?_, fun device hdevice => ?_⟩
    · cases hcontent
    · refine ⟨List.nodup_nil, fun device hdevice => absurd hdevice List.not_mem_nil,
        fun key pairing hpairing => ?_, List.Pairwise.nil⟩
      cases hpairing
    · cases hidentity
    · cases hdevice
  exact hattested.active device hdevice hactive

/-! ## Two runs -/

inductive DemoFile
  | device (file : DeviceMetaFile)
  | devices (list : List PairedDevice)
  | history (file : HistoryFile)
  deriving DecidableEq, Repr

def demoFormats : Formats DemoFile where
  device :=
    { utf8 := fun _ => true
      parse := fun | .device file => some file | _ => none
      render := .device
      utf8_render := fun _ => rfl
      parse_render := fun file => ⟨file, rfl, rfl⟩ }
  paired :=
    { utf8 := fun _ => true
      parse := fun | .devices list => some list | _ => none
      render := .devices
      utf8_render := fun _ => rfl
      parse_render := fun list => ⟨list, rfl, rfl⟩ }
  history :=
    { utf8 := fun _ => true
      parse := fun | .history file => some file | _ => none
      render := .history
      utf8_render := fun _ => rfl
      parse_render := fun file => ⟨file, rfl, rfl⟩ }

def demoHost : Host := ⟨"linux", "laptop", "Desk"⟩

def worksIo : OpIo DemoFile := ⟨true, .works, fun _ => .works⟩

def demoLaunch (key : Key) (listed : Bool) : Act DemoFile :=
  .launch ⟨.works, some key.hex, 0, true, fun _ => .works, listed, worksIo, true⟩

def demoPairing : Act DemoFile :=
  .paired (.remember ⟨Key.bob.hex, "Bob", "phone", "ios", 0, 0, none, .active, false⟩) worksIo

instance (e : RotationStep demoHost DemoFile) : Decidable (Rotates Key.iroh demoFormats e) := by
  unfold Rotates
  split
  all_goals infer_instance

instance (key : String) (e : RotationStep demoHost DemoFile) : Decidable (Pairs Key.iroh key e) := by
  unfold Pairs
  split
  all_goals infer_instance

/-- The theorem applies to a device that is paired again after the id has changed. -/
theorem active_since_rotation_pairedAgain :
    ∃ tr s, Run (machine Key.iroh demoFormats demoHost) anyStep (initial demoHost DemoFile) tr s ∧
      (∃ e ∈ tr, Rotates Key.iroh demoFormats e) ∧
      ∃ device ∈ devices demoFormats s.dir, device.pairingStatus = .active ∧
        (Since (Pairs Key.iroh (idKey Key.iroh device)) (Rotates Key.iroh demoFormats) tr ∨
          Since (Slips Key.iroh demoFormats) (Marks Key.iroh demoFormats) tr) := by
  obtain ⟨tr, s, hrun, htest⟩ := Run.of_check (machine Key.iroh demoFormats demoHost) anyStep
    (initial demoHost DemoFile)
    [demoLaunch .alice true, demoPairing, demoLaunch .carol true, demoPairing]
    (fun tr s => decide ((∃ e ∈ tr, Rotates Key.iroh demoFormats e) ∧
      ∃ device ∈ devices demoFormats s.dir, device.pairingStatus = .active)) (by decide +kernel)
  obtain ⟨hrotates, device, hdevice, hactive⟩ := of_decide_eq_true htest
  exact ⟨tr, s, hrun, hrotates, device, hdevice, hactive,
    active_since_rotation Key.iroh demoFormats demoHost tr s hrun device hdevice hactive⟩

/-- A launch ends between the id and the devices. The next one finds the new id, and a device that was
paired with the old one is still `Active`. -/
theorem mark_lost :
    ∃ tr s, Run (machine Key.iroh demoFormats demoHost) anyStep (initial demoHost DemoFile) tr s ∧
      s.running.isSome = true ∧ ∃ device ∈ devices demoFormats s.dir,
        device.pairingStatus = .active ∧
          ¬ Since (Pairs Key.iroh (idKey Key.iroh device)) (Rotates Key.iroh demoFormats) tr := by
  obtain ⟨tr, s, hrun, htest⟩ := Run.of_check (machine Key.iroh demoFormats demoHost) anyStep
    (initial demoHost DemoFile)
    [demoLaunch .alice true, demoPairing, demoLaunch .carol false, demoLaunch .carol true]
    (fun tr s => decide (s.running.isSome = true ∧ ∃ device ∈ devices demoFormats s.dir,
      device.pairingStatus = .active ∧
        ¬ Since (Pairs Key.iroh (idKey Key.iroh device)) (Rotates Key.iroh demoFormats) tr))
    (by decide +kernel)
  exact ⟨tr, s, hrun, of_decide_eq_true htest⟩

end IdentityRotation

end DashBeam.Native
