import DashBeam.Lib.Machine
import DashBeam.Lib.Trim
import DashBeam.Lib.Unicode
import DashBeam.Native.PairedDeviceStore
import DashBeam.Protocol.Keys

/-!
# The paired-device store over runs

All seven writing operations of `PairedDeviceStore` on the records of its file. Each of them is, as
long as no two records share an id up to case, a filter and a map over the records with perhaps one
more record at the end (`run_list`), so that what a run leaves of a pairing can be followed id by id:
`pairingOf` is the pairing of an id after a history of operations, with the step that made it, the
spelling it was made under and whether it is trusted.
-/

namespace DashBeam.Native

open Lib Protocol StoreFile

/-! ### Names -/

def trim (s : String) : String := String.ofList (trimEnds isWhitespace s.toList)

def maxDisplayNameChars : Nat := 64

def normalizeDisplayName (name : String) : Except String String :=
  if (trim name).toList.isEmpty then .error "Device name cannot be empty"
  else if (trim name).toList.length > maxDisplayNameChars then
    .error ("Device name must be at most " ++ toString maxDisplayNameChars ++ " characters")
  else .ok (trim name)

/-! ### Operations -/

inductive PairedOp
  | remember (device : PairedDevice)
  | rename (endpointId displayName : String)
  | trustPairedDevice (endpointId : String) (trust : Bool)
  | forget (endpointId : String)
  | touch (endpointId : String) (lastSeenAt : Nat)
  | markUnpairedRemotely (endpointId : String)
  | markStaleAfterLocalIdentityRotation
  deriving DecidableEq, Repr

/-- What an operation returns. -/
inductive PairedResult
  | saved (device : Except String PairedDevice)
  | done
  | marked (device : Option PairedDevice)
  | updated (devices : Nat)
  deriving DecidableEq, Repr

namespace PairedOp

variable {Id : Type} (I : Iroh Id)

/-- `find` and change one record: the record as changed, and the list to write. -/
def change (list : List PairedDevice) (endpointId : String) (f : PairedDevice → PairedDevice) :
    Option (PairedDevice × List PairedDevice) :=
  (list.find? (sameId I endpointId)).map fun existing =>
    (f existing, updateFirst (sameId I endpointId) f list)

def setDisplayName (name : String) (device : PairedDevice) : PairedDevice :=
  { device with displayName := name }

def setTrusted (trust : Bool) (device : PairedDevice) : PairedDevice :=
  { device with trusted := trust }

def setLastSeenAt (lastSeenAt : Nat) (device : PairedDevice) : PairedDevice :=
  { device with lastSeenAt := lastSeenAt }

def notFound : PairedResult := .saved (.error "paired device not found")

def isActive (device : PairedDevice) : Bool := device.pairingStatus == .active

/-- What an operation makes of the records it read: its result, and the records it writes if it
writes. -/
def run (list : List PairedDevice) : PairedOp → PairedResult × Option (List PairedDevice)
  | .remember device => (.saved (.ok (saved I list device)), some (remembered I list device))
  | .rename endpointId displayName =>
    match normalizeDisplayName displayName with
    | .error err => (.saved (.error err), none)
    | .ok normalized =>
      match change I list endpointId (setDisplayName normalized) with
      | none => (notFound, none)
      | some (device, list) => (.saved (.ok device), some list)
  | .trustPairedDevice endpointId trust =>
    match change I list endpointId (setTrusted trust) with
    | none => (notFound, none)
    | some (device, list) => (.saved (.ok device), some list)
  | .forget endpointId => (.done, some (list.filter fun d => !sameId I endpointId d))
  | .touch endpointId lastSeenAt =>
    (.done, (change I list endpointId (setLastSeenAt lastSeenAt)).map Prod.snd)
  | .markUnpairedRemotely endpointId =>
    (.marked ((change I list endpointId unpaired).map Prod.fst),
      (change I list endpointId unpaired).map Prod.snd)
  | .markStaleAfterLocalIdentityRotation =>
    (.updated (list.countP isActive), if list.countP isActive > 0 then some (list.map stale) else none)

/-- The id an operation on one device is about. -/
def target : PairedOp → Option String
  | .remember device => some device.endpointId
  | .rename endpointId _ => some endpointId
  | .trustPairedDevice endpointId _ => some endpointId
  | .forget endpointId => some endpointId
  | .touch endpointId _ => some endpointId
  | .markUnpairedRemotely endpointId => some endpointId
  | .markStaleAfterLocalIdentityRotation => none

end PairedOp

/-- The store when its file operations work. -/
def pairedMachine {Id : Type} (I : Iroh Id) : Machine (List PairedDevice) PairedOp PairedResult where
  step list op := some ((op.run I list).2.getD list, [(op.run I list).1])

/-! ### The operations on the file -/

section File

variable {Id : Type} (I : Iroh Id) (file : StoreFile) (io : Io)

/-- An operation on what stands at the store's path: read, change, and write if there is something
to write. -/
def StoreFile.run (op : PairedOp) : StoreFile :=
  match file.readFile io with
  | none => file
  | some list =>
    match (op.run I list).2 with
    | none => file
    | some written => if io.write then .devices written else file

theorem remember_run (device : PairedDevice) :
    (file.remember I io device).2 = file.run I io (.remember device) := by
  unfold StoreFile.remember StoreFile.run
  cases file.readFile io with
  | none => rfl
  | some list => cases hwrite : io.write <;> rfl

theorem forget_run (endpointId : String) :
    (file.forget I io endpointId).2 = file.run I io (.forget endpointId) := by
  unfold StoreFile.forget StoreFile.run
  cases file.readFile io with
  | none => rfl
  | some list => cases hwrite : io.write <;> rfl

theorem touch_run (endpointId : String) (lastSeenAt : Nat) :
    file.touch I io endpointId lastSeenAt = file.run I io (.touch endpointId lastSeenAt) := by
  unfold StoreFile.touch StoreFile.run
  cases file.readFile io with
  | none => rfl
  | some list =>
    cases hfound : list.find? (sameId I endpointId) with
    | none => simp [PairedOp.run, PairedOp.change, hfound]
    | some existing =>
      simp only [PairedOp.run, PairedOp.change, hfound, Option.isSome_some, Bool.true_and]
      rfl

theorem markUnpairedRemotely_run (endpointId : String) :
    (file.markUnpairedRemotely I io endpointId).2 =
      file.run I io (.markUnpairedRemotely endpointId) := by
  unfold StoreFile.markUnpairedRemotely StoreFile.run
  cases file.readFile io with
  | none => rfl
  | some list =>
    cases hfound : list.find? (sameId I endpointId) with
    | none => simp [PairedOp.run, PairedOp.change, hfound]
    | some existing => cases hwrite : io.write <;> simp [PairedOp.run, PairedOp.change, hfound]

theorem markStale_run :
    file.markStaleAfterLocalIdentityRotation io =
      file.run I io .markStaleAfterLocalIdentityRotation := by
  unfold StoreFile.markStaleAfterLocalIdentityRotation StoreFile.run
  cases file.readFile io with
  | none => rfl
  | some list =>
    have hany : (list.any fun d => decide (d.pairingStatus = .active)) =
        decide (list.countP PairedOp.isActive > 0) := by
      rw [Bool.eq_iff_iff, decide_eq_true_iff, gt_iff_lt, List.countP_pos_iff, List.any_eq_true]
      simp [PairedOp.isActive]
    simp only [PairedOp.run]
    rw [hany]
    by_cases hactive : list.countP PairedOp.isActive > 0
    · simp [hactive]
    · simp [hactive]

end File

/-! ### The pairing of an id -/

section Pairing

variable {Id : Type} (I : Iroh Id)

/-- The id of a record, up to case. -/
def idKey (device : PairedDevice) : String := I.toLowercase device.endpointId

/-- A pairing: the step that made it, the spelling of the id there, and whether it is trusted. -/
structure Pairing where
  step : Nat
  spelling : String
  trusted : Bool
  deriving DecidableEq, Repr

/-- What an operation, the `n`-th, does to the pairing of an id. -/
def pairingStep (key : String) (n : Nat) (pairing : Option Pairing) : PairedOp → Option Pairing
  | .remember device =>
    if I.toLowercase device.endpointId = key then
      some (pairing.getD ⟨n, device.endpointId, device.trusted⟩)
    else pairing
  | .trustPairedDevice endpointId trust =>
    if I.toLowercase endpointId = key then pairing.map fun p => { p with trusted := trust }
    else pairing
  | .forget endpointId => if I.toLowercase endpointId = key then none else pairing
  | _ => pairing

/-- The pairing of an id after a history of operations, newest first. -/
def pairingOf (key : String) : List PairedOp → Option Pairing
  | [] => none
  | op :: earlier => pairingStep I key earlier.length (pairingOf key earlier) op

/-- The step that made the pairing of an id. -/
def pairedStep (key : String) (history : List PairedOp) : Nat :=
  ((pairingOf I key history).map Pairing.step).getD 0

end Pairing

/-! ### An operation as a filter and a map -/

section Operations

variable {Id : Type} (I : Iroh Id)

namespace PairedOp

def removes (device : PairedDevice) : PairedOp → Bool
  | .forget endpointId => sameId I endpointId device
  | _ => false

/-- A record of this id after `f`; another one as it is. -/
def onlyId (endpointId : String) (f : PairedDevice → PairedDevice) (device : PairedDevice) :
    PairedDevice :=
  if sameId I endpointId device then f device else device

/-- What the operation makes of a record that it does not remove. -/
def amend : PairedOp → PairedDevice → PairedDevice
  | .remember device => onlyId I device.endpointId (merged · device)
  | .rename endpointId displayName =>
    match normalizeDisplayName displayName with
    | .error _ => id
    | .ok normalized => onlyId I endpointId (setDisplayName normalized)
  | .trustPairedDevice endpointId trust => onlyId I endpointId (setTrusted trust)
  | .touch endpointId lastSeenAt => onlyId I endpointId (setLastSeenAt lastSeenAt)
  | .markUnpairedRemotely endpointId => onlyId I endpointId unpaired
  | .markStaleAfterLocalIdentityRotation => stale
  | .forget _ => id

/-- The record the operation adds. -/
def added (list : List PairedDevice) : PairedOp → Option PairedDevice
  | .remember device =>
    if (list.find? (sameId I device.endpointId)).isNone then some device else none
  | _ => none

end PairedOp

variable {I} {list : List PairedDevice}

theorem sameId_iff {endpointId : String} {device : PairedDevice} :
    sameId I endpointId device = true ↔ idKey I device = I.toLowercase endpointId := by
  rw [sameId, beq_iff_eq, idKey]

/-- A field that a change of one record keeps. -/
theorem onlyId_kept {β : Type} (g : PairedDevice → β) (f : PairedDevice → PairedDevice)
    (hf : ∀ d, g (f d) = g d) (endpointId : String) (device : PairedDevice) :
    g (PairedOp.onlyId I endpointId f device) = g device := by
  unfold PairedOp.onlyId
  split
  · exact hf device
  · rfl

/-- Only `trust_paired_device` changes whether a record is trusted, and no operation changes its
spelling. -/
theorem amend_kept (op : PairedOp) (device : PairedDevice) :
    (op.amend I device).endpointId = device.endpointId ∧
      (op.amend I device).trusted =
        match op with
        | .trustPairedDevice endpointId trust =>
          if I.toLowercase endpointId = idKey I device then trust else device.trusted
        | _ => device.trusted := by
  have hboth : ∀ (f : PairedDevice → PairedDevice)
      (_ : ∀ d, ((f d).endpointId, (f d).trusted) = (d.endpointId, d.trusted)) (endpointId : String),
      (PairedOp.onlyId I endpointId f device).endpointId = device.endpointId ∧
        (PairedOp.onlyId I endpointId f device).trusted = device.trusted := by
    intro f hf endpointId
    have hkept := onlyId_kept (fun d => (d.endpointId, d.trusted)) f hf endpointId device (I := I)
    exact Prod.mk.inj hkept
  cases op with
  | remember device' => exact hboth (merged · device') (fun _ => rfl) device'.endpointId
  | rename endpointId displayName =>
    cases hname : normalizeDisplayName displayName with
    | error err => simp [PairedOp.amend, hname]
    | ok normalized =>
      simp only [PairedOp.amend, hname]
      exact hboth (PairedOp.setDisplayName normalized) (fun _ => rfl) endpointId
  | trustPairedDevice endpointId trust =>
    refine ⟨onlyId_kept (·.endpointId) (PairedOp.setTrusted trust) (fun _ => rfl) endpointId device,
      ?_⟩
    by_cases hsame : I.toLowercase endpointId = idKey I device
    · simp only [PairedOp.amend, PairedOp.onlyId, sameId_iff.mpr hsame.symm, if_pos hsame]
      rfl
    · simp only [PairedOp.amend, PairedOp.onlyId, if_neg hsame]
      rw [if_neg (fun h => hsame (sameId_iff.mp h).symm)]
  | forget endpointId => exact ⟨rfl, rfl⟩
  | touch endpointId lastSeenAt =>
    exact hboth (PairedOp.setLastSeenAt lastSeenAt) (fun _ => rfl) endpointId
  | markUnpairedRemotely endpointId => exact hboth unpaired (fun _ => rfl) endpointId
  | markStaleAfterLocalIdentityRotation =>
    change (stale device).endpointId = _ ∧ (stale device).trusted = _
    unfold stale
    split <;> exact ⟨rfl, rfl⟩

@[simp]
theorem amend_idKey (op : PairedOp) (device : PairedDevice) :
    idKey I (op.amend I device) = idKey I device := by
  rw [idKey, (amend_kept op device).1, idKey]

/-- Records with different ids are not found together. -/
theorem pairwise_sameId (h : (list.map (idKey I)).Nodup) (endpointId : String) :
    list.Pairwise fun a b => ¬ (sameId I endpointId a = true ∧ sameId I endpointId b = true) := by
  refine (List.pairwise_map.mp h).imp fun hne hboth => hne ?_
  rw [sameId_iff.mp hboth.1, sameId_iff.mp hboth.2]

theorem change_list (h : (list.map (idKey I)).Nodup) (endpointId : String)
    (f : PairedDevice → PairedDevice) :
    ((PairedOp.change I list endpointId f).map Prod.snd).getD list =
      list.map (PairedOp.onlyId I endpointId f) := by
  have hmap : updateFirst (sameId I endpointId) f list =
      list.map (PairedOp.onlyId I endpointId f) := updateFirst_eq_map (pairwise_sameId h endpointId)
  rw [← hmap]
  cases hfound : list.find? (sameId I endpointId) with
  | none => simp [PairedOp.change, hfound, updateFirst_of_none hfound]
  | some existing => simp [PairedOp.change, hfound]

theorem remembered_eq (h : (list.map (idKey I)).Nodup) (device : PairedDevice) :
    remembered I list device =
      list.map (PairedOp.onlyId I device.endpointId (merged · device)) ++
        (PairedOp.added I list (.remember device)).toList := by
  unfold remembered
  cases hfound : list.find? (sameId I device.endpointId) with
  | none =>
    have hsame : list.map (PairedOp.onlyId I device.endpointId (merged · device)) = list := by
      have hnone := List.find?_eq_none.mp hfound
      calc list.map (PairedOp.onlyId I device.endpointId (merged · device))
          = list.map id := List.map_congr_left fun d hd => if_neg (hnone d hd)
        _ = list := List.map_id list
    rw [hsame]
    simp [PairedOp.added, hfound]
  | some existing =>
    have hmap : updateFirst (sameId I device.endpointId) (merged · device) list =
        list.map (PairedOp.onlyId I device.endpointId (merged · device)) :=
      updateFirst_eq_map (pairwise_sameId h device.endpointId)
    simp [PairedOp.added, hfound, hmap]

/-- The records after an operation: those it does not remove, changed in place, and the one it
adds. -/
theorem run_list (op : PairedOp) (h : (list.map (idKey I)).Nodup) :
    (op.run I list).2.getD list =
      (list.filter fun d => !op.removes I d).map (op.amend I) ++ (op.added I list).toList := by
  have hall : list.filter (fun _ => !false) = list := by simp
  cases op with
  | remember device =>
    change remembered I list device = (list.filter fun _ => !false).map _ ++ _
    rw [hall]
    exact remembered_eq h device
  | rename endpointId displayName =>
    change _ = (list.filter fun _ => !false).map _ ++ []
    rw [hall, List.append_nil]
    cases hname : normalizeDisplayName displayName with
    | error err => simp [PairedOp.run, PairedOp.amend, hname]
    | ok normalized =>
      have hchange := change_list h endpointId (PairedOp.setDisplayName normalized)
      simp only [PairedOp.amend, hname]
      rw [← hchange]
      simp only [PairedOp.run, hname]
      cases PairedOp.change I list endpointId (PairedOp.setDisplayName normalized) <;> rfl
  | trustPairedDevice endpointId trust =>
    have hchange := change_list h endpointId (PairedOp.setTrusted trust)
    change _ = (list.filter fun _ => !false).map _ ++ []
    rw [hall, List.append_nil]
    refine Eq.trans ?_ hchange
    simp only [PairedOp.run]
    cases PairedOp.change I list endpointId (PairedOp.setTrusted trust) <;> rfl
  | forget endpointId =>
    change _ = (list.filter fun d => !sameId I endpointId d).map id ++ []
    rw [List.map_id, List.append_nil]
    rfl
  | touch endpointId lastSeenAt =>
    change _ = (list.filter fun _ => !false).map _ ++ []
    rw [hall, List.append_nil]
    exact change_list h endpointId (PairedOp.setLastSeenAt lastSeenAt)
  | markUnpairedRemotely endpointId =>
    change _ = (list.filter fun _ => !false).map _ ++ []
    rw [hall, List.append_nil]
    exact change_list h endpointId unpaired
  | markStaleAfterLocalIdentityRotation =>
    change _ = (list.filter fun _ => !false).map stale ++ []
    rw [hall, List.append_nil]
    simp only [PairedOp.run]
    split
    · rfl
    · rename_i hnone
      have hactive : ∀ d ∈ list, PairedOp.isActive d = false := by
        have hzero : list.countP PairedOp.isActive = 0 := by omega
        simpa using List.countP_eq_zero.mp hzero
      have hsame : list.map stale = list.map id :=
        List.map_congr_left fun d hd => if_neg (by simpa [PairedOp.isActive] using hactive d hd)
      rw [hsame, List.map_id]
      rfl

theorem added_fresh {op : PairedOp} {device : PairedDevice} (h : op.added I list = some device) :
    op = .remember device ∧ ∀ d ∈ list, idKey I d ≠ idKey I device := by
  cases op with
  | remember device' =>
    simp only [PairedOp.added] at h
    split at h
    · rename_i hnone
      cases h
      refine ⟨rfl, fun d hd heq => ?_⟩
      rw [Option.isNone_iff_eq_none, List.find?_eq_none] at hnone
      exact hnone d hd (sameId_iff.mpr heq)
    · cases h
  | _ => cases h

end Operations

/-! ### What a run leaves of the pairings -/

/-- The records are the pairings of the history, in the order in which they were made. -/
structure Tracks {Id : Type} (I : Iroh Id) (history : List PairedOp) (list : List PairedDevice) :
    Prop where
  keys : (list.map (idKey I)).Nodup
  known : ∀ device ∈ list, ∃ pairing, pairingOf I (idKey I device) history = some pairing ∧
    pairing.spelling = device.endpointId ∧ pairing.trusted = device.trusted
  listed : ∀ key pairing, pairingOf I key history = some pairing →
    pairing.step < history.length ∧ ∃ device ∈ list, idKey I device = key
  order : list.Pairwise fun a b =>
    pairedStep I (idKey I a) history < pairedStep I (idKey I b) history

section Tracks

variable {Id : Type} {I : Iroh Id} {history : List PairedOp} {list : List PairedDevice}
  {op : PairedOp} {device : PairedDevice}

theorem Tracks.unpaired_of_absent (h : Tracks I history list) {key : String}
    (habsent : ∀ d ∈ list, idKey I d ≠ key) : pairingOf I key history = none := by
  by_contra hsome
  obtain ⟨pairing, hpairing⟩ := Option.ne_none_iff_exists'.mp hsome
  obtain ⟨-, d, hd, hkey⟩ := h.listed key pairing hpairing
  exact habsent d hd hkey

theorem pairingOf_kept {pairing : Pairing}
    (hpairing : pairingOf I (idKey I device) history = some pairing)
    (htrusted : pairing.trusted = device.trusted) (hkept : op.removes I device = false) :
    pairingOf I (idKey I device) (op :: history) =
      some { pairing with trusted := (op.amend I device).trusted } := by
  rw [pairingOf, hpairing, (amend_kept op device).2]
  cases op with
  | remember device' =>
    simp only [pairingStep, ← htrusted]
    split <;> rfl
  | trustPairedDevice endpointId trust =>
    simp only [pairingStep, ← htrusted]
    split <;> rfl
  | forget endpointId =>
    have hother : ¬ I.toLowercase endpointId = idKey I device := by
      intro heq
      rw [PairedOp.removes, sameId_iff.mpr heq.symm] at hkept
      cases hkept
    simp only [pairingStep, ← htrusted, if_neg hother]
  | rename endpointId displayName => simp only [pairingStep, ← htrusted]
  | touch endpointId lastSeenAt => simp only [pairingStep, ← htrusted]
  | markUnpairedRemotely endpointId => simp only [pairingStep, ← htrusted]
  | markStaleAfterLocalIdentityRotation => simp only [pairingStep, ← htrusted]

theorem pairingOf_added (h : Tracks I history list) (hadded : op.added I list = some device) :
    pairingOf I (idKey I device) (op :: history) =
      some ⟨history.length, device.endpointId, device.trusted⟩ := by
  obtain ⟨rfl, habsent⟩ := added_fresh hadded
  rw [pairingOf, h.unpaired_of_absent habsent]
  exact if_pos rfl

/-- Where a pairing comes from: it was there and its record stays, or it is made. -/
theorem pairingStep_some {key : String} {n : Nat} {before : Option Pairing} {pairing : Pairing}
    (h : pairingStep I key n before op = some pairing) :
    (∃ old, before = some old ∧ pairing.step = old.step ∧
      ∀ device, idKey I device = key → op.removes I device = false) ∨
    before = none ∧ pairing.step = n ∧ ∃ device, op = .remember device ∧ idKey I device = key := by
  cases op with
  | remember device =>
    simp only [pairingStep] at h
    split at h
    · rename_i hkey
      cases before with
      | none =>
        cases h
        exact .inr ⟨rfl, rfl, device, rfl, hkey⟩
      | some old =>
        cases h
        exact .inl ⟨old, rfl, rfl, fun _ _ => rfl⟩
    · exact .inl ⟨pairing, h, rfl, fun _ _ => rfl⟩
  | trustPairedDevice endpointId trust =>
    simp only [pairingStep] at h
    split at h
    · obtain ⟨old, hold, rfl⟩ := Option.map_eq_some_iff.mp h
      exact .inl ⟨old, hold, rfl, fun _ _ => rfl⟩
    · exact .inl ⟨pairing, h, rfl, fun _ _ => rfl⟩
  | forget endpointId =>
    simp only [pairingStep] at h
    split at h
    · cases h
    · rename_i hother
      refine .inl ⟨pairing, h, rfl, fun device hkey => ?_⟩
      by_contra hremoved
      rw [Bool.not_eq_false] at hremoved
      exact hother ((sameId_iff.mp hremoved).symm.trans hkey)
  | _ => exact .inl ⟨pairing, h, rfl, fun _ _ => rfl⟩

theorem Tracks.step (h : Tracks I history list) :
    Tracks I (op :: history) ((op.run I list).2.getD list) := by
  rw [run_list op h.keys]
  have hstays : ∀ device ∈ list.filter (fun d => !op.removes I d),
      device ∈ list ∧ op.removes I device = false := by
    intro device hdevice
    obtain ⟨hmem, hkept⟩ := List.mem_filter.mp hdevice
    exact ⟨hmem, by simpa using hkept⟩
  have hstep : ∀ device ∈ list.filter (fun d => !op.removes I d),
      pairedStep I (idKey I device) (op :: history) = pairedStep I (idKey I device) history ∧
        pairedStep I (idKey I device) history < history.length := by
    intro device hdevice
    obtain ⟨hmem, hkept⟩ := hstays device hdevice
    obtain ⟨pairing, hpairing, -, htrusted⟩ := h.known device hmem
    rw [pairedStep, pairedStep, pairingOf_kept hpairing htrusted hkept, hpairing]
    exact ⟨rfl, (h.listed _ _ hpairing).1⟩
  constructor
  · have hids : ((list.filter fun d => !op.removes I d).map (op.amend I)).map (idKey I) =
        (list.filter fun d => !op.removes I d).map (idKey I) := by
      rw [List.map_map]
      exact List.map_congr_left fun d _ => amend_idKey op d
    rw [List.map_append, hids]
    refine List.nodup_append.mpr ⟨h.keys.sublist (List.filter_sublist.map _), ?_, ?_⟩
    · cases op.added I list <;> simp
    · intro key hkey key' hadded heq
      obtain ⟨old, hold, rfl⟩ := List.mem_map.mp hkey
      obtain ⟨device, hdevice, rfl⟩ := List.mem_map.mp hadded
      exact (added_fresh (Option.mem_toList.mp hdevice)).2 old (hstays old hold).1 heq
  · intro device hdevice
    rcases List.mem_append.mp hdevice with hdevice | hdevice
    · obtain ⟨old, hold, rfl⟩ := List.mem_map.mp hdevice
      obtain ⟨hmem, hkept⟩ := hstays old hold
      obtain ⟨pairing, hpairing, hspelling, htrusted⟩ := h.known old hmem
      refine ⟨{ pairing with trusted := (op.amend I old).trusted }, ?_, ?_, rfl⟩
      · rw [amend_idKey]
        exact pairingOf_kept hpairing htrusted hkept
      · exact hspelling.trans (amend_kept op old).1.symm
    · exact ⟨_, pairingOf_added h (Option.mem_toList.mp hdevice), rfl, rfl⟩
  · intro key pairing hpairing
    rw [pairingOf] at hpairing
    rcases pairingStep_some hpairing with ⟨old, hold, hnum, hkept⟩ | ⟨hnone, hnum, device, rfl, hkey⟩
    · obtain ⟨hlt, device, hdevice, hkey⟩ := h.listed key old hold
      refine ⟨by rw [hnum, List.length_cons]; omega, op.amend I device, ?_, ?_⟩
      · refine List.mem_append_left _ (List.mem_map_of_mem (List.mem_filter.mpr ⟨hdevice, ?_⟩))
        rw [hkept device hkey]
        rfl
      · rw [amend_idKey]
        exact hkey
    · refine ⟨by rw [hnum, List.length_cons]; omega, device, ?_, hkey⟩
      refine List.mem_append_right _ (Option.mem_toList.mpr (if_pos ?_))
      rw [Option.isNone_iff_eq_none, List.find?_eq_none]
      intro d hd hsame
      obtain ⟨pairing, hpairing, -⟩ := h.known d hd
      rw [sameId_iff.mp hsame, ← idKey, hkey, hnone] at hpairing
      cases hpairing
  · refine List.pairwise_append.mpr ⟨?_, ?_, ?_⟩
    · refine List.pairwise_map.mpr (List.Pairwise.imp_of_mem ?_ (h.order.sublist List.filter_sublist))
      intro a b ha hb hlt
      rw [amend_idKey, amend_idKey, (hstep a ha).1, (hstep b hb).1]
      exact hlt
    · cases op.added I list <;> simp
    · intro a ha device hdevice
      obtain ⟨old, hold, rfl⟩ := List.mem_map.mp ha
      have hnew : pairedStep I (idKey I device) (op :: history) = history.length := by
        rw [pairedStep, pairingOf_added h (Option.mem_toList.mp hdevice)]
        rfl
      rw [amend_idKey, hnew, (hstep old hold).1]
      exact (hstep old hold).2

theorem tracks_run {tr : List (Entry (List PairedDevice) PairedOp PairedResult)}
    (hrun : Run (pairedMachine I) anyStep [] tr list) :
    Tracks I (tr.map Entry.act).reverse list := by
  refine hrun.invariant (I := fun tr list => Tracks I (tr.map Entry.act).reverse list) ?_ ?_
  · exact ⟨List.nodup_nil, fun _ hmem => (nomatch hmem), fun _ _ h => (nomatch h), List.Pairwise.nil⟩
  · intro tr list list' op out hprev _ hstep
    rw [pairedMachine, Option.some.injEq, Prod.mk.injEq] at hstep
    obtain ⟨rfl, -⟩ := hstep
    rw [List.map_append, List.reverse_append]
    exact hprev.step

end Tracks

/-! ### What one operation leaves alone -/

section Step

variable {Id : Type} {I : Iroh Id} {list : List PairedDevice} {op : PairedOp} {endpointId : String}

/-- An operation on one device does not touch the record of another one. -/
theorem amend_other (h : op.target = some endpointId) {device : PairedDevice}
    (hother : sameId I endpointId device = false) :
    op.amend I device = device ∧ op.removes I device = false := by
  have honly : ∀ f, PairedOp.onlyId I endpointId f device = device := fun f => by
    rw [PairedOp.onlyId, hother]
    rfl
  cases op with
  | remember device' =>
    cases h
    exact ⟨honly (merged · device'), rfl⟩
  | rename id displayName =>
    cases h
    refine ⟨?_, rfl⟩
    cases hname : normalizeDisplayName displayName with
    | error err => simp [PairedOp.amend, hname]
    | ok normalized =>
      simp only [PairedOp.amend, hname]
      exact honly _
  | forget id =>
    cases h
    exact ⟨rfl, hother⟩
  | markStaleAfterLocalIdentityRotation => cases h
  | _ =>
    cases h
    exact ⟨honly _, rfl⟩

theorem others_unchanged (hkeys : (list.map (idKey I)).Nodup) (h : op.target = some endpointId) :
    ((op.run I list).2.getD list).filter (fun d => !sameId I endpointId d) =
      list.filter fun d => !sameId I endpointId d := by
  have hadded : (op.added I list).toList.filter (fun d => !sameId I endpointId d) = [] := by
    rw [List.filter_eq_nil_iff]
    intro device hdevice
    obtain ⟨rfl, -⟩ := added_fresh (Option.mem_toList.mp hdevice)
    cases h
    simp [sameId]
  have hsame : ∀ d, sameId I endpointId (op.amend I d) = sameId I endpointId d := by
    intro d
    rw [sameId, sameId, (amend_kept op d).1]
  rw [run_list op hkeys, List.filter_append, hadded, List.append_nil, List.filter_map,
    List.filter_filter]
  have hkept : (list.filter fun d => ((fun d => !sameId I endpointId d) ∘ op.amend I) d &&
      !op.removes I d) = list.filter fun d => !sameId I endpointId d := by
    refine List.filter_congr fun d _ => ?_
    rw [Function.comp_apply, hsame]
    cases hother : sameId I endpointId d with
    | true => rfl
    | false => rw [(amend_other h hother).2]; rfl
  rw [hkept]
  refine (List.map_congr_left fun d hd => ?_).trans (List.map_id _)
  have hother := (List.mem_filter.mp hd).2
  rw [Bool.not_eq_true'] at hother
  exact (amend_other h hother).1

theorem mem_run (hkeys : (list.map (idKey I)).Nodup) {old new : PairedDevice} (hold : old ∈ list)
    (hnew : new ∈ (op.run I list).2.getD list) (hkey : idKey I old = idKey I new) :
    new = op.amend I old := by
  rw [run_list op hkeys, List.mem_append] at hnew
  rcases hnew with hnew | hnew
  · obtain ⟨before, hbefore, rfl⟩ := List.mem_map.mp hnew
    rw [amend_idKey] at hkey
    rw [List.inj_on_of_nodup_map hkeys hold (List.mem_filter.mp hbefore).1 hkey]
  · exact absurd hkey ((added_fresh (Option.mem_toList.mp hnew)).2 old hold)

/-- What one step respects. -/
structure Respects (I : Iroh Id) (e : Entry (List PairedDevice) PairedOp PairedResult) : Prop where
  /-- An operation on one device leaves every other record unchanged. -/
  others : ∀ endpointId, e.act.target = some endpointId →
    e.post.filter (fun d => !sameId I endpointId d) = e.pre.filter fun d => !sameId I endpointId d
  /-- The spelling of an existing record does not change. -/
  spelling : ∀ old ∈ e.pre, ∀ new ∈ e.post, idKey I old = idKey I new →
    new.endpointId = old.endpointId
  /-- Whether an existing record is trusted changes only by `trust_paired_device` of its id. -/
  trust : ∀ old ∈ e.pre, ∀ new ∈ e.post, idKey I old = idKey I new → new.trusted ≠ old.trusted →
    ∃ endpointId, e.act = .trustPairedDevice endpointId new.trusted ∧
      I.toLowercase endpointId = idKey I new
  /-- A rotation of the local identity changes only the status of active records, and counts them. -/
  stale : e.act = .markStaleAfterLocalIdentityRotation →
    e.post = e.pre.map StoreFile.stale ∧ e.out = [.updated (e.pre.countP PairedOp.isActive)]
  /-- A record is active after `remember` and keeps its relay if the device has none. -/
  remembers : ∀ device old, e.act = .remember device → old ∈ e.pre →
    idKey I old = idKey I device → ∃ new ∈ e.post, idKey I new = idKey I device ∧
      new.pairingStatus = .active ∧ (old.relayUrl.isSome → new.relayUrl.isSome)
  /-- A record that was not there is stored as it is remembered. -/
  adds : ∀ device, e.act = .remember device → (∀ old ∈ e.pre, idKey I old ≠ idKey I device) →
    e.post = e.pre ++ [device]

theorem respects_step {out : List PairedResult} {list' : List PairedDevice}
    (hkeys : (list.map (idKey I)).Nodup)
    (hstep : (pairedMachine I).step list op = some (list', out)) :
    Respects I ⟨list, op, list', out⟩ := by
  rw [pairedMachine, Option.some.injEq, Prod.mk.injEq] at hstep
  obtain ⟨rfl, rfl⟩ := hstep
  constructor
  · exact fun endpointId htarget => others_unchanged hkeys htarget
  · intro old hold new hnew hkey
    rw [mem_run hkeys hold hnew hkey, (amend_kept op old).1]
  · intro old hold new hnew hkey hchanged
    have hnew' := mem_run hkeys hold hnew hkey
    have htrusted := (amend_kept (I := I) op old).2
    rw [← hnew'] at htrusted
    cases op with
    | trustPairedDevice endpointId trust =>
      dsimp only at htrusted
      split at htrusted
      · rename_i hsame
        exact ⟨endpointId, by rw [htrusted], hsame.trans hkey⟩
      · exact absurd htrusted hchanged
    | _ => exact absurd htrusted hchanged
  · rintro rfl
    have hlist := run_list .markStaleAfterLocalIdentityRotation hkeys
    have hall : list.filter (fun _ => !false) = list := by simp
    change _ = (list.filter fun _ => !false).map StoreFile.stale ++ [] at hlist
    rw [List.append_nil, hall] at hlist
    exact ⟨hlist, rfl⟩
  · rintro device old rfl hold hkey
    refine ⟨merged old device, ?_, hkey, rfl, ?_⟩
    · change merged old device ∈ remembered I list device
      rw [remembered_eq hkeys]
      refine List.mem_append_left _ (List.mem_map.mpr ⟨old, hold, if_pos (sameId_iff.mpr hkey)⟩)
    · intro hrelay
      change (if device.relayUrl.isSome then device.relayUrl else old.relayUrl).isSome = true
      split
      · assumption
      · exact hrelay
  · rintro device rfl habsent
    change remembered I list device = _
    have hnone : list.find? (sameId I device.endpointId) = none := by
      rw [List.find?_eq_none]
      exact fun d hd hsame => habsent d hd (sameId_iff.mp hsame)
    simp [remembered, hnone]

end Step

/-- After every run from an empty store: one record an id up to case; the records are the pairings of
the history, in the order in which they were made, each under the spelling it was made under and as
trusted as the last `trust_paired_device` since left it; and every step respects what the callers rely
on. -/
theorem paired_store_runs {Id : Type} (I : Iroh Id)
    (tr : List (Entry (List PairedDevice) PairedOp PairedResult)) (list : List PairedDevice)
    (hrun : Run (pairedMachine I) anyStep [] tr list) :
    (list.map (idKey I)).Nodup ∧
    (list.Pairwise fun a b => pairedStep I (idKey I a) (tr.map Entry.act).reverse <
      pairedStep I (idKey I b) (tr.map Entry.act).reverse) ∧
    (∀ device ∈ list, ∃ pairing,
      pairingOf I (idKey I device) (tr.map Entry.act).reverse = some pairing ∧
        pairing.spelling = device.endpointId ∧ pairing.trusted = device.trusted) ∧
    (∀ key pairing, pairingOf I key (tr.map Entry.act).reverse = some pairing →
      ∃ device ∈ list, idKey I device = key) ∧
    ∀ e ∈ tr, Respects I e := by
  have htracks := tracks_run hrun
  refine ⟨htracks.keys, htracks.order, htracks.known, fun key pairing hpairing =>
    (htracks.listed key pairing hpairing).2, fun e he => ?_⟩
  obtain ⟨earlier, hearlier, -, -, hstep⟩ := hrun.of_mem he
  exact respects_step (tracks_run hearlier).keys hstep

/-- A device that is trusted, forgotten and paired again is not trusted, and comes last. -/
theorem paired_store_runs_forgottenAndBack :
    ∃ tr list, Run (pairedMachine Key.iroh) anyStep [] tr list ∧
      (list.map fun d => (d.endpointId, d.trusted)) =
        [(Key.carol.hex, false), (Key.bob.hex, false)] ∧
      (list.map (idKey Key.iroh)).Nodup ∧ ∀ e ∈ tr, Respects Key.iroh e := by
  obtain ⟨tr, list, hrun, htest⟩ := Run.of_check (pairedMachine Key.iroh) anyStep []
    [.remember ⟨Key.bob.hex, "Bob", "phone", "android", 0, 0, none, .active, false⟩,
      .remember ⟨Key.carol.hex, "Carol", "laptop", "linux", 1, 1, none, .active, false⟩,
      .trustPairedDevice Key.bob.hex true, .forget Key.bob.hex,
      .remember ⟨Key.bob.hex, "Bob", "phone", "android", 2, 2, none, .active, false⟩]
    (fun _ list => decide ((list.map fun d => (d.endpointId, d.trusted)) =
      [(Key.carol.hex, false), (Key.bob.hex, false)])) (by decide +kernel)
  obtain ⟨hkeys, -, -, -, hsteps⟩ := paired_store_runs Key.iroh tr list hrun
  exact ⟨tr, list, hrun, of_decide_eq_true htest, hkeys, hsteps⟩

end DashBeam.Native
