import Mathlib.Data.Finset.Basic
import DashBeam.Lib.Table
import DashBeam.Protocol.Control

/-!
# The paired-device store

`paired-devices.json` and the operations on it. A content that does not parse reads as the empty
list, a read or a write can fail, and a failed write leaves the file as it was: it goes through a
temporary file and a rename. Records are found by their lowercased id and changed in place, so the
spelling of an id is the one it was first stored under.

`loadAllowed` is the allowlist a restart would load. The lemmas say what the operations do to it.
-/

namespace DashBeam.Native

open Lib Protocol

/-- Whether reading and writing the file work, as one operation meets them. -/
structure Io where
  read : Bool
  write : Bool
  deriving DecidableEq, Repr

/-- What stands at the store's path. -/
inductive StoreFile
  | missing
  | malformed
  | devices (list : List PairedDevice)
  deriving DecidableEq, Repr

namespace StoreFile

def stored : StoreFile → List PairedDevice
  | .devices list => list
  | _ => []

/-- `read_file`. A malformed file is the empty list; only a failed read is an error. -/
def readFile (file : StoreFile) (io : Io) : Option (List PairedDevice) :=
  match file with
  | .missing => some []
  | .malformed => if io.read then some [] else none
  | .devices list => if io.read then some list else none

theorem stored_of_readFile {file : StoreFile} {io : Io} {list : List PairedDevice}
    (h : file.readFile io = some list) : list = file.stored := by
  unfold readFile at h
  split at h <;> (try split at h) <;> simp_all [stored]

variable {Id : Type} (I : Iroh Id)

/-- The two spellings of an id the store does not tell apart. -/
def sameId (endpointId : String) (device : PairedDevice) : Bool :=
  I.toLowercase device.endpointId == I.toLowercase endpointId

def get (file : StoreFile) (io : Io) (endpointId : String) : Option (Option PairedDevice) :=
  (file.readFile io).map fun list => list.find? (sameId I endpointId)

theorem get_of_read {file : StoreFile} {io : Io} {endpointId : String} (h : io.read = true) :
    file.get I io endpointId = some (file.stored.find? (sameId I endpointId)) := by
  cases file <;> simp [get, readFile, stored, h]

/-- What `remember` makes of a record it finds. -/
def merged (existing device : PairedDevice) : PairedDevice :=
  { existing with
    displayName := device.displayName
    deviceType := device.deviceType
    os := device.os
    lastSeenAt := device.lastSeenAt
    relayUrl := if device.relayUrl.isSome then device.relayUrl else existing.relayUrl
    pairingStatus := .active }

/-- The record `remember` stores for a device. -/
def saved (list : List PairedDevice) (device : PairedDevice) : PairedDevice :=
  match list.find? (sameId I device.endpointId) with
  | some existing => merged existing device
  | none => device

/-- The list `remember` writes. -/
def remembered (list : List PairedDevice) (device : PairedDevice) : List PairedDevice :=
  if (list.find? (sameId I device.endpointId)).isSome then
    updateFirst (sameId I device.endpointId) (merged · device) list
  else list ++ [device]

/-- `PairedDeviceStore::remember`: whether it went through, and the file after it. -/
def remember (file : StoreFile) (io : Io) (device : PairedDevice) : Bool × StoreFile :=
  match file.readFile io with
  | none => (false, file)
  | some list => if io.write then (true, .devices (remembered I list device)) else (false, file)

def forget (file : StoreFile) (io : Io) (endpointId : String) : Bool × StoreFile :=
  match file.readFile io with
  | none => (false, file)
  | some list =>
    if io.write then (true, .devices (list.filter fun d => !sameId I endpointId d))
    else (false, file)

/-- `PairedDeviceStore::touch`. Its callers drop the result. -/
def touch (file : StoreFile) (io : Io) (endpointId : String) (lastSeenAt : Nat) : StoreFile :=
  match file.readFile io with
  | none => file
  | some list =>
    if (list.find? (sameId I endpointId)).isSome && io.write then
      .devices (updateFirst (sameId I endpointId)
        (fun d => { d with lastSeenAt := lastSeenAt }) list)
    else file

/-- The record marked as unpaired by the peer. -/
def unpaired (device : PairedDevice) : PairedDevice :=
  { device with pairingStatus := .unpairedRemotely }

/-- `PairedDeviceStore::mark_unpaired_remotely`: the record it marked, if it did. -/
def markUnpairedRemotely (file : StoreFile) (io : Io) (endpointId : String) :
    Option PairedDevice × StoreFile :=
  match file.readFile io with
  | none => (none, file)
  | some list =>
    match list.find? (sameId I endpointId) with
    | none => (none, file)
    | some existing =>
      if io.write then
        (some (unpaired existing), .devices (updateFirst (sameId I endpointId) unpaired list))
      else (none, file)

/-- A record after this device's own key has changed. -/
def stale (device : PairedDevice) : PairedDevice :=
  if device.pairingStatus = .active then { device with pairingStatus := .staleLocalIdentity }
  else device

def markStaleAfterLocalIdentityRotation (file : StoreFile) (io : Io) : StoreFile :=
  match file.readFile io with
  | none => file
  | some list =>
    if (list.any fun d => d.pairingStatus = .active) && io.write then .devices (list.map stale)
    else file

/-- `load_allowed_from_store`: the ids of the connectable records. -/
def loadAllowed [DecidableEq Id] (list : List PairedDevice) : Finset Id :=
  (list.filterMap fun d =>
    if d.pairingStatus.isConnectable then I.fromStr d.endpointId else none).toFinset

/-! ### What an operation does to the records -/

theorem remember_eq {file file' : StoreFile} {io : Io} {device : PairedDevice}
    (h : file.remember I io device = (true, file')) :
    file'.stored = remembered I file.stored device := by
  unfold remember at h
  split at h
  · cases h
  · rename_i list hread
    rw [stored_of_readFile hread] at h
    split at h
    · cases h
      rfl
    · cases h

theorem remember_failed {file file' : StoreFile} {io : Io} {device : PairedDevice}
    (h : file.remember I io device = (false, file')) : file' = file := by
  unfold remember at h
  split at h
  · cases h
    rfl
  · split at h
    · cases h
    · cases h
      rfl

theorem forget_eq {file file' : StoreFile} {io : Io} {endpointId : String}
    (h : file.forget I io endpointId = (true, file')) :
    file'.stored = file.stored.filter fun d => !sameId I endpointId d := by
  unfold forget at h
  split at h
  · cases h
  · rename_i list hread
    rw [stored_of_readFile hread] at h
    split at h
    · cases h
      rfl
    · cases h

theorem forget_failed {file file' : StoreFile} {io : Io} {endpointId : String}
    (h : file.forget I io endpointId = (false, file')) : file' = file := by
  unfold forget at h
  split at h
  · cases h
    rfl
  · split at h
    · cases h
    · cases h
      rfl

theorem markUnpairedRemotely_some {file file' : StoreFile} {io : Io} {endpointId : String}
    {device : PairedDevice}
    (h : file.markUnpairedRemotely I io endpointId = (some device, file')) :
    ∃ existing, file.stored.find? (sameId I endpointId) = some existing ∧
      device = unpaired existing ∧
      file'.stored = updateFirst (sameId I endpointId) unpaired file.stored := by
  unfold markUnpairedRemotely at h
  split at h
  · cases h
  · rename_i list hread
    rw [stored_of_readFile hread] at h
    split at h
    · cases h
    · rename_i existing hfound
      split at h
      · simp only [Prod.mk.injEq, Option.some.injEq] at h
        obtain ⟨rfl, rfl⟩ := h
        exact ⟨existing, hfound, rfl, rfl⟩
      · cases h

theorem markUnpairedRemotely_none {file file' : StoreFile} {io : Io} {endpointId : String}
    (h : file.markUnpairedRemotely I io endpointId = (none, file')) : file' = file := by
  unfold markUnpairedRemotely at h
  split at h
  · cases h
    rfl
  · split at h
    · cases h
      rfl
    · split at h
      · cases h
      · cases h
        rfl

theorem touch_eq (file : StoreFile) (io : Io) (endpointId : String) (lastSeenAt : Nat) :
    (file.touch I io endpointId lastSeenAt).stored = file.stored ∨
      (file.touch I io endpointId lastSeenAt).stored = updateFirst (sameId I endpointId)
        (fun d => { d with lastSeenAt := lastSeenAt }) file.stored := by
  unfold touch
  split
  · exact .inl rfl
  · rename_i list hread
    rw [stored_of_readFile hread]
    split
    · exact .inr rfl
    · exact .inl rfl

/-! ### Spellings -/

theorem sameId_saved (list : List PairedDevice) (device : PairedDevice) :
    sameId I device.endpointId (saved I list device) = true := by
  unfold saved
  split
  · rename_i existing hfound
    have hsame := List.find?_some hfound
    exact hsame
  · simp [sameId]

theorem find?_remembered (list : List PairedDevice) (device : PairedDevice) :
    (remembered I list device).find? (sameId I device.endpointId) = some (saved I list device) := by
  have hsame := sameId_saved I list device
  unfold remembered
  unfold saved at hsame ⊢
  split
  · rename_i hsome
    obtain ⟨existing, hfound⟩ := Option.isSome_iff_exists.mp hsome
    rw [hfound] at hsame ⊢
    exact find?_updateFirst hfound hsame
  · rename_i hnone
    simp only [Option.not_isSome_iff_eq_none] at hnone
    rw [List.find?_append, hnone]
    simp [sameId]

/-! ### When an id was paired -/

/-- The pairing time in the record of an id. -/
def pairedAt (list : List PairedDevice) (endpointId : String) : Option Nat :=
  (list.find? (sameId I endpointId)).map (·.pairedAt)

theorem pairedAt_updateFirst {p : PairedDevice → Bool} (f : PairedDevice → PairedDevice)
    (hid : ∀ d, (f d).endpointId = d.endpointId) (hat : ∀ d, (f d).pairedAt = d.pairedAt)
    {list : List PairedDevice} {endpointId : String} :
    pairedAt I (updateFirst p f list) endpointId = pairedAt I list endpointId := by
  refine find?_updateFirst_map (fun d => ?_) hat list
  rw [sameId, sameId, hid]

theorem pairedAt_touch (file : StoreFile) (io : Io) (endpointId e : String) (lastSeenAt : Nat) :
    pairedAt I (file.touch I io endpointId lastSeenAt).stored e = pairedAt I file.stored e := by
  obtain h | h := touch_eq I file io endpointId lastSeenAt
  · rw [h]
  · rw [h]
    apply pairedAt_updateFirst
    · intro d
      rfl
    · intro d
      rfl

theorem pairedAt_markUnpaired (file : StoreFile) (io : Io) (endpointId e : String) :
    pairedAt I (file.markUnpairedRemotely I io endpointId).2.stored e =
      pairedAt I file.stored e := by
  cases hresult : file.markUnpairedRemotely I io endpointId with
  | mk marked file' =>
    cases marked with
    | some device =>
      obtain ⟨-, -, -, hstored⟩ := markUnpairedRemotely_some I hresult
      rw [hstored]
      exact pairedAt_updateFirst I unpaired (fun _ => rfl) (fun _ => rfl)
    | none => rw [markUnpairedRemotely_none I hresult]

/-- Forgetting an id leaves the records of the others. -/
theorem pairedAt_forget {file : StoreFile} {io : Io} {endpointId e : String} {time : Nat}
    (h : pairedAt I (file.forget I io endpointId).2.stored e = some time) :
    pairedAt I file.stored e = some time := by
  cases hresult : file.forget I io endpointId with
  | mk removed file' =>
    rw [hresult] at h
    cases removed with
    | false =>
      obtain rfl := forget_failed I hresult
      exact h
    | true =>
      rw [forget_eq I hresult, pairedAt, List.find?_filter] at h
      obtain ⟨d, hfound, rfl⟩ := Option.map_eq_some_iff.mp h
      have hd := List.find?_some hfound
      simp only [Bool.not_eq_true', decide_eq_true_eq, sameId, beq_iff_eq, beq_eq_false_iff_ne]
        at hd
      -- the two ids differ, so no record of `e` was taken out
      have hsame : (fun a => decide ((!sameId I endpointId a) = true ∧ sameId I e a = true)) =
          sameId I e := by
        funext a
        by_cases ha : sameId I e a = true
        · rw [sameId, beq_iff_eq] at ha
          simp [sameId, ha, ← hd.2, hd.1]
        · simp [ha]
      rw [hsame] at hfound
      rw [pairedAt, hfound]
      rfl

/-- A new record has the time it is stored with, and a record that is there keeps its own. -/
theorem pairedAt_remember {file : StoreFile} {io : Io} {device : PairedDevice} {e : String}
    {time : Nat} (h : pairedAt I (file.remember I io device).2.stored e = some time) :
    pairedAt I file.stored e = some time ∨
      ((file.remember I io device).1 = true ∧ sameId I e device = true ∧
        pairedAt I file.stored e = none ∧ time = device.pairedAt) := by
  cases hresult : file.remember I io device with
  | mk stored file' =>
    rw [hresult] at h
    cases stored with
    | false =>
      obtain rfl := remember_failed I hresult
      exact .inl h
    | true =>
      rw [remember_eq I hresult, remembered] at h
      split at h
      · rw [pairedAt_updateFirst I (merged · device) (fun _ => rfl) (fun _ => rfl)] at h
        exact .inl h
      · rw [pairedAt, List.find?_append] at h
        cases hfound : file.stored.find? (sameId I e) with
        | some d =>
          rw [hfound, Option.some_or] at h
          exact .inl (by rw [pairedAt, hfound]; exact h)
        | none =>
          rw [hfound, Option.none_or, List.find?_singleton] at h
          split at h
          · rename_i hsame
            refine .inr ⟨rfl, hsame, by rw [pairedAt, hfound]; rfl, ?_⟩
            exact (Option.some.inj h).symm
          · cases h

/-! ### Active records of an id -/

/-- Some active record is spelt, up to case, as the id. -/
def ActiveAs (list : List PairedDevice) (x : Id) : Prop :=
  ∃ d ∈ list, d.pairingStatus.isActive = true ∧ I.fromStr (I.toLowercase d.endpointId) = some x

instance [DecidableEq Id] (list : List PairedDevice) (x : Id) : Decidable (ActiveAs I list x) :=
  inferInstanceAs (Decidable (∃ d ∈ list, _))

/-- Without an active record of the id, none is found under any spelling of it. -/
theorem not_active_of_get {file : StoreFile} {io : Io} {endpointId : String} {x : Id}
    {device : PairedDevice} (hx : I.fromStr endpointId = some x) (h : ¬ ActiveAs I file.stored x)
    (hget : (file.get I io endpointId).join = some device) :
    device.pairingStatus.isActive = false := by
  rw [Option.join_eq_some_iff, get, Option.map_eq_some_iff] at hget
  obtain ⟨list, hread, hfound⟩ := hget
  rw [stored_of_readFile hread] at hfound
  have hsame := List.find?_some hfound
  rw [sameId, beq_iff_eq] at hsame
  by_contra hactive
  refine h ⟨device, List.mem_of_find?_eq_some hfound, by simpa using hactive, ?_⟩
  rw [hsame]
  exact I.fromStr_toLowercase hx

/-- The records after one of them was rewritten under its own spelling. -/
theorem activeAs_updateFirst {list : List PairedDevice} {p : PairedDevice → Bool}
    {f : PairedDevice → PairedDevice} {x : Id} (h : ActiveAs I (updateFirst p f list) x)
    (hid : ∀ d, (f d).endpointId = d.endpointId)
    (hactive : ∀ d, p d = true → (f d).pairingStatus.isActive = true →
      I.fromStr (I.toLowercase d.endpointId) = some x → d.pairingStatus.isActive = true) :
    ActiveAs I list x := by
  obtain ⟨d, hd, hstatus, hx⟩ := h
  cases hfound : list.find? p with
  | none =>
    rw [updateFirst_of_none hfound] at hd
    exact ⟨d, hd, hstatus, hx⟩
  | some a =>
    rcases (mem_updateFirst hfound).mp hd with rfl | hd
    · rw [hid] at hx
      exact ⟨a, List.mem_of_find?_eq_some hfound, hactive a (List.find?_some hfound) hstatus hx, hx⟩
    · exact ⟨d, (mem_iff_found_or_other hfound).mpr (.inr hd), hstatus, hx⟩

theorem activeAs_remembered {list : List PairedDevice} {device : PairedDevice} {x : Id}
    (hother : I.fromStr (I.toLowercase device.endpointId) ≠ some x)
    (h : ActiveAs I (remembered I list device) x) : ActiveAs I list x := by
  unfold remembered at h
  split at h
  · refine activeAs_updateFirst I h (fun _ => rfl) fun d hsame _ hx => ?_
    rw [sameId, beq_iff_eq] at hsame
    rw [hsame] at hx
    exact absurd hx hother
  · obtain ⟨d, hd, hstatus, hx⟩ := h
    rcases List.mem_append.mp hd with hd | hd
    · exact ⟨d, hd, hstatus, hx⟩
    · rw [List.mem_singleton] at hd
      subst hd
      exact absurd hx hother

theorem activeAs_touch {file : StoreFile} {io : Io} {endpointId : String} {lastSeenAt : Nat} {x : Id}
    (h : ActiveAs I (file.touch I io endpointId lastSeenAt).stored x) :
    ActiveAs I file.stored x := by
  obtain heq | heq := touch_eq I file io endpointId lastSeenAt
  · rwa [heq] at h
  · rw [heq] at h
    exact activeAs_updateFirst I h (fun _ => rfl) fun _ _ hstatus _ => hstatus

theorem activeAs_markUnpaired {file : StoreFile} {io : Io} {endpointId : String} {x : Id}
    (h : ActiveAs I (file.markUnpairedRemotely I io endpointId).2.stored x) :
    ActiveAs I file.stored x := by
  cases hresult : file.markUnpairedRemotely I io endpointId with
  | mk marked file' =>
    rw [hresult] at h
    cases marked with
    | some device =>
      obtain ⟨-, -, -, hstored⟩ := markUnpairedRemotely_some I hresult
      rw [hstored] at h
      exact activeAs_updateFirst I h (fun _ => rfl) fun _ _ hstatus _ => by cases hstatus
    | none =>
      obtain rfl := markUnpairedRemotely_none I hresult
      exact h

theorem activeAs_forget {file : StoreFile} {io : Io} {endpointId : String} {x : Id}
    (h : ActiveAs I (file.forget I io endpointId).2.stored x) : ActiveAs I file.stored x := by
  cases hresult : file.forget I io endpointId with
  | mk removed file' =>
    rw [hresult] at h
    cases removed with
    | true =>
      obtain ⟨d, hd, hrest⟩ := h
      rw [forget_eq I hresult] at hd
      exact ⟨d, (List.mem_filter.mp hd).1, hrest⟩
    | false =>
      obtain rfl := forget_failed I hresult
      exact h

/-! ### An active record stays -/

/-- Rewriting a record under its own spelling keeps the active records, if it leaves those of the id
active. -/
theorem ActiveAs.updateFirst {list : List PairedDevice} {p : PairedDevice → Bool}
    {f : PairedDevice → PairedDevice} {x : Id} (h : ActiveAs I list x)
    (hid : ∀ d, (f d).endpointId = d.endpointId)
    (hactive : ∀ d, p d = true → d.pairingStatus.isActive = true →
      I.fromStr (I.toLowercase d.endpointId) = some x → (f d).pairingStatus.isActive = true) :
    ActiveAs I (updateFirst p f list) x := by
  obtain ⟨d, hd, hstatus, hx⟩ := h
  cases hfound : list.find? p with
  | none =>
    rw [updateFirst_of_none hfound]
    exact ⟨d, hd, hstatus, hx⟩
  | some a =>
    rcases (mem_iff_found_or_other hfound).mp hd with rfl | hd
    · refine ⟨f d, (mem_updateFirst hfound).mpr (.inl rfl), ?_, by rw [hid]; exact hx⟩
      exact hactive d (List.find?_some hfound) hstatus hx
    · exact ⟨d, (mem_updateFirst hfound).mpr (.inr hd), hstatus, hx⟩

theorem activeAs_of_remembered {list : List PairedDevice} {device : PairedDevice} {x : Id}
    (hactive : device.pairingStatus = .active)
    (hx : I.fromStr (I.toLowercase device.endpointId) = some x) :
    ActiveAs I (remembered I list device) x := by
  have hfound := find?_remembered I list device
  have hsame := sameId_saved I list device
  rw [sameId, beq_iff_eq] at hsame
  refine ⟨saved I list device, List.mem_of_find?_eq_some hfound, ?_, by rw [hsame]; exact hx⟩
  unfold saved
  split
  · rfl
  · rw [hactive]
    rfl

theorem ActiveAs.remember {file : StoreFile} {io : Io} {device : PairedDevice} {x : Id}
    (h : ActiveAs I file.stored x) : ActiveAs I (file.remember I io device).2.stored x := by
  cases hresult : file.remember I io device with
  | mk stored file' =>
    cases stored with
    | false =>
      obtain rfl := remember_failed I hresult
      exact h
    | true =>
      rw [remember_eq I hresult, remembered]
      split
      · exact h.updateFirst I (fun _ => rfl) fun _ _ _ _ => rfl
      · obtain ⟨d, hd, hrest⟩ := h
        exact ⟨d, List.mem_append_left _ hd, hrest⟩

theorem ActiveAs.touch {file : StoreFile} {io : Io} {endpointId : String} {lastSeenAt : Nat} {x : Id}
    (h : ActiveAs I file.stored x) :
    ActiveAs I (file.touch I io endpointId lastSeenAt).stored x := by
  obtain heq | heq := touch_eq I file io endpointId lastSeenAt
  · rwa [heq]
  · rw [heq]
    exact h.updateFirst I (fun _ => rfl) fun _ _ hstatus _ => hstatus

theorem ActiveAs.markUnpaired {file : StoreFile} {io : Io} {endpointId : String} {x : Id}
    (h : ActiveAs I file.stored x) (hother : I.fromStr (I.toLowercase endpointId) ≠ some x) :
    ActiveAs I (file.markUnpairedRemotely I io endpointId).2.stored x := by
  cases hresult : file.markUnpairedRemotely I io endpointId with
  | mk marked file' =>
    cases marked with
    | some device =>
      obtain ⟨-, -, -, hstored⟩ := markUnpairedRemotely_some I hresult
      rw [hstored]
      refine h.updateFirst I (fun _ => rfl) fun d hsame _ hx => ?_
      rw [sameId, beq_iff_eq] at hsame
      rw [hsame] at hx
      exact absurd hx hother
    | none =>
      obtain rfl := markUnpairedRemotely_none I hresult
      exact h

theorem ActiveAs.forget {file : StoreFile} {io : Io} {endpointId : String} {x : Id}
    (h : ActiveAs I file.stored x) (hother : I.fromStr (I.toLowercase endpointId) ≠ some x) :
    ActiveAs I (file.forget I io endpointId).2.stored x := by
  cases hresult : file.forget I io endpointId with
  | mk removed file' =>
    cases removed with
    | true =>
      obtain ⟨d, hd, hstatus, hx⟩ := h
      rw [forget_eq I hresult]
      refine ⟨d, List.mem_filter.mpr ⟨hd, ?_⟩, hstatus, hx⟩
      by_contra hsame
      rw [Bool.not_eq_true, Bool.not_eq_false', sameId, beq_iff_eq] at hsame
      rw [hsame] at hx
      exact hother hx
    | false =>
      obtain rfl := forget_failed I hresult
      exact h

/-! ### What a restart would load -/

variable [DecidableEq Id]

theorem mem_loadAllowed {list : List PairedDevice} {x : Id} :
    x ∈ loadAllowed I list ↔
      ∃ d ∈ list, d.pairingStatus.isConnectable = true ∧ I.fromStr d.endpointId = some x := by
  simp only [loadAllowed, List.mem_toFinset, List.mem_filterMap]
  constructor
  · rintro ⟨d, hd, h⟩
    split at h
    · rename_i hconn
      exact ⟨d, hd, hconn, h⟩
    · cases h
  · rintro ⟨d, hd, hconn, h⟩
    exact ⟨d, hd, by rw [if_pos hconn, h]⟩

/-- Two lists load the same allowlist when their rows agree on what loading reads. -/
theorem loadAllowed_updateFirst {list : List PairedDevice} {p : PairedDevice → Bool}
    {f : PairedDevice → PairedDevice} (hid : ∀ d, (f d).endpointId = d.endpointId)
    (hconn : ∀ d, (f d).pairingStatus = d.pairingStatus) :
    loadAllowed I (updateFirst p f list) = loadAllowed I list := by
  ext x
  rw [mem_loadAllowed, mem_loadAllowed]
  cases hfound : list.find? p with
  | none => rw [updateFirst_of_none hfound]
  | some a =>
    simp only [mem_updateFirst hfound, mem_iff_found_or_other hfound, or_and_right, exists_or,
      exists_eq_left, hid, hconn]

theorem loadAllowed_touch (file : StoreFile) (io : Io) (endpointId : String) (lastSeenAt : Nat) :
    loadAllowed I (file.touch I io endpointId lastSeenAt).stored = loadAllowed I file.stored := by
  obtain h | h := touch_eq I file io endpointId lastSeenAt
  · rw [h]
  · rw [h]
    exact loadAllowed_updateFirst I (fun _ => rfl) (fun _ => rfl)

theorem loadAllowed_markStale (file : StoreFile) (io : Io) :
    loadAllowed I (file.markStaleAfterLocalIdentityRotation io).stored =
      loadAllowed I file.stored := by
  unfold markStaleAfterLocalIdentityRotation
  split
  · rfl
  · rename_i list hread
    rw [stored_of_readFile hread]
    split
    · ext x
      rw [mem_loadAllowed, mem_loadAllowed]
      have hstale : ∀ d, (stale d).endpointId = d.endpointId ∧
          (stale d).pairingStatus.isConnectable = d.pairingStatus.isConnectable := by
        intro d
        unfold stale
        split
        · rename_i hactive
          exact ⟨rfl, by rw [hactive]; rfl⟩
        · exact ⟨rfl, rfl⟩
      simp only [stored, List.mem_map, exists_exists_and_eq_and, hstale]
    · rfl

theorem loadAllowed_remembered {list : List PairedDevice} {device : PairedDevice} {x : Id}
    (hactive : device.pairingStatus = .active)
    (hspelt : I.fromStr (saved I list device).endpointId = some x) :
    loadAllowed I (remembered I list device) = insert x (loadAllowed I list) := by
  ext y
  rw [Finset.mem_insert, mem_loadAllowed, mem_loadAllowed]
  unfold saved at hspelt
  unfold remembered
  cases hfound : list.find? (sameId I device.endpointId) with
  | none =>
    rw [hfound] at hspelt
    simp only [Option.isSome_none, Bool.false_eq_true, if_false, List.mem_append,
      List.mem_singleton, or_and_right, exists_or, exists_eq_left, hspelt, hactive]
    simp only [PairingStatus.isConnectable, true_and, Option.some.injEq]
    rw [or_comm, eq_comm (a := x)]
  | some existing =>
    rw [hfound] at hspelt
    simp only [Option.isSome_some, if_true, mem_updateFirst hfound, mem_iff_found_or_other hfound,
      or_and_right, exists_or, exists_eq_left]
    have hmerged : I.fromStr (merged existing device).endpointId = some x := hspelt
    have hexisting : I.fromStr existing.endpointId = some x := hspelt
    simp only [hmerged, hexisting, Option.some.injEq]
    have hconn : (merged existing device).pairingStatus.isConnectable = true := rfl
    simp only [hconn, true_and, eq_comm (a := x)]
    tauto

theorem loadAllowed_remembered_unparsed {list : List PairedDevice} {device : PairedDevice}
    (hspelt : I.fromStr (saved I list device).endpointId = none) :
    loadAllowed I (remembered I list device) = loadAllowed I list := by
  ext y
  rw [mem_loadAllowed, mem_loadAllowed]
  unfold saved at hspelt
  unfold remembered
  cases hfound : list.find? (sameId I device.endpointId) with
  | none =>
    rw [hfound] at hspelt
    simp only [Option.isSome_none, Bool.false_eq_true, if_false, List.mem_append,
      List.mem_singleton, or_and_right, exists_or, exists_eq_left, hspelt]
    simp
  | some existing =>
    rw [hfound] at hspelt
    simp only [Option.isSome_some, if_true, mem_updateFirst hfound, mem_iff_found_or_other hfound,
      or_and_right, exists_or, exists_eq_left]
    have hmerged : I.fromStr (merged existing device).endpointId = none := hspelt
    have hexisting : I.fromStr existing.endpointId = none := hspelt
    simp [hmerged, hexisting]

/-- Forgetting an id takes it off the allowlist, when the connectable records spelt that way are
those of the id. -/
theorem loadAllowed_forget {list : List PairedDevice} {endpointId : String}
    (hspelt : ∀ d ∈ list, d.pairingStatus.isConnectable = true →
      ∀ y, I.fromStr d.endpointId = some y →
        (sameId I endpointId d = true ↔ I.fromStr endpointId = some y)) (x : Id) :
    x ∈ loadAllowed I (list.filter fun d => !sameId I endpointId d) ↔
      x ∈ loadAllowed I list ∧ I.fromStr endpointId ≠ some x := by
  rw [mem_loadAllowed, mem_loadAllowed]
  simp only [List.mem_filter, Bool.not_eq_true']
  constructor
  · rintro ⟨d, ⟨hd, hother⟩, hconn, hx⟩
    refine ⟨⟨d, hd, hconn, hx⟩, fun heq => ?_⟩
    rw [(hspelt d hd hconn x hx).mpr heq] at hother
    cases hother
  · rintro ⟨⟨d, hd, hconn, hx⟩, hne⟩
    refine ⟨d, ⟨hd, ?_⟩, hconn, hx⟩
    by_contra hsame
    simp only [Bool.not_eq_false] at hsame
    exact hne ((hspelt d hd hconn x hx).mp hsame)

/-- Marking the record of `x` takes `x` off the allowlist, when it is the only connectable one. -/
theorem loadAllowed_unpaired {list : List PairedDevice} {endpointId : String}
    {existing : PairedDevice} {x : Id} (hfound : list.find? (sameId I endpointId) = some existing)
    (hx : I.fromStr endpointId = some x)
    (honly : x ∉ loadAllowed I (list.eraseP (sameId I endpointId))) :
    loadAllowed I (updateFirst (sameId I endpointId) unpaired list) = (loadAllowed I list).erase x := by
  ext y
  rw [Finset.mem_erase, mem_loadAllowed, mem_loadAllowed]
  simp only [mem_updateFirst hfound, mem_iff_found_or_other hfound, or_and_right, exists_or,
    exists_eq_left]
  have hconn : (unpaired existing).pairingStatus.isConnectable = false := rfl
  simp only [hconn, Bool.false_eq_true, false_and, false_or]
  rw [mem_loadAllowed] at honly
  constructor
  · intro hother
    refine ⟨fun heq => honly (heq ▸ hother), .inr hother⟩
  · rintro ⟨hne, ⟨-, hy⟩ | hother⟩
    · have hsame : sameId I endpointId existing = true := by
        have := List.find?_some hfound
        exact this
      exact absurd (I.fromStr_unique (by simpa [sameId] using hsame) hy hx) hne
    · exact hother

end StoreFile

end DashBeam.Native
