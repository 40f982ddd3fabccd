import DashBeam.Protocol.Control
import DashBeam.Protocol.Fingerprint

/-!
# The registry of nearby devices

Devices seen on the local network and not yet paired, keyed by the id string they were announced
under and listed in the order of the key. The fingerprint a row shows is left out: nothing here
reads it, except that an id without one is not listed.
-/

namespace DashBeam.Native

open Protocol

def nearbyIdentityRefreshMs : Nat := 60000

structure NearbyDevice where
  endpointId : String
  displayName : Option String
  deviceType : Option String
  os : Option String
  identified : Bool
  deriving DecidableEq, Repr

structure TrackedDevice where
  device : NearbyDevice
  lastProbeAt : Nat
  deriving DecidableEq, Repr

inductive ObserveOutcome
  | probeNeeded
  | refreshNeeded
  | known
  | paired
  | invalid
  deriving DecidableEq, Repr

/-- `NearbyRegistry`: the entries in the order of their keys. -/
structure NearbyRegistry where
  devices : List TrackedDevice
  deriving DecidableEq, Repr

namespace NearbyRegistry

def new : NearbyRegistry := ⟨[]⟩

def find (registry : NearbyRegistry) (endpointId : String) : Option TrackedDevice :=
  registry.devices.find? fun tracked => tracked.device.endpointId == endpointId

/-- Puts a new key in its place. -/
def insertSorted (tracked : TrackedDevice) : List TrackedDevice → List TrackedDevice
  | [] => [tracked]
  | head :: rest =>
    if tracked.device.endpointId < head.device.endpointId then tracked :: head :: rest
    else head :: insertSorted tracked rest

def update (registry : NearbyRegistry) (endpointId : String)
    (f : TrackedDevice → TrackedDevice) : NearbyRegistry :=
  ⟨registry.devices.map fun tracked =>
    if tracked.device.endpointId = endpointId then f tracked else tracked⟩

def remove (registry : NearbyRegistry) (endpointId : String) : NearbyRegistry :=
  ⟨registry.devices.filter fun tracked => tracked.device.endpointId ≠ endpointId⟩

def observe (registry : NearbyRegistry) (endpointId : String) (peerIsPaired : Bool)
    (nowMs : Nat) : ObserveOutcome × NearbyRegistry :=
  if (shortFingerprint endpointId.toList).isNone then (.invalid, registry)
  else if peerIsPaired then (.paired, registry.remove endpointId)
  else
    match registry.find endpointId with
    | some tracked =>
      if nowMs - tracked.lastProbeAt < nearbyIdentityRefreshMs then (.known, registry)
      else (.refreshNeeded, registry.update endpointId fun t => { t with lastProbeAt := nowMs })
    | none =>
      (.probeNeeded, ⟨insertSorted ⟨⟨endpointId, none, none, none, false⟩, nowMs⟩ registry.devices⟩)

/-- `NearbyRegistry::set_identity`: whether it changed the entry, and the registry after it. -/
def setIdentity (registry : NearbyRegistry) (endpointId displayName deviceType : String)
    (os : Option String) : Bool × NearbyRegistry :=
  match registry.find endpointId with
  | none => (false, registry)
  | some tracked =>
    (!tracked.device.identified || tracked.device.displayName != some displayName ||
        tracked.device.deviceType != some deviceType || tracked.device.os != os,
      registry.update endpointId fun t =>
        { t with
          device := { t.device with
            displayName := some displayName
            deviceType := some deviceType
            os := os
            identified := true } })

def expire (registry : NearbyRegistry) (endpointId : String) : Bool × NearbyRegistry :=
  ((registry.find endpointId).isSome, registry.remove endpointId)

def list (registry : NearbyRegistry) : List NearbyDevice :=
  registry.devices.map (·.device)

/-- A paired peer is neither new nor due for a refresh. -/
theorem observe_of_paired (registry : NearbyRegistry) (endpointId : String) (nowMs : Nat) :
    (registry.observe endpointId true nowMs).1 = .invalid ∨
      (registry.observe endpointId true nowMs).1 = .paired := by
  rw [observe]
  split
  · exact .inl rfl
  · exact .inr rfl

/-! ### Which ids are listed -/

/-- A row is listed under this spelling. -/
def Lists (registry : NearbyRegistry) (endpointId : String) : Prop :=
  ∃ row ∈ registry.list, row.endpointId = endpointId

theorem not_lists_new (e : String) : ¬ new.Lists e := by
  rintro ⟨row, hrow, -⟩
  simp [new, list] at hrow

theorem lists_iff {registry : NearbyRegistry} {e : String} :
    registry.Lists e ↔ ∃ tracked ∈ registry.devices, tracked.device.endpointId = e := by
  simp [Lists, list]

theorem mem_insertSorted {t new : TrackedDevice} {devices : List TrackedDevice} :
    t ∈ insertSorted new devices ↔ t = new ∨ t ∈ devices := by
  induction devices with
  | nil => simp [insertSorted]
  | cons head rest ih =>
    rw [insertSorted]
    split
    · simp
    · rw [List.mem_cons, ih, List.mem_cons]
      tauto

theorem lists_update {registry : NearbyRegistry} {endpointId e : String}
    {f : TrackedDevice → TrackedDevice} (hf : ∀ t, (f t).device.endpointId = t.device.endpointId) :
    (registry.update endpointId f).Lists e ↔ registry.Lists e := by
  rw [lists_iff, lists_iff]
  have hid : ∀ t : TrackedDevice,
      (if t.device.endpointId = endpointId then f t else t).device.endpointId =
        t.device.endpointId := by
    intro t
    split
    · exact hf t
    · rfl
  simp only [update, List.mem_map, exists_exists_and_eq_and, hid]

theorem lists_remove {registry : NearbyRegistry} {endpointId e : String} :
    (registry.remove endpointId).Lists e ↔ registry.Lists e ∧ e ≠ endpointId := by
  rw [lists_iff, lists_iff]
  constructor
  · rintro ⟨t, ht, rfl⟩
    obtain ⟨hmem, hne⟩ := List.mem_filter.mp ht
    exact ⟨⟨t, hmem, rfl⟩, by simpa using hne⟩
  · rintro ⟨⟨t, hmem, rfl⟩, hne⟩
    exact ⟨t, List.mem_filter.mpr ⟨hmem, by simpa using hne⟩, rfl⟩

theorem lists_observe {registry : NearbyRegistry} {endpointId e : String} {peerIsPaired : Bool}
    {nowMs : Nat} (h : (registry.observe endpointId peerIsPaired nowMs).2.Lists e) :
    registry.Lists e ∨ (e = endpointId ∧ peerIsPaired = false) := by
  unfold observe at h
  split at h
  · exact .inl h
  · split at h
    · exact .inl (lists_remove.mp h).1
    · rename_i hpaired
      split at h
      · split at h
        · exact .inl h
        · refine .inl ((lists_update ?_).mp h)
          intro t
          rfl
      · obtain ⟨t, ht, rfl⟩ := lists_iff.mp h
        rcases mem_insertSorted.mp ht with rfl | ht
        · exact .inr ⟨rfl, by simpa using hpaired⟩
        · exact .inl (lists_iff.mpr ⟨t, ht, rfl⟩)

theorem lists_setIdentity {registry : NearbyRegistry} {endpointId name type e : String}
    {os : Option String} :
    (registry.setIdentity endpointId name type os).2.Lists e ↔ registry.Lists e := by
  unfold setIdentity
  split
  · exact .rfl
  · apply lists_update
    intro t
    rfl

end NearbyRegistry

end DashBeam.Native
