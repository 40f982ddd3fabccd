import Mathlib.Data.List.Sort
import DashBeam.Lib.Machine
import DashBeam.Lib.Replica
import DashBeam.Native.Nearby

/-!
# The nearby list of the frontend

The backend's event loop changes the registry of nearby devices and emits an event for most changes; the
events arrive in order. The frontend's store answers an event of an arrival or an identity with a
refetch of the whole list, from which it takes one row, drops a row on an event of a loss, and takes the
whole list when it hydrates. A reply may arrive any time after the backend made it. On which orders the
two lists end up the same is told by `Synced`.
-/

namespace DashBeam.Frontend.Nearby

open Lib Native

/-! ## The backend -/

/-- The events that the listeners hear, in the order of their emission. -/
inductive NearbyEvent
  | found (endpointId : String)
  | identified (endpointId : String)
  | lost (endpointId : String)
  | unavailable (reason : String)
  deriving DecidableEq, Repr

/-- Where the event loop is: waiting, or about to emit what it has changed. -/
inductive LoopState
  | waiting
  | emitFound (endpointId : String)
  | emitLost (endpointId : String)
  deriving DecidableEq, Repr

/-- An identity probe: dialing, about to emit, or over. -/
inductive Probe
  | running (endpointId : String)
  | emitIdentified (endpointId : String)
  | ended
  deriving DecidableEq, Repr

structure Backend where
  registry : NearbyRegistry
  eventLoop : LoopState
  probes : List Probe
  unavailable : Option String
  deriving DecidableEq, Repr

/-! ## The frontend -/

/-- A refetch for one row or of the whole list: asked for, answered by the backend, over. -/
inductive Fetch
  | refresh (endpointId : String)
  | refreshReplied (endpointId : String) (list : List NearbyDevice)
  | hydrate
  | hydrateListed (list : List NearbyDevice)
  | hydrateReplied (list : List NearbyDevice) (reason : Option String)
  | ended
  deriving DecidableEq, Repr

structure NearbyStore where
  devices : List NearbyDevice
  unavailableReason : Option String
  deriving DecidableEq, Repr

/-- `compareNearbyDevices`, over the locale's comparison. -/
def compareNearbyDevices (localeCompare : String → String → Int) (a b : NearbyDevice) : Int :=
  if a.identified ≠ b.identified then
    if a.identified then -1 else 1
  else
    let byName :=
      if a.identified then localeCompare (a.displayName.getD "") (b.displayName.getD "") else 0
    if byName ≠ 0 then byName else localeCompare a.endpointId b.endpointId

def sortDevices (localeCompare : String → String → Int) (devices : List NearbyDevice) :
    List NearbyDevice :=
  devices.insertionSort fun a b => compareNearbyDevices localeCompare a b ≤ 0

namespace NearbyStore

def upsert (localeCompare : String → String → Int) (store : NearbyStore) (device : NearbyDevice) :
    NearbyStore :=
  { store with
    devices := sortDevices localeCompare
      ((store.devices.filter fun d => d.endpointId ≠ device.endpointId) ++ [device]) }

def remove (store : NearbyStore) (endpointId : String) : NearbyStore :=
  { store with devices := store.devices.filter fun d => d.endpointId ≠ endpointId }

def setUnavailable (store : NearbyStore) (reason : Option String) : NearbyStore :=
  { store with unavailableReason := reason }

/-- The end of `hydrate`. -/
def overwrite (localeCompare : String → String → Int) (list : List NearbyDevice)
    (reason : Option String) : NearbyStore :=
  ⟨sortDevices localeCompare list, reason⟩

/-- The end of `refreshOne`. -/
def refreshOne (localeCompare : String → String → Int) (store : NearbyStore) (endpointId : String)
    (list : List NearbyDevice) : NearbyStore :=
  match list.find? fun d => d.endpointId = endpointId with
  | some found => store.upsert localeCompare found
  | none => store

end NearbyStore

structure World where
  backend : Backend
  /-- Emitted and not yet delivered. -/
  events : List NearbyEvent
  store : NearbyStore
  fetches : List Fetch
  deriving DecidableEq, Repr

def World.initial : World := ⟨⟨.new, .waiting, [], none⟩, [], ⟨[], none⟩, []⟩

/-- What the event loop does beyond the registry and the events. -/
inductive Output
  | nudgeReconnect (endpointId : String)
  deriving DecidableEq, Repr

inductive Action
  /-- `LanEvent::Appeared`, with what the allowlist says, and `LanEvent::Vanished`. -/
  | appeared (endpointId : String) (isPaired : Bool) (nowMs : Nat)
  | vanished (endpointId : String)
  /-- The event loop emits. -/
  | emit
  | probeAnswered (i : Nat) (displayName deviceType os : String)
  | probeFailed (i : Nat)
  | emitIdentified (i : Nat)
  /-- The LAN discovery starts, or fails to. -/
  | discovery (failure : Option String)
  /-- The oldest event reaches its listener. -/
  | deliver
  | hydrate
  /-- The backend answers `list_nearby` or `nearby_status`, and the answer is used. -/
  | answerList (i : Nat)
  | answerStatus (i : Nat)
  | apply (i : Nat)
  deriving DecidableEq, Repr

namespace World

/-- `LanEvent::Appeared`. -/
def appear (w : World) (endpointId : String) (isPaired : Bool) (nowMs : Nat) :
    World × List Output :=
  let observed := w.backend.registry.observe endpointId isPaired nowMs
  let backend := { w.backend with registry := observed.2 }
  match observed.1 with
  | .probeNeeded => ({ w with backend := { backend with eventLoop := .emitFound endpointId } }, [])
  | .refreshNeeded =>
    ({ w with backend := { backend with probes := backend.probes ++ [.running endpointId] } }, [])
  | .paired => ({ w with backend := backend }, [.nudgeReconnect endpointId])
  | .known => ({ w with backend := backend }, [])
  | .invalid => ({ w with backend := backend }, [])

/-- `LanEvent::Vanished`. -/
def vanish (w : World) (endpointId : String) : World :=
  let expired := w.backend.registry.expire endpointId
  let backend := { w.backend with registry := expired.2 }
  { w with
    backend := if expired.1 then { backend with eventLoop := .emitLost endpointId } else backend }

/-- The rest of an event's handling: the emission, and the probe of an arrival. -/
def emit (w : World) : Option World :=
  match w.backend.eventLoop with
  | .waiting => none
  | .emitFound endpointId =>
    some { w with
      backend := { w.backend with
        eventLoop := .waiting
        probes := w.backend.probes ++ [.running endpointId] }
      events := w.events ++ [.found endpointId] }
  | .emitLost endpointId =>
    some { w with
      backend := { w.backend with eventLoop := .waiting }
      events := w.events ++ [.lost endpointId] }

/-- A probe's answer; an empty `os` is none. -/
def answerProbe (w : World) (i : Nat) (endpointId displayName deviceType os : String) : World :=
  let updated := w.backend.registry.setIdentity endpointId displayName deviceType
    (if os = "" then none else some os)
  { w with backend := { w.backend with
      registry := updated.2
      probes := w.backend.probes.set i (if updated.1 then .emitIdentified endpointId else .ended) } }

def hear (w : World) : NearbyEvent → World
  | .found endpointId =>
    if endpointId = "" then w
    else { w with
      store := w.store.setUnavailable none
      fetches := w.fetches ++ [.refresh endpointId] }
  | .identified endpointId =>
    if endpointId = "" then w else { w with fetches := w.fetches ++ [.refresh endpointId] }
  | .lost endpointId =>
    if endpointId = "" then w else { w with store := w.store.remove endpointId }
  | .unavailable reason => { w with store := w.store.setUnavailable (some reason) }

def answer (w : World) (i : Nat) : Option World :=
  match w.fetches[i]? with
  | some (.refresh endpointId) =>
    some { w with fetches :=
      w.fetches.set i (.refreshReplied endpointId w.backend.registry.list) }
  | some .hydrate =>
    some { w with fetches := w.fetches.set i (.hydrateListed w.backend.registry.list) }
  | _ => none

def answerStatus (w : World) (i : Nat) : Option World :=
  match w.fetches[i]? with
  | some (.hydrateListed list) =>
    some { w with fetches := w.fetches.set i (.hydrateReplied list w.backend.unavailable) }
  | _ => none

/-- The last reply of a refetch reaches the store. -/
def apply (localeCompare : String → String → Int) (w : World) (i : Nat) : Option World :=
  match w.fetches[i]? with
  | some (.refreshReplied endpointId list) =>
    some { w with
      store := w.store.refreshOne localeCompare endpointId list
      fetches := w.fetches.set i .ended }
  | some (.hydrateReplied list reason) =>
    some { w with
      store := .overwrite localeCompare list reason
      fetches := w.fetches.set i .ended }
  | _ => none

end World

def nearbyMachine (localeCompare : String → String → Int) : Machine World Action Output where
  step w
    | .appeared endpointId isPaired nowMs =>
      if w.backend.eventLoop = .waiting then some (w.appear endpointId isPaired nowMs) else none
    | .vanished endpointId =>
      if w.backend.eventLoop = .waiting then some (w.vanish endpointId, []) else none
    | .emit => w.emit.map fun w => (w, [])
    | .probeAnswered i displayName deviceType os =>
      match w.backend.probes[i]? with
      | some (.running endpointId) =>
        some (w.answerProbe i endpointId displayName deviceType os, [])
      | _ => none
    | .probeFailed i =>
      match w.backend.probes[i]? with
      | some (.running _) =>
        some ({ w with backend := { w.backend with probes := w.backend.probes.set i .ended } }, [])
      | _ => none
    | .emitIdentified i =>
      match w.backend.probes[i]? with
      | some (.emitIdentified endpointId) =>
        some ({ w with
          backend := { w.backend with probes := w.backend.probes.set i .ended }
          events := w.events ++ [.identified endpointId] }, [])
      | _ => none
    | .discovery failure =>
      some ({ w with
        backend := { w.backend with unavailable := failure }
        events := w.events ++ failure.toList.map .unavailable }, [])
    | .deliver =>
      match w.events with
      | [] => none
      | event :: events => some ({ w with events := events }.hear event, [])
    | .hydrate => some ({ w with fetches := w.fetches ++ [.hydrate] }, [])
    | .answerList i => (w.answer i).map fun w => (w, [])
    | .answerStatus i => (w.answerStatus i).map fun w => (w, [])
    | .apply i => (w.apply localeCompare i).map fun w => (w, [])

/-! ## What is on the way -/

def idsOf (devices : List NearbyDevice) : List String := devices.map (·.endpointId)

/-- What an event tells of the registry's ids. -/
def NearbyEvent.news : NearbyEvent → Option (News String)
  | .found endpointId => some (.found endpointId)
  | .lost endpointId => some (.lost endpointId)
  | _ => none

/-- What the event loop is about to tell. -/
def LoopState.news : LoopState → List (News String)
  | .waiting => []
  | .emitFound endpointId => [.found endpointId]
  | .emitLost endpointId => [.lost endpointId]

/-- The refetch puts the row of this id into the store, or will be answered first. -/
def Fetch.brings (endpointId : String) : Fetch → Prop
  | .refresh id => id = endpointId
  | .refreshReplied id list => id = endpointId ∧ endpointId ∈ idsOf list
  | _ => False

instance (endpointId : String) : (fetch : Fetch) → Decidable (fetch.brings endpointId)
  | .refresh id => inferInstanceAs (Decidable (id = endpointId))
  | .refreshReplied id list => inferInstanceAs (Decidable (id = endpointId ∧ endpointId ∈ idsOf list))
  | .hydrate => .isFalse not_false
  | .hydrateListed _ => .isFalse not_false
  | .hydrateReplied _ _ => .isFalse not_false
  | .ended => .isFalse not_false

namespace World

/-- The arrivals and losses on the way to the listeners. -/
def news (w : World) : List (News String) :=
  w.events.filterMap NearbyEvent.news ++ w.backend.eventLoop.news

/-- The ids of the backend's registry, of the frontend's store, and those being refetched. -/
def listed (w : World) : Set String := {e | e ∈ idsOf w.backend.registry.list}

def shown (w : World) : Set String := {e | e ∈ idsOf w.store.devices}

def refetching (w : World) : Set String := {e | ∃ fetch ∈ w.fetches, fetch.brings e}

/-- No event and no fetch is outstanding. -/
structure Quiet (w : World) : Prop where
  events : w.events = []
  eventLoop : w.backend.eventLoop = .waiting
  probes : ∀ probe ∈ w.backend.probes, ∀ e, probe ≠ .emitIdentified e
  fetches : ∀ fetch ∈ w.fetches, fetch = .ended

end World

/-- A reply is used in time: what it has too much is still to be reported lost, and what a whole list
misses is still to be reported found, or is being refetched. -/
def InTime (w : World) : Fetch → Prop
  | .refreshReplied endpointId list => endpointId ∈ idsOf list →
      endpointId ∈ idsOf w.backend.registry.list ∨ .lost endpointId ∈ w.news
  | .hydrateReplied list _ =>
    (∀ e ∈ idsOf list, e ∈ idsOf w.backend.registry.list ∨ .lost e ∈ w.news) ∧
      ∀ e ∈ idsOf w.backend.registry.list, e ∈ idsOf list ∨ .found e ∈ w.news ∨
        ∃ fetch ∈ w.fetches, fetch.brings e
  | _ => True

/-- Replies are used in time, and a listed device that turns out to be paired is not shown, or is still
to be reported lost. -/
def OvertakesNothing (w : World) : Action → Prop
  | .appeared endpointId isPaired _ => isPaired = true →
      endpointId ∈ idsOf w.backend.registry.list → endpointId ∈ idsOf w.store.devices →
      .lost endpointId ∈ w.news
  | .apply i => ∀ fetch ∈ w.fetches[i]?, InTime w fetch
  | _ => True

instance (w : World) : (fetch : Fetch) → Decidable (InTime w fetch)
  | .refreshReplied _ _ => inferInstanceAs (Decidable (_ → _ ∨ _))
  | .hydrateReplied _ _ => inferInstanceAs (Decidable ((∀ _ ∈ _, _) ∧ ∀ _ ∈ _, _))
  | .refresh _ => .isTrue trivial
  | .hydrate => .isTrue trivial
  | .hydrateListed _ => .isTrue trivial
  | .ended => .isTrue trivial

instance (w : World) (a : Action) : Decidable (OvertakesNothing w a) :=
  match a with
  | .appeared _ _ _ => inferInstanceAs (Decidable (_ → _ → _ → _))
  | .apply i =>
    match h : w.fetches[i]? with
    | none => .isTrue fun fetch hfetch => by
      rw [h] at hfetch
      cases hfetch
    | some fetch =>
      decidable_of_iff (InTime w fetch) (by
        rw [OvertakesNothing, h]
        simp)
  | .vanished _ | .emit | .probeAnswered _ _ _ _ | .probeFailed _ | .emitIdentified _
  | .discovery _ | .deliver | .hydrate | .answerList _ | .answerStatus _ => .isTrue trivial

/-! ## The registry and the store as sets of ids -/

theorem mem_idsOf_list {registry : NearbyRegistry} {e : String} :
    e ∈ idsOf registry.list ↔ registry.Lists e := List.mem_map

theorem World.mem_listed {w : World} {e : String} : e ∈ w.listed ↔ w.backend.registry.Lists e :=
  mem_idsOf_list

theorem ne_of_fingerprint {endpointId : String}
    (h : ¬ (Protocol.shortFingerprint endpointId.toList).isNone = true) : endpointId ≠ "" := by
  rintro rfl
  exact h (by decide)

theorem observe_cases (registry : NearbyRegistry) (endpointId : String) (isPaired : Bool)
    (nowMs : Nat) :
    ((registry.observe endpointId isPaired nowMs).1 = .probeNeeded ∧ endpointId ≠ "" ∧
      ∀ e, (registry.observe endpointId isPaired nowMs).2.Lists e ↔
        e = endpointId ∨ registry.Lists e) ∨
    ((registry.observe endpointId isPaired nowMs).1 = .paired ∧ isPaired = true ∧
      ∀ e, (registry.observe endpointId isPaired nowMs).2.Lists e ↔
        registry.Lists e ∧ e ≠ endpointId) ∨
    ((registry.observe endpointId isPaired nowMs).1 ≠ .probeNeeded ∧
      ∀ e, (registry.observe endpointId isPaired nowMs).2.Lists e ↔ registry.Lists e) := by
  unfold NearbyRegistry.observe
  split
  · exact Or.inr (Or.inr ⟨by simp, fun e => Iff.rfl⟩)
  · rename_i hvalid
    split
    · rename_i hpaired
      exact Or.inr (Or.inl ⟨rfl, hpaired, fun e => NearbyRegistry.lists_remove⟩)
    · split
      · split
        · exact Or.inr (Or.inr ⟨by simp, fun e => Iff.rfl⟩)
        · exact Or.inr (Or.inr ⟨by simp, fun e => NearbyRegistry.lists_update fun t => rfl⟩)
      · refine Or.inl ⟨rfl, ne_of_fingerprint hvalid, ?_⟩
        intro e
        rw [NearbyRegistry.lists_iff, NearbyRegistry.lists_iff]
        constructor
        · rintro ⟨t, ht, rfl⟩
          rcases NearbyRegistry.mem_insertSorted.mp ht with rfl | ht
          · exact Or.inl rfl
          · exact Or.inr ⟨t, ht, rfl⟩
        · rintro (rfl | ⟨t, ht, rfl⟩)
          · exact ⟨_, NearbyRegistry.mem_insertSorted.mpr (Or.inl rfl), rfl⟩
          · exact ⟨t, NearbyRegistry.mem_insertSorted.mpr (Or.inr ht), rfl⟩

theorem expire_fst {registry : NearbyRegistry} {endpointId : String} :
    (registry.expire endpointId).1 = true ↔ registry.Lists endpointId := by
  rw [NearbyRegistry.expire, NearbyRegistry.find, List.find?_isSome, NearbyRegistry.lists_iff]
  simp only [beq_iff_eq]

variable {localeCompare : String → String → Int}

theorem mem_idsOf_sort {devices : List NearbyDevice} {e : String} :
    e ∈ idsOf (sortDevices localeCompare devices) ↔ e ∈ idsOf devices :=
  ((List.perm_insertionSort _ devices).map (·.endpointId)).mem_iff

theorem mem_idsOf_remove (store : NearbyStore) (endpointId e : String) :
    e ∈ idsOf (store.remove endpointId).devices ↔ e ∈ idsOf store.devices ∧ e ≠ endpointId := by
  simp only [idsOf, NearbyStore.remove, List.mem_map, List.mem_filter, decide_eq_true_eq]
  constructor
  · rintro ⟨d, ⟨hd, hne⟩, rfl⟩
    exact ⟨⟨d, hd, rfl⟩, hne⟩
  · rintro ⟨⟨d, hd, rfl⟩, hne⟩
    exact ⟨d, ⟨hd, hne⟩, rfl⟩

theorem mem_idsOf_upsert {store : NearbyStore} {device : NearbyDevice} {e : String} :
    e ∈ idsOf (store.upsert localeCompare device).devices ↔
      e = device.endpointId ∨ e ∈ idsOf store.devices := by
  have hremove := mem_idsOf_remove store device.endpointId e
  rw [NearbyStore.upsert, mem_idsOf_sort, idsOf, List.map_append, List.mem_append]
  rw [NearbyStore.remove, idsOf] at hremove
  rw [hremove]
  simp only [List.map_singleton, List.mem_singleton]
  by_cases h : e = device.endpointId <;> simp [h]

theorem mem_idsOf_refreshOne {store : NearbyStore} {endpointId : String}
    {list : List NearbyDevice} {e : String} :
    e ∈ idsOf (store.refreshOne localeCompare endpointId list).devices ↔
      (e = endpointId ∧ endpointId ∈ idsOf list) ∨ e ∈ idsOf store.devices := by
  rw [NearbyStore.refreshOne]
  cases hfound : list.find? fun d => decide (d.endpointId = endpointId) with
  | none =>
    have hnot : endpointId ∉ idsOf list := by
      intro hmem
      obtain ⟨d, hd, heq⟩ := List.mem_map.mp hmem
      exact absurd (decide_eq_true heq) (List.find?_eq_none.mp hfound d hd)
    simp [hnot]
  | some found =>
    have hfits := List.find?_some hfound
    have heq : found.endpointId = endpointId := of_decide_eq_true hfits
    have hmem : endpointId ∈ idsOf list :=
      heq ▸ List.mem_map_of_mem (List.mem_of_find?_eq_some hfound)
    simp only [mem_idsOf_upsert, heq, hmem, and_true]

/-! ## One step -/

/-- The two lists differ only in what is still to be told, and every id on the way is one. -/
structure InSync (w : World) : Prop where
  synced : Synced w.listed w.shown w.refetching w.news
  named : ∀ e ∈ w.listed, e ≠ ""
  told : ∀ e, .found e ∈ w.news ∨ .lost e ∈ w.news → e ≠ ""

theorem inSync_initial : InSync .initial := by
  have hlisted : World.initial.listed = ∅ := by
    ext e
    rw [World.mem_listed]
    exact iff_of_false (NearbyRegistry.not_lists_new e) (Set.notMem_empty e)
  have hshown : World.initial.shown = ∅ := by
    ext e
    exact iff_of_false List.not_mem_nil (Set.notMem_empty e)
  have hrefetching : World.initial.refetching = ∅ := by
    ext e
    simp [World.refetching, World.initial]
  refine ⟨?_, ?_, ?_⟩
  · rw [hlisted, hshown, hrefetching]
    exact .empty
  · intro e he
    rw [hlisted] at he
    exact absurd he (Set.notMem_empty e)
  · rintro e (h | h) <;> cases h

theorem InSync.congr {w w' : World} (h : InSync w) (hlisted : w'.listed = w.listed)
    (hshown : w'.shown = w.shown) (hnews : w'.news = w.news)
    (hrefetching : ∀ e ∈ w.listed, e ∈ w.refetching → e ∈ w'.refetching) : InSync w' := by
  refine ⟨?_, ?_, ?_⟩
  · rw [hlisted, hshown, hnews]
    exact h.synced.mono hrefetching
  · rw [hlisted]
    exact h.named
  · rw [hnews]
    exact h.told

theorem brings_set {fetches : List Fetch} {i : Nat} {old new : Fetch} {e : String}
    (hi : fetches[i]? = some old) (hold : old.brings e → new.brings e)
    (h : ∃ fetch ∈ fetches, fetch.brings e) : ∃ fetch ∈ fetches.set i new, fetch.brings e := by
  obtain ⟨fetch, hfetch, hbrings⟩ := h
  by_cases heq : fetch = old
  · subst heq
    exact ⟨new, mem_set_self hi new, hold hbrings⟩
  · exact ⟨fetch, mem_set_of_ne hi hfetch heq new, hbrings⟩

/-! ### An arrival seen by the event loop -/

section

variable (w : World) (endpointId : String) (isPaired : Bool) (nowMs : Nat)

theorem appear_registry : (w.appear endpointId isPaired nowMs).1.backend.registry =
    (w.backend.registry.observe endpointId isPaired nowMs).2 := by
  unfold World.appear
  dsimp only
  split <;> rfl

theorem appear_shown : (w.appear endpointId isPaired nowMs).1.shown = w.shown := by
  unfold World.appear
  dsimp only
  split <;> rfl

theorem appear_refetching : (w.appear endpointId isPaired nowMs).1.refetching = w.refetching := by
  unfold World.appear
  dsimp only
  split <;> rfl

theorem appear_news (hwaiting : w.backend.eventLoop = .waiting) :
    (w.appear endpointId isPaired nowMs).1.news =
      w.news ++ if (w.backend.registry.observe endpointId isPaired nowMs).1 = .probeNeeded then
        [.found endpointId] else [] := by
  unfold World.appear
  dsimp only
  split
  · rename_i hprobe
    rw [if_pos hprobe, World.news, World.news, hwaiting, LoopState.news, List.append_nil]
    rfl
  all_goals
    rename_i hother
    rw [hother, if_neg (by simp), List.append_nil]
    rfl

end

theorem InSync.appear {w : World} (h : InSync w) (hwaiting : w.backend.eventLoop = .waiting)
    {endpointId : String} {isPaired : Bool} {nowMs : Nat}
    (hok : OvertakesNothing w (.appeared endpointId isPaired nowMs)) :
    InSync (w.appear endpointId isPaired nowMs).1 := by
  have hshown := appear_shown w endpointId isPaired nowMs
  have hrefetching := appear_refetching w endpointId isPaired nowMs
  have hnews := appear_news w endpointId isPaired nowMs hwaiting
  have hlisted : ∀ e, e ∈ (w.appear endpointId isPaired nowMs).1.listed ↔
      (w.backend.registry.observe endpointId isPaired nowMs).2.Lists e := by
    intro e
    rw [World.mem_listed, appear_registry]
  rcases observe_cases w.backend.registry endpointId isPaired nowMs with
    ⟨hprobe, hne, hlists⟩ | ⟨hpaired, htrue, hlists⟩ | ⟨hother, hlists⟩
  · have hinsert : (w.appear endpointId isPaired nowMs).1.listed = insert endpointId w.listed := by
      ext e
      rw [hlisted, hlists, Set.mem_insert_iff, World.mem_listed]
    rw [if_pos hprobe] at hnews
    refine ⟨?_, ?_, ?_⟩
    · rw [hinsert, hshown, hrefetching, hnews]
      exact h.synced.came endpointId
    · intro e he
      rw [hinsert] at he
      rcases Set.mem_insert_iff.mp he with rfl | he
      · exact hne
      · exact h.named e he
    · intro e he
      rw [hnews, List.mem_append, List.mem_append, List.mem_singleton, List.mem_singleton] at he
      rcases he with (he | he) | (he | he)
      · exact h.told e (Or.inl he)
      · cases he
        exact hne
      · exact h.told e (Or.inr he)
      · cases he
  · have hremove : (w.appear endpointId isPaired nowMs).1.listed = w.listed \ {endpointId} := by
      ext e
      rw [hlisted, hlists, Set.mem_sdiff, Set.mem_singleton_iff, World.mem_listed]
    rw [hpaired, if_neg (by simp), List.append_nil] at hnews
    refine ⟨?_, ?_, ?_⟩
    · rw [hremove, hshown, hrefetching, hnews]
      exact h.synced.dropped (hok htrue)
    · intro e he
      rw [hremove] at he
      exact h.named e he.1
    · rw [hnews]
      exact h.told
  · rw [if_neg hother, List.append_nil] at hnews
    refine h.congr ?_ hshown hnews ?_
    · ext e
      rw [hlisted, hlists, World.mem_listed]
    · rw [hrefetching]
      exact fun e _ he => he

theorem InSync.vanish {w : World} (h : InSync w) (hwaiting : w.backend.eventLoop = .waiting)
    (endpointId : String) : InSync (w.vanish endpointId) := by
  have hregistry : (w.vanish endpointId).backend.registry =
      w.backend.registry.remove endpointId := by
    unfold World.vanish
    dsimp only
    split <;> rfl
  have hlisted : (w.vanish endpointId).listed = w.listed \ {endpointId} := by
    ext e
    rw [World.mem_listed, hregistry, NearbyRegistry.lists_remove, Set.mem_sdiff,
      Set.mem_singleton_iff, World.mem_listed]
  by_cases hexpired : (w.backend.registry.expire endpointId).1 = true
  · have hmem : endpointId ∈ w.listed := mem_idsOf_list.mpr (expire_fst.mp hexpired)
    have hnews : (w.vanish endpointId).news = w.news ++ [.lost endpointId] := by
      rw [World.vanish]
      simp only [hexpired, if_true, World.news, hwaiting, LoopState.news, List.append_nil]
    refine ⟨?_, ?_, ?_⟩
    · rw [hlisted, hnews]
      exact h.synced.went endpointId
    · intro e he
      rw [hlisted] at he
      exact h.named e he.1
    · intro e he
      rw [hnews, List.mem_append, List.mem_append, List.mem_singleton, List.mem_singleton] at he
      rcases he with (he | he) | (he | he)
      · exact h.told e (Or.inl he)
      · cases he
      · exact h.told e (Or.inr he)
      · cases he
        exact h.named _ hmem
  · have hnot : endpointId ∉ w.listed := fun hmem =>
      hexpired (expire_fst.mpr (mem_idsOf_list.mp hmem))
    refine h.congr ?_ rfl ?_ fun e _ he => he
    · rw [hlisted]
      exact Set.sdiff_singleton_eq_self hnot
    · rw [World.vanish]
      simp only [hexpired, Bool.false_eq_true, if_false]
      rfl

theorem InSync.emit {w w' : World} (h : InSync w) (hstep : w.emit = some w') : InSync w' := by
  unfold World.emit at hstep
  split at hstep
  · cases hstep
  · rename_i endpointId hloop
    obtain rfl := Option.some.inj hstep
    refine h.congr rfl rfl ?_ fun e _ he => he
    simp [World.news, hloop, LoopState.news, NearbyEvent.news]
  · rename_i endpointId hloop
    obtain rfl := Option.some.inj hstep
    refine h.congr rfl rfl ?_ fun e _ he => he
    simp [World.news, hloop, LoopState.news, NearbyEvent.news]

theorem InSync.answerProbe {w : World} (h : InSync w) (i : Nat)
    (endpointId displayName deviceType os : String) :
    InSync (w.answerProbe i endpointId displayName deviceType os) := by
  refine h.congr ?_ rfl rfl fun e _ he => he
  ext e
  rw [World.mem_listed, World.mem_listed]
  exact NearbyRegistry.lists_setIdentity

/-- An event of an arrival or a loss is heard first among the news. -/
theorem InSync.hear {w : World} {event : NearbyEvent} {events : List NearbyEvent} (h : InSync w)
    (hevents : w.events = event :: events) : InSync ({ w with events := events }.hear event) := by
  have hnews : w.news = event.news.toList ++ World.news { w with events := events } := by
    rw [World.news, hevents, List.filterMap_cons, World.news]
    cases event.news <;> rfl
  have htold : ∀ e, .found e ∈ World.news { w with events := events } ∨
      .lost e ∈ World.news { w with events := events } → e ≠ "" := by
    intro e he
    refine h.told e ?_
    rw [hnews]
    exact he.imp (List.mem_append_right _) (List.mem_append_right _)
  cases event with
  | unavailable reason => exact h.congr rfl rfl hnews.symm fun e _ he => he
  | identified endpointId =>
    rw [World.hear]
    split
    · exact h.congr rfl rfl hnews.symm fun e _ he => he
    · refine h.congr rfl rfl hnews.symm ?_
      rintro e - ⟨fetch, hfetch, hbrings⟩
      exact ⟨fetch, List.mem_append_left _ hfetch, hbrings⟩
  | found endpointId =>
    have hne : endpointId ≠ "" := by
      apply h.told endpointId
      rw [hnews]
      exact Or.inl List.mem_cons_self
    rw [World.hear, if_neg hne]
    have hsynced := h.synced
    rw [hnews] at hsynced
    refine ⟨hsynced.heardFound.mono ?_, h.named, htold⟩
    intro e _ he
    rcases Set.mem_insert_iff.mp he with rfl | ⟨fetch, hfetch, hbrings⟩
    · exact ⟨.refresh e, List.mem_append_right _ (List.mem_singleton_self _), rfl⟩
    · exact ⟨fetch, List.mem_append_left _ hfetch, hbrings⟩
  | lost endpointId =>
    have hne : endpointId ≠ "" := by
      apply h.told endpointId
      rw [hnews]
      exact Or.inr List.mem_cons_self
    rw [World.hear, if_neg hne]
    have hsynced := h.synced
    rw [hnews] at hsynced
    refine ⟨?_, h.named, htold⟩
    have hshown : World.shown { w with events := events, store := w.store.remove endpointId } =
        w.shown \ {endpointId} := by
      ext e
      exact mem_idsOf_remove w.store endpointId e
    have hlost := hsynced.heardLost
    rw [← hshown] at hlost
    exact hlost

/-- The backend's answer lists what the registry lists. -/
theorem InSync.answer {w w' : World} {i : Nat} (h : InSync w) (hstep : w.answer i = some w') :
    InSync w' := by
  unfold World.answer at hstep
  split at hstep
  · rename_i endpointId hfetch
    obtain rfl := Option.some.inj hstep
    refine h.congr rfl rfl rfl ?_
    intro e hlisted he
    refine brings_set hfetch ?_ he
    intro hold
    obtain rfl : endpointId = e := hold
    exact ⟨rfl, hlisted⟩
  · rename_i hfetch
    obtain rfl := Option.some.inj hstep
    refine h.congr rfl rfl rfl ?_
    intro e _ he
    exact brings_set hfetch (fun hold => hold.elim) he
  · cases hstep

theorem InSync.answerStatus {w w' : World} {i : Nat} (h : InSync w)
    (hstep : w.answerStatus i = some w') : InSync w' := by
  unfold World.answerStatus at hstep
  split at hstep
  · rename_i list hfetch
    obtain rfl := Option.some.inj hstep
    refine h.congr rfl rfl rfl ?_
    intro e _ he
    exact brings_set hfetch (fun hold => hold.elim) he
  · cases hstep

theorem InSync.apply {w w' : World} {i : Nat} (h : InSync w)
    (hok : OvertakesNothing w (.apply i)) (hstep : w.apply localeCompare i = some w') :
    InSync w' := by
  unfold World.apply at hstep
  split at hstep
  · rename_i endpointId list hfetch
    have hintime : InTime w (.refreshReplied endpointId list) := hok _ hfetch
    obtain rfl := Option.some.inj hstep
    by_cases hmem : endpointId ∈ idsOf list
    · have hshown : World.shown { w with
          store := w.store.refreshOne localeCompare endpointId list
          fetches := w.fetches.set i .ended } = insert endpointId w.shown := by
        ext e
        refine mem_idsOf_refreshOne.trans ?_
        rw [and_iff_left hmem]
        exact (Set.mem_insert_iff (s := w.shown)).symm
      refine ⟨?_, h.named, h.told⟩
      rw [hshown]
      refine h.synced.refetched (hintime hmem) ?_
      rintro e ⟨he, hne⟩
      refine brings_set hfetch ?_ he
      rintro ⟨rfl, -⟩
      exact absurd rfl hne
    · refine h.congr rfl ?_ rfl ?_
      · ext e
        refine mem_idsOf_refreshOne.trans ?_
        constructor
        · rintro (⟨-, hlisted⟩ | he)
          · exact absurd hlisted hmem
          · exact he
        · exact Or.inr
      · intro e _ he
        refine brings_set hfetch ?_ he
        rintro ⟨rfl, hlisted⟩
        exact absurd hlisted hmem
  · rename_i list reason hfetch
    have hintime : InTime w (.hydrateReplied list reason) := hok _ hfetch
    obtain rfl := Option.some.inj hstep
    have hshown : World.shown { w with
        store := .overwrite localeCompare list reason
        fetches := w.fetches.set i .ended } = {e | e ∈ idsOf list} := by
      ext e
      exact mem_idsOf_sort
    refine ⟨?_, h.named, h.told⟩
    rw [hshown]
    refine (h.synced.overwritten hintime.1 hintime.2).mono ?_
    intro e _ he
    exact brings_set hfetch (fun hold => hold.elim) he
  · cases hstep

theorem InSync.step {w w' : World} {a : Action} {out : List Output} (h : InSync w)
    (hok : OvertakesNothing w a) (hstep : (nearbyMachine localeCompare).step w a = some (w', out)) :
    InSync w' := by
  cases a with
  | appeared endpointId isPaired nowMs =>
    simp only [nearbyMachine] at hstep
    split at hstep
    · rename_i hwaiting
      obtain rfl := congrArg Prod.fst (Option.some.inj hstep)
      exact h.appear hwaiting hok
    · cases hstep
  | vanished endpointId =>
    simp only [nearbyMachine] at hstep
    split at hstep
    · rename_i hwaiting
      obtain ⟨rfl, -⟩ := Prod.mk.inj (Option.some.inj hstep)
      exact h.vanish hwaiting endpointId
    · cases hstep
  | emit =>
    obtain ⟨v, hv, heq⟩ := Option.map_eq_some_iff.mp hstep
    obtain ⟨rfl, -⟩ := Prod.mk.inj heq
    exact h.emit hv
  | probeAnswered i displayName deviceType os =>
    simp only [nearbyMachine] at hstep
    split at hstep
    · obtain ⟨rfl, -⟩ := Prod.mk.inj (Option.some.inj hstep)
      exact h.answerProbe i _ displayName deviceType os
    · cases hstep
  | probeFailed i =>
    simp only [nearbyMachine] at hstep
    split at hstep
    · obtain ⟨rfl, -⟩ := Prod.mk.inj (Option.some.inj hstep)
      exact h.congr rfl rfl rfl fun e _ he => he
    · cases hstep
  | emitIdentified i =>
    simp only [nearbyMachine] at hstep
    split at hstep
    · obtain ⟨rfl, -⟩ := Prod.mk.inj (Option.some.inj hstep)
      refine h.congr rfl rfl ?_ fun e _ he => he
      simp [World.news, NearbyEvent.news]
    · cases hstep
  | discovery failure =>
    obtain ⟨rfl, -⟩ := Prod.mk.inj (Option.some.inj hstep)
    refine h.congr rfl rfl ?_ fun e _ he => he
    cases failure <;> simp [World.news, NearbyEvent.news]
  | deliver =>
    simp only [nearbyMachine] at hstep
    split at hstep
    · cases hstep
    · rename_i event events hevents
      obtain ⟨rfl, -⟩ := Prod.mk.inj (Option.some.inj hstep)
      exact h.hear hevents
  | hydrate =>
    obtain ⟨rfl, -⟩ := Prod.mk.inj (Option.some.inj hstep)
    refine h.congr rfl rfl rfl ?_
    rintro e - ⟨fetch, hfetch, hbrings⟩
    exact ⟨fetch, List.mem_append_left _ hfetch, hbrings⟩
  | answerList i =>
    obtain ⟨v, hv, heq⟩ := Option.map_eq_some_iff.mp hstep
    obtain ⟨rfl, -⟩ := Prod.mk.inj heq
    exact h.answer hv
  | answerStatus i =>
    obtain ⟨v, hv, heq⟩ := Option.map_eq_some_iff.mp hstep
    obtain ⟨rfl, -⟩ := Prod.mk.inj heq
    exact h.answerStatus hv
  | apply i =>
    obtain ⟨v, hv, heq⟩ := Option.map_eq_some_iff.mp hstep
    obtain ⟨rfl, -⟩ := Prod.mk.inj heq
    exact h.apply hok hv

/-! ## Runs -/

/-- In every run in which nothing is overtaken, once no event and no fetch is outstanding the store lists
the ids that the registry lists. -/
theorem nearby_converges {tr : List (Entry World Action Output)} {w : World}
    (hrun : Run (nearbyMachine localeCompare) OvertakesNothing .initial tr w) (hquiet : w.Quiet) :
    ∀ e, e ∈ idsOf w.store.devices ↔ e ∈ idsOf w.backend.registry.list := by
  have hsync : InSync w :=
    hrun.stateInvariant inSync_initial fun h hok hstep => h.step hok hstep
  have hnews : w.news = [] := by
    rw [World.news, hquiet.events, hquiet.eventLoop]
    rfl
  have hrefetching : ∀ e, e ∉ w.refetching := by
    rintro e ⟨fetch, hfetch, hbrings⟩
    rw [hquiet.fetches fetch hfetch] at hbrings
    exact hbrings
  have hsame := hsync.synced.eq_of_quiet hnews hrefetching
  intro e
  have hmem : e ∈ w.shown ↔ e ∈ w.listed := by rw [hsame]
  exact hmem

def device : String := "0123456789abcdef0123456789abcdef0123456789abcdef0123456789abcdef"

def compareIds (a b : String) : Int := if a < b then -1 else if a = b then 0 else 1

theorem quiet_of_ended {w : World} (hevents : w.events = []) (hloop : w.backend.eventLoop = .waiting)
    (hprobes : w.backend.probes = [.ended]) (hfetches : w.fetches = [.ended]) : w.Quiet := by
  refine ⟨hevents, hloop, ?_, ?_⟩
  · intro probe hprobe e heq
    rw [hprobes, List.mem_singleton] at hprobe
    rw [hprobe] at heq
    cases heq
  · intro fetch hfetch
    rw [hfetches, List.mem_singleton] at hfetch
    exact hfetch

/-- A device appears, its event is heard, and the refetch is answered and used. -/
def arrival : List Action :=
  [.appeared device false 0, .emit, .deliver, .answerList 0, .apply 0, .probeFailed 0]

theorem nearby_converges_arrival :
    ∃ tr w, Run (nearbyMachine compareIds) OvertakesNothing .initial tr w ∧ w.Quiet ∧
      idsOf w.backend.registry.list = [device] ∧ device ∈ idsOf w.store.devices := by
  obtain ⟨tr, w, hrun, htest⟩ := Run.of_check (nearbyMachine compareIds) OvertakesNothing .initial
    arrival (fun _ w => decide (w.events = [] ∧ w.backend.eventLoop = .waiting ∧
      w.backend.probes = [.ended] ∧ w.fetches = [.ended] ∧
      idsOf w.backend.registry.list = [device])) (by decide +kernel)
  obtain ⟨hevents, hloop, hprobes, hfetches, hlisted⟩ := of_decide_eq_true htest
  have hquiet := quiet_of_ended hevents hloop hprobes hfetches
  refine ⟨tr, w, hrun, hquiet, hlisted, (nearby_converges hrun hquiet device).mpr ?_⟩
  rw [hlisted]
  exact List.mem_singleton_self _

/-- The refetch of a device is answered, the device vanishes and is dropped, and then the reply is
used. -/
def lateReply : List Action :=
  [.appeared device false 0, .emit, .deliver, .answerList 0, .probeFailed 0, .vanished device, .emit,
    .deliver, .apply 0]

/-- The device that is gone is listed again. -/
theorem nearby_not_converges :
    ¬ ∀ (localeCompare : String → String → Int) (tr : List (Entry World Action Output)) (w : World),
      Run (nearbyMachine localeCompare) anyStep .initial tr w → w.Quiet →
      ∀ e, e ∈ idsOf w.store.devices ↔ e ∈ idsOf w.backend.registry.list := by
  intro h
  obtain ⟨tr, w, hrun, htest⟩ := Run.of_check (nearbyMachine compareIds) anyStep .initial lateReply
    (fun _ w => decide (w.events = [] ∧ w.backend.eventLoop = .waiting ∧
      w.backend.probes = [.ended] ∧ w.fetches = [.ended] ∧
      idsOf w.backend.registry.list = [] ∧ idsOf w.store.devices = [device])) (by decide +kernel)
  obtain ⟨hevents, hloop, hprobes, hfetches, hlisted, hshown⟩ := of_decide_eq_true htest
  have hquiet := quiet_of_ended hevents hloop hprobes hfetches
  have hsame := h compareIds tr w hrun hquiet device
  rw [hlisted, hshown] at hsame
  exact List.not_mem_nil (hsame.mp (List.mem_singleton_self _))

end DashBeam.Frontend.Nearby
