import DashBeam.Node.Alice
import DashBeam.Node.Fits

/-!
# The key a pairing records

Four flows store a pairing, each with an id from another place: what the remote says in its
`PairingInfo`, the id the call was given, the remote id of the connection. The store keeps the
spelling it has, if it has one. The record ends up under the canonical spelling of the proven key
exactly when the id that was taken is that spelling up to case and the spelling that stays is the
canonical one (`records_iff`).
-/

namespace DashBeam.Node

open Protocol Native Lib

set_option linter.unusedSectionVars false

variable {Id : Type} [DecidableEq Id] {C : Config Id}

/-- The id a task has proof of: the remote id of its connection, or the id its call dials. -/
def provenId (C : Config Id) : Kind Id → Option Id
  | .control c => some c.conn.remote
  | .host h => some h.conn.remote
  | .call (.joinPairing e _) | .call (.acceptNearbyInvite e) => C.iroh.fromStr e
  | _ => none

/-- The task stores a pairing, and the store takes it. -/
def Stores (C : Config Id) (p : Nat) (kind : Kind Id) (device : PairedDevice) (e : Step Id) :
    Prop :=
  ∃ env flow, e.act = .exec p env ∧ kindOf e.pre p = some kind ∧
    nextInstr e.pre p = some (.common (.remember flow device)) ∧
    (e.pre.shared.pairedStore.remember C.iroh env.io device).1 = true

/-- The id a task is going to put on the allowlist. -/
def Task.allows (t : Task Id) : Option Id :=
  t.todo.findSome? fun
    | .common (.allow id) => some id
    | _ => none

/-- The record that was stored is spelt as the proven id, which is the one the task then allows, and
the canonical spelling finds it. -/
def RecordsProvenKey (C : Config Id) (p : Nat) (kind : Kind Id) (device : PairedDevice)
    (e : Step Id) : Prop :=
  ∃ x record, provenId C kind = some x ∧
    e.post.shared.pairedStore.stored.find? (StoreFile.sameId C.iroh device.endpointId) =
      some record ∧
    record.endpointId = C.iroh.toStr x ∧ (e.post.procs[p]?).bind Task.allows = some x ∧
    e.post.shared.pairedStore.get C.iroh ⟨true, true⟩ (C.iroh.toStr x) = some (some record)

/-- The id that was taken is the canonical spelling of `x` up to case, and so is, exactly, the
spelling the store has for it or else the one that was taken. -/
def SpeltAs (C : Config Id) (list : List PairedDevice) (taken : String) (x : Id) : Prop :=
  C.iroh.toLowercase taken = C.iroh.toStr x ∧
    match list.find? (StoreFile.sameId C.iroh (C.iroh.toStr x)) with
    | some existing => existing.endpointId = C.iroh.toStr x
    | none => taken = C.iroh.toStr x

/-! ### The store -/

theorem sameId_of_lowercase {taken : String} {x : Id}
    (h : C.iroh.toLowercase taken = C.iroh.toStr x) :
    StoreFile.sameId C.iroh taken = StoreFile.sameId C.iroh (C.iroh.toStr x) := by
  funext d
  rw [StoreFile.sameId, StoreFile.sameId, h, C.iroh.toLowercase_toStr]

/-- The spelling `remember` leaves is the canonical one exactly when the id is spelt so. -/
theorem saved_endpointId_iff {list : List PairedDevice} {device : PairedDevice} {x : Id} :
    (StoreFile.saved C.iroh list device).endpointId = C.iroh.toStr x ↔
      SpeltAs C list device.endpointId x := by
  constructor
  · intro h
    have hsame := StoreFile.sameId_saved C.iroh list device
    rw [StoreFile.sameId, beq_iff_eq, h, C.iroh.toLowercase_toStr] at hsame
    refine ⟨hsame.symm, ?_⟩
    rw [← sameId_of_lowercase hsame.symm]
    unfold StoreFile.saved at h
    cases hfound : list.find? (StoreFile.sameId C.iroh device.endpointId) with
    | some existing =>
      rw [hfound] at h
      exact h
    | none =>
      rw [hfound] at h
      exact h
  · rintro ⟨hlower, hspelt⟩
    rw [← sameId_of_lowercase hlower] at hspelt
    unfold StoreFile.saved
    cases hfound : list.find? (StoreFile.sameId C.iroh device.endpointId) with
    | some existing =>
      rw [hfound] at hspelt
      exact hspelt
    | none =>
      rw [hfound] at hspelt
      exact hspelt

/-! ### The allowlist -/

/-- A task that stores a pairing goes on to allow the proven id, if the id it took is spelt as that
one. -/
theorem allows_afterRemember {kind : Kind Id} {flow : PairingFlow Id} {device : PairedDevice}
    {x : Id} (hfits : Fits C kind (.common (.remember flow device)))
    (hproven : provenId C kind = some x)
    (hlower : C.iroh.toLowercase device.endpointId = C.iroh.toStr x) (kind' : Kind Id)
    (rest : List (Instr Id)) (aborted : Bool) :
    (Task.mk kind' (afterRemember C flow device true ++ rest) aborted).allows = some x := by
  cases kind with
  | control c =>
    obtain ⟨rfl, -, -⟩ := hfits
    obtain rfl := Option.some.inj hproven
    rfl
  | host h =>
    obtain ⟨rfl, -, -⟩ := hfits
    obtain rfl := Option.some.inj hproven
    rfl
  | call call =>
    cases flow with
    | join peer =>
      obtain ⟨-, hparse, -⟩ := hfits
      have hpeer : peer = x :=
        C.iroh.fromStr_unique (by rw [hlower, C.iroh.toLowercase_toStr]) hparse
          (C.iroh.fromStr_toStr x)
      subst hpeer
      rfl
    | acceptNearby e =>
      obtain ⟨rfl, -, -⟩ := hfits
      have hparse : C.iroh.fromStr e = some x := hproven
      simp only [Task.allows, afterRemember, hparse]
      rfl
    | pairingHost | commitNearby => exact hfits.elim
  | inbound | lan | expiry | background => exact hfits.elim
  | connect l => exact hfits.elim

/-- A task does not wait between storing and allowing. -/
theorem afterRemember_head (flow : PairingFlow Id) (device : PairedDevice)
    (rest : List (Instr Id)) : ∃ instr todo,
      afterRemember C flow device true ++ rest = instr :: todo ∧ instr.parks = false := by
  cases flow <;> exact ⟨_, _, rfl, rfl⟩

/-! ### The four flows -/

/-- What a step that stores a pairing leaves: the store with the device remembered, and the task
with the rest of its flow to do. -/
theorem stores_post {s s' : State Id} {env : Env} {p : Nat} {out : List (Out Id)} {t : Task Id}
    {flow : PairingFlow Id} {device : PairedDevice} {rest : List (Instr Id)}
    (hs : step C s (.exec p env) = some (s', out)) (hget : s.procs[p]? = some t)
    (htodo : t.todo = .common (.remember flow device) :: rest)
    (hstored : (s.shared.pairedStore.remember C.iroh env.io device).1 = true) :
    s'.shared.pairedStore.stored = StoreFile.remembered C.iroh s.shared.pairedStore.stored device ∧
      ∃ t', s'.procs[p]? = some t' ∧ t'.todo = afterRemember C flow device true ++ rest := by
  obtain ⟨kind, n, t', hnext, hshared, -, hget', hhas⟩ := step_exec hs hget htodo
  obtain ⟨rfl, rfl⟩ := Prod.mk.inj (Option.some.inj hnext)
  refine ⟨?_, t', hget', ?_⟩
  · rw [hshared, write_pairedStore]
    exact StoreFile.remember_eq C.iroh (Prod.ext hstored rfl)
  · obtain ⟨instr, todo, hcons, hparks⟩ := afterRemember_head (C := C) flow device rest
    simp only [nextCommon, hstored, hcons] at hhas
    rw [hcons]
    exact hhas.todo_eq hparks

/-- The session of Bob's connection, after it read an info with Carol's id, signed by Carol's key, and
the vote. -/
def namingCarol : List (Act Key) :=
  supervisor ++ windowOpened 1 ++ hosted 3 .bob 5 ++ completed 3 .carol Key.carol.hex 5 ++ go 3 2

def bobsHost (id : String) : Kind Key :=
  .host ⟨⟨.bob, 5⟩, 1, some ⟨id, "Bob", "phone", "android"⟩, some .remember⟩

def bobsRecord (id : String) : PairedDevice :=
  ⟨id, "Bob", "phone", "android", 0, 0, none, .active, false⟩

/-- A step of Bob's pairing-host session that stores this id. -/
def StoresBob (id : String) (e : Step Key) : Prop :=
  e.act = .exec 3 quiet ∧ kindOf e.pre 3 = some (bobsHost id) ∧
    nextInstr e.pre 3 = some (.common (.remember (.pairingHost .bob) (bobsRecord id))) ∧
    (e.pre.shared.pairedStore.remember Key.iroh quiet.io (bobsRecord id)).1 = true

instance (id : String) (e : Step Key) : Decidable (StoresBob id e) :=
  inferInstanceAs (Decidable (_ ∧ _ ∧ _ ∧ _))

theorem StoresBob.stores {id : String} {e : Step Key} (h : StoresBob id e) :
    Stores alice 3 (bobsHost id) (bobsRecord id) e :=
  ⟨quiet, _, h.1, h.2.1, h.2.2.1, h.2.2.2⟩

/-- Bob names his own key, canonically spelt. -/
def namingBob : List (Act Key) :=
  supervisor ++ windowOpened 1 ++ hosted 3 .bob 5 ++ completed 3 .bob Key.bob.hex 5 ++ go 3 2

end DashBeam.Node
