import DashBeam.Node.Aborts
import DashBeam.Node.Alice
import DashBeam.Node.Faithful

/-!
# Connect loops of connectable devices

`refresh` starts a connect loop for every connectable record that has no entry in the task map, and
keeps the entries it finds without asking whether their loops have ended. A loop ends itself when its
record is not active, which is less than connectable, and after a remote unpair. So every connectable
device has a live loop after a `refresh` in the runs in which a loop ends itself only when no
connectable record of its id is left, and a device is paired again only after its ended loop was taken
out of the map (`connectable_live`).
-/

namespace DashBeam.Node

open Protocol Native Lib

set_option linter.unusedSectionVars false

variable {Id : Type} [DecidableEq Id] {C : Config Id}

/-! ### The property -/

def Kind.loopsFor (C : Config Id) (key : String) : Kind Id → Bool
  | .connect l => C.key l.endpointId = key
  | _ => false

/-- The task map has an entry for the key, and the connect loop it names was not aborted and has not
ended. -/
def LoopLive (C : Config Id) (s : State Id) (key : String) : Prop :=
  ∃ pid ∈ s.shared.tasks.lookup key, ∃ t ∈ s.procs[pid]?,
    t.kind.loopsFor C key = true ∧ t.aborted = false ∧ t.todo ≠ []

instance (s : State Id) (key : String) : Decidable (LoopLive C s key) :=
  inferInstanceAs (Decidable (∃ pid ∈ _, ∃ t ∈ _, _ ∧ _))

/-- The step completes a `refresh`. -/
def refreshes (s : State Id) (a : Act Id) : Bool :=
  match doing s a with
  | some (.common (.refreshTasks _), _) => true
  | _ => false

/-- Right after a completed `refresh` every connectable record has a live connect loop. -/
def RefreshesAll (C : Config Id) (e : Step Id) : Prop :=
  refreshes e.pre e.act = true → ∀ d ∈ e.post.shared.pairedStore.stored,
    d.pairingStatus.isConnectable = true → LoopLive C e.post (C.key d.endpointId)

/-! ### The condition -/

/-- A connectable record of the key is stored. -/
def Connectable (C : Config Id) (s : Shared Id) (key : String) : Prop :=
  ∃ d ∈ s.pairedStore.stored, d.pairingStatus.isConnectable = true ∧ C.key d.endpointId = key

instance (s : Shared Id) (key : String) : Decidable (Connectable C s key) :=
  inferInstanceAs (Decidable (∃ d ∈ _, _))

/-- The id of a connect loop that looks whether its device is still active. -/
def looksActive (s : State Id) : Act Id → Option (String × Env)
  | .exec p env =>
    match kindOf s p, nextInstr s p with
    | some (.connect l), some (.connect .loopTop) => some (l.endpointId, env)
    | _, _ => none
  | _ => none

/-- The id of a connect loop that applies a remote unpair, and the id it marks. -/
def unpairs (C : Config Id) (s : State Id) : Act Id → Option (String × String)
  | .exec p env =>
    match kindOf s p, nextInstr s p with
    | some (.connect l), some (.connect (.unpairMark e _)) =>
      if (s.shared.pairedStore.markUnpairedRemotely C.iroh env.io e).1.isSome then
        some (l.endpointId, e)
      else none
    | _, _ => none
  | _ => none

/-- The critical sections that a connect loop has before it as long as it goes on. -/
def Instr.loops : Instr Id → Bool
  | .connect _ | .common .read => true
  | _ => false

def Task.looping (t : Task Id) : Bool := t.todo.any Instr.loops

/-- The list that a `refresh` has read and not acted on yet. -/
def Instr.refreshing : Instr Id → Option (List PairedDevice)
  | .common (.refreshTasks active) => some active
  | _ => none

/-- A loop finds its device active as long as a connectable record of it is stored, and marks the only
such record when it applies a remote unpair. A pairing is stored while the loop that the task map has
for it, if any, goes on, and while no `refresh` has read the store without finding its id. -/
structure KeepsLoops (C : Config Id) (s : State Id) (a : Act Id) : Prop where
  active : ∀ x ∈ looksActive s a, Connectable C s.shared (C.key x.1) →
    ((s.shared.pairedStore.get C.iroh x.2.io x.1).join).any (·.pairingStatus.isActive) = true
  unpaired : ∀ x ∈ unpairs C s a,
    ∀ d ∈ s.shared.pairedStore.stored.eraseP (StoreFile.sameId C.iroh x.2),
      d.pairingStatus.isConnectable = true → C.key d.endpointId ≠ C.key x.1
  paired : ∀ x ∈ storing s a, (s.shared.pairedStore.remember C.iroh x.2.io x.1).1 = true →
    (∀ entry ∈ s.shared.tasks, entry.1 = C.key x.1.endpointId →
      (s.procs[entry.2]?).any Task.looping = true) ∧
    ∀ t ∈ s.procs, ∀ i ∈ t.todo, ∀ active ∈ i.refreshing,
      ∃ d ∈ active, C.key d.endpointId = C.key x.1.endpointId

instance (s : State Id) (a : Act Id) : Decidable (KeepsLoops C s a) :=
  decidable_of_iff
    ((∀ x ∈ looksActive s a, Connectable C s.shared (C.key x.1) →
      ((s.shared.pairedStore.get C.iroh x.2.io x.1).join).any (·.pairingStatus.isActive) = true) ∧
    (∀ x ∈ unpairs C s a,
      ∀ d ∈ s.shared.pairedStore.stored.eraseP (StoreFile.sameId C.iroh x.2),
        d.pairingStatus.isConnectable = true → C.key d.endpointId ≠ C.key x.1) ∧
    ∀ x ∈ storing s a, (s.shared.pairedStore.remember C.iroh x.2.io x.1).1 = true →
      (∀ entry ∈ s.shared.tasks, entry.1 = C.key x.1.endpointId →
        (s.procs[entry.2]?).any Task.looping = true) ∧
      ∀ t ∈ s.procs, ∀ i ∈ t.todo, ∀ active ∈ i.refreshing,
        ∃ d ∈ active, C.key d.endpointId = C.key x.1.endpointId)
    ⟨fun h => ⟨h.1, h.2.1, h.2.2⟩, fun h => ⟨h.active, h.unpaired, h.paired⟩⟩

/-! ### Which records are connectable -/

section Records

variable {s : Shared Id} {kind : Kind Id} {fresh : Nat} {env : Env} {instr : Instr Id} {key : String}

theorem mem_of_markUnpaired {file : StoreFile} {io : Io} {e : String} {d : PairedDevice}
    (hd : d ∈ (file.markUnpairedRemotely C.iroh io e).2.stored)
    (hconn : d.pairingStatus.isConnectable = true) : d ∈ file.stored ∧
      ((file.markUnpairedRemotely C.iroh io e).1.isSome = true →
        d ∈ file.stored.eraseP (StoreFile.sameId C.iroh e)) := by
  cases hresult : file.markUnpairedRemotely C.iroh io e with
  | mk marked file' =>
    rw [hresult] at hd
    cases marked with
    | none =>
      obtain rfl := StoreFile.markUnpairedRemotely_none C.iroh hresult
      exact ⟨hd, fun h => by cases h⟩
    | some device =>
      obtain ⟨existing, hfound, -, hstored⟩ := StoreFile.markUnpairedRemotely_some C.iroh hresult
      rw [hstored] at hd
      rcases (mem_updateFirst hfound).mp hd with rfl | hother
      · cases hconn
      · exact ⟨(mem_iff_found_or_other hfound).mpr (.inr hother), fun _ => hother⟩

theorem connectable_write (h : Connectable C (write C s kind fresh env instr) key) :
    Connectable C s key ∨ ∃ flow device, instr = .common (.remember flow device) ∧
      (s.pairedStore.remember C.iroh env.io device).1 = true ∧ C.key device.endpointId = key := by
  obtain ⟨d, hd, hconn, hkey⟩ := h
  rw [write_pairedStore] at hd
  split at hd
  · rename_i flow device
    cases hresult : s.pairedStore.remember C.iroh env.io device with
    | mk stored file' =>
      rw [hresult] at hd
      cases stored with
      | false =>
        obtain rfl := StoreFile.remember_failed C.iroh hresult
        exact .inl ⟨d, hd, hconn, hkey⟩
      | true =>
        rw [StoreFile.remember_eq C.iroh hresult, StoreFile.remembered] at hd
        split at hd
        · rename_i hsome
          obtain ⟨existing, hfound⟩ := Option.isSome_iff_exists.mp hsome
          rcases (mem_updateFirst hfound).mp hd with rfl | hother
          · have hsame := List.find?_some hfound
            rw [StoreFile.sameId, beq_iff_eq] at hsame
            exact .inr ⟨flow, device, rfl, by rw [hresult], hsame.symm.trans hkey⟩
          · exact .inl ⟨d, (mem_iff_found_or_other hfound).mpr (.inr hother), hconn, hkey⟩
        · rcases List.mem_append.mp hd with hd | hd
          · exact .inl ⟨d, hd, hconn, hkey⟩
          · rw [List.mem_singleton] at hd
            subst hd
            exact .inr ⟨flow, d, rfl, by rw [hresult], hkey⟩
  · exact .inl ⟨d, (mem_of_markUnpaired hd hconn).1, hconn, hkey⟩
  · rename_i e
    refine .inl ?_
    obtain htouch | htouch := StoreFile.touch_eq C.iroh s.pairedStore env.io e env.nowMs
    · rw [htouch] at hd
      exact ⟨d, hd, hconn, hkey⟩
    · rw [htouch] at hd
      cases hfound : s.pairedStore.stored.find? (StoreFile.sameId C.iroh e) with
      | none =>
        rw [updateFirst_of_none hfound] at hd
        exact ⟨d, hd, hconn, hkey⟩
      | some existing =>
        rcases (mem_updateFirst hfound).mp hd with rfl | hother
        · exact ⟨existing, List.mem_of_find?_eq_some hfound, hconn, hkey⟩
        · exact ⟨d, (mem_iff_found_or_other hfound).mpr (.inr hother), hconn, hkey⟩
  · rename_i e
    cases hresult : s.pairedStore.forget C.iroh env.io e with
    | mk removed file' =>
      rw [hresult] at hd
      cases removed with
      | false =>
        obtain rfl := StoreFile.forget_failed C.iroh hresult
        exact .inl ⟨d, hd, hconn, hkey⟩
      | true =>
        rw [StoreFile.forget_eq C.iroh hresult] at hd
        exact .inl ⟨d, (List.mem_filter.mp hd).1, hconn, hkey⟩
  · exact .inl ⟨d, (mem_of_markUnpaired hd hconn).1, hconn, hkey⟩
  · exact .inl ⟨d, hd, hconn, hkey⟩

end Records

/-! ### Reading needs a connection -/

/-- The critical sections of a connect loop that has a connection. -/
def Instr.onConn : Instr Id → Bool
  | .common .read | .common (.disallow _ true) | .connect (.unpairGet _ (.forgetReceived _))
  | .connect (.unpairMark _ (.forgetReceived _)) => true
  | _ => false

theorem onConn_of_seesClose {i : Instr Id} (h : i.seesClose = true) : i.onConn = true := by
  unfold Instr.seesClose at h
  split at h
  · rfl
  · rfl
  · cases h

/-- A connect loop that waits for its connection has one. -/
def Task.Connected (kind : Kind Id) (todo : List (Instr Id)) : Prop :=
  ∀ l, kind = .connect l → ∀ i ∈ todo, i.onConn = true → l.conn.isSome = true

section Connected

variable {s : Shared Id} {env : Env}

theorem conn_nextConnect {l : ConnectLoop Id} {c : ConnectInstr Id} (h : l.conn.isSome = true) :
    (nextConnect C s l env c).1.conn.isSome = true := by
  cases c with
  | dial =>
    simp only [nextConnect]
    split
    · rfl
    · exact h
  | loopTop | settling | unpairGet | unpairMark =>
    simp only [nextConnect]
    split <;> exact h

theorem onConn_nextConnect {l : ConnectLoop Id} {c : ConnectInstr Id} {i : Instr Id}
    (hold : (Instr.connect c).onConn = true → l.conn.isSome = true)
    (hi : i ∈ (nextConnect C s l env c).2.push) (hon : i.onConn = true) :
    (nextConnect C s l env c).1.conn.isSome = true := by
  cases connectPush_next hi with
  | read hconn => exact hconn
  | @unpairMark e cause =>
    cases cause with
    | forgetReceived => exact conn_nextConnect (hold rfl)
    | recognitionRefused => cases hon
  | skippedGet | skippedMark | disallowForgotten => exact conn_nextConnect (hold rfl)
  | dial | insertSession | online | touch | offline | sleep | loopTop | unpairGet | disallowRefused
  | marked | unpaired | removeSessionIf => cases hon

theorem connected_exec {kind kind' : Kind Id} {fresh : Nat} {instr : Instr Id}
    {rest : List (Instr Id)} {n : Next Id} (hfits : Fits C kind instr)
    (hold : Task.Connected kind (instr :: rest))
    (hnext : next C s kind fresh env instr = some (kind', n)) :
    Task.Connected kind' (n.push ++ rest) := by
  intro l' hl' i hi hon
  cases next_case hnext with
  | common =>
    rcases List.mem_append.mp hi with hi | hi
    · cases commonPush_next hi <;> cases hon
    · exact hold l' hl' i (List.mem_cons_of_mem _ hi) hon
  | service | window | lan =>
    subst hl'
    exact hfits.elim
  | accept => cases acceptKind_next hl'
  | control => cases hl'
  | host hkind =>
    rw [hkind] at hl'
    cases hl'
  | @connect c l hkind =>
    cases hl'
    rcases List.mem_append.mp hi with hi | hi
    · exact onConn_nextConnect (hold l hkind _ List.mem_cons_self) hi hon
    · exact conn_nextConnect (hold l hkind i (List.mem_cons_of_mem _ hi) hon)

end Connected

/-- Every connect loop that waits for its connection has one. -/
def AllConnected (s : State Id) : Prop :=
  ∀ (p : Nat) (t : Task Id), s.procs[p]? = some t → Task.Connected t.kind t.todo

theorem AllConnected.step {s s' : State Id} {a : Act Id} {out : List (Out Id)}
    (h : AllConnected s) (hfits : AllFit C s) (hs : Node.step C s a = some (s', out)) :
    AllConnected s' := by
  intro q t' hq
  obtain ⟨kind, todo, horigin, hhas⟩ := step_origin hs hq
  suffices hconnected : Task.Connected kind todo by
    intro l hl i hi
    rw [hhas.1] at hl
    exact hconnected l hl i (hhas.mem hi)
  cases horigin with
  | kept hne hget => exact h q _ hget
  | exec hget htodo hnext =>
    have hold := h q _ hget
    rw [htodo] at hold
    exact connected_exec (hfits.head hget htodo) hold hnext
  | recv hget hrecv =>
    cases received_case hrecv with
    | control | host =>
      intro l hl
      cases hl
    | connect hconn =>
      intro l hl i hi hon
      cases hl
      rw [hconn]
      rfl
  | @close reason kind instr rest aborted hget hsees =>
    intro l hl i hi hon
    subst hl
    simp only [closedTodo] at hi
    split at hi
    · rename_i conn hconn
      rw [hconn]
      rfl
    · simp at hi
  | drop =>
    intro l hl i hi
    simp at hi
  | spawned hget hnext hspawn =>
    intro l hl i hi hon
    cases next_spawn hnext hspawn with
    | connect =>
      rw [connectTask, List.mem_singleton] at hi
      subst hi
      cases hon
    | notify | probe | expiry => cases hl
  | @started a t hactor hstart =>
    intro l hl
    cases started_case hstart with
    | connect | call | appeared | vanished => cases hl

/-! ### What the handles name -/

theorem expiry_step {s s' : State Id} {a : Act Id} {out : List (Out Id)}
    (hs : step C s a = some (s', out)) {pid : Nat} (h : kindOf s pid = some .expiry) :
    kindOf s' pid = some .expiry := by
  obtain ⟨t, hget, hkind⟩ := Option.map_eq_some_iff.mp h
  obtain ⟨t', kind, todo, hget', hcont, hhas⟩ := step_continues hs hget
  rw [kindOf_eq hget', hhas.1]
  cases hcont with
  | kept => rw [hkind]
  | exec htodo hnext =>
    have hstep := next_kind hnext
    rw [hkind] at hstep
    exact congrArg some hstep
  | recv hrecv => cases received_case hrecv <;> cases hkind
  | close | drop => exact congrArg some hkind

/-- The respawn that a critical section of `nudge_reconnect` leads to. -/
def Instr.respawns : Instr Id → Option (String × PairedDevice)
  | .lan (.nudgeSession key device) | .lan (.respawn key device) => some (key, device)
  | _ => none

/-- The expiry slot names an expiry task, and a loop is respawned under the key of its device. -/
structure HandlesNamed (C : Config Id) (s : State Id) : Prop where
  expire : ∀ pid, s.shared.pairingExpireTask = some pid → kindOf s pid = some .expiry
  expiring : ∀ (p : Nat) (t : Task Id), s.procs[p]? = some t →
    ∀ pid, .window (.setExpireTask pid) ∈ t.todo → kindOf s pid = some .expiry
  respawning : ∀ (p : Nat) (t : Task Id), s.procs[p]? = some t →
    ∀ i ∈ t.todo, ∀ x ∈ i.respawns, C.key x.2.endpointId = x.1

theorem lan_of_respawns {kind : Kind Id} {i : Instr Id} {x : String × PairedDevice}
    (hfits : Fits C kind i) (hx : i.respawns = some x) : kind = .lan := by
  unfold Instr.respawns at hx
  split at hx
  · cases kind with
    | lan => rfl
    | inbound | control | host | connect | call | expiry | background => exact hfits.elim
  · cases kind with
    | lan => rfl
    | inbound | control | host | connect | call | expiry | background => exact hfits.elim
  · cases hx

theorem respawns_exec {s : Shared Id} {kind kind' : Kind Id} {fresh : Nat} {env : Env}
    {instr i : Instr Id} {rest : List (Instr Id)} {n : Next Id} {x : String × PairedDevice}
    (hfits : TaskFits C kind (instr :: rest))
    (hnext : next C s kind fresh env instr = some (kind', n)) (hi : i ∈ n.push ++ rest)
    (hx : i.respawns = some x) :
    (∃ j ∈ instr :: rest, j.respawns = some x) ∨ C.key x.2.endpointId = x.1 := by
  have hk := lan_of_respawns ((taskFits_exec hfits hnext).fits i hi) hx
  have hfit := hfits.fits instr List.mem_cons_self
  rcases List.mem_append.mp hi with hpush | hrest
  · cases next_case hnext with
    | common | service | window =>
      rw [hk] at hfit
      exact hfit.elim
    | accept => cases acceptKind_next hk
    | control | connect => cases hk
    | host hkind =>
      rw [hkind] at hk
      cases hk
    | @lan instr =>
      cases instr with
      | appeared e =>
        rw [nextLan, List.mem_singleton] at hpush
        subst hpush
        cases hx
      | observe e paired =>
        simp only [nextLan] at hpush
        split at hpush <;> simp only [List.mem_singleton, List.not_mem_nil] at hpush
        subst hpush
        cases hx
      | nudgeGet e =>
        simp only [nextLan] at hpush
        split at hpush
        · rename_i device hfound
          split at hpush
          · rw [List.mem_singleton] at hpush
            subst hpush
            obtain rfl := Option.some.inj hx
            rw [Option.join_eq_some_iff, StoreFile.get, Option.map_eq_some_iff] at hfound
            obtain ⟨list, -, hfound⟩ := hfound
            have hsame := List.find?_some hfound
            rw [StoreFile.sameId, beq_iff_eq] at hsame
            exact .inr hsame
          · simp at hpush
        · simp at hpush
      | nudgeSession key device =>
        simp only [nextLan] at hpush
        split at hpush
        · simp at hpush
        · rw [List.mem_singleton] at hpush
          subst hpush
          exact .inl ⟨_, List.mem_cons_self, hx⟩
      | probe e =>
        simp only [nextLan] at hpush
        split at hpush
        · rw [List.mem_singleton] at hpush
          subst hpush
          cases hx
        · simp at hpush
      | vanished | respawn | setIdentity => simp [nextLan] at hpush
  · exact .inl ⟨i, List.mem_cons_of_mem _ hrest, hx⟩

section Step

variable {s s' : State Id} {a : Act Id} {out : List (Out Id)}

theorem HandlesNamed.expire_step (h : HandlesNamed C s) (hs : step C s a = some (s', out))
    {pid : Nat} (hpid : s'.shared.pairingExpireTask = some pid) : kindOf s' pid = some .expiry := by
  rcases step_shared hs with ⟨hsame, -⟩ | ⟨p, env, t, instr, rest, kind, n, rfl, hget, htodo, -,
    hshared, -⟩
  · rw [hsame] at hpid
    exact expiry_step hs (h.expire pid hpid)
  · rw [hshared, write_pairingExpireTask] at hpid
    split at hpid
    · cases hpid
    · obtain rfl := Option.some.inj hpid
      exact expiry_step hs (h.expiring p t hget _ (by rw [htodo]; simp))
    · exact expiry_step hs (h.expire pid hpid)

theorem getElem?_spawned {p i : Nat} {env : Env} {t t' : Task Id} {instr : Instr Id}
    {rest : List (Instr Id)} {kind : Kind Id} {n : Next Id}
    (hs : step C s (.exec p env) = some (s', out)) (hget : s.procs[p]? = some t)
    (htodo : t.todo = instr :: rest)
    (hnext : next C s.shared t.kind s.procs.length env instr = some (kind, n))
    (hi : n.spawn[i]? = some t') (habort : s.procs.length + i ∉ n.abort) :
    s'.procs[s.procs.length + i]? = some t' := by
  obtain ⟨kind₀, n₀, hnext₀, rfl, -⟩ := exec_eq hs hget htodo
  rw [hnext] at hnext₀
  obtain ⟨rfl, rfl⟩ := Prod.mk.inj (Option.some.inj hnext₀)
  rw [abortAll, List.getElem?_mapIdx, List.getElem?_append_right (by simp), List.length_set,
    Nat.add_sub_cancel_left, hi, Option.map_some, if_neg habort]

theorem HandlesNamed.expiring_step (h : HandlesNamed C s) (hfits : AllFit C s)
    (hs : step C s a = some (s', out)) {q : Nat} {t' : Task Id} (hq : s'.procs[q]? = some t')
    {pid : Nat} (hmem : .window (.setExpireTask pid) ∈ t'.todo) : kindOf s' pid = some .expiry := by
  rcases setExpireTask_step hfits hs hq hmem with ⟨t, hget, hmem⟩ | ⟨env, t, rest, rfl, hget, htodo,
    rfl⟩
  · exact expiry_step hs (h.expiring q t hget pid hmem)
  · have hspawned := getElem?_spawned (i := 0) hs hget htodo rfl rfl (by simp [nextWindow])
    exact kindOf_eq hspawned

theorem HandlesNamed.respawning_step (h : HandlesNamed C s) (hfits : AllFit C s)
    (hs : step C s a = some (s', out)) {q : Nat} {t' : Task Id} (hq : s'.procs[q]? = some t')
    {i : Instr Id} (hi : i ∈ t'.todo) {x : String × PairedDevice} (hx : i.respawns = some x) :
    C.key x.2.endpointId = x.1 := by
  obtain ⟨kind, todo, horigin, hhas⟩ := step_origin hs hq
  have hi := hhas.mem hi
  cases horigin with
  | kept hne hget => exact h.respawning q _ hget i hi x hx
  | exec hget htodo hnext =>
    have hfit := hfits q _ hget
    rw [htodo] at hfit
    rcases respawns_exec hfit hnext hi hx with ⟨j, hj, hx⟩ | hkey
    · rw [← htodo] at hj
      exact h.respawning q _ hget j hj x hx
    · exact hkey
  | recv hget hrecv =>
    have hlan := lan_of_respawns ((taskFits_recv (hfits q _ hget).kindFits hrecv).fits i hi) hx
    cases received_case hrecv <;> cases hlan
  | close hget hsees =>
    obtain rfl := lan_of_respawns ((taskFits_close _ (hfits q _ hget).kindFits).fits i hi) hx
    simp [closedTodo] at hi
  | drop => simp at hi
  | spawned hget hnext hspawn =>
    have hfit := taskFits_spawned (C := C) (next_spawn hnext hspawn)
    have hlan := lan_of_respawns (hfit.fits i hi) hx
    cases next_spawn hnext hspawn <;> cases hlan
  | @started a t hactor hstart =>
    have hlan := lan_of_respawns ((taskFits_started hstart).fits i hi) hx
    cases started_case hstart with
    | connect | call => cases hlan
    | appeared | vanished =>
      rw [List.mem_singleton] at hi
      subst hi
      cases hx

theorem HandlesNamed.step (h : HandlesNamed C s) (hfits : AllFit C s)
    (hs : Node.step C s a = some (s', out)) : HandlesNamed C s' :=
  ⟨fun _ => h.expire_step hs, fun _ _ hq _ => h.expiring_step hfits hs hq,
    fun _ _ hq _ hi _ hx => h.respawning_step hfits hs hq hi hx⟩

end Step

/-! ### What a refresh has read -/

theorem refreshing_exec {s : Shared Id} {kind kind' : Kind Id} {fresh : Nat} {env : Env}
    {instr i : Instr Id} {n : Next Id} {active : List PairedDevice} (hfits : Fits C kind instr)
    (hnext : next C s kind fresh env instr = some (kind', n)) (hi : i ∈ n.push)
    (hactive : i.refreshing = some active) : instr = .common .refreshList ∧
      active = s.pairedStore.stored.filter fun d => d.pairingStatus.isConnectable := by
  have hrefresh : i = .common (.refreshTasks active) := by
    unfold Instr.refreshing at hactive
    split at hactive
    · rw [Option.some.inj hactive]
    · cases hactive
  subst hrefresh
  cases next_case hnext with
  | @common instr =>
    cases instr with
    | refreshList =>
      simp only [nextCommon] at hi
      split at hi
      · rename_i devices hread
        simp only [List.mem_singleton, Instr.common.injEq, CommonInstr.refreshTasks.injEq] at hi
        exact ⟨rfl, by rw [hi, StoreFile.stored_of_readFile hread]⟩
      · simp at hi
    | remember flow device =>
      simp only [nextCommon] at hi
      cases flow with
      | pairingHost => simp [afterRemember] at hi
      | join | commitNearby =>
        simp only [afterRemember] at hi
        split at hi <;> simp at hi
      | acceptNearby =>
        simp only [afterRemember] at hi
        split at hi
        · split at hi <;> simp at hi
        · simp at hi
    | markUnpaired | setPresence | removeSession | removeSessionIf =>
      simp only [nextCommon, managerForget] at hi
      split at hi <;> simp at hi
    | _ => simp [nextCommon] at hi
  | service => cases servicePush_next hi
  | @window instr => cases instr <;> simp [nextWindow] at hi
  | lan =>
    obtain ⟨j, hj⟩ := lan_nextLan hi
    cases hj
  | accept => cases acceptPush_next hi
  | control => cases controlPush_next hi
  | @host instr c hkind =>
    cases instr <;> simp only [nextHost] at hi <;> (try split at hi) <;> simp at hi
  | connect hkind =>
    subst hkind
    exact (fits_nextConnect hfits hi).elim

theorem refreshing_program {call : Call} {i : Instr Id} (hi : i ∈ program C call) :
    i.refreshing = none := by
  have hwindow : ∀ {i : Instr Id}, i ∈ (stopPairingHost : List (Instr Id)) →
      i.refreshing = none := by
    intro i hi
    simp only [stopPairingHost, List.mem_cons, List.not_mem_nil, or_false] at hi
    rcases hi with rfl | rfl | rfl | rfl <;> rfl
  cases call with
  | declineNearbyInvite e block =>
    simp only [program] at hi
    split at hi <;>
      simp only [List.cons_append, List.nil_append, List.mem_cons, List.not_mem_nil, or_false] at hi
    · rcases hi with rfl | rfl | rfl <;> rfl
    · subst hi
      rfl
  | invitePairedDevice | respondPairedInvite =>
    simp only [program] at hi
    split at hi <;> (rw [List.mem_singleton] at hi; subst hi; rfl)
  | startPairingHost ttlSecs =>
    simp only [program, startPairingHost, List.mem_append, List.mem_cons, List.not_mem_nil,
      or_false] at hi
    rcases hi with ((hi | rfl | rfl | rfl) | hi) | rfl
    · exact hwindow hi
    · rfl
    · rfl
    · rfl
    · split at hi
      · rw [List.mem_singleton] at hi
        subst hi
        rfl
      · simp at hi
    · rfl
  | stopPairingHost =>
    rcases List.mem_append.mp hi with hi | hi
    · exact hwindow hi
    · rw [List.mem_singleton] at hi
      subst hi
      rfl
  | _ =>
    rw [program, List.mem_singleton] at hi
    subst hi
    rfl

/-- A `refresh` that has read the store has found every id that is connectable. -/
def RefreshesRead (C : Config Id) (s : State Id) : Prop :=
  ∀ (p : Nat) (t : Task Id), s.procs[p]? = some t → ∀ i ∈ t.todo, ∀ active, i.refreshing = some active →
    ∀ key, Connectable C s.shared key → ∃ d ∈ active, C.key d.endpointId = key

theorem RefreshesRead.step {s s' : State Id} {a : Act Id} {out : List (Out Id)}
    (h : RefreshesRead C s) (hfits : AllFit C s) (hok : KeepsLoops C s a)
    (hs : Node.step C s a = some (s', out)) : RefreshesRead C s' := by
  -- a list that was read before is still complete, or the guard says that it has the new id
  have hbefore : ∀ {r : Nat} {u : Task Id} {i : Instr Id} {active : List PairedDevice},
      s.procs[r]? = some u → i ∈ u.todo → i.refreshing = some active →
      ∀ key, Connectable C s'.shared key → ∃ d ∈ active, C.key d.endpointId = key := by
    intro r u i active hr hi hactive key hconn
    rcases step_shared hs with ⟨hsame, -⟩ | ⟨p, env, t, instr, rest, kind, n, rfl, hget, htodo, -,
      hshared, -⟩
    · rw [hsame] at hconn
      exact h r u hr i hi active hactive key hconn
    · rw [hshared] at hconn
      rcases connectable_write hconn with hconn | ⟨flow, device, rfl, hstored, rfl⟩
      · exact h r u hr i hi active hactive key hconn
      · have hstoring : storing s (.exec p env) = some (device, env) := by
          rw [storing, doing_exec hget htodo]
        exact (hok.paired _ hstoring hstored).2 u (List.mem_of_getElem? hr) i hi active hactive
  intro q t' hq i hi active hactive key hconn
  obtain ⟨kind, todo, horigin, hhas⟩ := step_origin hs hq
  have hi := hhas.mem hi
  cases horigin with
  | kept hne hget => exact hbefore hget hi hactive key hconn
  | exec hget htodo hnext =>
    rcases List.mem_append.mp hi with hpush | hrest
    · obtain ⟨rfl, rfl⟩ := refreshing_exec (hfits.head hget htodo) hnext hpush hactive
      obtain ⟨-, -, -, -, hshared, -⟩ := step_exec hs hget htodo
      rw [hshared] at hconn
      obtain ⟨d, hd, hstatus, hkey⟩ := hconn
      exact ⟨d, List.mem_filter.mpr ⟨hd, hstatus⟩, hkey⟩
    · exact hbefore hget (by rw [htodo]; exact List.mem_cons_of_mem _ hrest) hactive key hconn
  | recv hget hrecv =>
    have hfit := (taskFits_recv (hfits q _ hget).kindFits hrecv).fits i hi
    cases received_case hrecv with
    | control => cases controlPush_receive hi <;> cases hactive
    | host => cases hostReceives_of_mem hi <;> cases hactive
    | connect =>
      unfold Instr.refreshing at hactive
      split at hactive
      · exact hfit.elim
      · cases hactive
  | @close reason kind instr rest aborted hget hsees =>
    have hfit := (taskFits_close reason (hfits q _ hget).kindFits).fits i hi
    cases kind with
    | control => cases controlPush_leaveSession hi <;> cases hactive
    | host =>
      simp only [closedTodo] at hi
      split at hi
      · rw [List.mem_singleton] at hi
        subst hi
        cases hactive
      · simp at hi
    | connect =>
      unfold Instr.refreshing at hactive
      split at hactive
      · exact hfit.elim
      · cases hactive
    | inbound | call | expiry | lan | background => simp [closedTodo] at hi
  | drop => simp at hi
  | spawned hget hnext hspawn =>
    cases next_spawn hnext hspawn <;>
      simp only [connectTask, notifyTask, probeTask, expiryTask, List.mem_cons, List.not_mem_nil,
        or_false] at hi
    · subst hi
      cases hactive
    · subst hi
      cases hactive
    · subst hi
      cases hactive
    · rcases hi with rfl | rfl | rfl | rfl | rfl <;> cases hactive
  | @started a t hactor hstart =>
    cases started_case hstart with
    | connect | appeared | vanished =>
      rw [List.mem_singleton] at hi
      subst hi
      cases hactive
    | call =>
      rw [refreshing_program hi] at hactive
      cases hactive

/-! ### A loop goes on -/

section Looping

variable {s : State Id} {p : Nat} {env : Env} {t : Task Id} {l : ConnectLoop Id}

theorem loops_unpairSkipped (cause : UnpairCause Id) :
    (unpairSkipped cause).any Instr.loops = true := by
  cases cause <;> rfl

theorem loops_readOutbound {conn : Conn Id} {msg : ControlMessage} :
    (readOutbound C conn msg).any Instr.loops = true := by
  cases msg with
  | recognition | forget =>
    simp only [readOutbound]
    split <;> rfl
  | _ => rfl

theorem loops_closedTodo {reason : String} (h : l.conn.isSome = true) :
    (closedTodo C (.connect l) reason).any Instr.loops = true := by
  obtain ⟨conn, hconn⟩ := Option.isSome_iff_exists.mp h
  simp only [closedTodo, hconn]
  split <;> rfl

/-- A loop that looks whether its device is active goes on, or no connectable record of it is
stored. -/
theorem loops_loopTop {rest : List (Instr Id)} (hok : KeepsLoops C s (.exec p env))
    (hget : s.procs[p]? = some t) (hkind : t.kind = .connect l)
    (htodo : t.todo = .connect .loopTop :: rest) :
    (nextConnect C s.shared l env .loopTop).2.push.any Instr.loops = true ∨
      ¬ Connectable C s.shared (C.key l.endpointId) := by
  by_cases hconn : Connectable C s.shared (C.key l.endpointId)
  · have hlooks : looksActive s (.exec p env) = some (l.endpointId, env) := by
      rw [looksActive, kindOf_eq hget, hkind, nextInstr_eq hget htodo]
    have hactive := hok.active _ hlooks hconn
    refine .inl ?_
    simp only [nextConnect]
    split
    · rename_i device hfound
      rw [hfound, Option.any_some] at hactive
      rw [if_pos hactive]
      rfl
    · rename_i hfound
      rw [hfound] at hactive
      cases hactive
  · exact .inr hconn

/-- A loop that is to mark a record goes on, or leaves no connectable record of its device. -/
theorem loops_unpairMark {e : String} {cause : UnpairCause Id} {rest : List (Instr Id)}
    (hok : KeepsLoops C s (.exec p env)) (hget : s.procs[p]? = some t)
    (hkind : t.kind = .connect l) (htodo : t.todo = .connect (.unpairMark e cause) :: rest) :
    (nextConnect C s.shared l env (.unpairMark e cause)).2.push.any Instr.loops = true ∨
      ¬ Connectable C (write C s.shared t.kind s.procs.length env (.connect (.unpairMark e cause)))
        (C.key l.endpointId) := by
  cases hmarked : (s.shared.pairedStore.markUnpairedRemotely C.iroh env.io e).1 with
  | none =>
    refine .inl ?_
    simp only [nextConnect, hmarked]
    exact loops_unpairSkipped cause
  | some device =>
    refine .inr ?_
    rintro ⟨d, hd, hconn, hkey⟩
    have hsome : (s.shared.pairedStore.markUnpairedRemotely C.iroh env.io e).1.isSome = true := by
      rw [hmarked]
      rfl
    have hunpairs : unpairs C s (.exec p env) = some (l.endpointId, e) := by
      simp only [unpairs, kindOf_eq hget, hkind, nextInstr_eq hget htodo, hsome, if_true]
    rw [write_pairedStore] at hd
    exact hok.unpaired _ hunpairs d ((mem_of_markUnpaired hd hconn).2 hsome) hconn hkey

theorem looping_exec {instr : Instr Id} {rest : List (Instr Id)} {kind' : Kind Id} {n : Next Id}
    (hok : KeepsLoops C s (.exec p env)) (hfits : Fits C t.kind instr)
    (hget : s.procs[p]? = some t) (hkind : t.kind = .connect l) (htodo : t.todo = instr :: rest)
    (hnext : next C s.shared t.kind s.procs.length env instr = some (kind', n))
    (hloops : (instr :: rest).any Instr.loops = true) :
    (n.push ++ rest).any Instr.loops = true ∨
      ¬ Connectable C (write C s.shared t.kind s.procs.length env instr)
        (C.key l.endpointId) := by
  suffices hpush : instr.loops = true → n.push.any Instr.loops = true ∨
      ¬ Connectable C (write C s.shared t.kind s.procs.length env instr) (C.key l.endpointId) by
    rw [List.any_cons, Bool.or_eq_true] at hloops
    rw [List.any_append, Bool.or_eq_true]
    rcases hloops with hloops | hloops
    · rcases hpush hloops with hpush | hnone
      · exact .inl (.inl hpush)
      · exact .inr hnone
    · exact .inl (.inr hloops)
  intro hloops
  cases next_case hnext with
  | @common c hread =>
    cases c with
    | read => exact absurd rfl hread
    | _ => cases hloops
  | service | window | lan | accept | control | host => cases hloops
  | @connect c l' hkind' =>
    rw [hkind] at hkind'
    cases hkind'
    cases c with
    | loopTop =>
      rcases loops_loopTop hok hget hkind htodo with hpush | hnone
      · exact .inl hpush
      · exact .inr hnone
    | dial =>
      refine .inl ?_
      simp only [nextConnect, setSession]
      split <;> rfl
    | settling =>
      refine .inl ?_
      simp only [nextConnect]
      split
      · split <;> rfl
      · rfl
    | unpairGet e cause =>
      refine .inl ?_
      simp only [nextConnect]
      split
      · split
        · rfl
        · exact loops_unpairSkipped cause
      · exact loops_unpairSkipped cause
    | unpairMark e cause => exact loops_unpairMark hok hget hkind htodo

end Looping

/-! ### The task map -/

theorem abort_takes_out {s : Shared Id} {kind kind' : Kind Id} {fresh pid : Nat} {env : Env}
    {instr : Instr Id} {n : Next Id} (hnext : next C s kind fresh env instr = some (kind', n))
    (h : pid ∈ n.abort) : s.pairingExpireTask = some pid ∨ ∃ key, (key, pid) ∈ s.tasks ∧
      (pid < fresh → (key, pid) ∉ (write C s kind fresh env instr).tasks) := by
  cases abort_case hnext h with
  | expire hexpire => exact .inl hexpire
  | @abortTask key hentry =>
    refine .inr ⟨key, hentry, fun _ hmem => ?_⟩
    rw [write_tasks] at hmem
    simpa using (List.mem_filter.mp hmem).2
  | @refreshTasks active key hentry hkey =>
    refine .inr ⟨key, hentry, fun hlt hmem => ?_⟩
    rw [write_tasks] at hmem
    rcases spawnMissing_tasks hmem with hkept | ⟨i, device, hnew, -⟩
    · rw [(List.mem_filter.mp hkept).2] at hkey
      cases hkey
    · have hpid := (Prod.mk.inj hnew).2
      omega
  | @respawn key device hentry =>
    refine .inr ⟨key, hentry, fun hlt hmem => ?_⟩
    rw [write_tasks] at hmem
    rcases List.mem_append.mp hmem with hkept | hnew
    · simpa using (List.mem_filter.mp hkept).2
    · rw [List.mem_singleton] at hnew
      have hpid := (Prod.mk.inj hnew).2
      omega

theorem tasks_write {s : Shared Id} {kind kind' : Kind Id} {fresh : Nat} {env : Env}
    {instr : Instr Id} {n : Next Id} {entry : String × Nat}
    (hnext : next C s kind fresh env instr = some (kind', n))
    (hrespawn : ∀ x ∈ instr.respawns, C.key x.2.endpointId = x.1)
    (h : entry ∈ (write C s kind fresh env instr).tasks) : entry ∈ s.tasks ∨
      ∃ i device, entry = (C.key device.endpointId, fresh + i) ∧
        n.spawn[i]? = some (connectTask device) := by
  rw [write_tasks] at h
  split at h
  · exact .inl (List.mem_filter.mp h).1
  · obtain ⟨rfl, rfl⟩ := Prod.mk.inj (Option.some.inj hnext)
    rcases spawnMissing_tasks h with hkept | hnew
    · exact .inl (List.mem_filter.mp hkept).1
    · exact .inr hnew
  · rename_i key device
    obtain ⟨rfl, rfl⟩ := Prod.mk.inj (Option.some.inj hnext)
    rcases List.mem_append.mp h with hkept | hnew
    · exact .inl (List.mem_filter.mp hkept).1
    · rw [List.mem_singleton] at hnew
      refine .inr ⟨0, device, ?_, rfl⟩
      rw [hnew, hrespawn (key, device) rfl]
      rfl
  · exact .inl h

/-! ### The invariant -/

/-- Every entry of the task map is that of a connect loop for its key that was not aborted, and the
loop goes on as long as a connectable record of the key is stored. -/
def LoopsKept (C : Config Id) (s : State Id) : Prop :=
  ∀ key pid, (key, pid) ∈ s.shared.tasks → ∃ t, s.procs[pid]? = some t ∧
    t.kind.loopsFor C key = true ∧ t.aborted = false ∧
    (t.looping = true ∨ ¬ Connectable C s.shared key)

theorem exists_of_loopsFor {kind : Kind Id} {key : String} (h : kind.loopsFor C key = true) :
    ∃ l, kind = .connect l ∧ C.key l.endpointId = key := by
  cases kind with
  | connect l => exact ⟨l, rfl, of_decide_eq_true h⟩
  | inbound | control | host | call | expiry | lan | background => cases h

section LoopsKept

variable {s s' : State Id} {a : Act Id} {out : List (Out Id)} {key : String} {pid : Nat}

theorem LoopsKept.not_aborted (h : LoopsKept C s) (hnamed : HandlesNamed C s)
    (hs : step C s a = some (s', out)) (hentry : (key, pid) ∈ s.shared.tasks)
    (hentry' : (key, pid) ∈ s'.shared.tasks) {t' : Task Id} (hq : s'.procs[pid]? = some t') :
    t'.aborted = false := by
  obtain ⟨t, hget, hloop, haborted, -⟩ := h key pid hentry
  obtain ⟨l, hl, hkey⟩ := exists_of_loopsFor hloop
  by_contra habort
  rcases aborted_step hs hq (by simpa using habort) with ⟨t₀, hget₀, haborted₀⟩ |
    ⟨p, env, u, instr, rest, kind, n, rfl, hp, htodo, hnext, hmem⟩
  · rw [hget] at hget₀
    obtain rfl := Option.some.inj hget₀
    rw [haborted] at haborted₀
    cases haborted₀
  · rcases abort_takes_out hnext hmem with hexpire | ⟨key', hother, hgone⟩
    · have hkind := hnamed.expire pid hexpire
      rw [kindOf_eq hget, hl] at hkind
      cases hkind
    · obtain ⟨t₀, hget₀, hloop₀, -, -⟩ := h key' pid hother
      rw [hget] at hget₀
      obtain rfl := Option.some.inj hget₀
      obtain ⟨l', hl', hkey'⟩ := exists_of_loopsFor hloop₀
      rw [hl] at hl'
      cases hl'
      rw [← hkey', hkey] at hgone
      obtain ⟨-, -, -, -, hshared, -⟩ := step_exec hs hp htodo
      rw [hshared] at hentry'
      exact hgone (List.getElem?_eq_some_iff.mp hget).1 hentry'

theorem LoopsKept.looping_before (h : LoopsKept C s) (hok : KeepsLoops C s a)
    (hs : step C s a = some (s', out)) (hentry : (key, pid) ∈ s.shared.tasks) {t : Task Id}
    (hget : s.procs[pid]? = some t) : t.looping = true ∨ ¬ Connectable C s'.shared key := by
  obtain ⟨t₀, hget₀, -, -, hlive⟩ := h key pid hentry
  rw [hget] at hget₀
  obtain rfl := Option.some.inj hget₀
  rcases hlive with hlooping | hnone
  · exact .inl hlooping
  · by_cases hconn : Connectable C s'.shared key
    · rcases step_shared hs with ⟨hsame, -⟩ | ⟨p, env, u, instr, rest, kind, n, rfl, hp, htodo, -,
        hshared, -⟩
      · rw [hsame] at hconn
        exact absurd hconn hnone
      · rw [hshared] at hconn
        rcases connectable_write hconn with hconn | ⟨flow, device, rfl, hstored, hkey⟩
        · exact absurd hconn hnone
        · have hstoring : storing s (.exec p env) = some (device, env) := by
            rw [storing, doing_exec hp htodo]
          have hlooping := (hok.paired _ hstoring hstored).1 (key, pid) hentry hkey.symm
          rw [hget, Option.any_some] at hlooping
          exact .inl hlooping
    · exact .inr hconn

/-- An entry that stays in the map: its loop goes on, or no record of the key is connectable. -/
theorem LoopsKept.kept (h : LoopsKept C s) (hfits : AllFit C s) (hconnected : AllConnected s)
    (hnamed : HandlesNamed C s) (hok : KeepsLoops C s a) (hs : step C s a = some (s', out))
    (hentry : (key, pid) ∈ s.shared.tasks) (hentry' : (key, pid) ∈ s'.shared.tasks) :
    ∃ t, s'.procs[pid]? = some t ∧ t.kind.loopsFor C key = true ∧ t.aborted = false ∧
      (t.looping = true ∨ ¬ Connectable C s'.shared key) := by
  obtain ⟨t, hget, hloop, haborted, -⟩ := h key pid hentry
  have hlooping := h.looping_before hok hs hentry hget
  obtain ⟨l, hl, hkey⟩ := exists_of_loopsFor hloop
  obtain ⟨t', hget'⟩ := step_persists hs hget
  have haborted' := h.not_aborted hnamed hs hentry hentry' hget'
  have hcont := (origin_of_running hs hget' haborted').continues hget
  suffices hgoes : t'.kind.loopsFor C key = true ∧
      (t.looping = true → t'.todo.any Instr.loops = true ∨ ¬ Connectable C s'.shared key) by
    refine ⟨t', hget', hgoes.1, haborted', ?_⟩
    rcases hlooping with hlooping | hnone
    · exact hgoes.2 hlooping
    · exact .inr hnone
  generalize t'.kind = kind' at hcont ⊢
  generalize t'.todo = todo' at hcont ⊢
  cases hcont with
  | kept => exact ⟨hloop, .inl⟩
  | exec htodo hnext =>
    have hstep := next_kind hnext
    rw [hl] at hstep
    obtain ⟨l', rfl, hid⟩ := hstep
    refine ⟨by rw [Kind.loopsFor, hid]; exact decide_eq_true hkey, fun hlooping => ?_⟩
    rw [Task.looping, htodo] at hlooping
    obtain ⟨-, -, -, -, hshared, -⟩ := step_exec hs hget htodo
    rw [hshared, ← hkey]
    exact looping_exec hok (hfits.head hget htodo) hget hl htodo hnext hlooping
  | recv hrecv =>
    cases received_case hrecv with
    | control | host => cases hl
    | connect => exact ⟨hloop, fun _ => .inl loops_readOutbound⟩
  | close hsees =>
    have hl : _ = Kind.connect l := hl
    subst hl
    have hconn := hconnected pid _ hget l rfl _ List.mem_cons_self (onConn_of_seesClose hsees)
    exact ⟨hloop, fun _ => .inl (loops_closedTodo hconn)⟩
  | drop => cases haborted

theorem LoopsKept.step (h : LoopsKept C s) (hfits : AllFit C s) (hconnected : AllConnected s)
    (hnamed : HandlesNamed C s) (hok : KeepsLoops C s a)
    (hs : Node.step C s a = some (s', out)) : LoopsKept C s' := by
  intro key pid hentry'
  rcases step_shared hs with ⟨hsame, -⟩ | ⟨p, env, u, instr, rest, kind, n, rfl, hp, htodo, hnext,
    hshared, -⟩
  · refine h.kept hfits hconnected hnamed hok hs ?_ hentry'
    rwa [hsame] at hentry'
  · have hwritten := hentry'
    rw [hshared] at hwritten
    have hrespawn : ∀ x ∈ instr.respawns, C.key x.2.endpointId = x.1 := fun x hx =>
      hnamed.respawning p u hp instr (by rw [htodo]; exact List.mem_cons_self) x hx
    rcases tasks_write hnext hrespawn hwritten with hentry | ⟨i, device, hnew, hspawn⟩
    · exact h.kept hfits hconnected hnamed hok hs hentry hentry'
    · obtain ⟨rfl, rfl⟩ := Prod.mk.inj hnew
      have habort : s.procs.length + i ∉ n.abort := by
        intro hmem
        rcases abort_takes_out hnext hmem with hexpire | ⟨key', hother, -⟩
        · obtain ⟨t, hget, -⟩ := Option.map_eq_some_iff.mp (hnamed.expire _ hexpire)
          have hlt := (List.getElem?_eq_some_iff.mp hget).1
          omega
        · obtain ⟨t, hget, -⟩ := h key' _ hother
          have hlt := (List.getElem?_eq_some_iff.mp hget).1
          omega
      refine ⟨_, getElem?_spawned hs hp htodo hnext hspawn habort, ?_, rfl, .inl rfl⟩
      exact decide_eq_true rfl

end LoopsKept

/-! ### After a refresh -/

/-- `refresh` only adds to the entries it kept. -/
theorem prefix_spawnMissing (tasks : List (String × Nat)) (fresh : Nat)
    (active : List PairedDevice) :
    tasks <+: (spawnMissing C tasks fresh active : _ × List (Task Id)).1 := by
  induction active generalizing tasks fresh with
  | nil => exact List.prefix_rfl
  | cons device rest ih =>
    rw [spawnMissing]
    split
    · exact ih tasks fresh
    · exact (List.prefix_append _ _).trans (ih _ (fresh + 1))

theorem lookup_spawnMissing {tasks : List (String × Nat)} {fresh : Nat}
    {active : List PairedDevice} {d : PairedDevice} (hd : d ∈ active) :
    ∃ pid, (spawnMissing C tasks fresh active : _ × List (Task Id)).1.lookup
      (C.key d.endpointId) = some pid := by
  induction active generalizing tasks fresh with
  | nil => simp at hd
  | cons device rest ih =>
    rw [spawnMissing]
    split
    · rename_i hsome
      rcases List.mem_cons.mp hd with rfl | hd
      · obtain ⟨pid, hpid⟩ := Option.isSome_iff_exists.mp hsome
        exact ⟨pid, (prefix_spawnMissing tasks fresh rest).lookup_eq_some hpid⟩
      · exact ih hd
    · rename_i hnone
      rcases List.mem_cons.mp hd with rfl | hd
      · refine ⟨fresh, (prefix_spawnMissing _ (fresh + 1) rest).lookup_eq_some ?_⟩
        rw [Option.not_isSome_iff_eq_none] at hnone
        rw [List.lookup_append, hnone, Option.none_or, List.lookup_cons_self]
      · exact ih hd

/-- What holds of the loops and of the refreshes in every state of such a run. -/
structure LoopsInv (C : Config Id) (s : State Id) : Prop where
  connected : AllConnected s
  named : HandlesNamed C s
  read : RefreshesRead C s
  kept : LoopsKept C s

theorem loopsInv_start (store : StoreFile) (rotated : Bool) (io : Io) (d : Discoverability)
    (relay : Option String) : LoopsInv C (start C store rotated io d relay) := by
  refine ⟨fun p t hp l hl => ?_, ⟨fun pid hpid => ?_, fun p t hp pid hmem => ?_,
    fun p t hp i hi x hx => ?_⟩, fun p t hp i hi active hactive => ?_, fun key pid hmem => ?_⟩
  · obtain rfl := eq_of_start hp
    cases hl
  · cases hpid
  · obtain rfl := eq_of_start hp
    simp [program] at hmem
  · obtain rfl := eq_of_start hp
    rw [program, List.mem_singleton] at hi
    subst hi
    cases hx
  · obtain rfl := eq_of_start hp
    rw [program, List.mem_singleton] at hi
    subst hi
    cases hactive
  · simp [start] at hmem

theorem LoopsInv.step {s s' : State Id} {a : Act Id} {out : List (Out Id)} (h : LoopsInv C s)
    (hfits : AllFit C s) (hok : KeepsLoops C s a) (hs : Node.step C s a = some (s', out)) :
    LoopsInv C s' :=
  ⟨h.connected.step hfits hs, h.named.step hfits hs, h.read.step hfits hok hs,
    h.kept.step hfits h.connected h.named hok hs⟩

theorem loopsInv_run {store : StoreFile} {rotated : Bool} {io : Io} {d : Discoverability}
    {relay : Option String} {tr : List (Step Id)} {s : State Id}
    (hrun : Run (machine C) (KeepsLoops C) (start C store rotated io d relay) tr s) :
    LoopsInv C s :=
  hrun.invariant_of_run (I := fun _ s => LoopsInv C s) (loopsInv_start store rotated io d relay)
    fun hprev h hok hs => h.step (fits_run hprev) hok hs

theorem lookup_refreshed {s s' : State Id} {a : Act Id} {out : List (Out Id)}
    (h : RefreshesRead C s) (hs : step C s a = some (s', out)) (hrefresh : refreshes s a = true)
    {key : String} (hconn : Connectable C s'.shared key) :
    ∃ pid, s'.shared.tasks.lookup key = some pid := by
  rw [refreshes] at hrefresh
  split at hrefresh
  · rename_i active env' hdoing
    obtain ⟨p, env, t, rest, rfl, hget, htodo⟩ :=
      exists_of_doing (s := s) (a := a) (by rw [hdoing]; rfl)
    obtain ⟨-, -, -, -, hshared, -⟩ := step_exec hs hget htodo
    rw [hshared] at hconn ⊢
    have hmem : .common (.refreshTasks active) ∈ t.todo := by
      rw [htodo]
      exact List.mem_cons_self
    obtain ⟨d, hd, rfl⟩ := h p t hget _ hmem active rfl key hconn
    exact lookup_spawnMissing hd
  · cases hrefresh

/-- In every run in which a loop ends itself only when no connectable record of its id is left, and a
device is paired again only while its entry is that of a loop that goes on, every connectable device
has a live loop right after each `refresh`. -/
theorem connectable_live (C : Config Id) (store : StoreFile) (rotated : Bool) (io : Io)
    (d : Discoverability) (relay : Option String) (tr : List (Step Id)) (s : State Id)
    (hrun : Run (machine C) (KeepsLoops C) (start C store rotated io d relay) tr s) :
    ∀ e ∈ tr, RefreshesAll C e := by
  intro e he hrefresh device hdevice hstatus
  obtain ⟨pre, hpre, -, hok, hs⟩ := hrun.of_mem he
  have hinv := loopsInv_run hpre
  have hconn : Connectable C e.post.shared (C.key device.endpointId) :=
    ⟨device, hdevice, hstatus, rfl⟩
  obtain ⟨pid, hpid⟩ := lookup_refreshed hinv.read hs hrefresh hconn
  have hmem : (C.key device.endpointId, pid) ∈ e.post.shared.tasks := by
    obtain ⟨before, after, hsplit, -⟩ := List.lookup_eq_some_iff.mp hpid
    rw [hsplit]
    simp
  obtain ⟨t, hget, hloop, haborted, hlooping | hnone⟩ :=
    (hinv.step (fits_run hpre) hok hs).kept _ _ hmem
  · refine ⟨pid, hpid, t, hget, hloop, haborted, ?_⟩
    intro hdone
    rw [Task.looping, hdone] at hlooping
    cases hlooping
  · exact absurd hconn hnone

/-! ### Bob unpairs and pairs again -/

/-- Alice has a record of Bob, her connect loop reaches him, and he forgets her. The loop ends. -/
def unpairedByBob : List (Act Key) :=
  supervisor ++ go 1 1 ++ [.exec 1 (dialling 7)] ++ go 1 4 ++
    [.recv 1 (.forget (Key.bob.sign 7))] ++ go 1 8

/-- Alice scans Bob's pairing code after that: `refresh` finds the entry of the loop that has ended. -/
theorem pairedAgain_offline : ¬ ∀ tr s,
    Run (machine alice) anyStep (aliceStart (.devices [recordOf .bob])) tr s →
    ∀ e ∈ tr, RefreshesAll alice e := by
  intro hclaim
  obtain ⟨tr, s, hrun, htest⟩ := Run.of_check (machine alice) anyStep
    (aliceStart (.devices [recordOf .bob])) (unpairedByBob ++ joined 2 .bob 5) (fun tr _ =>
      ∃ e ∈ tr, refreshes e.pre e.act = true ∧ ∃ d ∈ e.post.shared.pairedStore.stored,
        d.pairingStatus.isConnectable = true ∧
          ¬ LoopLive alice e.post (alice.key d.endpointId)) (by decide +kernel)
  obtain ⟨e, he, hrefresh, d, hd, hconn, hdead⟩ := of_decide_eq_true htest
  exact hdead (hclaim tr s hrun e he hrefresh d hd hconn)

/-- The theorem applies to a run in which a `refresh` takes the entry of the loop that has ended out of
the map before Alice pairs with Bob again. -/
theorem connectable_live_pairedAfterRefresh :
    ∃ tr s, Run (machine alice) (KeepsLoops alice) (aliceStart (.devices [recordOf .bob])) tr s ∧
      (∃ e ∈ tr, (unpairs alice e.pre e.act).isSome = true) ∧
      (∃ e ∈ tr.getLast?, ∃ d ∈ e.post.shared.pairedStore.stored,
        d.pairingStatus.isConnectable = true) ∧
      ∀ e ∈ tr, RefreshesAll alice e := by
  obtain ⟨tr, s, hrun, htest⟩ := Run.of_check (machine alice) (KeepsLoops alice)
    (aliceStart (.devices [recordOf .bob]))
    (unpairedByBob ++ .call .refresh :: go 2 2 ++ joined 3 .bob 5) (fun tr _ =>
      (∃ e ∈ tr, (unpairs alice e.pre e.act).isSome = true) ∧
      ∃ e ∈ tr.getLast?, ∃ d ∈ e.post.shared.pairedStore.stored,
        d.pairingStatus.isConnectable = true) (by decide +kernel)
  obtain ⟨hunpaired, hpaired⟩ := of_decide_eq_true htest
  exact ⟨tr, s, hrun, hunpaired, hpaired,
    connectable_live alice (.devices [recordOf .bob]) false ⟨true, true⟩ .everyone none tr s hrun⟩

end DashBeam.Node
