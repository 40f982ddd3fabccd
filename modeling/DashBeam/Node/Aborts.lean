import DashBeam.Node.Fits

/-!
# Which tasks are aborted

A handle is aborted through the task map or through the pairing host's expiry slot. The map names
connect loops and the slot names expiry tasks, so no other task is ever aborted
(`aborted_stoppable`), and no other is dropped at an await.
-/

namespace DashBeam.Node

open Protocol Native Lib

set_option linter.unusedSectionVars false

variable {Id : Type} [DecidableEq Id] {C : Config Id}

/-- The kinds of task whose handles are kept. -/
def Kind.stoppable : Kind Id → Bool
  | .connect _ | .expiry => true
  | _ => false

theorem stoppable_of_kindStep {kind kind' : Kind Id} (h : KindStep kind kind')
    (hkind : kind.stoppable = true) : kind'.stoppable = true := by
  cases kind with
  | connect l =>
    obtain ⟨l', rfl, -⟩ := h
    rfl
  | expiry =>
    cases h
    rfl
  | inbound | control | host | call | lan | background => cases hkind

/-- The handle is that of a connect loop or an expiry task. -/
def Handle (s : State Id) (pid : Nat) : Prop :=
  ∃ t, s.procs[pid]? = some t ∧ t.kind.stoppable = true

/-- The handles the node keeps, and the tasks it has aborted. -/
structure AbortInv (s : State Id) : Prop where
  tasks : ∀ entry ∈ s.shared.tasks, Handle s entry.2
  expire : ∀ pid, s.shared.pairingExpireTask = some pid → Handle s pid
  expiring : ∀ (p : Nat) (t : Task Id), s.procs[p]? = some t →
    ∀ pid, .window (.setExpireTask pid) ∈ t.todo → Handle s pid
  aborted : ∀ (p : Nat) (t : Task Id), s.procs[p]? = some t → t.aborted = true →
    t.kind.stoppable = true

/-! ### Handles -/

/-- A task keeps its kind as far as handles go. -/
theorem Handle.step {s s' : State Id} {a : Act Id} {out : List (Out Id)}
    (hs : Node.step C s a = some (s', out)) {pid : Nat} (h : Handle s pid) : Handle s' pid := by
  obtain ⟨t, hget, hstop⟩ := h
  obtain ⟨t', kind, todo, hget', hcont, hhas⟩ := step_continues hs hget
  refine ⟨t', hget', ?_⟩
  rw [hhas.1]
  cases hcont with
  | kept => exact hstop
  | exec htodo hnext => exact stoppable_of_kindStep (next_kind hnext) hstop
  | recv hrecv =>
    cases received_case hrecv with
    | control | host => cases hstop
    | connect => rfl
  | close => exact hstop
  | drop => exact hstop

/-- The map after a `refresh`: the entries it kept, and those of the loops it started. -/
theorem spawnMissing_tasks {tasks : List (String × Nat)} {fresh : Nat}
    {active : List PairedDevice} {entry : String × Nat}
    (h : entry ∈ (spawnMissing C tasks fresh active : _ × List (Task Id)).1) :
    entry ∈ tasks ∨ ∃ i device, entry = (C.key device.endpointId, fresh + i) ∧
      (spawnMissing C tasks fresh active).2[i]? = some (connectTask device : Task Id) := by
  induction active generalizing tasks fresh with
  | nil => exact .inl h
  | cons device rest ih =>
    rw [spawnMissing] at h ⊢
    split at h
    · rename_i hsome
      rw [if_pos hsome]
      exact ih h
    · rename_i hnone
      rw [if_neg hnone]
      rcases ih h with hmem | ⟨i, other, rfl, hspawned⟩
      · rw [List.mem_append, List.mem_singleton] at hmem
        rcases hmem with hmem | rfl
        · exact .inl hmem
        · exact .inr ⟨0, device, rfl, rfl⟩
      · refine .inr ⟨i + 1, other, ?_, hspawned⟩
        rw [Nat.add_assoc, Nat.add_comm 1 i]

theorem handle_spawned {s s' : State Id} {p i : Nat} {env : Env} {out : List (Out Id)} {t : Task Id}
    {instr : Instr Id} {rest : List (Instr Id)} {kind : Kind Id} {n : Next Id}
    (hs : step C s (.exec p env) = some (s', out)) (hget : s.procs[p]? = some t)
    (htodo : t.todo = instr :: rest)
    (hnext : next C s.shared t.kind s.procs.length env instr = some (kind, n))
    (hi : i < n.spawn.length) (hstop : ∀ t ∈ n.spawn, t.kind.stoppable = true) :
    Handle s' (s.procs.length + i) := by
  obtain ⟨kind₀, n₀, hnext₀, rfl, -⟩ := exec_eq hs hget htodo
  rw [hnext] at hnext₀
  obtain ⟨rfl, rfl⟩ := Prod.mk.inj (Option.some.inj hnext₀)
  set t' : Task Id := Task.settle ⟨kind, n.push ++ rest, t.aborted⟩
  have hnew : (s.procs.set p t' ++ n.spawn)[s.procs.length + i]? = some n.spawn[i] := by
    rw [List.getElem?_append_right (by simp), List.length_set]
    simp
  have hmem : n.spawn[i] ∈ n.spawn := List.getElem_mem hi
  refine ⟨if s.procs.length + i ∈ n.abort then n.spawn[i].abort else n.spawn[i], ?_, ?_⟩
  · simp only [abortAll, List.getElem?_mapIdx, hnew, Option.map_some]
  · split
    · rw [((Task.has_self n.spawn[i]).abort).1]
      exact hstop _ hmem
    · exact hstop _ hmem

/-- The critical sections that abort a task. -/
inductive AbortCase (C : Config Id) (s : Shared Id) (pid : Nat) : Instr Id → Prop
  | abortTask {key : String} (hentry : (key, pid) ∈ s.tasks) :
      AbortCase C s pid (.common (.abortTask key))
  | refreshTasks {active : List PairedDevice} {key : String} (hentry : (key, pid) ∈ s.tasks)
      (hkey : (active.any fun d => C.key d.endpointId == key) = false) :
      AbortCase C s pid (.common (.refreshTasks active))
  | respawn {key : String} (device : PairedDevice) (hentry : (key, pid) ∈ s.tasks) :
      AbortCase C s pid (.lan (.respawn key device))
  | expire (hexpire : s.pairingExpireTask = some pid) : AbortCase C s pid (.window .takeExpireTask)

theorem abort_case {s : Shared Id} {kind kind' : Kind Id} {fresh pid : Nat} {env : Env}
    {instr : Instr Id} {n : Next Id} (hnext : next C s kind fresh env instr = some (kind', n))
    (h : pid ∈ n.abort) : AbortCase C s pid instr := by
  cases next_case hnext with
  | @common instr =>
    cases instr with
    | abortTask key =>
      obtain ⟨⟨key', pid'⟩, hfilter, rfl⟩ := List.mem_map.mp h
      obtain ⟨hentry, hkey⟩ := List.mem_filter.mp hfilter
      have hkey : key' = key := of_decide_eq_true hkey
      rw [hkey] at hentry
      exact .abortTask hentry
    | refreshTasks active =>
      obtain ⟨⟨key', pid'⟩, hfilter, rfl⟩ := List.mem_map.mp h
      obtain ⟨hentry, hkey⟩ := List.mem_filter.mp hfilter
      exact .refreshTasks hentry ((Bool.not_eq_true' _).mp hkey)
    | markUnpaired | refreshList =>
      simp only [nextCommon] at h
      split at h <;> simp at h
    | _ => simp [nextCommon] at h
  | @window instr =>
    cases instr with
    | takeExpireTask =>
      rw [nextWindow, Option.mem_toList] at h
      exact .expire h
    | _ => simp [nextWindow] at h
  | @lan instr =>
    cases instr with
    | respawn key device =>
      obtain ⟨⟨key', pid'⟩, hfilter, rfl⟩ := List.mem_map.mp h
      obtain ⟨hentry, hkey⟩ := List.mem_filter.mp hfilter
      have hkey : key' = key := of_decide_eq_true hkey
      rw [hkey] at hentry
      exact .respawn device hentry
    | observe | nudgeGet =>
      simp only [nextLan] at h
      split at h <;> simp at h
    | _ => simp [nextLan] at h
  | @service instr =>
    cases instr <;> simp only [nextService] at h <;> (try split at h) <;> simp at h
  | @accept instr conn hkind =>
    cases instr <;> simp only [nextAccept] at h <;> (try split at h) <;> (try split at h) <;>
      simp at h
  | @control instr c hkind =>
    cases instr <;> simp only [nextControl] at h <;> (try split at h) <;> (try split at h) <;>
      simp at h
  | @host instr c hkind =>
    cases instr <;> simp only [nextHost] at h <;> (try split at h) <;> simp at h
  | @connect instr l hkind =>
    cases instr <;> simp only [nextConnect] at h <;> split at h <;> simp at h

theorem mem_abort {s : Shared Id} {kind kind' : Kind Id} {fresh pid : Nat} {env : Env}
    {instr : Instr Id} {n : Next Id} (hnext : next C s kind fresh env instr = some (kind', n))
    (h : pid ∈ n.abort) : (∃ key, (key, pid) ∈ s.tasks) ∨ s.pairingExpireTask = some pid := by
  cases abort_case hnext h with
  | abortTask hentry | refreshTasks hentry | respawn _ hentry => exact .inl ⟨_, hentry⟩
  | expire hexpire => exact .inr hexpire

theorem setExpireTask_program {pid : Nat} {call : Call} :
    .window (.setExpireTask pid) ∉ (program C call : List (Instr Id)) := by
  cases call with
  | declineNearbyInvite | invitePairedDevice | respondPairedInvite =>
    simp only [program]
    split <;> simp
  | startPairingHost ttlSecs =>
    simp only [program, startPairingHost, stopPairingHost]
    split <;> simp
  | stopPairingHost => simp [program, stopPairingHost]
  | _ => simp [program]

theorem setExpireTask_exec {s : State Id} {pid : Nat} {t : Task Id} {env : Env}
    {instr : Instr Id} {rest : List (Instr Id)} {kind : Kind Id} {n : Next Id}
    (hfit : TaskFits C t.kind t.todo) (htodo : t.todo = instr :: rest)
    (hnext : next C s.shared t.kind s.procs.length env instr = some (kind, n))
    (h : .window (.setExpireTask pid) ∈ n.push ++ rest) :
    (instr = .window .spawnExpiry ∧ pid = s.procs.length) ∨
      .window (.setExpireTask pid) ∈ t.todo := by
  rw [htodo] at hfit ⊢
  rcases List.mem_append.mp h with h | h
  · -- only a call stores a handle, so it is a call that goes on to do so
    have hfit' := (taskFits_exec hfit hnext).fits _ (List.mem_append_left rest h)
    cases hkind : t.kind with
    | call call =>
      rw [hkind] at hnext hfit
      cases next_case hnext with
      | common => cases commonPush_next h
      | service => cases servicePush_next h
      | @window instr =>
        cases instr with
        | spawnExpiry =>
          rw [nextWindow, List.mem_singleton] at h
          exact .inl ⟨rfl, WindowInstr.setExpireTask.inj (Instr.window.inj h)⟩
        | _ => simp [nextWindow] at h
      | lan => exact (hfit.fits _ (List.mem_cons_self)).elim
      | accept hc | control hc | host hc | connect hc => cases hc
    | inbound conn =>
      rw [hkind] at hnext hfit
      obtain ⟨i, rfl, rfl⟩ := hfit.inbound
      cases next_case hnext with
      | accept =>
        rw [List.append_nil] at h
        cases acceptPush_next h
    | control c =>
      obtain ⟨c', rfl, -⟩ : ∃ c', kind = .control c' ∧ SessionStep c c' := by
        have hk := next_kind hnext
        rw [hkind] at hk
        exact hk
      exact hfit'.elim
    | connect l =>
      obtain ⟨l', rfl, -⟩ : ∃ l', kind = .connect l' ∧ l'.endpointId = l.endpointId := by
        have hk := next_kind hnext
        rw [hkind] at hk
        exact hk
      exact hfit'.elim
    | host | expiry | lan | background =>
      have hk := next_kind hnext
      rw [hkind] at hk
      cases hk
      exact hfit'.elim
  · exact .inr (List.mem_cons_of_mem _ h)

theorem setExpireTask_step {s s' : State Id} {a : Act Id} {out : List (Out Id)}
    (hfits : AllFit C s) (hs : step C s a = some (s', out)) {q pid : Nat} {t' : Task Id}
    (hq : s'.procs[q]? = some t') (hmem : .window (.setExpireTask pid) ∈ t'.todo) :
    (∃ t, s.procs[q]? = some t ∧ .window (.setExpireTask pid) ∈ t.todo) ∨
      ∃ env t rest, a = .exec q env ∧ s.procs[q]? = some t ∧
        t.todo = .window .spawnExpiry :: rest ∧ pid = s.procs.length := by
  obtain ⟨kind, todo, horigin, hhas⟩ := step_origin hs hq
  have hmem := hhas.mem hmem
  cases horigin with
  | kept hne hget => exact .inl ⟨_, hget, hmem⟩
  | exec hget htodo hnext =>
    rcases setExpireTask_exec (hfits q _ hget) htodo hnext hmem with ⟨rfl, rfl⟩ | hmem
    · exact .inr ⟨_, _, _, rfl, hget, htodo, rfl⟩
    · exact .inl ⟨_, hget, hmem⟩
  | recv hget hrecv =>
    have hfit := (taskFits_recv (hfits q _ hget).kindFits hrecv).fits _ hmem
    cases received_case hrecv <;> exact hfit.elim
  | @close reason kind instr rest aborted hget hsees =>
    have hfit := (taskFits_close reason (hfits q _ hget).kindFits).fits _ hmem
    cases kind with
    | call => simp [closedTodo] at hmem
    | _ => exact hfit.elim
  | drop hget => simp at hmem
  | spawned hget hnext hspawn hnew =>
    cases next_spawn hnext hspawn <;>
      simp [connectTask, notifyTask, probeTask, expiryTask] at hmem
  | @started a t hactor hstart hnew =>
    cases started_case hstart with
    | connect | appeared | vanished => simp at hmem
    | call call => exact absurd hmem setExpireTask_program

/-! ### The invariant -/

@[simp]
theorem aborted_settle (t : Task Id) : t.settle.aborted = t.aborted := by
  unfold Task.settle
  split <;> rfl

theorem aborted_step {s s' : State Id} {a : Act Id} {out : List (Out Id)}
    (hs : step C s a = some (s', out)) {q : Nat} {t' : Task Id} (hq : s'.procs[q]? = some t')
    (h : t'.aborted = true) : (∃ t, s.procs[q]? = some t ∧ t.aborted = true) ∨
      ∃ p env t instr rest kind n, a = .exec p env ∧ s.procs[p]? = some t ∧
        t.todo = instr :: rest ∧
        next C s.shared t.kind s.procs.length env instr = some (kind, n) ∧ q ∈ n.abort := by
  cases step_case hs with
  | @exec p env t instr rest kind n hget htodo hnext =>
    rw [abortAll, List.getElem?_mapIdx, Option.map_eq_some_iff] at hq
    obtain ⟨t₀, ht₀, rfl⟩ := hq
    by_cases habort : q ∈ n.abort
    · exact .inr ⟨p, env, t, instr, rest, kind, n, rfl, hget, htodo, hnext, habort⟩
    · rw [if_neg habort] at h
      rcases getElem?_set_append hget ht₀ with ⟨rfl, rfl⟩ | ⟨-, ht₀⟩ | ⟨-, hmem⟩
      · rw [aborted_settle] at h
        exact .inl ⟨t, hget, h⟩
      · exact .inl ⟨t₀, ht₀, h⟩
      · cases next_spawn hnext hmem <;> cases h
  | @recv p msg kind kind' rest todo aborted hget hrecv =>
    rcases getElem?_set_cases hget hq with ⟨rfl, rfl⟩ | ⟨-, ht₀⟩
    · rw [aborted_settle] at h
      exact .inl ⟨_, hget, h⟩
    · exact .inl ⟨_, ht₀, h⟩
  | @close p reason kind instr rest aborted hget hsees =>
    rcases getElem?_set_cases hget hq with ⟨rfl, rfl⟩ | ⟨-, ht₀⟩
    · rw [aborted_settle] at h
      exact .inl ⟨_, hget, h⟩
    · exact .inl ⟨_, ht₀, h⟩
  | @drop p kind instr rest hget hawaits =>
    rcases getElem?_set_cases hget hq with ⟨rfl, rfl⟩ | ⟨-, ht₀⟩
    · exact .inl ⟨_, hget, rfl⟩
    · exact .inl ⟨_, ht₀, h⟩
  | @start _ t hactor hstart =>
    rw [List.getElem?_append] at hq
    split at hq
    · exact .inl ⟨_, hq, h⟩
    · rw [List.getElem?_singleton] at hq
      split at hq
      · obtain rfl := Option.some.inj hq
        cases started_case hstart with
        | connect | call | appeared | vanished => cases h
      · cases hq

theorem aborted_origin {s s' : State Id} {a : Act Id} {out : List (Out Id)}
    (hs : step C s a = some (s', out)) {q : Nat} {t' : Task Id} (hq : s'.procs[q]? = some t')
    (h : t'.aborted = true) : (∃ t, s.procs[q]? = some t ∧ t.aborted = true) ∨
      (∃ key, (key, q) ∈ s.shared.tasks) ∨ s.shared.pairingExpireTask = some q := by
  rcases aborted_step hs hq h with hbefore | ⟨_, _, _, _, _, _, _, -, -, -, hnext, habort⟩
  · exact .inl hbefore
  · exact .inr (mem_abort hnext habort)

theorem settle_of_running {t : Task Id} (h : t.aborted = false) : t.settle = t := by
  unfold Task.settle
  rw [h, Bool.false_and]
  rfl

theorem origin_of_running {s s' : State Id} {a : Act Id} {out : List (Out Id)}
    (hs : step C s a = some (s', out)) {q : Nat} {t' : Task Id} (hq : s'.procs[q]? = some t')
    (h : t'.aborted = false) : Origin C s q a t'.kind t'.todo := by
  cases step_case hs with
  | @exec p env t instr rest kind n hget htodo hnext =>
    rw [abortAll, List.getElem?_mapIdx, Option.map_eq_some_iff] at hq
    obtain ⟨t₀, ht₀, rfl⟩ := hq
    by_cases habort : q ∈ n.abort
    · rw [if_pos habort, Task.abort, aborted_settle] at h
      cases h
    · rw [if_neg habort] at h ⊢
      rcases getElem?_set_append hget ht₀ with ⟨rfl, rfl⟩ | ⟨hne, ht₀⟩ | ⟨hnew, hmem⟩
      · rw [aborted_settle] at h
        rw [settle_of_running h]
        exact .exec hget htodo hnext
      · exact .kept (by simpa [Act.actor] using hne) ht₀
      · exact .spawned hget hnext hmem hnew (by rw [htodo]; rfl)
  | @recv p msg kind kind' rest todo aborted hget hrecv =>
    rcases getElem?_set_cases hget hq with ⟨rfl, rfl⟩ | ⟨hne, ht₀⟩
    · rw [aborted_settle] at h
      rw [settle_of_running h]
      exact .recv hget hrecv
    · exact .kept (by simpa [Act.actor] using hne) ht₀
  | @close p reason kind instr rest aborted hget hsees =>
    rcases getElem?_set_cases hget hq with ⟨rfl, rfl⟩ | ⟨hne, ht₀⟩
    · rw [aborted_settle] at h
      rw [settle_of_running h]
      exact .close hget hsees
    · exact .kept (by simpa [Act.actor] using hne) ht₀
  | @drop p kind instr rest hget hawaits =>
    rcases getElem?_set_cases hget hq with ⟨rfl, rfl⟩ | ⟨hne, ht₀⟩
    · cases h
    · exact .kept (by simpa [Act.actor] using hne) ht₀
  | @start _ t hactor hstart =>
    rw [List.getElem?_append] at hq
    split at hq
    · exact .kept (by rw [hactor]; simp) hq
    · rw [List.getElem?_singleton] at hq
      split at hq
      · obtain rfl := Option.some.inj hq
        exact .started hactor hstart (by omega)
      · cases hq

theorem Handle.stoppable {s : State Id} {q : Nat} {t : Task Id} (h : Handle s q)
    (hq : s.procs[q]? = some t) : t.kind.stoppable = true := by
  obtain ⟨t₀, ht₀, hstop⟩ := h
  rw [hq] at ht₀
  obtain rfl := Option.some.inj ht₀
  exact hstop

/-- The entries of the task map after a critical section. -/
theorem tasks_exec {s s' : State Id} {p : Nat} {env : Env} {out : List (Out Id)} {t : Task Id}
    {instr : Instr Id} {rest : List (Instr Id)} {kind : Kind Id} {n : Next Id}
    (hs : step C s (.exec p env) = some (s', out)) (hget : s.procs[p]? = some t)
    (htodo : t.todo = instr :: rest)
    (hnext : next C s.shared t.kind s.procs.length env instr = some (kind, n))
    {entry : String × Nat}
    (hentry : entry ∈ (write C s.shared t.kind s.procs.length env instr).tasks) :
    entry ∈ s.shared.tasks ∨ Handle s' entry.2 := by
  rw [write_tasks] at hentry
  split at hentry
  · exact .inl (List.mem_filter.mp hentry).1
  · rename_i active
    rcases spawnMissing_tasks hentry with hmem | ⟨i, device, rfl, hspawned⟩
    · exact .inl (List.mem_filter.mp hmem).1
    · obtain ⟨rfl, rfl⟩ := Prod.mk.inj (Option.some.inj hnext)
      obtain ⟨hlt, -⟩ := List.getElem?_eq_some_iff.mp hspawned
      refine .inr (handle_spawned hs hget htodo hnext hlt fun t' ht' => ?_)
      obtain ⟨device, rfl⟩ := mem_spawnMissing ht'
      rfl
  · rename_i key device
    rw [List.mem_append, List.mem_singleton] at hentry
    rcases hentry with hmem | rfl
    · exact .inl (List.mem_filter.mp hmem).1
    · obtain ⟨rfl, rfl⟩ := Prod.mk.inj (Option.some.inj hnext)
      refine .inr ?_
      have hhandle := handle_spawned (i := 0) hs hget htodo hnext (by simp [nextLan])
        (by simp [nextLan, connectTask, Kind.stoppable])
      exact hhandle
  · exact .inl hentry

theorem AbortInv.step {s s' : State Id} {a : Act Id} {out : List (Out Id)} (h : AbortInv s)
    (hfits : AllFit C s) (hs : Node.step C s a = some (s', out)) : AbortInv s' := by
  refine ⟨fun entry hentry => ?_, fun pid hpid => ?_, fun q t' hq pid hmem => ?_,
    fun q t' hq haborted => ?_⟩
  · rcases step_shared hs with ⟨hsame, -⟩ | ⟨p, env, t, instr, rest, kind, n, rfl, hget, htodo,
      hnext, hshared, -⟩
    · rw [hsame] at hentry
      exact (h.tasks entry hentry).step hs
    · rw [hshared] at hentry
      rcases tasks_exec hs hget htodo hnext hentry with hmem | hhandle
      · exact (h.tasks entry hmem).step hs
      · exact hhandle
  · rcases step_shared hs with ⟨hsame, -⟩ | ⟨p, env, t, instr, rest, kind, n, rfl, hget, htodo,
      -, hshared, -⟩
    · rw [hsame] at hpid
      exact (h.expire pid hpid).step hs
    · rw [hshared, write_pairingExpireTask] at hpid
      split at hpid
      · cases hpid
      · obtain rfl := Option.some.inj hpid
        exact (h.expiring p t hget _ (by rw [htodo]; simp)).step hs
      · exact (h.expire pid hpid).step hs
  · rcases setExpireTask_step hfits hs hq hmem with ⟨t, hget, hmem⟩ | ⟨env, t, rest, rfl, hget,
      htodo, rfl⟩
    · exact (h.expiring q t hget pid hmem).step hs
    · exact handle_spawned (i := 0) hs hget htodo rfl (by simp [nextWindow])
        (by simp [nextWindow, expiryTask, Kind.stoppable])
  · rcases aborted_origin hs hq haborted with ⟨t, hget, haborted⟩ | ⟨key, hentry⟩ | hexpire
    · have hhandle : Handle s q := ⟨t, hget, h.aborted q t hget haborted⟩
      exact (hhandle.step hs).stoppable hq
    · exact ((h.tasks _ hentry).step hs).stoppable hq
    · exact ((h.expire _ hexpire).step hs).stoppable hq

theorem abortInv_start (store : StoreFile) (rotated : Bool) (io : Io) (d : Discoverability)
    (relay : Option String) : AbortInv (start C store rotated io d relay) := by
  refine ⟨by simp [start], by simp [start], fun p t hp pid hmem => ?_, fun p t hp haborted => ?_⟩
  · rw [eq_of_start hp] at hmem
    simp [program] at hmem
  · rw [eq_of_start hp] at haborted
    cases haborted

/-- In every reachable state only connect loops and expiry tasks are aborted. -/
theorem aborted_stoppable {ok : State Id → Act Id → Prop} {store : StoreFile} {rotated : Bool}
    {io : Io} {d : Discoverability} {relay : Option String} {tr : List (Step Id)} {s : State Id}
    (hrun : Run (machine C) ok (start C store rotated io d relay) tr s) {p : Nat} {t : Task Id}
    (hget : s.procs[p]? = some t) (h : t.aborted = true) : t.kind.stoppable = true := by
  have hinv : AbortInv s := hrun.invariant_of_run (I := fun _ s => AbortInv s)
    (abortInv_start store rotated io d relay)
    (fun hprev h _ hs => h.step (fits_run hprev) hs)
  exact hinv.aborted p t hget h

end DashBeam.Node
