import DashBeam.Lib.Past
import DashBeam.Node.Machine

/-!
# What a step of the node does

`step_case` inverts a step. `step_origin` says where a task of the new state comes from: it is the
task that moved, one that did not, or one that was spawned, in each case possibly stopped. The field
lemmas say which critical sections write which part of the shared state. The invariants of the
later modules are read off these.
-/

namespace DashBeam.Node

open Protocol Native Lib

set_option linter.unusedSectionVars false

variable {Id : Type} [DecidableEq Id] {C : Config Id}

/-- A step of a node's run. -/
abbrev Step (Id : Type) := Entry (State Id) (Act Id) (Out Id)

/-- The task an action moves. -/
def Act.actor : Act Id → Option Nat
  | .exec pid _ | .recv pid _ | .close pid _ | .drop pid => some pid
  | _ => none

def kindOf (s : State Id) (pid : Nat) : Option (Kind Id) := (s.procs[pid]?).map (·.kind)

/-- The critical section a task is about to go through. -/
def nextInstr (s : State Id) (pid : Nat) : Option (Instr Id) :=
  (s.procs[pid]?).bind (·.todo.head?)

theorem kindOf_eq {s : State Id} {pid : Nat} {t : Task Id} (h : s.procs[pid]? = some t) :
    kindOf s pid = some t.kind := by
  rw [kindOf, h]
  rfl

theorem nextInstr_eq {s : State Id} {pid : Nat} {t : Task Id} {instr : Instr Id}
    {rest : List (Instr Id)} (h : s.procs[pid]? = some t) (htodo : t.todo = instr :: rest) :
    nextInstr s pid = some instr := by
  rw [nextInstr, h, Option.bind_some, htodo]
  rfl

theorem exists_of_nextInstr {s : State Id} {pid : Nat} {instr : Instr Id}
    (h : nextInstr s pid = some instr) :
    ∃ t rest, s.procs[pid]? = some t ∧ t.todo = instr :: rest := by
  obtain ⟨t, hget, hhead⟩ := Option.bind_eq_some_iff.mp h
  obtain ⟨rest, htodo⟩ := List.head?_eq_some_iff.mp hhead
  exact ⟨t, rest, hget, htodo⟩

/-- The critical section an action goes through, and what the outside answers. -/
def doing (s : State Id) : Act Id → Option (Instr Id × Env)
  | .exec pid env => (nextInstr s pid).map (·, env)
  | _ => none

theorem doing_exec {s : State Id} {pid : Nat} {env : Env} {t : Task Id} {instr : Instr Id}
    {rest : List (Instr Id)} (h : s.procs[pid]? = some t) (htodo : t.todo = instr :: rest) :
    doing s (.exec pid env) = some (instr, env) := by
  rw [doing, nextInstr_eq h htodo]
  rfl

/-- The critical section of a task, from what the action is doing. -/
theorem exists_of_doing {s : State Id} {a : Act Id} {instr : Instr Id}
    (h : (doing s a).map (·.1) = some instr) :
    ∃ p env t rest, a = .exec p env ∧ s.procs[p]? = some t ∧ t.todo = instr :: rest := by
  cases a with
  | exec p env =>
    simp only [doing, Option.map_map, Option.map_eq_some_iff, Function.comp] at h
    obtain ⟨instr', hnext, rfl⟩ := h
    obtain ⟨t, rest, hget, htodo⟩ := exists_of_nextInstr hnext
    exact ⟨p, env, t, rest, rfl, hget, htodo⟩
  | recv | close | drop | connect | call | lan => cases h

/-! ### Inversion -/

inductive StepCase (C : Config Id) (s : State Id) : Act Id → State Id → List (Out Id) → Prop
  | exec {pid : Nat} {env : Env} {t : Task Id} {instr : Instr Id} {rest : List (Instr Id)}
      {kind : Kind Id} {n : Next Id} (hget : s.procs[pid]? = some t) (htodo : t.todo = instr :: rest)
      (hnext : next C s.shared t.kind s.procs.length env instr = some (kind, n)) :
      StepCase C s (.exec pid env)
        ⟨write C s.shared t.kind s.procs.length env instr,
          abortAll n.abort (s.procs.set pid (Task.settle ⟨kind, n.push ++ rest, t.aborted⟩) ++
            n.spawn)⟩ n.out
  | recv {pid : Nat} {msg : ControlMessage} {kind kind' : Kind Id} {rest todo : List (Instr Id)}
      {aborted : Bool} (hget : s.procs[pid]? = some ⟨kind, .common .read :: rest, aborted⟩)
      (hrecv : received C kind msg = some (kind', todo)) :
      StepCase C s (.recv pid msg)
        ⟨s.shared, s.procs.set pid (Task.settle ⟨kind', todo, aborted⟩)⟩ []
  | close {pid : Nat} {reason : String} {kind : Kind Id} {instr : Instr Id}
      {rest : List (Instr Id)} {aborted : Bool}
      (hget : s.procs[pid]? = some ⟨kind, instr :: rest, aborted⟩)
      (hsees : instr.seesClose = true) :
      StepCase C s (.close pid reason)
        ⟨s.shared, s.procs.set pid (Task.settle ⟨kind, closedTodo C kind reason, aborted⟩)⟩ []
  | drop {pid : Nat} {kind : Kind Id} {instr : Instr Id} {rest : List (Instr Id)}
      (hget : s.procs[pid]? = some ⟨kind, instr :: rest, true⟩) (hawaits : instr.awaits = true) :
      StepCase C s (.drop pid) ⟨s.shared, s.procs.set pid ⟨kind, [], true⟩⟩ []
  | start {a : Act Id} {t : Task Id} (hactor : a.actor = none) (hstart : started C a = some t) :
      StepCase C s a ⟨s.shared, s.procs ++ [t]⟩ []

theorem step_case {s s' : State Id} {a : Act Id} {out : List (Out Id)}
    (h : step C s a = some (s', out)) : StepCase C s a s' out := by
  cases a with
  | exec pid env =>
    simp only [step, exec] at h
    split at h
    · cases h
    · rename_i t hget
      split at h
      · cases h
      · rename_i instr rest htodo
        split at h
        · cases h
        · rename_i kind n hnext
          simp only [Option.some.injEq, Prod.mk.injEq] at h
          obtain ⟨rfl, rfl⟩ := h
          exact .exec hget htodo hnext
  | recv pid msg =>
    simp only [step, recv, Option.map_eq_some_iff] at h
    obtain ⟨t, h, hpair⟩ := h
    obtain ⟨rfl, rfl⟩ := Prod.mk.inj hpair
    split at h
    · rename_i kind rest aborted hget
      split at h
      · rename_i kind' todo hrecv
        obtain rfl := Option.some.inj h
        exact .recv hget hrecv
      · cases h
    · cases h
  | close pid reason =>
    simp only [step, close, Option.map_eq_some_iff] at h
    obtain ⟨t, h, hpair⟩ := h
    obtain ⟨rfl, rfl⟩ := Prod.mk.inj hpair
    split at h
    · rename_i kind instr rest aborted hget
      split at h
      · rename_i hsees
        obtain rfl := Option.some.inj h
        exact .close hget hsees
      · cases h
    · cases h
  | drop pid =>
    simp only [step, dropTask, Option.map_eq_some_iff] at h
    obtain ⟨t, h, hpair⟩ := h
    obtain ⟨rfl, rfl⟩ := Prod.mk.inj hpair
    split at h
    · rename_i kind instr rest hget
      split at h
      · rename_i hawaits
        obtain rfl := Option.some.inj h
        exact .drop hget hawaits
      · cases h
    · cases h
  | connect conn | call call | lan event =>
    simp only [step, Option.map_eq_some_iff] at h
    obtain ⟨t, h, hpair⟩ := h
    obtain ⟨rfl, rfl⟩ := Prod.mk.inj hpair
    exact .start rfl h

/-! ### Where a task comes from -/

/-- The task has this kind, and this to do unless it was stopped, which happens only where it
waits. -/
def Task.Has (t : Task Id) (kind : Kind Id) (todo : List (Instr Id)) : Prop :=
  t.kind = kind ∧ (t.todo = todo ∨ t.todo = [] ∧ todo.head?.any Instr.parks = true)

theorem Task.has_self (t : Task Id) : t.Has t.kind t.todo := ⟨rfl, .inl rfl⟩

theorem Task.has_settle (kind : Kind Id) (todo : List (Instr Id)) (aborted : Bool) :
    (Task.settle ⟨kind, todo, aborted⟩).Has kind todo := by
  unfold Task.settle
  split
  · rename_i h
    rw [Bool.and_eq_true] at h
    exact ⟨rfl, .inr ⟨rfl, h.2⟩⟩
  · exact ⟨rfl, .inl rfl⟩

theorem Task.Has.todo_eq {t : Task Id} {kind : Kind Id} {instr : Instr Id}
    {todo : List (Instr Id)} (h : t.Has kind (instr :: todo)) (hparks : instr.parks = false) :
    t.todo = instr :: todo := by
  rcases h.2 with htodo | ⟨-, hhead⟩
  · exact htodo
  · rw [List.head?_cons, Option.any_some, hparks] at hhead
    cases hhead

theorem Task.Has.mem {t : Task Id} {kind : Kind Id} {todo : List (Instr Id)} (h : t.Has kind todo)
    {instr : Instr Id} (hmem : instr ∈ t.todo) : instr ∈ todo := by
  rcases h.2 with htodo | ⟨htodo, -⟩
  · rwa [htodo] at hmem
  · rw [htodo] at hmem
    simp at hmem

theorem Task.Has.abort {t : Task Id} {kind : Kind Id} {todo : List (Instr Id)}
    (h : t.Has kind todo) : t.abort.Has kind todo := by
  obtain ⟨hkind, htodo⟩ := h
  obtain ⟨hkind', htodo'⟩ := Task.has_settle t.kind t.todo true
  refine ⟨hkind'.trans hkind, ?_⟩
  rcases htodo' with htodo' | ⟨hnil, hparks⟩
  · rw [Task.abort, htodo']
    exact htodo
  · rcases htodo with htodo | htodo
    · rw [htodo] at hparks
      exact .inr ⟨hnil, hparks⟩
    · exact .inr ⟨hnil, htodo.2⟩

/-- Where the task `q` of the state after an action comes from. -/
inductive Origin (C : Config Id) (s : State Id) (q : Nat) :
    Act Id → Kind Id → List (Instr Id) → Prop
  | kept {a : Act Id} {t : Task Id} (hne : a.actor ≠ some q) (hget : s.procs[q]? = some t) :
      Origin C s q a t.kind t.todo
  | exec {env : Env} {t : Task Id} {instr : Instr Id} {rest : List (Instr Id)} {kind : Kind Id}
      {n : Next Id} (hget : s.procs[q]? = some t) (htodo : t.todo = instr :: rest)
      (hnext : next C s.shared t.kind s.procs.length env instr = some (kind, n)) :
      Origin C s q (.exec q env) kind (n.push ++ rest)
  | recv {msg : ControlMessage} {kind kind' : Kind Id} {rest todo : List (Instr Id)}
      {aborted : Bool} (hget : s.procs[q]? = some ⟨kind, .common .read :: rest, aborted⟩)
      (hrecv : received C kind msg = some (kind', todo)) : Origin C s q (.recv q msg) kind' todo
  | close {reason : String} {kind : Kind Id} {instr : Instr Id} {rest : List (Instr Id)}
      {aborted : Bool} (hget : s.procs[q]? = some ⟨kind, instr :: rest, aborted⟩)
      (hsees : instr.seesClose = true) :
      Origin C s q (.close q reason) kind (closedTodo C kind reason)
  | drop {kind : Kind Id} {instr : Instr Id} {rest : List (Instr Id)}
      (hget : s.procs[q]? = some ⟨kind, instr :: rest, true⟩) : Origin C s q (.drop q) kind []
  | spawned {pid : Nat} {env : Env} {t t' : Task Id} {instr : Instr Id} {kind : Kind Id}
      {n : Next Id} (hget : s.procs[pid]? = some t)
      (hnext : next C s.shared t.kind s.procs.length env instr = some (kind, n))
      (hmem : t' ∈ n.spawn) (hnew : s.procs.length ≤ q) (hhead : t.todo.head? = some instr) :
      Origin C s q (.exec pid env) t'.kind t'.todo
  | started {a : Act Id} {t : Task Id} (hactor : a.actor = none) (hstart : started C a = some t)
      (hnew : q = s.procs.length) : Origin C s q a t.kind t.todo

theorem getElem?_abortAll {pids : List Nat} {procs : List (Task Id)} {q : Nat} {t' : Task Id}
    (h : (abortAll pids procs)[q]? = some t') :
    ∃ t, procs[q]? = some t ∧ ∀ {kind todo}, t.Has kind todo → t'.Has kind todo := by
  rw [abortAll, List.getElem?_mapIdx, Option.map_eq_some_iff] at h
  obtain ⟨t, ht, rfl⟩ := h
  refine ⟨t, ht, fun hhas => ?_⟩
  split
  · exact hhas.abort
  · exact hhas

theorem getElem?_set_cases {procs : List (Task Id)} {pid q : Nat} {t t₀ t' : Task Id}
    (hpid : procs[pid]? = some t₀) (h : (procs.set pid t)[q]? = some t') :
    (q = pid ∧ t' = t) ∨ (pid ≠ q ∧ procs[q]? = some t') := by
  rw [getElem?_set_of_some hpid] at h
  split at h
  · rename_i heq
    exact .inl ⟨heq.symm, (Option.some.inj h).symm⟩
  · rename_i hne
    exact .inr ⟨hne, h⟩

theorem getElem?_set_append {procs spawned : List (Task Id)} {pid q : Nat} {t t₀ t' : Task Id}
    (hpid : procs[pid]? = some t₀) (h : (procs.set pid t ++ spawned)[q]? = some t') :
    (q = pid ∧ t' = t) ∨ (pid ≠ q ∧ procs[q]? = some t') ∨
      (procs.length ≤ q ∧ t' ∈ spawned) := by
  rw [List.getElem?_append, List.length_set] at h
  split at h
  · rcases getElem?_set_cases hpid h with hmoved | hkept
    · exact .inl hmoved
    · exact .inr (.inl hkept)
  · rename_i hge
    exact .inr (.inr ⟨by omega, List.mem_of_getElem? h⟩)

theorem step_origin {s s' : State Id} {a : Act Id} {out : List (Out Id)}
    (h : step C s a = some (s', out)) {q : Nat} {t' : Task Id} (hq : s'.procs[q]? = some t') :
    ∃ kind todo, Origin C s q a kind todo ∧ t'.Has kind todo := by
  cases step_case h with
  | @exec pid env t instr rest kind n hget htodo hnext =>
    obtain ⟨t₀, ht₀, hhas⟩ := getElem?_abortAll hq
    rcases getElem?_set_append hget ht₀ with ⟨rfl, rfl⟩ | ⟨hne, ht₀⟩ | ⟨hnew, hmem⟩
    · exact ⟨_, _, .exec hget htodo hnext, hhas (Task.has_settle _ _ _)⟩
    · refine ⟨_, _, .kept ?_ ht₀, hhas ⟨rfl, .inl rfl⟩⟩
      simpa [Act.actor] using hne
    · exact ⟨_, _, .spawned hget hnext hmem hnew (by rw [htodo]; rfl), hhas ⟨rfl, .inl rfl⟩⟩
  | @recv pid msg kind kind' rest todo aborted hget hrecv =>
    rcases getElem?_set_cases hget hq with ⟨rfl, rfl⟩ | ⟨hne, ht₀⟩
    · exact ⟨_, _, .recv hget hrecv, Task.has_settle _ _ _⟩
    · refine ⟨_, _, .kept ?_ ht₀, rfl, .inl rfl⟩
      simpa [Act.actor] using hne
  | @close pid reason kind instr rest aborted hget hsees =>
    rcases getElem?_set_cases hget hq with ⟨rfl, rfl⟩ | ⟨hne, ht₀⟩
    · exact ⟨_, _, .close hget hsees, Task.has_settle _ _ _⟩
    · refine ⟨_, _, .kept ?_ ht₀, rfl, .inl rfl⟩
      simpa [Act.actor] using hne
  | @drop pid kind instr rest hget hawaits =>
    rcases getElem?_set_cases hget hq with ⟨rfl, rfl⟩ | ⟨hne, ht₀⟩
    · exact ⟨_, _, .drop hget, rfl, .inl rfl⟩
    · refine ⟨_, _, .kept ?_ ht₀, rfl, .inl rfl⟩
      simpa [Act.actor] using hne
  | @start _ t hactor hstart =>
    rw [List.getElem?_append] at hq
    split at hq
    · exact ⟨_, _, .kept (by rw [hactor]; simp) hq, rfl, .inl rfl⟩
    · rw [List.getElem?_singleton] at hq
      split at hq
      · obtain rfl := Option.some.inj hq
        exact ⟨_, _, .started hactor hstart (by omega), rfl, .inl rfl⟩
      · cases hq

theorem step_persists {s s' : State Id} {a : Act Id} {out : List (Out Id)}
    (h : step C s a = some (s', out)) {q : Nat} {t : Task Id} (hq : s.procs[q]? = some t) :
    ∃ t', s'.procs[q]? = some t' := by
  have hlt : q < s.procs.length := (List.getElem?_eq_some_iff.mp hq).1
  have hlt' : q < s'.procs.length := by
    cases step_case h with
    | exec => simp [abortAll]; omega
    | recv | close | drop => simpa using hlt
    | start => simp; omega
  exact ⟨_, List.getElem?_eq_getElem hlt'⟩

/-- How a task that is there before a step goes on in it: `Origin` without the tasks that are new. -/
inductive Continues (C : Config Id) (s : State Id) (q : Nat) :
    Task Id → Act Id → Kind Id → List (Instr Id) → Prop
  | kept {a : Act Id} {t : Task Id} (hne : a.actor ≠ some q) : Continues C s q t a t.kind t.todo
  | exec {env : Env} {t : Task Id} {instr : Instr Id} {rest : List (Instr Id)} {kind : Kind Id}
      {n : Next Id} (htodo : t.todo = instr :: rest)
      (hnext : next C s.shared t.kind s.procs.length env instr = some (kind, n)) :
      Continues C s q t (.exec q env) kind (n.push ++ rest)
  | recv {msg : ControlMessage} {kind kind' : Kind Id} {rest todo : List (Instr Id)}
      {aborted : Bool} (hrecv : received C kind msg = some (kind', todo)) :
      Continues C s q ⟨kind, .common .read :: rest, aborted⟩ (.recv q msg) kind' todo
  | close {reason : String} {kind : Kind Id} {instr : Instr Id} {rest : List (Instr Id)}
      {aborted : Bool} (hsees : instr.seesClose = true) :
      Continues C s q ⟨kind, instr :: rest, aborted⟩ (.close q reason) kind
        (closedTodo C kind reason)
  | drop {kind : Kind Id} {instr : Instr Id} {rest : List (Instr Id)} :
      Continues C s q ⟨kind, instr :: rest, true⟩ (.drop q) kind []

theorem Origin.continues {s : State Id} {a : Act Id} {q : Nat} {t : Task Id} {kind : Kind Id}
    {todo : List (Instr Id)} (h : Origin C s q a kind todo) (hget : s.procs[q]? = some t) :
    Continues C s q t a kind todo := by
  have hlt : q < s.procs.length := (List.getElem?_eq_some_iff.mp hget).1
  cases h with
  | kept hne hget₀ =>
    rw [hget] at hget₀
    obtain rfl := Option.some.inj hget₀
    exact .kept hne
  | exec hget₀ htodo hnext =>
    rw [hget] at hget₀
    obtain rfl := Option.some.inj hget₀
    exact .exec htodo hnext
  | recv hget₀ hrecv =>
    rw [hget] at hget₀
    obtain rfl := Option.some.inj hget₀
    exact .recv hrecv
  | close hget₀ hsees =>
    rw [hget] at hget₀
    obtain rfl := Option.some.inj hget₀
    exact .close hsees
  | drop hget₀ =>
    rw [hget] at hget₀
    obtain rfl := Option.some.inj hget₀
    exact .drop
  | spawned _ _ _ hnew => omega
  | started _ _ hnew => omega

theorem step_continues {s s' : State Id} {a : Act Id} {out : List (Out Id)}
    (hs : step C s a = some (s', out)) {q : Nat} {t : Task Id} (hget : s.procs[q]? = some t) :
    ∃ t' kind todo, s'.procs[q]? = some t' ∧ Continues C s q t a kind todo ∧ t'.Has kind todo := by
  obtain ⟨t', hget'⟩ := step_persists hs hget
  obtain ⟨kind, todo, horigin, hhas⟩ := step_origin hs hget'
  exact ⟨t', kind, todo, hget', horigin.continues hget, hhas⟩

/-- The tasks that do not move stay as they are, or are stopped where they wait. -/
theorem step_kept {s s' : State Id} {a : Act Id} {out : List (Out Id)}
    (hs : step C s a = some (s', out)) {q : Nat} {t : Task Id} (hne : a.actor ≠ some q)
    (hget : s.procs[q]? = some t) : ∃ t', s'.procs[q]? = some t' ∧ t'.Has t.kind t.todo := by
  obtain ⟨t', kind, todo, hget', hcont, hhas⟩ := step_continues hs hget
  cases hcont with
  | kept => exact ⟨t', hget', hhas⟩
  | exec | recv | close | drop => exact absurd rfl hne

/-- A task that does not wait, cannot be dropped and does not see its connection close moves only by
going through its next critical section. -/
theorem step_is_exec {s s' : State Id} {a : Act Id} {out : List (Out Id)} {p : Nat} {t : Task Id}
    {instr : Instr Id} {rest : List (Instr Id)} (hs : step C s a = some (s', out))
    (hactor : a.actor = some p) (hget : s.procs[p]? = some t) (htodo : t.todo = instr :: rest)
    (hparks : instr.parks = false) (hawaits : instr.awaits = false)
    (hsees : instr.seesClose = false) : ∃ env, a = .exec p env := by
  have hnext := nextInstr_eq hget htodo
  cases step_case hs with
  | exec => exact ⟨_, by rw [Option.some.inj hactor]⟩
  | recv hget' =>
    obtain rfl := Option.some.inj hactor
    obtain rfl := Option.some.inj ((nextInstr_eq hget' rfl).symm.trans hnext)
    cases hparks
  | close hget' hsees' =>
    obtain rfl := Option.some.inj hactor
    obtain rfl := Option.some.inj ((nextInstr_eq hget' rfl).symm.trans hnext)
    rw [hsees] at hsees'
    cases hsees'
  | drop hget' hawaits' =>
    obtain rfl := Option.some.inj hactor
    obtain rfl := Option.some.inj ((nextInstr_eq hget' rfl).symm.trans hnext)
    rw [hawaits] at hawaits'
    cases hawaits'
  | start hactor' =>
    rw [hactor'] at hactor
    cases hactor

/-- A critical section of a task whose next instruction is known. -/
theorem exec_eq {s s' : State Id} {p : Nat} {env : Env} {out : List (Out Id)} {t : Task Id}
    {instr : Instr Id} {rest : List (Instr Id)} (h : step C s (.exec p env) = some (s', out))
    (hget : s.procs[p]? = some t) (htodo : t.todo = instr :: rest) :
    ∃ kind n, next C s.shared t.kind s.procs.length env instr = some (kind, n) ∧
      s' = ⟨write C s.shared t.kind s.procs.length env instr,
        abortAll n.abort (s.procs.set p (Task.settle ⟨kind, n.push ++ rest, t.aborted⟩) ++ n.spawn)⟩ ∧
      out = n.out := by
  cases step_case h with
  | @exec _ _ t₀ instr₀ rest₀ kind n hget₀ htodo₀ hnext =>
    rw [hget] at hget₀
    obtain rfl := Option.some.inj hget₀
    rw [htodo] at htodo₀
    obtain ⟨rfl, rfl⟩ := List.cons.inj htodo₀
    exact ⟨kind, n, hnext, rfl, rfl⟩
  | start hactor => cases hactor

theorem step_exec {s s' : State Id} {p : Nat} {env : Env} {out : List (Out Id)} {t : Task Id}
    {instr : Instr Id} {rest : List (Instr Id)} (h : step C s (.exec p env) = some (s', out))
    (hget : s.procs[p]? = some t) (htodo : t.todo = instr :: rest) :
    ∃ kind n t', next C s.shared t.kind s.procs.length env instr = some (kind, n) ∧
      s'.shared = write C s.shared t.kind s.procs.length env instr ∧ out = n.out ∧
      s'.procs[p]? = some t' ∧ t'.Has kind (n.push ++ rest) := by
  obtain ⟨kind, n, hnext, hs', hout⟩ := exec_eq h hget htodo
  obtain ⟨t', kind', todo', hget', hcont, hhas⟩ := step_continues h hget
  cases hcont with
  | kept hne => exact absurd rfl hne
  | exec htodo₁ hnext₁ =>
    rw [htodo] at htodo₁
    obtain ⟨rfl, rfl⟩ := List.cons.inj htodo₁
    rw [hnext] at hnext₁
    obtain ⟨rfl, rfl⟩ := Prod.mk.inj (Option.some.inj hnext₁)
    exact ⟨kind, n, t', hnext, by rw [hs'], hout, hget', hhas⟩

/-! ### Kinds of task -/

theorem dispatch_session (c : ControlSession Id) (msg : ControlMessage) :
    (dispatch C c msg).1.conn = c.conn ∧ (dispatch C c msg).1.peerIsPaired = c.peerIsPaired ∧
      ((dispatch C c msg).1.registered = true → c.registered = true ∨ c.peerIsPaired = true) := by
  unfold dispatch
  split
  · exact ⟨rfl, rfl, .inl⟩
  · split
    · rename_i hpaired
      rw [Bool.and_eq_true] at hpaired
      exact ⟨rfl, rfl, fun _ => .inr hpaired.1⟩
    · exact ⟨rfl, rfl, .inl⟩

/-- A session keeps its connection, is only ever upgraded, and registers only a paired peer. -/
structure SessionStep (c c' : ControlSession Id) : Prop where
  conn : c'.conn = c.conn
  paired : c.peerIsPaired = true → c'.peerIsPaired = true
  registered : c'.registered = true → c.registered = true ∨ c'.peerIsPaired = true

theorem SessionStep.unpaired {c c' : ControlSession Id} (h : SessionStep c c')
    (hc : c'.peerIsPaired = false) : c.peerIsPaired = false := by
  by_contra hp
  rw [h.paired (by simpa using hp)] at hc
  cases hc

theorem SessionStep.refl (c : ControlSession Id) : SessionStep c c := ⟨rfl, id, .inl⟩

theorem sessionStep_dispatch (c : ControlSession Id) (msg : ControlMessage) :
    SessionStep c (dispatch C c msg).1 := by
  obtain ⟨hconn, hpaired, hreg⟩ := dispatch_session (C := C) c msg
  exact ⟨hconn, fun h => by rw [hpaired, h], fun h => by rw [hpaired]; exact hreg h⟩

theorem sessionStep_nextControl (s : Shared Id) (c : ControlSession Id) (env : Env)
    (instr : ControlInstr) : SessionStep c (nextControl C s c env instr).1 := by
  cases instr with
  | recheckAllowed msg =>
    simp only [nextControl]
    split
    · have h := sessionStep_dispatch (C := C) { c with peerIsPaired := true } msg
      exact ⟨h.conn, fun _ => h.paired rfl, h.registered⟩
    · exact .refl c
  | chargeToken msg =>
    simp only [nextControl]
    split
    · exact sessionStep_dispatch c msg
    · exact .refl c
  | answerIdentity =>
    simp only [nextControl]
    split
    · exact .refl c
    · split <;> exact .refl c
  | takePending response =>
    simp only [nextControl]
    split <;> exact .refl c
  | hangUp | registerInbound | commitNearby | emitPairedName => exact .refl c

theorem sessionStep_receiveControl (c : ControlSession Id) (msg : ControlMessage) :
    SessionStep c (receiveControl C c msg).1 := by
  unfold receiveControl
  split
  · exact sessionStep_dispatch c msg
  · split <;> exact .refl c

theorem nextConnect_endpointId (s : Shared Id) (l : ConnectLoop Id) (env : Env)
    (instr : ConnectInstr Id) : (nextConnect C s l env instr).1.endpointId = l.endpointId := by
  cases instr <;> simp only [nextConnect] <;> split <;> rfl

/-- The tasks that events from outside start. -/
inductive StartedCase (C : Config Id) : Act Id → Task Id → Prop
  | connect (conn : Conn Id) :
      StartedCase C (.connect conn) ⟨.inbound conn, [.accept .hookBlocked], false⟩
  | call (call : Call) : StartedCase C (.call call) ⟨.call call, program C call, false⟩
  | appeared (endpointId : String) : StartedCase C (.lan (.appeared endpointId))
      ⟨.lan, [.lan (.appeared endpointId)], false⟩
  | vanished (endpointId : String) : StartedCase C (.lan (.vanished endpointId))
      ⟨.lan, [.lan (.vanished endpointId)], false⟩

theorem started_case {a : Act Id} {t : Task Id} (h : started C a = some t) : StartedCase C a t := by
  cases a with
  | connect conn =>
    obtain rfl := Option.some.inj h
    exact .connect conn
  | call call =>
    obtain rfl := Option.some.inj h
    exact .call call
  | lan event =>
    cases event with
    | appeared endpointId =>
      obtain rfl := Option.some.inj h
      exact .appeared endpointId
    | vanished endpointId =>
      obtain rfl := Option.some.inj h
      exact .vanished endpointId
  | exec | recv | close | drop => cases h

/-- The task of a fresh node is the supervisor's first `refresh`. -/
theorem eq_of_start {store : StoreFile} {rotated : Bool} {io : Io} {d : Discoverability}
    {relay : Option String} {p : Nat} {t : Task Id}
    (h : (start C store rotated io d relay).procs[p]? = some t) :
    t = ⟨.call .refresh, program C .refresh, false⟩ :=
  List.mem_singleton.mp (List.mem_of_getElem? h)

inductive RecvCase (C : Config Id) (msg : ControlMessage) :
    Kind Id → Kind Id → List (Instr Id) → Prop
  | control (c : ControlSession Id) : RecvCase C msg (.control c)
      (.control (receiveControl C c msg).1) (receiveControl C c msg).2
  | host (h : HostSession Id) :
      RecvCase C msg (.host h) (.host (receiveHost C h msg).1) (receiveHost C h msg).2
  | connect {l : ConnectLoop Id} {conn : Conn Id} (hconn : l.conn = some conn) :
      RecvCase C msg (.connect l) (.connect l) (readOutbound C conn msg)

theorem received_case {kind kind' : Kind Id} {msg : ControlMessage} {todo : List (Instr Id)}
    (h : received C kind msg = some (kind', todo)) : RecvCase C msg kind kind' todo := by
  cases kind with
  | control c =>
    obtain ⟨rfl, rfl⟩ := Prod.mk.inj (Option.some.inj h)
    exact .control c
  | host c =>
    obtain ⟨rfl, rfl⟩ := Prod.mk.inj (Option.some.inj h)
    exact .host c
  | connect l =>
    simp only [received] at h
    split at h
    · rename_i conn hconn
      obtain ⟨rfl, rfl⟩ := Prod.mk.inj (Option.some.inj h)
      exact .connect hconn
    · cases h
  | inbound | call | expiry | lan | background => cases h

/-- What a pairing-host session can go on to after a message. -/
inductive HostReceives (C : Config Id) (h : HostSession Id) (msg : ControlMessage) : Instr Id → Prop
  | read : HostReceives C h msg (.common .read)
  | record (info : DeviceInfo) : HostReceives C h msg (.host (.hostRecord info))
  | invite (event : AppEvent) : HostReceives C h msg (.host (.hostInvite event))
  | answer {sessionId : String} {response : InviteResponse}
      (hmsg : msg = .inviteResponse sessionId response) :
      HostReceives C h msg (.common (.emitInviteResponse (C.iroh.toStr h.conn.remote) response none))
  | touch : HostReceives C h msg (.common (.touch (C.iroh.toStr h.conn.remote)))
  | presence {signature : String} (hmsg : msg = .recognition signature) :
      HostReceives C h msg (.common (.setPresence (C.iroh.toStr h.conn.remote) true))
  | forgotten {signature : String} (hmsg : msg = .forget signature) :
      HostReceives C h msg (.common (.markUnpaired h.conn.remote))

theorem hostReceives_hostNext {h h' : HostSession Id} {msg : ControlMessage} {i : Instr Id}
    (hi : i ∈ hostNext h') : HostReceives C h msg i := by
  unfold hostNext at hi
  split at hi <;> (rw [List.mem_singleton] at hi; subst hi; constructor)

theorem hostReceives_of_mem {h : HostSession Id} {msg : ControlMessage} {i : Instr Id}
    (hi : i ∈ (receiveHost C h msg).2) : HostReceives C h msg i := by
  cases msg with
  | pairingInfo =>
    simp only [receiveHost] at hi
    split at hi
    · rw [List.mem_singleton] at hi
      exact hi ▸ .read
    · split at hi
      · exact hostReceives_hostNext hi
      · rw [List.mem_singleton] at hi
        exact hi ▸ .read
  | invite =>
    rcases List.mem_cons.mp hi with rfl | hi
    · exact .invite _
    · exact hostReceives_hostNext hi
  | inviteResponse =>
    rcases List.mem_cons.mp hi with rfl | hi
    · exact .answer rfl
    · exact hostReceives_hostNext hi
  | recognition =>
    simp only [receiveHost] at hi
    split at hi
    · simp only [recognise, List.cons_append, List.nil_append, List.mem_cons] at hi
      rcases hi with rfl | rfl | hi
      · exact .touch
      · exact .presence rfl
      · exact hostReceives_hostNext hi
    · exact hostReceives_hostNext hi
  | forget =>
    simp only [receiveHost] at hi
    split at hi
    · rcases List.mem_cons.mp hi with rfl | hi
      · exact .forgotten rfl
      · exact hostReceives_hostNext hi
    · exact hostReceives_hostNext hi
  | rememberVote | whoAreYou | identity | pairRequest => exact hostReceives_hostNext hi

section Next

variable {s : Shared Id} {kind kind' : Kind Id} {fresh : Nat} {env : Env} {n : Next Id}
  {instr : Instr Id}

/-- The critical sections a task can go through, by its kind. -/
inductive NextCase (C : Config Id) (s : Shared Id) (kind : Kind Id) (fresh : Nat) (env : Env) :
    Instr Id → Kind Id → Next Id → Prop
  | common {instr : CommonInstr Id} (hread : instr ≠ .read) :
      NextCase C s kind fresh env (.common instr) kind (nextCommon C s fresh env instr)
  | service {instr : ServiceInstr Id} :
      NextCase C s kind fresh env (.service instr) kind (nextService C s env instr)
  | window {instr : WindowInstr} :
      NextCase C s kind fresh env (.window instr) kind (nextWindow s fresh instr)
  | lan {instr : LanInstr} :
      NextCase C s kind fresh env (.lan instr) kind (nextLan C s env instr)
  | accept {instr : AcceptInstr} {conn : Conn Id} (hkind : kind = .inbound conn) :
      NextCase C s kind fresh env (.accept instr) (nextAccept C s conn env instr).1
        (nextAccept C s conn env instr).2
  | control {instr : ControlInstr} {c : ControlSession Id} (hkind : kind = .control c) :
      NextCase C s kind fresh env (.control instr) (.control (nextControl C s c env instr).1)
        (nextControl C s c env instr).2
  | host {instr : HostInstr} {h : HostSession Id} (hkind : kind = .host h) :
      NextCase C s kind fresh env (.host instr) kind (nextHost C s h env instr)
  | connect {instr : ConnectInstr Id} {l : ConnectLoop Id} (hkind : kind = .connect l) :
      NextCase C s kind fresh env (.connect instr) (.connect (nextConnect C s l env instr).1)
        (nextConnect C s l env instr).2

theorem next_case (h : next C s kind fresh env instr = some (kind', n)) :
    NextCase C s kind fresh env instr kind' n := by
  cases instr with
  | common instr =>
    by_cases hread : instr = .read
    · subst hread
      cases h
    · have hnext : next C s kind fresh env (.common instr) =
          some (kind, nextCommon C s fresh env instr) := by
        cases instr <;> first | rfl | exact absurd rfl hread
      rw [hnext] at h
      obtain ⟨rfl, rfl⟩ := Prod.mk.inj (Option.some.inj h)
      exact .common hread
  | service instr =>
    obtain ⟨rfl, rfl⟩ := Prod.mk.inj (Option.some.inj h)
    exact .service
  | window instr =>
    obtain ⟨rfl, rfl⟩ := Prod.mk.inj (Option.some.inj h)
    exact .window
  | lan instr =>
    obtain ⟨rfl, rfl⟩ := Prod.mk.inj (Option.some.inj h)
    exact .lan
  | accept instr =>
    cases kind with
    | inbound conn =>
      obtain ⟨rfl, rfl⟩ := Prod.mk.inj (Option.some.inj h)
      exact .accept rfl
    | _ => cases h
  | control instr =>
    cases kind with
    | control c =>
      obtain ⟨rfl, rfl⟩ := Prod.mk.inj (Option.some.inj h)
      exact .control rfl
    | _ => cases h
  | host instr =>
    cases kind with
    | host c =>
      obtain ⟨rfl, rfl⟩ := Prod.mk.inj (Option.some.inj h)
      exact .host rfl
    | _ => cases h
  | connect instr =>
    cases kind with
    | connect l =>
      obtain ⟨rfl, rfl⟩ := Prod.mk.inj (Option.some.inj h)
      exact .connect rfl
    | _ => cases h

/-- What a common critical section can lead to. -/
inductive CommonPush : Instr Id → Prop
  | allow (id : Id) : CommonPush (.common (.allow id))
  | disallow (id : Id) : CommonPush (.common (.disallow id false))
  | expireNearby (e : String) : CommonPush (.common (.expireNearby e))
  | setPresence (e : String) : CommonPush (.common (.setPresence e false))
  | emitPresence (e : String) (online : Bool) : CommonPush (.common (.emitPresence e online))
  | abortTask (key : String) : CommonPush (.common (.abortTask key))
  | removeSession (key : String) : CommonPush (.common (.removeSession key))
  | refreshList : CommonPush (.common .refreshList)
  | refreshTasks (active : List PairedDevice) : CommonPush (.common (.refreshTasks active))
  | paired (name : String) : CommonPush (.common (.emit (.devicePaired name)))
  | unpaired (e : String) (name : Option String) (reason : String) :
      CommonPush (.common (.emit (.deviceUnpaired e name reason)))
  | ret (value : Ret) : CommonPush (.common (.ret value))
  | deliverStored (e : String) : CommonPush (.service (.deliverStored
      ⟨e, .inviteResponse "" .accepted, false, .accept⟩))
  | hostVote : CommonPush (.host .hostVote)
  | loadPersistent : CommonPush (.host .loadPersistent)
  | emitPairedName : CommonPush (.control .emitPairedName)

theorem commonPush_afterRemember {flow : PairingFlow Id} {device : PairedDevice} {stored : Bool}
    {i : Instr Id} (hi : i ∈ afterRemember C flow device stored) : CommonPush i := by
  cases flow with
  | pairingHost =>
    simp only [afterRemember, List.mem_cons, List.not_mem_nil, or_false] at hi
    rcases hi with rfl | rfl | rfl | rfl | rfl <;> constructor
  | join =>
    simp only [afterRemember] at hi
    split at hi
    · simp only [List.mem_cons, List.not_mem_nil, or_false] at hi
      rcases hi with rfl | rfl | rfl | rfl <;> constructor
    · rw [List.mem_singleton] at hi
      exact hi ▸ .ret .err
  | commitNearby =>
    simp only [afterRemember] at hi
    split at hi
    · simp only [List.mem_cons, List.not_mem_nil, or_false] at hi
      rcases hi with rfl | rfl | rfl | rfl <;> constructor
    · simp at hi
  | acceptNearby =>
    simp only [afterRemember] at hi
    split at hi
    · split at hi
      · simp only [List.mem_cons, List.not_mem_nil, or_false] at hi
        rcases hi with rfl | rfl | rfl | rfl <;> constructor
      · simp only [List.mem_cons, List.not_mem_nil, or_false] at hi
        rcases hi with rfl | rfl <;> constructor
    · rw [List.mem_singleton] at hi
      subst hi
      constructor

theorem commonPush_next {instr : CommonInstr Id} {i : Instr Id}
    (hi : i ∈ (nextCommon C s fresh env instr).push) : CommonPush i := by
  cases instr with
  | remember flow device => exact commonPush_afterRemember hi
  | markUnpaired id =>
    simp only [nextCommon] at hi
    split at hi
    · simp only [managerForget, List.cons_append, List.nil_append, List.mem_cons,
        List.not_mem_nil, or_false] at hi
      rcases hi with rfl | rfl | rfl | rfl | rfl <;> constructor
    · simp at hi
  | setPresence e online =>
    simp only [nextCommon] at hi
    split at hi
    · simp at hi
    · rw [List.mem_singleton] at hi
      exact hi ▸ .emitPresence e online
  | removeSession | removeSessionIf | refreshList =>
    simp only [nextCommon] at hi
    split at hi
    · rw [List.mem_singleton] at hi
      subst hi
      constructor
    · simp at hi
  | _ => simp [nextCommon] at hi

/-- What a message of a control session, or a critical section of its own, can lead to. -/
inductive ControlPush : Instr Id → Prop
  | control (i : ControlInstr) : ControlPush (.control i)
  | read : ControlPush (.common .read)
  | emit (event : AppEvent) : ControlPush (.common (.emit event))
  | answer (e : String) (response : InviteResponse) (name : Option String) :
      ControlPush (.common (.emitInviteResponse e response name))
  | touch (e : String) : ControlPush (.common (.touch e))
  | setPresence (e : String) : ControlPush (.common (.setPresence e true))
  | markUnpaired (id : Id) : ControlPush (.common (.markUnpaired id))
  | insertSession (key : String) (conn : Conn Id) : ControlPush (.common (.insertSession key conn))
  | removeSessionIf (key : String) (conn : Conn Id) :
      ControlPush (.common (.removeSessionIf key conn))
  | remember (remote : Id) (device : PairedDevice) :
      ControlPush (.common (.remember (.commitNearby remote) device))

theorem controlPush_handlePaired {c : ControlSession Id} {msg : ControlMessage} {i : Instr Id}
    (hi : i ∈ handlePairedControlMessage C c msg) : ControlPush i := by
  cases msg with
  | invite | pairRequest =>
    simp only [handlePairedControlMessage, List.mem_cons, List.not_mem_nil, or_false] at hi
    rcases hi with rfl | rfl <;> constructor
  | inviteResponse =>
    simp only [handlePairedControlMessage] at hi
    split at hi <;> simp only [List.mem_cons, List.not_mem_nil, or_false] at hi
    · rcases hi with rfl | rfl <;> constructor
    · rcases hi with rfl | rfl <;> constructor
  | recognition =>
    simp only [handlePairedControlMessage, recognise] at hi
    split at hi <;>
      simp only [List.cons_append, List.nil_append, List.mem_cons, List.not_mem_nil, or_false] at hi
    · rcases hi with rfl | rfl | rfl <;> constructor
    · exact hi ▸ .read
  | forget =>
    simp only [handlePairedControlMessage] at hi
    split at hi <;> simp only [List.mem_cons, List.not_mem_nil, or_false] at hi
    · rcases hi with rfl | rfl <;> constructor
    · exact hi ▸ .read
  | pairingInfo | rememberVote | whoAreYou | identity =>
    simp only [handlePairedControlMessage, List.mem_singleton] at hi
    exact hi ▸ .read

theorem controlPush_dispatch {c : ControlSession Id} {msg : ControlMessage} {i : Instr Id}
    (hi : i ∈ (dispatch C c msg).2) : ControlPush i := by
  unfold dispatch at hi
  split at hi
  · rw [List.mem_singleton] at hi
    exact hi ▸ .control _
  · split at hi
    · rcases List.mem_cons.mp hi with rfl | hi
      · exact .control _
      · exact controlPush_handlePaired hi
    · exact controlPush_handlePaired hi

theorem controlPush_receive {c : ControlSession Id} {msg : ControlMessage} {i : Instr Id}
    (hi : i ∈ (receiveControl C c msg).2) : ControlPush i := by
  unfold receiveControl at hi
  split at hi
  · exact controlPush_dispatch hi
  · split at hi <;> (rw [List.mem_singleton] at hi; exact hi ▸ .control _)

theorem controlPush_leaveSession {c : ControlSession Id} {i : Instr Id}
    (hi : i ∈ leaveSession C c) : ControlPush i := by
  unfold leaveSession at hi
  split at hi
  · rw [List.mem_singleton] at hi
    exact hi ▸ .removeSessionIf _ _
  · simp at hi

theorem controlPush_next {c : ControlSession Id} {instr : ControlInstr} {i : Instr Id}
    (hi : i ∈ (nextControl C s c env instr).2.push) : ControlPush i := by
  cases instr with
  | recheckAllowed | chargeToken =>
    simp only [nextControl] at hi
    split at hi
    · exact controlPush_dispatch hi
    · rw [List.mem_singleton] at hi
      exact hi ▸ .control _
  | answerIdentity =>
    simp only [nextControl] at hi
    split at hi
    · rw [List.mem_singleton] at hi
      exact hi ▸ .read
    · split at hi <;> (rw [List.mem_singleton] at hi; subst hi; constructor)
  | hangUp => exact controlPush_leaveSession hi
  | registerInbound =>
    simp only [nextControl, setSession] at hi
    split at hi <;> simp only [List.mem_cons, List.not_mem_nil, or_false] at hi
    · exact hi ▸ .setPresence _
    · rcases hi with rfl | rfl | rfl <;> constructor
  | takePending response =>
    simp only [nextControl] at hi
    split at hi
    · simp at hi
    · rcases List.mem_append.mp hi with hi | hi
      · split at hi
        · rw [List.mem_singleton] at hi
          exact hi ▸ .control _
        · simp at hi
      · rw [List.mem_singleton] at hi
        exact hi ▸ .answer _ _ _
  | commitNearby =>
    rw [nextControl, List.mem_singleton] at hi
    exact hi ▸ .remember _ _
  | emitPairedName => simp [nextControl] at hi

/-- What a check of an incoming connection can lead to. -/
inductive AcceptPush : Instr Id → Prop
  | accept (i : AcceptInstr) : AcceptPush (.accept i)
  | read : AcceptPush (.common .read)
  | hostHello : AcceptPush (.host .hostHello)

theorem acceptPush_next {conn : Conn Id} {instr : AcceptInstr} {i : Instr Id}
    (hi : i ∈ (nextAccept C s conn env instr).2.push) : AcceptPush i := by
  have hone : ∀ {j : Instr Id}, AcceptPush j → i ∈ [j] → AcceptPush i := by
    intro j hj hi
    rw [List.mem_singleton] at hi
    exact hi ▸ hj
  cases instr with
  | hookBlocked | hookDirectPath =>
    simp only [nextAccept] at hi
    split at hi
    all_goals first | exact hone (.accept _) hi | simp at hi
  | hookAccess =>
    simp only [nextAccept] at hi
    split at hi
    · exact hone (.accept _) hi
    · split at hi
      · exact hone (.accept _) hi
      · simp at hi
  | acceptWindow => exact hone (.accept _) hi
  | acceptAllowed =>
    simp only [nextAccept] at hi
    split at hi
    · exact hone .read hi
    · split at hi
      · exact hone .read hi
      · exact hone .hostHello hi

/-- What becomes of a connection in a check. -/
inductive AcceptKind (conn : Conn Id) : Kind Id → Prop
  | inbound : AcceptKind conn (.inbound conn)
  | control (paired : Bool) : AcceptKind conn (.control ⟨conn, paired, false⟩)
  | host (window : Nat) : AcceptKind conn (.host ⟨conn, window, none, none⟩)

theorem acceptKind_next {conn : Conn Id} {instr : AcceptInstr}
    (h : (nextAccept C s conn env instr).1 = kind) : AcceptKind conn kind := by
  subst h
  cases instr with
  | hookBlocked | hookDirectPath =>
    simp only [nextAccept]
    split <;> exact .inbound
  | hookAccess =>
    simp only [nextAccept]
    split
    · exact .inbound
    · split <;> exact .inbound
  | acceptWindow => exact .inbound
  | acceptAllowed =>
    simp only [nextAccept]
    split
    · exact .control true
    · split
      · exact .control false
      · exact .host _

/-- What a critical section of a connect loop can lead to. -/
inductive ConnectPush (C : Config Id) (s : Shared Id) (l : ConnectLoop Id) (env : Env) :
    ConnectInstr Id → Instr Id → Prop
  | dial : ConnectPush C s l env .loopTop (.connect .dial)
  | insertSession {remote : Id} {num : Nat} (hremote : C.iroh.fromStr l.endpointId = some remote) :
      ConnectPush C s l env .dial (.common (.insertSession (C.key l.endpointId) ⟨remote, num⟩))
  | online : ConnectPush C s l env .dial (.common (.setPresence (C.key l.endpointId) true))
  | touch : ConnectPush C s l env .dial (.common (.touch (C.key l.endpointId)))
  | read (hconn : (nextConnect C s l env .dial).1.conn.isSome = true) :
      ConnectPush C s l env .dial (.common .read)
  | offline : ConnectPush C s l env .dial (.common (.setPresence l.endpointId false))
  | sleep {c : ConnectInstr Id} : ConnectPush C s l env c (.common .sleep)
  | loopTop {c : ConnectInstr Id} : ConnectPush C s l env c (.connect .loopTop)
  | unpairGet (hsettled : ∀ existing, (s.pairedStore.get C.iroh env.io l.endpointId).join =
        some existing → ¬ env.nowMs - existing.pairedAt < recentPairingGraceMs) :
      ConnectPush C s l env .settling (.connect (.unpairGet l.endpointId .recognitionRefused))
  | unpairMark {e : String} {cause : UnpairCause Id} :
      ConnectPush C s l env (.unpairGet e cause) (.connect (.unpairMark e cause))
  | skippedGet {e : String} {conn : Conn Id} :
      ConnectPush C s l env (.unpairGet e (.forgetReceived conn)) (.common .read)
  | skippedMark {e : String} {conn : Conn Id} :
      ConnectPush C s l env (.unpairMark e (.forgetReceived conn)) (.common .read)
  | disallowForgotten {e : String} {conn : Conn Id} {id : Id} (hid : C.iroh.fromStr e = some id) :
      ConnectPush C s l env (.unpairMark e (.forgetReceived conn)) (.common (.disallow id true))
  | disallowRefused {e : String} {id : Id} (hid : C.iroh.fromStr e = some id) :
      ConnectPush C s l env (.unpairMark e .recognitionRefused) (.common (.disallow id false))
  | marked {e : String} {cause : UnpairCause Id} :
      ConnectPush C s l env (.unpairMark e cause) (.common (.setPresence e false))
  | unpaired {e : String} {cause : UnpairCause Id} {device : PairedDevice} :
      ConnectPush C s l env (.unpairMark e cause)
        (.common (.emit (.deviceUnpaired device.endpointId (some device.displayName) "remote")))
  | removeSessionIf {e : String} {conn : Conn Id} :
      ConnectPush C s l env (.unpairMark e (.forgetReceived conn))
        (.common (.removeSessionIf (C.key l.endpointId) conn))

section ConnectPush

variable {l : ConnectLoop Id} {c : ConnectInstr Id} {e : String} {cause : UnpairCause Id}
  {i : Instr Id}

theorem connectPush_backOff (hi : i ∈ (backOff : List (Instr Id))) : ConnectPush C s l env c i := by
  simp only [backOff, List.mem_cons, List.not_mem_nil, or_false] at hi
  rcases hi with rfl | rfl
  · exact .sleep
  · exact .loopTop

theorem connectPush_unpairEffects {device : PairedDevice}
    (hi : i ∈ unpairEffects C e device cause) : ConnectPush C s l env (.unpairMark e cause) i := by
  rcases List.mem_append.mp hi with hi | hi
  · split at hi
    · rename_i id hid
      rw [List.mem_singleton] at hi
      subst hi
      cases cause with
      | forgetReceived => exact .disallowForgotten hid
      | recognitionRefused => exact .disallowRefused hid
    · simp at hi
  · simp only [List.mem_cons, List.not_mem_nil, or_false] at hi
    rcases hi with rfl | rfl
    · exact .marked
    · exact .unpaired

theorem connectPush_dial (hi : i ∈ (nextConnect C s l env .dial).2.push) :
    ConnectPush C s l env .dial i := by
  have hconn : .common .read ∈ (nextConnect C s l env .dial).2.push →
      (nextConnect C s l env .dial).1.conn.isSome = true := by
    intro hread
    simp only [nextConnect] at hread ⊢
    split at hread
    · rfl
    · simp [backOff] at hread
  by_cases hread : i = .common .read
  · subst hread
    exact .read (hconn hi)
  · simp only [nextConnect] at hi
    split at hi
    · rename_i remote num hremote _ _
      simp only [setSession, List.cons_append, List.nil_append, List.mem_cons, List.not_mem_nil,
        or_false] at hi
      rcases hi with rfl | rfl | rfl | rfl
      · exact .insertSession hremote
      · exact .online
      · exact .touch
      · exact absurd rfl hread
    · rcases List.mem_cons.mp hi with rfl | hi
      · exact .offline
      · exact connectPush_backOff hi

theorem connectPush_settling (hi : i ∈ (nextConnect C s l env .settling).2.push) :
    ConnectPush C s l env .settling i := by
  simp only [nextConnect] at hi
  split at hi
  · rename_i existing hfound
    split at hi
    · exact connectPush_backOff hi
    · rename_i hsettled
      rw [List.mem_singleton] at hi
      subst hi
      refine .unpairGet fun other hother => ?_
      rw [hfound] at hother
      obtain rfl := Option.some.inj hother
      exact hsettled
  · rename_i hnone
    rw [List.mem_singleton] at hi
    subst hi
    refine .unpairGet fun other hother => ?_
    rw [hnone] at hother
    cases hother

theorem connectPush_next (hi : i ∈ (nextConnect C s l env c).2.push) :
    ConnectPush C s l env c i := by
  cases c with
  | loopTop =>
    simp only [nextConnect] at hi
    split at hi
    · split at hi
      · rw [List.mem_singleton] at hi
        subst hi
        exact .dial
      · simp at hi
    · simp at hi
  | dial => exact connectPush_dial hi
  | settling => exact connectPush_settling hi
  | unpairGet e cause =>
    have hskipped : i ∈ (unpairSkipped cause : List (Instr Id)) →
        ConnectPush C s l env (.unpairGet e cause) i := by
      intro hi
      cases cause with
      | forgetReceived =>
        rw [unpairSkipped, List.mem_singleton] at hi
        subst hi
        exact .skippedGet
      | recognitionRefused => exact connectPush_backOff hi
    simp only [nextConnect] at hi
    split at hi
    · split at hi
      · rw [List.mem_singleton] at hi
        subst hi
        exact .unpairMark
      · exact hskipped hi
    · exact hskipped hi
  | unpairMark e cause =>
    simp only [nextConnect] at hi
    split at hi
    · rcases List.mem_append.mp hi with hi | hi
      · exact connectPush_unpairEffects hi
      · cases cause with
        | forgetReceived =>
          rw [unpairApplied, List.mem_singleton] at hi
          subst hi
          exact .removeSessionIf
        | recognitionRefused => simp [unpairApplied] at hi
    · cases cause with
      | forgetReceived =>
        rw [unpairSkipped, List.mem_singleton] at hi
        subst hi
        exact .skippedMark
      | recognitionRefused => exact connectPush_backOff hi

end ConnectPush

/-- What a critical section of a call can lead to. -/
inductive ServicePush : Instr Id → Prop
  | service (i : ServiceInstr Id) : ServicePush (.service i)
  | ret (value : Ret) : ServicePush (.common (.ret value))
  | remember (flow : PairingFlow Id) (device : PairedDevice) :
      ServicePush (.common (.remember flow device))
  | disallow (id : Id) : ServicePush (.common (.disallow id false))
  | touch (e : String) : ServicePush (.common (.touch e))
  | setPresence (e : String) (online : Bool) : ServicePush (.common (.setPresence e online))
  | abortTask (key : String) : ServicePush (.common (.abortTask key))
  | removeSession (key : String) : ServicePush (.common (.removeSession key))
  | refreshList : ServicePush (.common .refreshList)
  | unpaired (e : String) : ServicePush (.common (.emit (.deviceUnpaired e none "local")))
  | takeExpireTask : ServicePush (.window .takeExpireTask)
  | storePersistent : ServicePush (.window (.storePersistent false))
  | storeHostFlag : ServicePush (.window (.storeHostFlag false))
  | closeWindow : ServicePush (.window .closeWindow)

theorem servicePush_onError {d : Delivery} {i : Instr Id} (hi : i ∈ onError d) : ServicePush i := by
  unfold onError at hi
  split at hi <;> simp only [List.mem_cons, List.not_mem_nil, or_false] at hi
  · rcases hi with rfl | rfl <;> constructor
  · exact hi ▸ .ret _

theorem servicePush_forgetRest {e : String} {i : Instr Id} (hi : i ∈ forgetRest C e) :
    ServicePush i := by
  unfold forgetRest at hi
  split at hi <;>
    simp only [List.cons_append, List.nil_append, List.mem_cons, List.not_mem_nil, or_false] at hi
  · rcases hi with rfl | rfl <;> constructor
  · exact hi ▸ .service _

theorem servicePush_next {instr : ServiceInstr Id} {i : Instr Id}
    (hi : i ∈ (nextService C s env instr).push) : ServicePush i := by
  have hone : ∀ {j : Instr Id}, ServicePush j → i ∈ [j] → ServicePush i := by
    intro j hj hi
    rw [List.mem_singleton] at hi
    exact hi ▸ hj
  cases instr with
  | findNearby e msg =>
    simp only [nextService] at hi
    split at hi
    · unfold onFound at hi
      split at hi
      · split at hi
        · exact hone (.ret _) hi
        · exact hone (.service _) hi
      · exact hone (.service _) hi
    · exact hone (.ret _) hi
  | checkAllowed =>
    simp only [nextService] at hi
    split at hi
    · exact hone (.service _) hi
    · exact hone (.ret _) hi
  | deliverStored d =>
    simp only [nextService] at hi
    split at hi
    · split at hi <;> exact hone (.service _) hi
    · exact servicePush_onError hi
  | waitSession =>
    simp only [nextService] at hi
    split at hi <;> exact hone (.service _) hi
  | deliverDial d =>
    simp only [nextService, recognise] at hi
    split at hi
    · exact servicePush_onError hi
    · unfold onUnreached at hi
      split at hi <;> simp only [List.mem_cons, List.not_mem_nil, or_false] at hi
      · exact hi ▸ .ret _
      · exact hi ▸ .ret _
      · rcases hi with rfl | rfl <;> constructor
      · exact hi ▸ .ret _
      · exact hi ▸ .ret _
    · split at hi <;>
        simp only [List.cons_append, List.nil_append, List.mem_cons, List.not_mem_nil,
          or_false] at hi
      · rcases hi with rfl | rfl | rfl <;> constructor
      · exact hi ▸ .service _
  | deliverWrite d conn =>
    simp only [nextService] at hi
    split at hi
    · unfold onSent at hi
      split at hi <;> simp only [List.mem_cons, List.not_mem_nil, or_false] at hi
      · rcases hi with rfl | rfl <;> constructor
      · exact hi ▸ .ret _
      · rcases hi with rfl | rfl <;> constructor
      · exact hi ▸ .ret _
      · exact hi ▸ .ret _
    · exact servicePush_onError hi
  | probeAccept => exact hone (.remember _ _) hi
  | joinDial =>
    simp only [nextService] at hi
    split at hi
    · exact hone (.service _) hi
    · exact hone (.ret _) hi
  | joinReply =>
    simp only [nextService, onHostReply] at hi
    split at hi
    · split at hi
      · split at hi
        · exact hone (.remember _ _) hi
        · exact hone (.ret _) hi
      · exact hone (.ret _) hi
    · exact hone (.ret _) hi
  | forgetGet =>
    simp only [nextService] at hi
    split at hi
    · exact hone (.service _) hi
    · exact hone (.ret _) hi
  | forgetLive =>
    simp only [nextService] at hi
    split at hi
    · exact hone (.service _) hi
    · exact servicePush_forgetRest hi
  | forgetSend =>
    simp only [nextService] at hi
    split at hi <;> exact servicePush_forgetRest hi
  | forgetRecord =>
    simp only [nextService, managerForget] at hi
    split at hi <;>
      simp only [List.cons_append, List.nil_append, List.mem_cons, List.not_mem_nil, or_false] at hi
    · rcases hi with rfl | rfl | rfl | rfl | rfl <;> constructor
    · exact hi ▸ .ret _
  | setDiscoverability =>
    simp only [nextService, stopPairingHost] at hi
    split at hi <;>
      simp only [List.cons_append, List.nil_append, List.mem_cons, List.not_mem_nil, or_false] at hi
    · exact hi ▸ .ret _
    · rcases hi with rfl | rfl | rfl | rfl | rfl <;> constructor
  | rebuild =>
    simp only [nextService] at hi
    split at hi
    · rcases List.mem_cons.mp hi with rfl | hi
      · exact .refreshList
      · split at hi <;>
          simp only [List.cons_append, List.nil_append, List.mem_cons, List.not_mem_nil,
            or_false] at hi
        · rcases hi with rfl | rfl <;> constructor
        · exact hi ▸ .ret _
    · simp only [List.mem_cons, List.not_mem_nil, or_false] at hi
      rcases hi with rfl | rfl <;> constructor
  | notifyForget =>
    simp only [nextService] at hi
    split at hi <;> simp at hi
  | insertPending | block | restoreDiscoverability | clearNearby => simp [nextService] at hi

/-- A task stays what it is, once its connection was accepted. -/
def KindStep : Kind Id → Kind Id → Prop
  | .inbound _, _ => True
  | .control c, kind' => ∃ c', kind' = .control c' ∧ SessionStep c c'
  | .connect l, kind' => ∃ l', kind' = .connect l' ∧ l'.endpointId = l.endpointId
  | kind, kind' => kind' = kind

theorem KindStep.refl (kind : Kind Id) : KindStep kind kind := by
  cases kind with
  | inbound => trivial
  | control c => exact ⟨c, rfl, .refl c⟩
  | connect l => exact ⟨l, rfl, rfl⟩
  | host | call | expiry | lan | background => rfl

theorem next_kind (h : next C s kind fresh env instr = some (kind', n)) : KindStep kind kind' := by
  cases next_case h with
  | common | service | window | lan | host => exact .refl _
  | accept hkind =>
    subst hkind
    trivial
  | control hkind =>
    subst hkind
    exact ⟨_, rfl, sessionStep_nextControl _ _ _ _⟩
  | connect hkind =>
    subst hkind
    exact ⟨_, rfl, nextConnect_endpointId _ _ _ _⟩

/-- The tasks the code spawns: connect loops, the two detached dials, the expiry of a window. -/
inductive Spawned : Task Id → Prop
  | connect (device : PairedDevice) : Spawned (connectTask device)
  | notify (endpointId : String) : Spawned (notifyTask endpointId)
  | probe (endpointId : String) : Spawned (probeTask endpointId)
  | expiry : Spawned expiryTask

theorem mem_spawnMissing {tasks : List (String × Nat)} {fresh : Nat}
    {active : List PairedDevice} {t : Task Id} (h : t ∈ (spawnMissing C tasks fresh active).2) :
    ∃ device, t = connectTask device := by
  induction active generalizing tasks fresh with
  | nil => simp [spawnMissing] at h
  | cons device rest ih =>
    rw [spawnMissing] at h
    split at h
    · exact ih h
    · rw [List.mem_cons] at h
      rcases h with rfl | h
      · exact ⟨device, rfl⟩
      · exact ih h

/-- The critical sections that spawn a task. The detached dial is started by `forget_paired`
alone. -/
inductive SpawnCase (instr : Instr Id) : Task Id → Prop
  | connect (device : PairedDevice) : SpawnCase instr (connectTask device)
  | notify {endpointId : String} (hforget : instr = .service (.forgetLive endpointId) ∨
      ∃ conn, instr = .service (.forgetSend endpointId conn)) :
      SpawnCase instr (notifyTask endpointId)
  | probe {endpointId : String} (hsighted : instr = .lan (.observe endpointId false)) :
      SpawnCase instr (probeTask endpointId)
  | expiry : SpawnCase instr expiryTask

theorem spawn_case (h : next C s kind fresh env instr = some (kind', n)) {t : Task Id}
    (ht : t ∈ n.spawn) : SpawnCase instr t := by
  cases next_case h with
  | @common instr hread =>
    cases instr with
    | refreshTasks active =>
      obtain ⟨device, rfl⟩ := mem_spawnMissing ht
      exact .connect device
    | markUnpaired | refreshList =>
      simp only [nextCommon] at ht
      split at ht <;> simp at ht
    | _ => simp [nextCommon] at ht
  | @service instr =>
    cases instr with
    | forgetLive endpointId =>
      simp only [nextService] at ht
      split at ht
      · simp at ht
      · rw [List.mem_singleton] at ht
        exact ht ▸ .notify (.inl rfl)
    | forgetSend endpointId conn =>
      simp only [nextService] at ht
      split at ht
      · simp at ht
      · rw [List.mem_singleton] at ht
        exact ht ▸ .notify (.inr ⟨conn, rfl⟩)
    | findNearby | deliverStored | waitSession | deliverDial | deliverWrite | joinDial
    | notifyForget =>
      simp only [nextService] at ht
      split at ht <;> simp at ht
    | _ => simp [nextService] at ht
  | @window instr =>
    cases instr with
    | spawnExpiry =>
      rw [nextWindow, List.mem_singleton] at ht
      exact ht ▸ .expiry
    | _ => simp [nextWindow] at ht
  | @lan instr =>
    cases instr with
    | observe endpointId peerIsPaired =>
      have hpaired := NearbyRegistry.observe_of_paired s.nearby endpointId env.nowMs
      cases peerIsPaired with
      | true =>
        simp only [nextLan] at ht
        rcases hpaired with heq | heq <;>
          · rw [heq] at ht
            simp at ht
      | false =>
        simp only [nextLan] at ht
        split at ht
        · rw [List.mem_singleton] at ht
          exact ht ▸ .probe rfl
        · rw [List.mem_singleton] at ht
          exact ht ▸ .probe rfl
        all_goals simp at ht
    | respawn key device =>
      rw [nextLan, List.mem_singleton] at ht
      exact ht ▸ .connect device
    | nudgeGet =>
      simp only [nextLan] at ht
      split at ht <;> simp at ht
    | _ => simp [nextLan] at ht
  | @accept instr conn hkind =>
    cases instr <;> simp only [nextAccept] at ht <;> (try split at ht) <;> (try split at ht) <;>
      simp at ht
  | @control instr c hkind =>
    cases instr <;> simp only [nextControl] at ht <;> (try split at ht) <;> (try split at ht) <;>
      simp at ht
  | @host instr c hkind =>
    cases instr <;> simp only [nextHost] at ht <;> (try split at ht) <;> simp at ht
  | @connect instr l hkind =>
    cases instr <;> simp only [nextConnect] at ht <;> split at ht <;> simp at ht

theorem next_spawn (h : next C s kind fresh env instr = some (kind', n)) {t : Task Id}
    (ht : t ∈ n.spawn) : Spawned t := by
  cases spawn_case h ht with
  | connect device => exact .connect device
  | notify => exact .notify _
  | probe => exact .probe _
  | expiry => exact .expiry

theorem sent_of_probe {e : String} {o : Out Id} (ho : o ∈ (probeIdentityVia C e env).1) :
    ∃ conn, C.iroh.fromStr e = some conn.remote ∧ o = .sent conn .whoAreYou := by
  unfold probeIdentityVia at ho
  split at ho
  · rename_i remote num hremote _ _
    exact ⟨⟨remote, num⟩, hremote, List.mem_singleton.mp ho⟩
  · exact absurd ho List.not_mem_nil

/-- The critical sections that show an event to the app. -/
inductive EventCase (s : Shared Id) (kind : Kind Id) : Instr Id → AppEvent → Prop
  | emit (event : AppEvent) : EventCase s kind (.common (.emit event)) event
  | answer (e : String) (r : InviteResponse) (fallback name : Option String) :
      EventCase s kind (.common (.emitInviteResponse e r fallback)) (.pairedInviteResponse e name r)
  | presence (e : String) (online : Bool) (lastSeenAt : Nat) :
      EventCase s kind (.common (.emitPresence e online)) (.pairedDevicePresence e online lastSeenAt)
  | pairedName (name : String) : EventCase s kind (.control .emitPairedName) (.devicePaired name)
  | hostInvite {h : HostSession Id} (hkind : kind = .host h) (hmem : h.conn.remote ∈ s.allowed)
      (event : AppEvent) : EventCase s kind (.host (.hostInvite event)) event
  | found (e : String) (paired : Bool) :
      EventCase s kind (.lan (.observe e paired)) (.nearbyDeviceFound e)
  | identified (e name type : String) (os : Option String) :
      EventCase s kind (.lan (.setIdentity e name type os)) (.nearbyDeviceIdentified e)
  | lost (e : String) : EventCase s kind (.lan (.vanished e)) (.nearbyDeviceLost e)

theorem event_case (h : next C s kind fresh env instr = some (kind', n)) {event : AppEvent}
    (ho : .event event ∈ n.out) : EventCase s kind instr event := by
  cases next_case h with
  | @common instr hread =>
    cases instr with
    | emit event' =>
      simp only [nextCommon, List.mem_singleton, Out.event.injEq] at ho
      exact ho ▸ .emit _
    | emitInviteResponse e r fallback =>
      simp only [nextCommon, List.mem_singleton, Out.event.injEq] at ho
      exact ho ▸ .answer e r fallback _
    | emitPresence e online =>
      simp only [nextCommon, List.mem_singleton, Out.event.injEq] at ho
      exact ho ▸ .presence e online _
    | markUnpaired | refreshList =>
      simp only [nextCommon] at ho
      split at ho <;> simp at ho
    | _ => simp [nextCommon] at ho
  | @service instr =>
    cases instr with
    | probeAccept e =>
      obtain ⟨conn, -, ho⟩ := sent_of_probe ho
      cases ho
    | _ =>
      simp only [nextService] at ho
      (try split at ho) <;> simp at ho
  | @window instr => cases instr <;> simp [nextWindow] at ho
  | @lan instr =>
    cases instr with
    | observe e paired =>
      simp only [nextLan] at ho
      split at ho
      · simp only [List.mem_singleton, Out.event.injEq] at ho
        exact ho ▸ .found e paired
      all_goals simp at ho
    | vanished e =>
      simp only [nextLan] at ho
      split at ho
      · simp only [List.mem_singleton, Out.event.injEq] at ho
        exact ho ▸ .lost e
      · simp at ho
    | setIdentity e name type os =>
      simp only [nextLan] at ho
      split at ho
      · simp only [List.mem_singleton, Out.event.injEq] at ho
        exact ho ▸ .identified e name type os
      · simp at ho
    | probe e =>
      obtain ⟨conn, -, ho⟩ := sent_of_probe ho
      cases ho
    | nudgeGet =>
      simp only [nextLan] at ho
      split at ho <;> simp at ho
    | _ => simp [nextLan] at ho
  | @accept instr conn hkind =>
    cases instr <;> simp only [nextAccept] at ho <;> (try split at ho) <;> (try split at ho) <;>
      simp at ho
  | @control instr c hkind =>
    cases instr with
    | emitPairedName =>
      simp only [nextControl, List.mem_singleton, Out.event.injEq] at ho
      exact ho ▸ .pairedName _
    | answerIdentity =>
      simp only [nextControl] at ho
      split at ho
      · split at ho <;> simp at ho
      · split at ho <;> simp at ho
    | recheckAllowed | chargeToken | takePending =>
      simp only [nextControl] at ho
      split at ho <;> simp at ho
    | _ => simp [nextControl] at ho
  | @host instr c hkind =>
    cases instr with
    | hostInvite event' =>
      simp only [nextHost] at ho
      split at ho
      · rename_i hmem
        simp only [List.mem_singleton, Out.event.injEq] at ho
        exact ho ▸ .hostInvite hkind hmem _
      · simp at ho
    | hostHello | hostVote =>
      simp only [nextHost] at ho
      split at ho <;> simp at ho
    | _ => simp [nextHost] at ho
  | @connect instr l hkind =>
    cases instr <;> simp only [nextConnect] at ho <;> split at ho <;> simp at ho

end Next

/-! ### Who writes what -/

theorem step_shared {s s' : State Id} {a : Act Id} {out : List (Out Id)}
    (h : step C s a = some (s', out)) :
    (s'.shared = s.shared ∧ out = []) ∨ ∃ pid env t instr rest kind n, a = .exec pid env ∧
      s.procs[pid]? = some t ∧ t.todo = instr :: rest ∧
      next C s.shared t.kind s.procs.length env instr = some (kind, n) ∧
      s'.shared = write C s.shared t.kind s.procs.length env instr ∧ out = n.out := by
  cases step_case h with
  | exec hget htodo hnext =>
    exact .inr ⟨_, _, _, _, _, _, _, rfl, hget, htodo, hnext, rfl, rfl⟩
  | recv => exact .inl ⟨rfl, rfl⟩
  | close => exact .inl ⟨rfl, rfl⟩
  | drop => exact .inl ⟨rfl, rfl⟩
  | start => exact .inl ⟨rfl, rfl⟩

/-- The critical section an action goes through writes what the tasks share. -/
theorem shared_exec {s s' : State Id} {p : Nat} {env : Env} {out : List (Out Id)} {t : Task Id}
    {instr : Instr Id} {rest : List (Instr Id)} (h : step C s (.exec p env) = some (s', out))
    (hget : s.procs[p]? = some t) (htodo : t.todo = instr :: rest) :
    s'.shared = write C s.shared t.kind s.procs.length env instr := by
  cases step_case h with
  | exec hget' htodo' =>
    obtain rfl := Option.some.inj (hget.symm.trans hget')
    obtain ⟨rfl, -⟩ := List.cons.inj (htodo.symm.trans htodo')
    rfl
  | start hactor => cases hactor

section Fields

variable (s : Shared Id) (kind : Kind Id) (fresh : Nat) (env : Env)

theorem write_allowed (instr : Instr Id) :
    (write C s kind fresh env instr).allowed =
      match instr with
      | .common (.allow id) => insert id s.allowed
      | .common (.disallow id _) => s.allowed.erase id
      | _ => s.allowed := by
  rcases instr with i | i | i | i | i | i | i | i <;> cases i <;> rfl

theorem write_blocked (instr : Instr Id) :
    (write C s kind fresh env instr).blocked =
      match instr with
      | .service (.block endpointId) => insert endpointId s.blocked
      | _ => s.blocked := by
  rcases instr with i | i | i | i | i | i | i | i <;> cases i <;> rfl

theorem write_pairedStore (instr : Instr Id) :
    (write C s kind fresh env instr).pairedStore =
      match instr with
      | .common (.remember _ device) => (s.pairedStore.remember C.iroh env.io device).2
      | .common (.markUnpaired id) =>
        (s.pairedStore.markUnpairedRemotely C.iroh env.io (C.iroh.toStr id)).2
      | .common (.touch endpointId) => s.pairedStore.touch C.iroh env.io endpointId env.nowMs
      | .service (.forgetRecord endpointId) => (s.pairedStore.forget C.iroh env.io endpointId).2
      | .connect (.unpairMark endpointId _) =>
        (s.pairedStore.markUnpairedRemotely C.iroh env.io endpointId).2
      | _ => s.pairedStore := by
  rcases instr with i | i | i | i | i | i | i | i <;> cases i <;> rfl

theorem write_presence (instr : Instr Id) :
    (write C s kind fresh env instr).presence =
      match instr with
      | .common (.setPresence endpointId online) =>
        Function.update s.presence (C.key endpointId) (some online)
      | _ => s.presence := by
  rcases instr with i | i | i | i | i | i | i | i <;> cases i <;> rfl

theorem write_sessions (instr : Instr Id) :
    (write C s kind fresh env instr).sessions =
      match instr with
      | .common (.insertSession key conn) => Function.update s.sessions key (some conn)
      | .common (.removeSession key) => Function.update s.sessions key none
      | .common (.removeSessionIf key conn) =>
        if (s.sessions key).any fun current => current.num = conn.num then
          Function.update s.sessions key none
        else s.sessions
      | _ => s.sessions := by
  rcases instr with i | i | i | i | i | i | i | i <;> cases i <;> rfl

theorem write_pending (instr : Instr Id) :
    (write C s kind fresh env instr).pendingNearbyInvites =
      match instr with
      | .service (.insertPending endpointId pending) =>
        Function.update s.pendingNearbyInvites endpointId (some pending)
      | .control (.takePending _) =>
        match kind.remote with
        | some remote => Function.update s.pendingNearbyInvites (C.iroh.toStr remote) none
        | none => s.pendingNearbyInvites
      | _ => s.pendingNearbyInvites := by
  rcases instr with i | i | i | i | i | i | i | i <;> cases i <;> rfl

theorem write_pairingHostOpen (instr : Instr Id) :
    (write C s kind fresh env instr).pairingHostOpen =
      match instr with
      | .window (.openWindow _) => true
      | .window .closeWindow => false
      | _ => s.pairingHostOpen := by
  rcases instr with i | i | i | i | i | i | i | i <;> cases i <;> rfl

theorem write_windows (instr : Instr Id) :
    (write C s kind fresh env instr).windows =
      match instr with
      | .window (.openWindow persistent) => s.windows ++ [persistent]
      | _ => s.windows := by
  rcases instr with i | i | i | i | i | i | i | i <;> cases i <;> rfl

theorem write_tasks (instr : Instr Id) :
    (write C s kind fresh env instr).tasks =
      match instr with
      | .common (.abortTask key) => s.tasks.filter fun entry => entry.1 ≠ key
      | .common (.refreshTasks active) =>
        (spawnMissing C (keptTasks C s.tasks active) fresh active).1
      | .lan (.respawn key _) => (s.tasks.filter fun entry => entry.1 ≠ key) ++ [(key, fresh)]
      | _ => s.tasks := by
  rcases instr with i | i | i | i | i | i | i | i <;> cases i <;> rfl

theorem write_nearby (instr : Instr Id) :
    (write C s kind fresh env instr).nearby =
      match instr with
      | .common (.expireNearby endpointId) | .lan (.vanished endpointId) =>
        (s.nearby.expire endpointId).2
      | .lan (.observe endpointId peerIsPaired) =>
        (s.nearby.observe endpointId peerIsPaired env.nowMs).2
      | .lan (.setIdentity endpointId displayName deviceType os) =>
        (s.nearby.setIdentity endpointId displayName deviceType os).2
      | .service .clearNearby => .new
      | _ => s.nearby := by
  rcases instr with i | i | i | i | i | i | i | i <;> cases i <;> rfl

theorem write_pairingExpireTask (instr : Instr Id) :
    (write C s kind fresh env instr).pairingExpireTask =
      match instr with
      | .window .takeExpireTask => none
      | .window (.setExpireTask pid) => some pid
      | _ => s.pairingExpireTask := by
  rcases instr with i | i | i | i | i | i | i | i <;> cases i <;> rfl

end Fields

end DashBeam.Node
