import Mathlib.Algebra.GroupWithZero.Nat
import Mathlib.Data.List.Basic
import Mathlib.Tactic.Common

/-!
# Guarded runs of a deterministic machine

A `Machine` answers a state and an action with the next state and the outputs of the step, or
refuses the action. All nondeterminism of a modelled system (which task moves next, what the
network delivers, which file operation fails) sits in the choice of actions.

`Run M ok s₀ tr s` says that `tr` is a run from `s₀` to `s` every step of which met the guard
`ok`. The trace keeps the states, not only the actions, so a property of the history of a run
can speak about the state in which something happened. `Machine.exec` computes a run from its
actions; `Run.of_exec` turns the computed run into a `Run`.
-/

namespace Lib

/-- A deterministic machine with states `σ`, actions `α` and outputs `ω`. -/
structure Machine (σ α ω : Type) where
  step : σ → α → Option (σ × List ω)

/-- One step of a run: the state before it, its action, the state after it, its outputs. -/
structure Entry (σ α ω : Type) where
  pre : σ
  act : α
  post : σ
  out : List ω

variable {σ α ω : Type}

/-- `tr` leads from `s₀` to the indexed state, and each of its steps met `ok`. -/
inductive Run (M : Machine σ α ω) (ok : σ → α → Prop) (s₀ : σ) : List (Entry σ α ω) → σ → Prop
  | nil : Run M ok s₀ [] s₀
  | snoc {tr : List (Entry σ α ω)} {s s' : σ} {a : α} {out : List ω} :
      Run M ok s₀ tr s → ok s a → M.step s a = some (s', out) →
      Run M ok s₀ (tr ++ [⟨s, a, s', out⟩]) s'

def anyStep : σ → α → Prop := fun _ _ => True

namespace Run

variable {M : Machine σ α ω} {ok ok' : σ → α → Prop} {s₀ s : σ} {tr : List (Entry σ α ω)}

/-- The invariant rule: what holds at the start and is kept by every guarded step holds at the end
of every run. The invariant may speak about the trace. -/
theorem invariant {I : List (Entry σ α ω) → σ → Prop} (hinit : I [] s₀)
    (hstep : ∀ {tr s s' a out}, I tr s → ok s a → M.step s a = some (s', out) →
      I (tr ++ [⟨s, a, s', out⟩]) s')
    (hrun : Run M ok s₀ tr s) : I tr s := by
  induction hrun with
  | nil => exact hinit
  | snoc _ hok hs ih => exact hstep ih hok hs

/-- The invariant rule with what is already known of the states a run reaches. -/
theorem invariant_of_run {I : List (Entry σ α ω) → σ → Prop} (hinit : I [] s₀)
    (hstep : ∀ {tr s s' a out}, Run M ok s₀ tr s → I tr s → ok s a → M.step s a = some (s', out) →
      I (tr ++ [⟨s, a, s', out⟩]) s')
    (hrun : Run M ok s₀ tr s) : I tr s := by
  induction hrun with
  | nil => exact hinit
  | snoc hprev hok hs ih => exact hstep hprev ih hok hs

theorem stateInvariant {I : σ → Prop} (hinit : I s₀)
    (hstep : ∀ {s s' a out}, I s → ok s a → M.step s a = some (s', out) → I s')
    (hrun : Run M ok s₀ tr s) : I s :=
  hrun.invariant (I := fun _ s => I s) hinit (fun hI hok hs => hstep hI hok hs)

theorem mono (himp : ∀ s a, ok s a → ok' s a) (hrun : Run M ok s₀ tr s) : Run M ok' s₀ tr s := by
  induction hrun with
  | nil => exact .nil
  | snoc _ hok hs ih => exact .snoc ih (himp _ _ hok) hs

theorem append {s' : σ} {tr' : List (Entry σ α ω)} (h : Run M ok s₀ tr s)
    (h' : Run M ok s tr' s') : Run M ok s₀ (tr ++ tr') s' := by
  induction h' with
  | nil => simpa using h
  | snoc _ hok hs ih => rw [← List.append_assoc]; exact .snoc ih hok hs

/-- Every entry of a run starts in a state the run reached, met the guard, and is a step. -/
theorem of_mem {e : Entry σ α ω} (hrun : Run M ok s₀ tr s) (he : e ∈ tr) :
    ∃ pre, Run M ok s₀ pre e.pre ∧ pre <+: tr ∧ ok e.pre e.act ∧
      M.step e.pre e.act = some (e.post, e.out) := by
  induction hrun with
  | nil => simp at he
  | @snoc tr _ _ _ _ hprev hok hs ih =>
    rcases List.mem_append.mp he with he | he
    · obtain ⟨pre, hpre, hle, hrest⟩ := ih he
      exact ⟨pre, hpre, hle.trans (List.prefix_append _ _), hrest⟩
    · rw [List.mem_singleton] at he
      subst he
      exact ⟨tr, hprev, List.prefix_append _ _, hok, hs⟩

end Run

/-! ### Computing a run -/

/-- The run of a list of actions, if none of them is refused. -/
def Machine.exec (M : Machine σ α ω) : σ → List α → Option (List (Entry σ α ω) × σ)
  | s, [] => some ([], s)
  | s, a :: as =>
    match M.step s a with
    | none => none
    | some (s', out) =>
      match M.exec s' as with
      | none => none
      | some (tr, t) => some (⟨s, a, s', out⟩ :: tr, t)

theorem Run.of_exec {M : Machine σ α ω} {ok : σ → α → Prop} :
    ∀ {as : List α} {s t : σ} {tr : List (Entry σ α ω)}, M.exec s as = some (tr, t) →
      (∀ e ∈ tr, ok e.pre e.act) → Run M ok s tr t
  | [], s, t, tr, h, _ => by
    simp only [Machine.exec, Option.some.injEq, Prod.mk.injEq] at h
    obtain ⟨rfl, rfl⟩ := h
    exact .nil
  | a :: as, s, t, tr, h, hok => by
    simp only [Machine.exec] at h
    split at h
    · cases h
    · rename_i s' out hs
      split at h
      · cases h
      · rename_i tr' t' hrest
        simp only [Option.some.injEq, Prod.mk.injEq] at h
        obtain ⟨rfl, rfl⟩ := h
        have hhead : Run M ok s [⟨s, a, s', out⟩] s' :=
          .snoc .nil (hok ⟨s, a, s', out⟩ (by simp)) hs
        exact hhead.append (Run.of_exec hrest fun e he => hok e (by simp [he]))

/-- A computed run all of whose steps pass the decidable guard, and whose end passes a test. -/
def Machine.check (M : Machine σ α ω) (ok : σ → α → Prop) [∀ s a, Decidable (ok s a)] (s : σ)
    (as : List α) (test : List (Entry σ α ω) → σ → Bool) : Bool :=
  match M.exec s as with
  | none => false
  | some (tr, t) => tr.all (fun e => decide (ok e.pre e.act)) && test tr t

theorem Run.of_check (M : Machine σ α ω) (ok : σ → α → Prop) [∀ s a, Decidable (ok s a)] (s : σ)
    (as : List α) (test : List (Entry σ α ω) → σ → Bool) (h : M.check ok s as test = true) :
    ∃ tr t, Run M ok s tr t ∧ test tr t = true := by
  unfold Machine.check at h
  split at h
  · cases h
  · rename_i tr t hexec
    rw [Bool.and_eq_true, List.all_eq_true] at h
    exact ⟨tr, t, .of_exec hexec fun e he => of_decide_eq_true (h.1 e he), h.2⟩

instance : ∀ (s : σ) (a : α), Decidable (anyStep s a) := fun _ _ => .isTrue trivial

/-! ### Lists of processes -/

theorem getElem?_set_of_some {β : Type} {l : List β} {i : Nat} {y : β} (h : l[i]? = some y) (x : β)
    (j : Nat) : (l.set i x)[j]? = if i = j then some x else l[j]? := by
  have hlt : i < l.length := by
    by_contra hge
    rw [List.getElem?_eq_none (by omega)] at h
    cases h
  rw [List.getElem?_set]
  simp [hlt]

theorem mem_set_of_ne {β : Type} {l : List β} {i : Nat} {x y : β} (h : l[i]? = some y) (hx : x ∈ l)
    (hne : x ≠ y) (z : β) : x ∈ l.set i z := by
  obtain ⟨j, hj⟩ := List.mem_iff_getElem?.mp hx
  refine List.mem_iff_getElem?.mpr ⟨j, ?_⟩
  rw [getElem?_set_of_some h]
  split
  · rename_i heq
    subst heq
    exact absurd (Option.some.inj (hj.symm.trans h)) hne
  · exact hj

theorem mem_set_self {β : Type} {l : List β} {i : Nat} {y : β} (h : l[i]? = some y) (z : β) :
    z ∈ l.set i z := by
  refine List.mem_iff_getElem?.mpr ⟨i, ?_⟩
  rw [getElem?_set_of_some h, if_pos rfl]

theorem sum_map_set {β : Type} (f : β → Nat) {l : List β} {i : Nat} {y : β} (h : l[i]? = some y)
    (x : β) : ((l.set i x).map f).sum + f y = (l.map f).sum + f x := by
  induction l generalizing i with
  | nil => cases h
  | cons z l ih =>
    cases i with
    | zero =>
      obtain rfl := Option.some.inj h
      simp only [List.set_cons_zero, List.map_cons, List.sum_cons]
      omega
    | succ i =>
      have hset := ih h
      simp only [List.set_cons_succ, List.map_cons, List.sum_cons]
      omega

end Lib
