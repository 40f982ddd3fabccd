import Mathlib.Data.List.DropRight
import DashBeam.Lib.Machine

/-!
# Past-time properties of a trace

The operators the temporal properties of this development are written with. `Each R tr` says that
every element of `tr` is justified by the elements before it; `Since a b past` says that an `a` lies
in the past with no `b` after it; `countSince b a past` counts the `a` after the last `b`.
-/

namespace Lib

variable {ε : Type}

/-- Every element of the trace is justified by what came before it. -/
def Each (R : List ε → ε → Prop) (tr : List ε) : Prop :=
  ∀ past e future, tr = past ++ e :: future → R past e

/-- An `a` lies in the past, and no `b` came after it. -/
def Since (a b : ε → Prop) (past : List ε) : Prop :=
  ∃ before x after, past = before ++ x :: after ∧ a x ∧ ∀ y ∈ after, ¬ b y

/-- A place in a trace that was extended by one element: the new element, or a place before it. -/
theorem place_snoc {past future tr : List ε} {e x : ε} (h : tr ++ [x] = past ++ e :: future) :
    (past = tr ∧ e = x ∧ future = []) ∨ ∃ front, future = front ++ [x] ∧ tr = past ++ e :: front := by
  rcases List.eq_nil_or_concat future with rfl | ⟨front, last, rfl⟩
  · obtain ⟨htr, hx⟩ := List.append_inj' h rfl
    rw [List.cons.injEq] at hx
    exact .inl ⟨htr.symm, hx.1.symm, rfl⟩
  · rw [List.concat_eq_append, ← List.cons_append, ← List.append_assoc] at h
    obtain ⟨htr, hx⟩ := List.append_inj' h rfl
    rw [List.cons.injEq] at hx
    exact .inr ⟨front, by rw [List.concat_eq_append, hx.1], htr⟩

namespace Each

variable {R R' : List ε → ε → Prop} {tr : List ε} {e : ε}

theorem nil : Each R [] := by
  intro past e future h
  simp at h

theorem snoc (h : Each R tr) (he : R tr e) : Each R (tr ++ [e]) := by
  intro past x future heq
  rcases place_snoc heq with ⟨rfl, rfl, -⟩ | ⟨front, -, htr⟩
  · exact he
  · exact h past x front htr

theorem snoc_iff : Each R (tr ++ [e]) ↔ Each R tr ∧ R tr e := by
  constructor
  · intro h
    refine ⟨?_, h tr e [] rfl⟩
    intro past x future heq
    refine h past x (future ++ [e]) ?_
    rw [heq, List.append_assoc, List.cons_append]
  · rintro ⟨htr, he⟩
    exact htr.snoc he

theorem mono (himp : ∀ past e, R past e → R' past e) (h : Each R tr) : Each R' tr :=
  fun past e future heq => himp past e (h past e future heq)

end Each

namespace Since

variable {a b : ε → Prop} {past : List ε} {e : ε}

theorem snoc_now (h : a e) : Since a b (past ++ [e]) := ⟨past, e, [], rfl, h, by simp⟩

theorem snoc_keep (h : Since a b past) (he : ¬ b e) : Since a b (past ++ [e]) := by
  obtain ⟨before, x, after, rfl, hx, hafter⟩ := h
  refine ⟨before, x, after ++ [e], by simp, hx, ?_⟩
  intro y hy
  rcases List.mem_append.mp hy with hy | hy
  · exact hafter y hy
  · rw [List.mem_singleton] at hy
    exact hy ▸ he

theorem append {more : List ε} (h : Since a b past) (hmore : ∀ e ∈ more, ¬ b e) :
    Since a b (past ++ more) := by
  obtain ⟨before, x, after, rfl, hx, hafter⟩ := h
  refine ⟨before, x, after ++ more, by simp, hx, fun y hy => ?_⟩
  rcases List.mem_append.mp hy with hy | hy
  · exact hafter y hy
  · exact hmore y hy

theorem not_nil : ¬ Since a b [] := by
  rintro ⟨before, x, after, h, -⟩
  simp at h

theorem snoc_iff : Since a b (past ++ [e]) ↔ a e ∨ (Since a b past ∧ ¬ b e) := by
  constructor
  · rintro ⟨before, x, after, heq, hx, hafter⟩
    rcases place_snoc heq with ⟨-, rfl, -⟩ | ⟨front, rfl, hpast⟩
    · exact .inl hx
    · exact .inr ⟨⟨before, x, front, hpast, hx, fun y hy => hafter y (by simp [hy])⟩,
        hafter e (by simp)⟩
  · rintro (h | ⟨h, he⟩)
    · exact snoc_now h
    · exact snoc_keep h he

theorem cons_iff : Since a b (e :: past) ↔ (a e ∧ ∀ y ∈ past, ¬ b y) ∨ Since a b past := by
  constructor
  · rintro ⟨before, x, after, heq, hx, hafter⟩
    cases before with
    | nil =>
      obtain ⟨rfl, rfl⟩ := List.cons.inj heq
      exact .inl ⟨hx, hafter⟩
    | cons y before => exact .inr ⟨before, x, after, (List.cons.inj heq).2, hx, hafter⟩
  · rintro (⟨hx, hafter⟩ | ⟨before, x, after, rfl, hx, hafter⟩)
    · exact ⟨[], e, past, rfl, hx, hafter⟩
    · exact ⟨e :: before, x, after, rfl, hx, hafter⟩

instance decidable [DecidablePred a] [DecidablePred b] : ∀ past, Decidable (Since a b past)
  | [] => .isFalse not_nil
  | _ :: past => have := decidable past; decidable_of_iff' _ cons_iff

end Since

/-! ### Counting since the last time -/

/-- How many `a` there were since the last `b`. -/
def countSince (b a : ε → Bool) (tr : List ε) : Nat := (tr.rtakeWhile fun e => !b e).countP a

section countSince

variable {b a : ε → Bool} {tr : List ε} {e : ε}

theorem countSince_snoc (tr : List ε) (e : ε) :
    countSince b a (tr ++ [e]) = if b e then 0 else countSince b a tr + if a e then 1 else 0 := by
  unfold countSince
  rw [List.rtakeWhile_concat]
  cases b e with
  | true => rfl
  | false => simp [List.countP_append, List.countP_singleton]

end countSince

end Lib
