import Mathlib.Algebra.Order.Group.Nat
import Mathlib.Tactic.Common

/-!
# Token buckets that are refilled lazily

A bucket holds tokens and the origin of its next refill. It earns a token every `width` units of
time, but only when it is looked at: `due` is the number of whole intervals since the origin, and a
refill adds them, up to `burst`, and moves the origin by as many whole intervals. The counter of
intervals wraps at `wrap`.

`Account` bounds what can be spent in a window that begins at `start`: tokens spent, tokens held and
the part of an interval already waited for never exceed a full bucket and the time of the window. It
is kept by a refill and by spending, it is settled when the bucket is found full, and a full bucket
may then be opened anew: dropping a full bucket costs nothing and grants nothing.
-/

namespace Lib.TokenBucket

/-- The refills due at `now`. -/
def due (width wrap origin now : Nat) : Nat := (now - origin) / width % wrap

variable {width wrap burst start spent opened now tokens origin : Nat}

theorem due_le (width wrap origin now : Nat) : width * due width wrap origin now ≤ now - origin :=
  (Nat.mul_le_mul_left width (Nat.mod_le _ _)).trans (Nat.mul_div_le _ _)

@[simp]
theorem due_self : due width wrap now now = 0 := by
  simp [due]

/-- After a refill the elapsed intervals are a whole number of turns of the counter. -/
theorem due_after :
    due width wrap (origin + width * due width wrap origin now) now = 0 := by
  have hsub : now - (origin + width * due width wrap origin now) =
      now - origin - width * due width wrap origin now := by omega
  rw [due, hsub, Nat.sub_mul_div]
  exact Nat.sub_mod_eq_zero_of_mod_eq (Nat.mod_mod _ _).symm

theorem rest_after : (now - (origin + width * due width wrap origin now)) % width =
    (now - origin) % width := by
  have hsub : now - (origin + width * due width wrap origin now) =
      now - origin - width * due width wrap origin now := by omega
  rw [hsub, Nat.sub_mul_mod (due_le width wrap origin now)]

/-- What a refill adds was waited for since the bucket was last looked at. -/
theorem earned (hwidth : 0 < width) (horigin : origin ≤ opened) (hnow : opened ≤ now)
    (hsettled : due width wrap origin opened = 0) :
    width * due width wrap origin now + (now - origin) % width ≤
      (opened - origin) % width + (now - opened) := by
  set rest := (opened - origin) % width + (now - opened) with hrest
  have helapsed : now - origin = width * ((opened - origin) / width) + rest := by
    have hdiv := Nat.div_add_mod (opened - origin) width
    omega
  have hquot : (now - origin) / width = (opened - origin) / width + rest / width := by
    rw [helapsed, Nat.mul_add_div hwidth]
  have hdue : due width wrap origin now = rest / width % wrap := by
    rw [due] at hsettled ⊢
    rw [hquot, Nat.add_mod, hsettled, Nat.zero_add, Nat.mod_mod]
  have hmod : (now - origin) % width = rest % width := by
    rw [helapsed, Nat.mul_add_mod]
  have hle : width * (rest / width % wrap) ≤ width * (rest / width) :=
    Nat.mul_le_mul_left width (Nat.mod_le _ _)
  have hdiv := Nat.div_add_mod rest width
  rw [hdue, hmod]
  omega

/-- The account of a window that began at `start`, when the bucket was last looked at in
`opened`. -/
structure Account (width wrap burst start spent opened tokens origin : Nat) : Prop where
  begun : start ≤ opened
  past : origin ≤ opened
  settled : due width wrap origin opened = 0
  paid : width * (spent + tokens) + (opened - origin) % width ≤
    width * burst + (width - 1) + (opened - start)

/-- The account of a window in which nothing was spent yet. -/
theorem Account.fresh (hwidth : 0 < width) (htokens : tokens ≤ burst) (hbegun : start ≤ now)
    (hpast : origin ≤ now) (hsettled : due width wrap origin now = 0) :
    Account width wrap burst start 0 now tokens origin where
  begun := hbegun
  past := hpast
  settled := hsettled
  paid := by
    have hheld : width * tokens ≤ width * burst := Nat.mul_le_mul_left width htokens
    have hrest := Nat.mod_lt (now - origin) hwidth
    rw [Nat.zero_add]
    omega

theorem Account.refill (hwidth : 0 < width)
    (h : Account width wrap burst start spent opened tokens origin) (hnow : opened ≤ now) :
    Account width wrap burst start spent now
      (min (tokens + due width wrap origin now) burst) (origin + width * due width wrap origin now)
    where
  begun := h.begun.trans hnow
  past := by
    have hdue := due_le width wrap origin now
    have hpast := h.past
    omega
  settled := due_after
  paid := by
    have hearned := earned hwidth h.past hnow h.settled
    have hpaid := h.paid
    have hbegun := h.begun
    have hheld : width * (spent + min (tokens + due width wrap origin now) burst) ≤
        width * (spent + tokens) + width * due width wrap origin now := by
      rw [← Nat.mul_add]
      exact Nat.mul_le_mul_left width (by omega)
    rw [rest_after]
    omega

theorem Account.spend (h : Account width wrap burst start spent opened tokens origin)
    (htokens : 0 < tokens) :
    Account width wrap burst start (spent + 1) opened (tokens - 1) origin where
  begun := h.begun
  past := h.past
  settled := h.settled
  paid := by
    have hmoved : spent + 1 + (tokens - 1) = spent + tokens := by omega
    rw [hmoved]
    exact h.paid

/-- A bucket found full has been paid for by the time that went by. -/
theorem Account.full (hwidth : 0 < width)
    (h : Account width wrap burst start spent opened tokens origin) (hnow : opened ≤ now)
    (hfull : burst ≤ tokens + due width wrap origin now) :
    width * spent ≤ width - 1 + (now - start) := by
  have hearned := earned hwidth h.past hnow h.settled
  have hpaid := h.paid
  have hbegun := h.begun
  have hheld : width * spent + width * burst ≤
      width * (spent + tokens) + width * due width wrap origin now := by
    rw [← Nat.mul_add, ← Nat.mul_add]
    exact Nat.mul_le_mul_left width (by omega)
  omega

/-- A full bucket opened after the earlier ones were paid for. -/
theorem Account.reopen (hpaid : width * spent ≤ width - 1 + (now - start)) (hbegun : start ≤ now) :
    Account width wrap burst start spent now burst now where
  begun := hbegun
  past := Nat.le_refl now
  settled := due_self
  paid := by
    rw [Nat.sub_self, Nat.zero_mod, Nat.mul_add]
    omega

/-- What the account lets a window spend. -/
theorem spent_le {length : Nat} (hwidth : 0 < width)
    (h : width * spent ≤ width * burst + (width - 1) + length) :
    spent ≤ burst + length / width + 1 := by
  by_contra hlt
  have hmore : burst + length / width + 2 ≤ spent := by omega
  have hcost := Nat.mul_le_mul_left width hmore
  have hdiv := Nat.div_add_mod length width
  have hmod := Nat.mod_lt length hwidth
  rw [Nat.mul_add, Nat.mul_add] at hcost
  omega

theorem Account.spent_le {length : Nat} (hwidth : 0 < width)
    (h : Account width wrap burst start spent opened tokens origin) (hend : opened ≤ start + length) :
    spent ≤ burst + length / width + 1 := by
  have hpaid := h.paid
  rw [Nat.mul_add] at hpaid
  exact TokenBucket.spent_le hwidth (by omega)

end Lib.TokenBucket
