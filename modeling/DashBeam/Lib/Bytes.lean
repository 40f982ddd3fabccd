import Mathlib.Data.List.Basic
import Mathlib.Data.Nat.ModEq

/-!
# Numbers of a fixed number of bytes

`toLE w n` are the `w` lowest bytes of `n`, least significant first, and `ofLE` reads them back; a
number that does not fit is cut. The big-endian forms are the reversed lists.
-/

namespace Lib

abbrev Bytes : Type := List UInt8

/-- The number that bytes stand for, least significant first. -/
def ofLE : Bytes → Nat
  | [] => 0
  | b :: bs => b.toNat + 256 * ofLE bs

/-- The `w` lowest bytes of a number, least significant first. -/
def toLE : Nat → Nat → Bytes
  | 0, _ => []
  | w + 1, n => UInt8.ofNat n :: toLE w (n / 256)

/-- The number that bytes stand for, most significant first. -/
def ofBE (bs : Bytes) : Nat := ofLE bs.reverse

/-- The `w` lowest bytes of a number, most significant first. -/
def toBE (w n : Nat) : Bytes := (toLE w n).reverse

@[simp]
theorem length_toLE (w n : Nat) : (toLE w n).length = w := by
  induction w generalizing n with
  | zero => rfl
  | succ w ih => rw [toLE, List.length_cons, ih]

@[simp]
theorem length_toBE (w n : Nat) : (toBE w n).length = w := by
  rw [toBE, List.length_reverse, length_toLE]

theorem ofLE_toLE (w n : Nat) : ofLE (toLE w n) = n % 256 ^ w := by
  induction w generalizing n with
  | zero => rw [toLE, ofLE, pow_zero, Nat.mod_one]
  | succ w ih =>
    have hpow : (256 : Nat) ^ (w + 1) = 256 * 256 ^ w := pow_succ' 256 w
    rw [toLE, ofLE, ih, UInt8.toNat_ofNat', hpow]
    exact Nat.mod_mul.symm

theorem ofLE_toLE_of_lt {w n : Nat} (h : n < 256 ^ w) : ofLE (toLE w n) = n := by
  rw [ofLE_toLE, Nat.mod_eq_of_lt h]

theorem ofBE_toBE_of_lt {w n : Nat} (h : n < 256 ^ w) : ofBE (toBE w n) = n := by
  rw [ofBE, toBE, List.reverse_reverse, ofLE_toLE_of_lt h]

theorem toLE_ofLE (bs : Bytes) : toLE bs.length (ofLE bs) = bs := by
  induction bs with
  | nil => rfl
  | cons b bs ih =>
    have hb : b.toNat < 256 := b.toNat_lt
    rw [List.length_cons, toLE, ofLE, Nat.add_mul_div_left _ _ (by decide), Nat.div_eq_of_lt hb,
      Nat.zero_add, ih]
    congr 1
    apply UInt8.toNat_inj.mp
    rw [UInt8.toNat_ofNat', Nat.add_mul_mod_self_left, Nat.mod_eq_of_lt hb]

theorem toBE_ofBE (bs : Bytes) : toBE bs.length (ofBE bs) = bs := by
  have h := congrArg List.reverse (toLE_ofLE bs.reverse)
  rwa [List.length_reverse, List.reverse_reverse] at h

end Lib
