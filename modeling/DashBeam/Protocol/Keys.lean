import DashBeam.Protocol.Control

/-!
# Three keys

A small key space on which the counterexamples and the applications of the theorems are computed:
three public keys with their hex spellings, parsed in either case, and signatures that only their own
key makes.
-/

namespace DashBeam.Protocol

inductive Key
  | alice
  | bob
  | carol
  deriving DecidableEq, Repr

namespace Key

def hex : Key → String
  | .alice => "d75a980182b10ab7d54bfed3c964073a0ee172f3daa62325af021a68f707511a"
  | .bob => "3d4017c3e843895a92b70aa74d1b7ebc9c982ccf2ec4968cc0cd55f12af4660c"
  | .carol => "fc51cd8e6218a1a38da47ed00230f0580816ed13ba3303ac5deb911548908025"

/-- Lowercasing, on the ASCII strings that spell ids. -/
def lower (s : String) : String := String.ofList (s.toList.map Char.toLower)

def ofHex (s : String) : Option Key :=
  [alice, bob, carol].find? fun key => key.hex == lower s

/-- A signature over a connection's keying material: the key, and the connection in unary. -/
def sign (key : Key) (conn : Nat) : String := key.hex ++ String.ofList (List.replicate conn '0')

theorem toLower_toLower (c : Char) : c.toLower.toLower = c.toLower := by
  have hsame : ∀ d : Char, ¬ (d.val ≥ 'A'.val ∧ d.val ≤ 'Z'.val) → d.toLower = d := fun d h => dif_neg h
  by_cases h : c.val ≥ 'A'.val ∧ c.val ≤ 'Z'.val
  · apply hsame
    rintro ⟨-, hle⟩
    have hval : c.toLower.val = c.val + ('a'.val - 'A'.val) := congrArg Char.val (dif_pos h)
    have hA : (65 : Nat) ≤ c.val.toNat := UInt32.le_iff_toNat_le.mp h.1
    have hZ : c.val.toNat ≤ 90 := UInt32.le_iff_toNat_le.mp h.2
    have hsum : (c.val + ('a'.val - 'A'.val)).toNat ≤ 90 := UInt32.le_iff_toNat_le.mp (hval ▸ hle)
    rw [UInt32.toNat_add, show ('a'.val - 'A'.val).toNat = 32 from rfl] at hsum
    omega
  · rw [hsame c h, hsame c h]

theorem lower_lower (s : String) : lower (lower s) = lower s := by
  have hcomp : Char.toLower ∘ Char.toLower = Char.toLower := funext toLower_toLower
  simp [lower, hcomp]

/-- Iroh, as far as these keys go. -/
def iroh : Iroh Key where
  toStr := hex
  fromStr := ofHex
  toLowercase := lower
  verifyChallenge key conn signature := signature == sign key conn
  signChallenge := sign
  fromStr_toStr key := by cases key <;> decide
  toLowercase_toStr key := by cases key <;> decide
  toLowercase_idem := lower_lower
  fromStr_toLowercase h := by
    rw [ofHex, lower_lower]
    exact h

end Key

end DashBeam.Protocol
