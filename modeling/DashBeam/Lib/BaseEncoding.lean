import DashBeam.Lib.Unicode

/-!
# Hexadecimal and base32

`decodeHex` reads two digits a byte, in either case. `base32` writes a string of bits, five a
character, the last character padded with zeros; what it writes of the first `5 * n` bits are its first
`n` characters, and they determine the bits.
-/

namespace Lib

/-! ## Hexadecimal -/

/-- The value of a hex digit in either case. -/
def hexValue (c : Char) : Option Nat :=
  if '0' ≤ c ∧ c ≤ '9' then some (c.toNat - 48)
  else if 'a' ≤ c ∧ c ≤ 'f' then some (c.toNat - 87)
  else if 'A' ≤ c ∧ c ≤ 'F' then some (c.toNat - 55)
  else none

/-- The bytes of a string of hex digits. -/
def decodeHex : Text → Option Bytes
  | [] => some []
  | [_] => none
  | a :: b :: rest =>
    match hexValue a, hexValue b, decodeHex rest with
    | some high, some low, some bytes => some (UInt8.ofNat (16 * high + low) :: bytes)
    | _, _, _ => none

theorem toLower_of_large {c : Char} (h : 128 ≤ c.toNat) : c.toLower = c := by
  have hnot : ¬ (c.val ≥ 'A'.val ∧ c.val ≤ 'Z'.val) := by
    rintro ⟨-, hle⟩
    have : c.toNat ≤ 90 := hle
    omega
  exact dif_neg hnot

/-- Statements about the case of letters are decided on ASCII. -/
theorem forall_ascii {P : Char → Prop} (h : ∀ n < 128, P (Char.ofNat n)) {c : Char}
    (hc : c.toNat < 128) : P c := by
  have hP := h c.toNat hc
  rwa [Char.ofNat_toNat] at hP

theorem hexValue_toLower (c : Char) : hexValue c.toLower = hexValue c := by
  by_cases hc : c.toNat < 128
  · exact forall_ascii (P := fun c => hexValue c.toLower = hexValue c) (by decide +kernel) hc
  · rw [toLower_of_large (by omega)]

theorem hexValue_of_large {c : Char} (h : 128 ≤ c.toNat) : hexValue c = none := by
  have hlarge : ∀ d : Char, d.toNat < 128 → ¬ c ≤ d := by
    intro d hd hle
    have : c.toNat ≤ d.toNat := hle
    omega
  rw [hexValue, if_neg, if_neg, if_neg]
  · exact fun hrange => hlarge 'F' (by decide) hrange.2
  · exact fun hrange => hlarge 'f' (by decide) hrange.2
  · exact fun hrange => hlarge '9' (by decide) hrange.2

theorem decodeHex_eq_some {s : Text} {bytes : Bytes} (h : decodeHex s = some bytes) :
    s.length = 2 * bytes.length ∧ ∀ c ∈ s, (hexValue c).isSome := by
  induction s using decodeHex.induct generalizing bytes with
  | case1 =>
    obtain rfl := Option.some.inj h
    exact ⟨rfl, fun c hc => absurd hc List.not_mem_nil⟩
  | case2 => cases h
  | case3 a b rest high low tail htail hlow hhigh ih =>
    rw [decodeHex, hhigh, hlow, htail] at h
    obtain rfl := Option.some.inj h
    obtain ⟨hlength, hdigits⟩ := ih htail
    refine ⟨by simp only [List.length_cons]; omega, ?_⟩
    rw [List.forall_mem_cons, List.forall_mem_cons, hhigh, hlow]
    exact ⟨rfl, rfl, hdigits⟩
  | case4 a b rest hnone ih =>
    rw [decodeHex] at h
    split at h
    · rename_i high low tail hhigh hlow htail
      exact (hnone high low tail hhigh hlow htail).elim
    · cases h

/-- A byte from two digits of a string. -/
def hexByte (s : Text) (i : Nat) : UInt8 :=
  UInt8.ofNat (((s.drop (2 * i)).take 2).foldl (fun acc c => 16 * acc + (hexValue c).getD 0) 0)

theorem decodeHex_of_digits (n : Nat) {s : Text} (hlength : s.length = 2 * n)
    (hdigits : ∀ c ∈ s, (hexValue c).isSome) :
    decodeHex s = some ((List.range n).map (hexByte s)) := by
  induction n generalizing s with
  | zero =>
    rw [List.length_eq_zero_iff.mp hlength]
    rfl
  | succ n ih =>
    match s, hlength with
    | a :: b :: rest, hlength =>
      rw [List.forall_mem_cons, List.forall_mem_cons] at hdigits
      obtain ⟨ha, hb, hrest⟩ := hdigits
      obtain ⟨high, hhigh⟩ := Option.isSome_iff_exists.mp ha
      obtain ⟨low, hlow⟩ := Option.isSome_iff_exists.mp hb
      have htail : rest.length = 2 * n := by
        simp only [List.length_cons] at hlength
        omega
      have hfirst : hexByte (a :: b :: rest) 0 = UInt8.ofNat (16 * high + low) := by
        simp [hexByte, hhigh, hlow]
      have hothers : ∀ i, hexByte (a :: b :: rest) (i + 1) = hexByte rest i := by
        intro i
        rw [hexByte, hexByte, show 2 * (i + 1) = 2 * i + 1 + 1 by omega, List.drop_succ_cons,
          List.drop_succ_cons]
      rw [decodeHex, hhigh, hlow, ih htail hrest]
      simp only [List.range_succ_eq_map, List.map_cons, List.map_map, hfirst]
      congr 2

/-! ## Base32 -/

def bitsOfByte (b : UInt8) : List Bool := [7, 6, 5, 4, 3, 2, 1, 0].map b.toNat.testBit

def bitsOf (bytes : Bytes) : List Bool := bytes.flatMap bitsOfByte

def base32Alphabet : List Char := "ABCDEFGHIJKLMNOPQRSTUVWXYZ234567".toList

/-- The number of five bits. -/
def quintet (a b c d e : Bool) : Nat :=
  16 * a.toNat + 8 * b.toNat + 4 * c.toNat + 2 * d.toNat + e.toNat

def base32Char (a b c d e : Bool) : Char := base32Alphabet.getD (quintet a b c d e) 'A'

/-- Five bits a character, without padding characters. -/
def base32 : List Bool → Text
  | [] => []
  | [a] => [base32Char a false false false false]
  | [a, b] => [base32Char a b false false false]
  | [a, b, c] => [base32Char a b c false false]
  | [a, b, c, d] => [base32Char a b c d false]
  | a :: b :: c :: d :: e :: rest => base32Char a b c d e :: base32 rest

theorem length_bitsOf (bytes : Bytes) : (bitsOf bytes).length = 8 * bytes.length := by
  induction bytes with
  | nil => rfl
  | cons b bytes ih =>
    rw [bitsOf, List.flatMap_cons, List.length_append, ← bitsOf, ih, List.length_cons]
    show 8 + 8 * bytes.length = 8 * (bytes.length + 1)
    omega

/-- Five bits at the front of a long enough list. -/
theorem exists_quintet {bits : List Bool} (h : 5 ≤ bits.length) :
    ∃ a b c d e rest, bits = a :: b :: c :: d :: e :: rest := by
  match bits, h with
  | a :: b :: c :: d :: e :: rest, _ => exact ⟨a, b, c, d, e, rest, rfl⟩

theorem base32Char_mem (a b c d e : Bool) : base32Char a b c d e ∈ base32Alphabet := by
  revert a b c d e
  decide

theorem base32Char_inj {a b c d e a' b' c' d' e' : Bool}
    (h : base32Char a b c d e = base32Char a' b' c' d' e') :
    a = a' ∧ b = b' ∧ c = c' ∧ d = d' ∧ e = e' := by
  have hposition : ∀ a b c d e, base32Alphabet.idxOf (base32Char a b c d e) = quintet a b c d e := by
    decide
  have hquintet := congrArg base32Alphabet.idxOf h
  rw [hposition, hposition] at hquintet
  rw [quintet, quintet] at hquintet
  have hlt : ∀ x : Bool, x.toNat < 2 := Bool.toNat_lt
  have := hlt a
  have := hlt a'
  have := hlt b
  have := hlt b'
  have := hlt c
  have := hlt c'
  have := hlt d
  have := hlt d'
  have := hlt e
  have := hlt e'
  have hinj : ∀ x y : Bool, x.toNat = y.toNat → x = y := by decide
  exact ⟨hinj _ _ (by omega), hinj _ _ (by omega), hinj _ _ (by omega), hinj _ _ (by omega),
    hinj _ _ (by omega)⟩

theorem take_base32 (n : Nat) {bits : List Bool} (h : 5 * n ≤ bits.length) :
    (base32 bits).take n = base32 (bits.take (5 * n)) ∧
      (base32 (bits.take (5 * n))).length = n ∧
      ∀ c ∈ base32 (bits.take (5 * n)), c ∈ base32Alphabet := by
  induction n generalizing bits with
  | zero => simp [base32]
  | succ n ih =>
    have hfive : 5 ≤ bits.length := by omega
    obtain ⟨a, b, c, d, e, rest, rfl⟩ := exists_quintet hfive
    have hrest : 5 * n ≤ rest.length := by
      simp only [List.length_cons] at h
      omega
    obtain ⟨htake, hlength, hmem⟩ := ih hrest
    have hbits : (a :: b :: c :: d :: e :: rest).take (5 * (n + 1)) =
        a :: b :: c :: d :: e :: rest.take (5 * n) := by
      rw [show 5 * (n + 1) = 5 * n + 1 + 1 + 1 + 1 + 1 by omega]
      rfl
    rw [hbits, base32, base32, List.take_succ_cons, htake, List.length_cons, hlength,
      List.forall_mem_cons]
    exact ⟨rfl, rfl, base32Char_mem a b c d e, hmem⟩

theorem base32_inj (n : Nat) {bits bits' : List Bool} (hlength : bits.length = 5 * n)
    (hlength' : bits'.length = 5 * n) (h : base32 bits = base32 bits') : bits = bits' := by
  induction n generalizing bits bits' with
  | zero =>
    rw [List.length_eq_zero_iff.mp hlength, List.length_eq_zero_iff.mp hlength']
  | succ n ih =>
    have hfive : 5 ≤ bits.length := by omega
    have hfive' : 5 ≤ bits'.length := by omega
    obtain ⟨a, b, c, d, e, rest, rfl⟩ := exists_quintet hfive
    obtain ⟨a', b', c', d', e', rest', rfl⟩ := exists_quintet hfive'
    simp only [List.length_cons] at hlength hlength'
    rw [base32, base32, List.cons.injEq] at h
    obtain ⟨rfl, rfl, rfl, rfl, rfl⟩ := base32Char_inj h.1
    rw [ih (by omega) (by omega) h.2]

end Lib
