import DashBeam.Frontend.Receiver
import DashBeam.Protocol.Fingerprint

/-!
# The fingerprint in the browser

The frontend derives the fingerprint on its own, from a string of binary digits that it fills a byte
at a time and empties five digits at a time, up to twelve characters. What it has written and what the
digits that are still to come would give is the same at every turn (`takeChars_spec`), so on ASCII
strings it shows what `short_fingerprint` does.
-/

namespace DashBeam.Frontend

open Lib Protocol
open Receiver (isJsWhitespace isJsWhitespace_ascii)

/-! ## The code -/

/-- `String.prototype.toLowerCase`, for ASCII. -/
def toLowerCase (s : Text) : Text := s.map Char.toLower

def slice (s : Text) (start stop : Nat) : Text := (s.drop start).take (stop - start)

def padStart (length : Nat) (c : Char) (s : Text) : Text := List.replicate (length - s.length) c ++ s

/-- `Number.parseInt` of digits. -/
def parseInt (radix : Nat) (s : Text) : Nat :=
  s.foldl (fun acc c => radix * acc + (hexValue c).getD 0) 0

/-- The class `[0-9a-f]`. -/
def isLowerHex (c : Char) : Bool := ('0' ≤ c && c ≤ '9') || ('a' ≤ c && c ≤ 'f')

/-- The inner loop: the bit buffer and the characters after it. `BASE32_ALPHABET` is that of RFC 4648. -/
def takeChars : Text → Text → Text × Text
  | a :: b :: c :: d :: e :: bitBuffer, chars =>
    if chars.length < 12 then
      takeChars bitBuffer (chars ++ [base32Alphabet.getD (parseInt 2 [a, b, c, d, e]) 'A'])
    else (a :: b :: c :: d :: e :: bitBuffer, chars)
  | bitBuffer, chars => (bitBuffer, chars)

def encodeBytes : Bytes → Text → Text → Text
  | [], _, chars => chars
  | byte :: bytes, bitBuffer, chars =>
    match takeChars (bitBuffer ++ padStart 8 '0' (Nat.toDigits 2 byte.toNat)) chars with
    | (bitBuffer, chars) => if chars.length ≥ 12 then chars else encodeBytes bytes bitBuffer chars

def shortFingerprint (endpointIdHex : Text) : Option Text :=
  let trimmed := toLowerCase (trimEnds isJsWhitespace endpointIdHex)
  if trimmed.length = 64 ∧ trimmed.all isLowerHex then
    let bytes := (List.range 32).map fun i =>
      UInt8.ofNat (parseInt 16 (slice trimmed (i * 2) (i * 2 + 2)))
    some (grouped (encodeBytes bytes [] []))
  else none

/-! ## Binary digits -/

def bitChar (b : Bool) : Char := if b then '1' else '0'

theorem padStart_toDigits (byte : UInt8) :
    padStart 8 '0' (Nat.toDigits 2 byte.toNat) = (bitsOfByte byte).map bitChar := by
  have hall : ∀ n < 256, padStart 8 '0' (Nat.toDigits 2 n) =
      ([7, 6, 5, 4, 3, 2, 1, 0].map n.testBit).map bitChar := by
    decide +kernel
  exact hall byte.toNat byte.toNat_lt

/-- Five digits are read as their character. -/
theorem getD_parseInt (a b c d e : Bool) :
    base32Alphabet.getD (parseInt 2 [bitChar a, bitChar b, bitChar c, bitChar d, bitChar e]) 'A' =
      base32Char a b c d e := by
  revert a b c d e
  decide

/-- The inner loop stops at twelve characters or without five digits left, loses no digit, and keeps
what the digits and any later ones give. -/
theorem takeChars_spec (bits : List Bool) (chars : Text) (h : chars.length ≤ 12) :
    ∃ left chars', takeChars (bits.map bitChar) chars = (left.map bitChar, chars') ∧
      chars'.length ≤ 12 ∧ (chars'.length = 12 ∨ left.length < 5) ∧
      5 * chars'.length + left.length = 5 * chars.length + bits.length ∧
      ∀ later, chars' ++ (base32 (left ++ later)).take (12 - chars'.length) =
        chars ++ (base32 (bits ++ later)).take (12 - chars.length) := by
  induction bits using base32.induct generalizing chars with
  | case6 a b c d e rest ih =>
    by_cases hfull : chars.length < 12
    · obtain ⟨left, chars', htake, hle, hstop, hdigits, hlater⟩ :=
        ih (chars ++ [base32Char a b c d e]) (by rw [List.length_append, List.length_singleton]; omega)
      refine ⟨left, chars', ?_, hle, hstop, ?_, ?_⟩
      · rw [← htake, ← getD_parseInt]
        simp only [List.map_cons, takeChars, if_pos hfull]
      · rw [hdigits, List.length_append, List.length_singleton]
        simp only [List.length_cons]
        omega
      · intro later
        have hone : 12 - chars.length = 12 - (chars.length + 1) + 1 := by omega
        rw [hlater, List.length_append, List.length_singleton, List.append_assoc, hone]
        simp only [List.cons_append, base32, List.take_succ_cons, List.nil_append]
    · refine ⟨a :: b :: c :: d :: e :: rest, chars, ?_, h, Or.inl (by omega), rfl, fun later => rfl⟩
      simp only [List.map_cons, takeChars, if_neg hfull]
  | _ =>
    refine ⟨_, chars, rfl, h, Or.inr ?_, rfl, fun later => rfl⟩
    simp only [List.length_cons, List.length_nil]
    omega

/-- The loop writes twelve characters of the digits at hand and to come, if these are enough. -/
theorem encodeBytes_eq (bytes : Bytes) (bits : List Bool) (chars : Text) (h : chars.length ≤ 12)
    (hbits : bits.length < 5) (henough : 60 ≤ 5 * chars.length + bits.length + 8 * bytes.length) :
    encodeBytes bytes (bits.map bitChar) chars =
      chars ++ (base32 (bits ++ bitsOf bytes)).take (12 - chars.length) := by
  induction bytes generalizing bits chars with
  | nil =>
    rw [List.length_nil] at henough
    rw [show 12 - chars.length = 0 by omega, List.take_zero, List.append_nil]
    rfl
  | cons byte bytes ih =>
    obtain ⟨left, chars', htake, hle, hstop, hdigits, hlater⟩ :=
      takeChars_spec (bits ++ bitsOfByte byte) chars h
    have hbyte : (bitsOfByte byte).length = 8 := rfl
    rw [List.length_append, hbyte] at hdigits
    rw [List.length_cons] at henough
    have hflat : bits ++ bitsOf (byte :: bytes) = bits ++ bitsOfByte byte ++ bitsOf bytes := by
      rw [bitsOf, List.flatMap_cons, List.append_assoc]
      rfl
    rw [encodeBytes, padStart_toDigits, ← List.map_append, htake, hflat, ← hlater]
    dsimp only
    split
    · rw [show 12 - chars'.length = 0 by omega, List.take_zero, List.append_nil]
    · exact ih left chars' hle (by omega) (by omega)

/-! ## The two fingerprints -/

theorem isLowerHex_toLower (c : Char) : isLowerHex c.toLower = (hexValue c).isSome := by
  by_cases hc : c.toNat < 128
  · exact forall_ascii (P := fun c => isLowerHex c.toLower = (hexValue c).isSome)
      (by decide +kernel) hc
  · rw [toLower_of_large (by omega), Bool.eq_iff_iff, isSome_hexValue]
    have hsmall : ∀ d ∈ "0123456789abcdefABCDEF".toList, d.toNat < 128 :=
      forall_chars (by decide)
    refine iff_of_false ?_ fun hmem => hc (hsmall c hmem)
    rw [isLowerHex, Bool.or_eq_true, Bool.and_eq_true, Bool.and_eq_true]
    simp only [decide_eq_true_eq]
    rintro (⟨-, hle⟩ | ⟨-, hle⟩)
    · exact hc (lt_of_le_of_lt (show c.toNat ≤ 57 from hle) (by decide))
    · exact hc (lt_of_le_of_lt (show c.toNat ≤ 102 from hle) (by decide))

theorem lowerHex_iff (s : Text) :
    (toLowerCase s).length = 64 ∧ (toLowerCase s).all isLowerHex = true ↔ IsHexId s := by
  rw [toLowerCase, List.length_map, IsHexId, List.all_map, List.all_eq_true]
  refine and_congr_right fun _ => forall₂_congr fun c _ => ?_
  rw [Function.comp_apply, isLowerHex_toLower, isSome_hexValue]

theorem parsed_eq (s : Text) (i : Nat) :
    UInt8.ofNat (parseInt 16 (slice (toLowerCase s) (i * 2) (i * 2 + 2))) = hexByte s i := by
  rw [parseInt, slice, toLowerCase, Nat.add_sub_cancel_left, Nat.mul_comm, ← List.map_drop,
    ← List.map_take, List.foldl_map, hexByte]
  simp only [hexValue_toLower]

theorem trim_ascii {s : Text} (h : ∀ c ∈ s, c.toNat < 128) :
    trimEnds isJsWhitespace s = trimEnds isWhitespace s :=
  trimEnds_congr fun c hc => isJsWhitespace_ascii (h c hc)

theorem shortFingerprint_eq {s : Text} (h : ∀ c ∈ s, c.toNat < 128) :
    shortFingerprint s = Protocol.shortFingerprint s := by
  rw [shortFingerprint, trim_ascii h]
  by_cases hid : IsHexId (trimEnds isWhitespace s)
  · have hbytes := idBytes_of_isHexId hid
    simp only [if_pos ((lowerHex_iff _).mpr hid), parsed_eq]
    rw [Protocol.shortFingerprint_of_idBytes hbytes]
    have hencode := encodeBytes_eq _ [] [] (by decide) (by decide)
      (show 60 ≤ 5 * 0 + 0 + 8 * _ by rw [hbytes.2]; decide)
    rw [List.map_nil] at hencode
    rw [hencode]
    rfl
  · rw [if_neg (fun hlower => hid ((lowerHex_iff _).mp hlower))]
    have hnone := mt isSome_shortFingerprint.mp hid
    rw [Option.not_isSome_iff_eq_none] at hnone
    exact hnone.symm

/-- On ASCII strings both sides derive the same fingerprint; there is one exactly for 64 hex digits; it
is three groups of four base32 characters; and ids have the same exactly if their first 60 bits are the
same. -/
theorem fingerprints_agree (s : Text) (h : ∀ c ∈ s, c.toNat < 128) :
    shortFingerprint s = Protocol.shortFingerprint s ∧
    ((Protocol.shortFingerprint s).isSome = true ↔ IsHexId (trimEnds isWhitespace s)) ∧
    (∀ f, Protocol.shortFingerprint s = some f → IsFingerprint f) ∧
    ∀ t bytes bytes', IdBytes s bytes → IdBytes t bytes' →
      (Protocol.shortFingerprint s = Protocol.shortFingerprint t ↔
        (bitsOf bytes).take 60 = (bitsOf bytes').take 60) :=
  ⟨shortFingerprint_eq h, isSome_shortFingerprint, fun _ => isFingerprint_of_some,
    fun _ _ _ => shortFingerprint_eq_iff⟩

/-- The fingerprints of the id of zeros, which has a space around it here. -/
theorem fingerprints_agree_zeros :
    shortFingerprint (' ' :: List.replicate 64 '0') =
      Protocol.shortFingerprint (' ' :: List.replicate 64 '0') :=
  (fingerprints_agree (' ' :: List.replicate 64 '0') (forall_chars (by decide))).1

example : shortFingerprint (' ' :: List.replicate 64 '0') = some "AAAA-AAAA-AAAA".toList := by
  decide +kernel

end DashBeam.Frontend
