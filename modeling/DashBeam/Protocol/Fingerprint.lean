import DashBeam.Lib.BaseEncoding
import DashBeam.Lib.Trim

/-!
# The fingerprint of an endpoint id

Twelve base32 characters, the first 60 bits of the key. A string has a fingerprint if it is 64 hex
digits once trimmed, and two ids have the same if their first 60 bits are the same.
-/

namespace DashBeam.Protocol

open Lib

/-! ## The code -/

/-- `chunks(4)`. -/
def chunksOfFour : Text → List Text
  | [] => []
  | [a] => [[a]]
  | [a, b] => [[a, b]]
  | [a, b, c] => [[a, b, c]]
  | a :: b :: c :: d :: rest => [a, b, c, d] :: chunksOfFour rest

/-- Chunks of four characters, joined with dashes. -/
def grouped (chars : Text) : Text := List.intercalate ['-'] (chunksOfFour chars)

def shortFingerprint (endpointIdHex : Text) : Option Text :=
  match decodeHex (trimEnds isWhitespace endpointIdHex) with
  | none => none
  | some bytes =>
    if bytes.length ≠ 32 then none
    else
      let encoded := base32 (bitsOf bytes)
      some (grouped (encoded.take 12))

/-! ## Which strings have one -/

/-- 64 hex digits in any case. -/
def IsHexId (s : Text) : Prop :=
  s.length = 64 ∧ ∀ c ∈ s, c ∈ "0123456789abcdefABCDEF".toList

/-- The 32 bytes of an id, trimmed. -/
def IdBytes (s : Text) (bytes : Bytes) : Prop :=
  decodeHex (trimEnds isWhitespace s) = some bytes ∧ bytes.length = 32

theorem isSome_hexValue (c : Char) :
    (hexValue c).isSome = true ↔ c ∈ "0123456789abcdefABCDEF".toList := by
  by_cases hc : c.toNat < 128
  · exact forall_ascii (P := fun c => (hexValue c).isSome = true ↔
      c ∈ "0123456789abcdefABCDEF".toList) (by decide +kernel) hc
  · have hsmall : ∀ d ∈ "0123456789abcdefABCDEF".toList, d.toNat < 128 :=
      forall_chars (by decide)
    refine iff_of_false ?_ fun hmem => hc (hsmall c hmem)
    rw [hexValue_of_large (by omega)]
    exact Bool.false_ne_true

theorem idBytes_of_isHexId {s : Text} (h : IsHexId (trimEnds isWhitespace s)) :
    IdBytes s ((List.range 32).map (hexByte (trimEnds isWhitespace s))) := by
  refine ⟨decodeHex_of_digits 32 h.1 fun c hc => (isSome_hexValue c).mpr (h.2 c hc), ?_⟩
  rw [List.length_map, List.length_range]

theorem isHexId_iff {s : Text} :
    IsHexId (trimEnds isWhitespace s) ↔ ∃ bytes, IdBytes s bytes := by
  constructor
  · exact fun h => ⟨_, idBytes_of_isHexId h⟩
  · rintro ⟨bytes, hdecode, hlength⟩
    obtain ⟨hdouble, hdigits⟩ := decodeHex_eq_some hdecode
    exact ⟨by omega, fun c hc => (isSome_hexValue c).mp (hdigits c hc)⟩

theorem shortFingerprint_of_idBytes {s : Text} {bytes : Bytes} (h : IdBytes s bytes) :
    shortFingerprint s = some (grouped ((base32 (bitsOf bytes)).take 12)) := by
  rw [shortFingerprint, h.1]
  exact if_neg (not_not.mpr h.2)

theorem shortFingerprint_eq_some {s f : Text} (h : shortFingerprint s = some f) :
    ∃ bytes, IdBytes s bytes ∧ f = grouped ((base32 (bitsOf bytes)).take 12) := by
  rw [shortFingerprint] at h
  split at h
  · cases h
  · rename_i bytes hdecode
    split at h
    · cases h
    · rename_i hlength
      exact ⟨bytes, ⟨hdecode, not_not.mp hlength⟩, (Option.some.inj h).symm⟩

theorem isSome_shortFingerprint {s : Text} :
    (shortFingerprint s).isSome = true ↔ IsHexId (trimEnds isWhitespace s) := by
  rw [isHexId_iff, Option.isSome_iff_exists]
  constructor
  · rintro ⟨f, hf⟩
    obtain ⟨bytes, hbytes, -⟩ := shortFingerprint_eq_some hf
    exact ⟨bytes, hbytes⟩
  · rintro ⟨bytes, hbytes⟩
    exact ⟨_, shortFingerprint_of_idBytes hbytes⟩

/-! ## What a fingerprint is -/

/-- Three groups of four base32 characters. -/
def IsFingerprint (f : Text) : Prop :=
  ∃ a b c : Text, f = a ++ '-' :: b ++ '-' :: c ∧
    (a.length = 4 ∧ b.length = 4 ∧ c.length = 4) ∧ ∀ x ∈ a ++ b ++ c, x ∈ base32Alphabet

theorem grouped_twelve {chars : Text} (h : chars.length = 12) :
    grouped chars = chars.take 4 ++ '-' :: (chars.drop 4).take 4 ++ '-' :: chars.drop 8 := by
  match chars, h with
  | [_, _, _, _, _, _, _, _, _, _, _, _], _ => rfl

theorem grouped_inj {chars chars' : Text} (h : chars.length = 12) (h' : chars'.length = 12)
    (heq : grouped chars = grouped chars') : chars = chars' := by
  match chars, h, chars', h' with
  | [_, _, _, _, _, _, _, _, _, _, _, _], _, [_, _, _, _, _, _, _, _, _, _, _, _], _ =>
    simpa [grouped, chunksOfFour, List.intercalate] using heq

theorem take_fingerprint {bytes : Bytes} (h : bytes.length = 32) :
    (base32 (bitsOf bytes)).take 12 = base32 ((bitsOf bytes).take 60) ∧
      (base32 ((bitsOf bytes).take 60)).length = 12 ∧
      ∀ c ∈ base32 ((bitsOf bytes).take 60), c ∈ base32Alphabet :=
  take_base32 12 (by rw [length_bitsOf, h]; decide)

theorem isFingerprint_of_some {s f : Text} (h : shortFingerprint s = some f) : IsFingerprint f := by
  obtain ⟨bytes, ⟨-, hlength⟩, rfl⟩ := shortFingerprint_eq_some h
  obtain ⟨htake, htwelve, hmem⟩ := take_fingerprint hlength
  rw [htake, grouped_twelve htwelve]
  generalize base32 ((bitsOf bytes).take 60) = chars at htwelve hmem
  refine ⟨_, _, _, rfl, ⟨?_, ?_, ?_⟩, ?_⟩
  · rw [List.length_take, htwelve]
    rfl
  · rw [List.length_take, List.length_drop, htwelve]
    rfl
  · rw [List.length_drop, htwelve]
  · intro x hx
    rw [List.mem_append, List.mem_append] at hx
    refine hmem x ?_
    rcases hx with (hx | hx) | hx
    · exact List.mem_of_mem_take hx
    · exact List.mem_of_mem_drop (List.mem_of_mem_take hx)
    · exact List.mem_of_mem_drop hx

theorem shortFingerprint_eq_iff {s t : Text} {bytes bytes' : Bytes} (h : IdBytes s bytes)
    (h' : IdBytes t bytes') : shortFingerprint s = shortFingerprint t ↔
      (bitsOf bytes).take 60 = (bitsOf bytes').take 60 := by
  obtain ⟨htake, htwelve, -⟩ := take_fingerprint h.2
  obtain ⟨htake', htwelve', -⟩ := take_fingerprint h'.2
  have hsixty : ∀ b : Bytes, b.length = 32 → ((bitsOf b).take 60).length = 5 * 12 := by
    intro b hb
    rw [List.length_take, length_bitsOf, hb]
    rfl
  rw [shortFingerprint_of_idBytes h, shortFingerprint_of_idBytes h', htake, htake', Option.some.injEq]
  constructor
  · intro heq
    exact base32_inj 12 (hsixty bytes h.2) (hsixty bytes' h'.2) (grouped_inj htwelve htwelve' heq)
  · intro heq
    rw [heq]

end DashBeam.Protocol
