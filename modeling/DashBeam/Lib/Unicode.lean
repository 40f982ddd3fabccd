import DashBeam.Lib.Bytes

/-!
# Strings of UTF-16 code units

A JavaScript string is any list of 16-bit units. Where it leaves JavaScript it is read as Unicode
scalar values: a high surrogate with the low surrogate after it is one value, and a surrogate on its
own is replaced by U+FFFD. `utf8` are the bytes of scalar values.
-/

namespace Lib

/-- A string of Unicode scalar values. -/
abbrev Text : Type := List Char

/-- A string of UTF-16 code units, well-formed or not. -/
abbrev JsString : Type := List UInt16

namespace JsString

def isHighSurrogate (u : UInt16) : Bool := 0xD800 ≤ u.toNat && u.toNat < 0xDC00

def isLowSurrogate (u : UInt16) : Bool := 0xDC00 ≤ u.toNat && u.toNat < 0xE000

def replacement : Char := Char.ofNat 0xFFFD

/-- The scalar values of a string, as `TextEncoder` and every conversion to UTF-8 read it. -/
def scalars : JsString → Text
  | [] => []
  | [u] =>
    if isHighSurrogate u || isLowSurrogate u then [replacement] else [Char.ofNat u.toNat]
  | u :: v :: rest =>
    if isHighSurrogate u && isLowSurrogate v then
      Char.ofNat (0x10000 + (u.toNat - 0xD800) * 0x400 + (v.toNat - 0xDC00)) :: scalars rest
    else if isHighSurrogate u || isLowSurrogate u then replacement :: scalars (v :: rest)
    else Char.ofNat u.toNat :: scalars (v :: rest)

end JsString

/-- The code units of a scalar value. -/
def utf16Char (c : Char) : JsString :=
  if c.toNat < 0x10000 then [UInt16.ofNat c.toNat]
  else [UInt16.ofNat (0xD800 + (c.toNat - 0x10000) / 0x400),
    UInt16.ofNat (0xDC00 + (c.toNat - 0x10000) % 0x400)]

/-- The string of scalar values. -/
def utf16 (text : Text) : JsString := text.flatMap utf16Char

/-- The UTF-8 bytes of scalar values. -/
def utf8 (text : Text) : Bytes := text.flatMap String.utf8EncodeChar

/-- The Unicode property `White_Space`. -/
def isWhitespace (c : Char) : Bool :=
  let n := c.toNat
  (9 ≤ n && n ≤ 13) || n == 0x20 || n == 0x85 || n == 0xA0 || n == 0x1680 ||
    (0x2000 ≤ n && n ≤ 0x200A) || n == 0x2028 || n == 0x2029 || n == 0x202F || n == 0x205F ||
    n == 0x3000

theorem utf16_cons (c : Char) (text : Text) : utf16 (c :: text) = utf16Char c ++ utf16 text :=
  List.flatMap_cons

theorem utf16_append (text rest : Text) : utf16 (text ++ rest) = utf16 text ++ utf16 rest :=
  List.flatMap_append

namespace JsString

/-- A string without lone surrogates. -/
def WellFormed (s : JsString) : Prop := ∃ text, s = utf16 text

theorem toNat_cases (c : Char) : c.toNat < 0xD800 ∨ (0xDFFF < c.toNat ∧ c.toNat < 0x110000) :=
  c.valid

theorem toNat_ofNat_unit {n : Nat} (h : n < 0x10000) : (UInt16.ofNat n).toNat = n := by
  rw [UInt16.toNat_ofNat', Nat.mod_eq_of_lt h]

theorem scalars_cons_of_not_surrogate {u : UInt16} (hhigh : isHighSurrogate u = false)
    (hlow : isLowSurrogate u = false) (rest : JsString) :
    scalars (u :: rest) = Char.ofNat u.toNat :: scalars rest := by
  cases rest with
  | nil => simp [scalars, hhigh, hlow]
  | cons v rest => simp [scalars, hhigh, hlow]

theorem scalars_utf16Char_append (c : Char) (rest : JsString) :
    scalars (utf16Char c ++ rest) = c :: scalars rest := by
  have hvalid := toNat_cases c
  rw [utf16Char]
  by_cases h : c.toNat < 0x10000
  · have hunit := toNat_ofNat_unit h
    have hhigh : isHighSurrogate (UInt16.ofNat c.toNat) = false := by
      rw [isHighSurrogate, hunit, Bool.and_eq_false_iff, decide_eq_false_iff_not,
        decide_eq_false_iff_not]
      omega
    have hlow : isLowSurrogate (UInt16.ofNat c.toNat) = false := by
      rw [isLowSurrogate, hunit, Bool.and_eq_false_iff, decide_eq_false_iff_not,
        decide_eq_false_iff_not]
      omega
    rw [if_pos h, List.singleton_append, scalars_cons_of_not_surrogate hhigh hlow, hunit,
      Char.ofNat_toNat]
  · have hhigh := toNat_ofNat_unit (n := 0xD800 + (c.toNat - 0x10000) / 0x400) (by omega)
    have hlow := toNat_ofNat_unit (n := 0xDC00 + (c.toNat - 0x10000) % 0x400) (by omega)
    have hisHigh : isHighSurrogate (UInt16.ofNat (0xD800 + (c.toNat - 0x10000) / 0x400)) = true := by
      rw [isHighSurrogate, hhigh, Bool.and_eq_true, decide_eq_true_eq, decide_eq_true_eq]
      omega
    have hisLow : isLowSurrogate (UInt16.ofNat (0xDC00 + (c.toNat - 0x10000) % 0x400)) = true := by
      rw [isLowSurrogate, hlow, Bool.and_eq_true, decide_eq_true_eq, decide_eq_true_eq]
      omega
    rw [if_neg h, List.cons_append, List.singleton_append, scalars, hisHigh, hisLow, hhigh, hlow]
    have hback : 0x10000 + (0xD800 + (c.toNat - 0x10000) / 0x400 - 0xD800) * 0x400 +
        (0xDC00 + (c.toNat - 0x10000) % 0x400 - 0xDC00) = c.toNat := by
      omega
    rw [hback, Char.ofNat_toNat]
    rfl

theorem scalars_utf16_append (text : Text) (rest : JsString) :
    scalars (utf16 text ++ rest) = text ++ scalars rest := by
  induction text with
  | nil => rfl
  | cons c text ih =>
    rw [utf16_cons, List.append_assoc, scalars_utf16Char_append, ih, List.cons_append]

/-- A well-formed string is read as the scalar values it was made of. -/
@[simp]
theorem scalars_utf16 (text : Text) : scalars (utf16 text) = text := by
  have h := scalars_utf16_append text []
  rwa [List.append_nil, scalars, List.append_nil] at h

theorem utf16_scalars {s : JsString} (h : s.WellFormed) : utf16 s.scalars = s := by
  obtain ⟨text, rfl⟩ := h
  rw [scalars_utf16]

theorem scalars_inj {s t : JsString} (hs : s.WellFormed) (ht : t.WellFormed)
    (h : s.scalars = t.scalars) : s = t := by
  rw [← utf16_scalars hs, h, utf16_scalars ht]

end JsString

theorem utf16Char_ascii {c : Char} (h : c.toNat < 128) :
    utf16Char c = [UInt16.ofNat c.toNat] := if_pos (by omega)

/-- An ASCII unit of a well-formed string is a character of it. -/
theorem utf16_split {text : Text} {c : Char} (hc : c.toNat < 128) {front back : JsString}
    (h : utf16 text = front ++ UInt16.ofNat c.toNat :: back) :
    ∃ text₁ text₂, text = text₁ ++ c :: text₂ ∧ front = utf16 text₁ ∧ back = utf16 text₂ := by
  have hunit : (UInt16.ofNat c.toNat).toNat = c.toNat :=
    JsString.toNat_ofNat_unit (by omega)
  induction text generalizing front with
  | nil => exact absurd h.symm (by simp [utf16])
  | cons x text ih =>
    have hx := JsString.toNat_cases x
    rw [utf16_cons, utf16Char] at h
    by_cases hbmp : x.toNat < 0x10000
    · rw [if_pos hbmp, List.singleton_append] at h
      cases front with
      | nil =>
        obtain ⟨hhead, htail⟩ := List.cons.inj h
        have hcx : x = c := by
          apply Char.toNat_inj.mp
          rw [← hunit, ← hhead, JsString.toNat_ofNat_unit hbmp]
        exact ⟨[], text, by rw [hcx]; rfl, rfl, htail.symm⟩
      | cons u front =>
        obtain ⟨hhead, htail⟩ := List.cons.inj h
        obtain ⟨text₁, text₂, rfl, rfl, rfl⟩ := ih htail
        refine ⟨x :: text₁, text₂, rfl, ?_, rfl⟩
        rw [utf16_cons, utf16Char, if_pos hbmp, hhead, List.singleton_append]
    · have hhigh := JsString.toNat_ofNat_unit (n := 0xD800 + (x.toNat - 0x10000) / 0x400) (by omega)
      have hlow := JsString.toNat_ofNat_unit (n := 0xDC00 + (x.toNat - 0x10000) % 0x400) (by omega)
      rw [if_neg hbmp, List.cons_append, List.singleton_append] at h
      match front with
      | [] =>
        have hhead := congrArg UInt16.toNat (List.cons.inj h).1
        rw [hhigh, hunit] at hhead
        omega
      | [u] =>
        have hhead := congrArg UInt16.toNat (List.cons.inj (List.cons.inj h).2).1
        rw [hlow, hunit] at hhead
        omega
      | u :: v :: front =>
        obtain ⟨hu, htail⟩ := List.cons.inj h
        obtain ⟨hv, htail⟩ := List.cons.inj htail
        obtain ⟨text₁, text₂, rfl, rfl, rfl⟩ := ih htail
        refine ⟨x :: text₁, text₂, rfl, ?_, rfl⟩
        rw [utf16_cons, utf16Char, if_neg hbmp, hu, hv]
        rfl

theorem mem_of_mem_utf16 {c : Char} (hc : c.toNat < 128) {text : Text}
    (h : UInt16.ofNat c.toNat ∈ utf16 text) : c ∈ text := by
  obtain ⟨front, back, hsplit⟩ := List.append_of_mem h
  obtain ⟨text₁, text₂, rfl, -⟩ := utf16_split hc hsplit
  exact List.mem_append_right _ List.mem_cons_self

/-- A well-formed string is split at an ASCII character as its scalar values are. -/
theorem splitOn_utf16 {c : Char} (hc : c.toNat < 128) (text : Text) :
    (utf16 text).splitOn (UInt16.ofNat c.toNat) = (text.splitOn c).map utf16 := by
  induction hlength : text.length using Nat.strong_induction_on generalizing text with
  | _ n ih =>
    by_cases hmem : c ∈ text
    · obtain ⟨front, back, rfl, hfront⟩ := List.eq_append_cons_of_mem hmem
      have hnot : UInt16.ofNat c.toNat ∉ utf16 front := fun h => hfront (mem_of_mem_utf16 hc h)
      have hback : back.length < n := by
        rw [← hlength, List.length_append, List.length_cons]
        omega
      rw [List.splitOn_append_cons_self_of_not_mem hfront, List.map_cons, ← ih _ hback back rfl,
        utf16_append, utf16_cons, utf16Char_ascii hc, List.singleton_append,
        List.splitOn_append_cons_self_of_not_mem hnot]
    · have hnot : UInt16.ofNat c.toNat ∉ utf16 text := fun h => hmem (mem_of_mem_utf16 hc h)
      rw [List.splitOn_eq_singleton hmem, List.splitOn_eq_singleton hnot, List.map_singleton]

/-! ## Lengths -/

theorem length_utf8_cons (c : Char) (text : Text) :
    (utf8 (c :: text)).length = c.utf8Size + (utf8 text).length := by
  rw [utf8, List.flatMap_cons, List.length_append, String.length_utf8EncodeChar]
  rfl

theorem length_le_utf8 (text : Text) : text.length ≤ (utf8 text).length := by
  induction text with
  | nil => exact Nat.le_refl 0
  | cons c text ih =>
    have hpos := c.utf8Size_pos
    rw [length_utf8_cons, List.length_cons]
    omega

theorem forall_chars {P : Char → Prop} [DecidablePred P] {text : Text}
    (h : (text.all fun c => decide (P c)) = true) : ∀ c ∈ text, P c :=
  fun c hc => of_decide_eq_true (List.all_eq_true.mp h c hc)

theorem length_utf8_ascii {text : Text} (h : ∀ c ∈ text, c.toNat < 128) :
    (utf8 text).length = text.length := by
  induction text with
  | nil => rfl
  | cons c text ih =>
    rw [List.forall_mem_cons] at h
    have hsize : c.utf8Size = 1 := by
      rw [Char.utf8Size_eq_one_iff, UInt32.le_iff_toNat_le]
      have hval : c.val.toNat < 128 := h.1
      exact Nat.le_of_lt_succ hval
    rw [length_utf8_cons, hsize, ih h.2, List.length_cons, Nat.add_comm]

theorem length_utf16_ascii {text : Text} (h : ∀ c ∈ text, c.toNat < 128) :
    (utf16 text).length = text.length := by
  induction text with
  | nil => rfl
  | cons c text ih =>
    rw [List.forall_mem_cons] at h
    rw [utf16_cons, utf16Char_ascii h.1, List.length_append, ih h.2, List.length_singleton,
      List.length_cons, Nat.add_comm]

theorem utf16_eq_nil {text : Text} : utf16 text = [] ↔ text = [] := by
  cases text with
  | nil => exact iff_of_true rfl rfl
  | cons c text =>
    refine iff_of_false ?_ (List.cons_ne_nil _ _)
    rw [utf16_cons, utf16Char]
    split <;> simp

end Lib
