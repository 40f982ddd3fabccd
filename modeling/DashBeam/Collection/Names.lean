import DashBeam.Lib.Map
import DashBeam.Lib.Numbering
import DashBeam.Lib.Unicode

/-!
# De-duplication of names

Names repeated in a share get a number. The engine's rule is written three times, in the native
import, in the browser import and in the desktop preview: the second `x` becomes `x (2)`. The web
preview numbers from 1 and puts the number before the extension. All of them fold over the names with
a map of counts, so the fold is one definition here and its result a list of labelled occurrences.
-/

namespace DashBeam.Collection

open Lib

/-- The letter of a string type that stands for an ASCII character. -/
structure Alphabet (α : Type) where
  letter : Char → α
  inj : ∀ {c d : Char}, c.toNat < 128 → d.toNat < 128 → letter c = letter d → c = d

namespace Alphabet

def rust : Alphabet Char := ⟨id, fun _ _ h => h⟩

theorem utf16_inj {c d : Char} (hc : c.toNat < 128) (hd : d.toNat < 128)
    (h : UInt16.ofNat c.toNat = UInt16.ofNat d.toNat) : c = d := by
  have hnat := congrArg UInt16.toNat h
  rw [UInt16.toNat_ofNat', UInt16.toNat_ofNat', Nat.mod_eq_of_lt (by omega),
    Nat.mod_eq_of_lt (by omega)] at hnat
  exact Char.toNat_inj.mp hnat

def js : Alphabet UInt16 := ⟨fun c => UInt16.ofNat c.toNat, utf16_inj⟩

variable {α : Type} (A : Alphabet α)

/-- An ASCII string in the letters of the alphabet. -/
def text (s : String) : List α := s.toList.map A.letter

/-- The decimal digits of a number. -/
def digits (k : Nat) : List α := (Nat.toDigits 10 k).map A.letter

theorem toNat_lt_of_isDigit {c : Char} (h : c.isDigit) : c.toNat < 58 := by
  simp only [Char.isDigit, Bool.and_eq_true, decide_eq_true_eq] at h
  exact Nat.lt_succ_of_le h.2

theorem letter_notMem_digits {c : Char} (hc : c.toNat < 128) (hdigit : ¬ c.isDigit) (k : Nat) :
    A.letter c ∉ A.digits k := by
  intro hmem
  obtain ⟨d, hd, heq⟩ := List.mem_map.mp hmem
  have hisDigit := Nat.isDigit_of_mem_toDigits (by decide) (by decide) hd
  have hlt := toNat_lt_of_isDigit hisDigit
  exact hdigit (A.inj (by omega) hc heq ▸ hisDigit)

theorem digits_inj {j k : Nat} (h : A.digits j = A.digits k) : j = k := by
  have hascii : ∀ {n : Nat}, ∀ c ∈ Nat.toDigits 10 n, c.toNat < 128 := by
    intro n c hc
    have hlt := toNat_lt_of_isDigit (Nat.isDigit_of_mem_toDigits (by decide) (by decide) hc)
    omega
  have hmap : ∀ {l l' : List Char}, (∀ c ∈ l, c.toNat < 128) → (∀ c ∈ l', c.toNat < 128) →
      l.map A.letter = l'.map A.letter → l = l' := by
    intro l
    induction l with
    | nil =>
      intro l' _ _ heq
      exact (List.map_eq_nil_iff.mp heq.symm).symm
    | cons c l ih =>
      intro l' hl hl' heq
      cases l' with
      | nil => cases heq
      | cons d l' =>
        obtain ⟨hhead, htail⟩ := List.cons.inj heq
        rw [A.inj (hl c List.mem_cons_self) (hl' d List.mem_cons_self) hhead,
          ih (fun c hc => hl c (List.mem_cons_of_mem _ hc))
            (fun c hc => hl' c (List.mem_cons_of_mem _ hc)) htail]
  have hdigits := hmap hascii hascii h
  rw [← Nat.ofDigitChars_ten_toDigits (n := j), hdigits, Nat.ofDigitChars_ten_toDigits]

/-- `format!("{} ({})", name, count)`. -/
def suffixed (name : List α) (count : Nat) : List α :=
  name ++ A.text " (" ++ A.digits count ++ A.text ")"

theorem suffixed_eq (name : List α) (count : Nat) :
    A.suffixed name count =
      (name ++ [A.letter ' ']) ++ A.letter '(' :: (A.digits count ++ [A.letter ')']) := by
  simp [suffixed, text]

theorem open_notMem (count : Nat) : A.letter '(' ∉ A.digits count ++ [A.letter ')'] := by
  rw [List.mem_append, List.mem_singleton]
  rintro (hmem | heq)
  · exact A.letter_notMem_digits (by decide) (by decide) count hmem
  · exact absurd (A.inj (by decide) (by decide) heq) (by decide)

/-- The name and the number can be read off a numbered name: they stand before and after its last
parenthesis. -/
theorem suffixed_inj {n m : List α} {j k : Nat} (h : A.suffixed n j = A.suffixed m k) :
    n = m ∧ j = k := by
  rw [suffixed_eq, suffixed_eq] at h
  obtain ⟨hname, hcount⟩ := append_cons_inj_last (A.open_notMem j) (A.open_notMem k) h
  exact ⟨(List.append_left_inj _).mp hname, A.digits_inj ((List.append_left_inj _).mp hcount)⟩

theorem letter_mem_suffixed {c : Char} (hc : c.toNat < 128) (hdigit : ¬ c.isDigit)
    (hother : c ≠ ' ' ∧ c ≠ '(' ∧ c ≠ ')') {name : List α} {count : Nat} :
    A.letter c ∈ A.suffixed name count ↔ A.letter c ∈ name := by
  have hne : ∀ d : Char, d.toNat < 128 → c ≠ d → ¬ A.letter c = A.letter d :=
    fun d hd hcd heq => hcd (A.inj hc hd heq)
  rw [suffixed_eq]
  simp only [List.mem_append, List.mem_cons, List.not_mem_nil, or_false,
    hne ' ' (by decide) hother.1, hne '(' (by decide) hother.2.1, hne ')' (by decide) hother.2.2,
    A.letter_notMem_digits hc hdigit count]

end Alphabet

/-! ## The fold -/

section Fold

variable {ν : Type} [DecidableEq ν]

/-- The names a loop gives to a list, the map of counts threaded through, and the map after it. -/
def dedupAll (dedup : ν → Map ν Nat → ν × Map ν Nat) (seen : Map ν Nat) :
    List ν → List ν × Map ν Nat
  | [] => ([], seen)
  | name :: names =>
    let (final, seen) := dedup name seen
    let (finals, seen) := dedupAll dedup seen names
    (final :: finals, seen)

/-- `name_seen` is empty at first. -/
def dedupNames (dedup : ν → Map ν Nat → ν × Map ν Nat) (names : List ν) : List ν :=
  (dedupAll dedup ∅ names).1

omit [DecidableEq ν] in
theorem dedupAll_append (dedup : ν → Map ν Nat → ν × Map ν Nat) (seen : Map ν Nat)
    (names rest : List ν) :
    dedupAll dedup seen (names ++ rest) =
      ((dedupAll dedup seen names).1 ++ (dedupAll dedup (dedupAll dedup seen names).2 rest).1,
        (dedupAll dedup (dedupAll dedup seen names).2 rest).2) := by
  induction names generalizing seen with
  | nil => rfl
  | cons name names ih => simp only [List.cons_append, dedupAll, ih]

/-- The number stored for a name: none before its first occurrence. -/
def count (seen : Map ν Nat) (name : ν) : Nat := (seen.lookup name).getD 0

theorem count_insert (seen : Map ν Nat) (name : ν) (k : Nat) :
    count (seen.insert name k) = Function.update (count seen) name k := by
  funext other
  by_cases h : other = name
  · subst h
    rw [Function.update_self, count, AList.lookup_insert]
    rfl
  · rw [Function.update_of_ne h, count, AList.lookup_insert_ne h]
    rfl

/-- A rule that answers by the number of earlier occurrences, on the maps its loop can build. -/
structure Counts (dedup : ν → Map ν Nat → ν × Map ν Nat) (label : ν → Nat → ν)
    (built : Map ν Nat → Prop) : Prop where
  empty : built ∅
  name : ∀ {name seen}, built seen → (dedup name seen).1 = label name (count seen name)
  seen : ∀ name seen, (dedup name seen).2 = seen.insert name (count seen name + 1)
  step : ∀ name {seen}, built seen → built (seen.insert name (count seen name + 1))

theorem Counts.dedupAll_eq {dedup : ν → Map ν Nat → ν × Map ν Nat} {label : ν → Nat → ν}
    {built : Map ν Nat → Prop} (C : Counts dedup label built) {seen : Map ν Nat}
    (h : built seen) (names : List ν) :
    (dedupAll dedup seen names).1 =
      (occurrencesFrom (count seen) names).map fun e => label e.1 e.2 := by
  induction names generalizing seen with
  | nil => rfl
  | cons name names ih =>
    have hstep := ih (C.step name h)
    rw [occurrencesFrom, List.map_cons, ← C.name h, ← count_insert, ← hstep, ← C.seen]
    rfl

theorem Counts.dedupNames_eq {dedup : ν → Map ν Nat → ν × Map ν Nat} {label : ν → Nat → ν}
    {built : Map ν Nat → Prop} (C : Counts dedup label built) (names : List ν) :
    dedupNames dedup names = numbered label names := by
  have hcount : count (∅ : Map ν Nat) = fun _ => 0 := rfl
  rw [dedupNames, C.dedupAll_eq C.empty, hcount]
  rfl

end Fold

/-! ## The engine's rule -/

/-- The body of `dedup_name`, which the three copies share. -/
def dedupNameBody (name : Text) (seen : Map Text Nat) : Text × Map Text Nat :=
  match seen.lookup name with
  | some count => (Alphabet.rust.suffixed name (count + 1), seen.insert name (count + 1))
  | none => (name, seen.insert name 1)

/-- `dedup_name` of the native import. -/
def Native.dedupName : Text → Map Text Nat → Text × Map Text Nat := dedupNameBody

/-- `dedup_name` of the browser import. -/
def WasmIo.dedupName : Text → Map Text Nat → Text × Map Text Nat := dedupNameBody

/-- `dedup_name` of the desktop preview. -/
def Commands.dedupName : Text → Map Text Nat → Text × Map Text Nat := dedupNameBody

/-- What the `k`-th repetition of a name is called. -/
def engineLabel (name : Text) (k : Nat) : Text :=
  if k = 0 then name else Alphabet.rust.suffixed name (k + 1)

theorem engineLabel_labels : Labels engineLabel where
  first _ := rfl
  repeated := by
    intro n m j k hj hk h
    rw [engineLabel, engineLabel, if_neg (by omega), if_neg (by omega)] at h
    obtain ⟨hname, hcount⟩ := Alphabet.rust.suffixed_inj h
    exact ⟨hname, Nat.succ_inj.mp hcount⟩

/-- The maps of the engine hold no zero: a name is entered with its first occurrence. -/
def Positive (seen : Map Text Nat) : Prop := ∀ name k, seen.lookup name = some k → 0 < k

theorem dedupNameBody_counts : Counts dedupNameBody engineLabel Positive where
  empty := by
    intro name k h
    cases h
  name := by
    intro name seen h
    rw [dedupNameBody, count]
    cases hlookup : seen.lookup name with
    | none => rfl
    | some k =>
      have hpos := h name k hlookup
      rw [Option.getD_some, engineLabel, if_neg (by omega)]
  seen := by
    intro name seen
    rw [dedupNameBody, count]
    cases seen.lookup name <;> rfl
  step := by
    intro name seen h other k hlookup
    by_cases hname : other = name
    · subst hname
      rw [AList.lookup_insert] at hlookup
      have heq := Option.some.inj hlookup
      omega
    · rw [AList.lookup_insert_ne hname] at hlookup
      exact h other k hlookup

theorem dedupNames_engine (names : List Text) :
    dedupNames dedupNameBody names = numbered engineLabel names :=
  dedupNameBody_counts.dedupNames_eq names

/-- The engine's fold gives distinct names exactly when no name of the list is `x (k)` for a name `x`
that occurs `k` times or more. -/
theorem nodup_dedupNames_engine (names : List Text) :
    (dedupNames dedupNameBody names).Nodup ↔
      ∀ name k, 2 ≤ k → k ≤ names.count name → Alphabet.rust.suffixed name k ∉ names := by
  rw [dedupNames_engine, nodup_numbered_iff engineLabel_labels]
  constructor
  · intro h name k hk hcount
    have hlabel := h name (k - 1) (by omega) (by omega)
    rw [engineLabel, if_neg (by omega), show k - 1 + 1 = k by omega] at hlabel
    exact hlabel
  · intro h name k hk hcount
    rw [engineLabel, if_neg (by omega)]
    exact h name (k + 1) (by omega) (by omega)

/-! ## The web preview's rule -/

/-- `String.prototype.lastIndexOf` for one letter, `none` for -1. -/
def lastIndexOf {α : Type} [DecidableEq α] (c : α) (s : List α) : Option Nat :=
  (s.reverse.idxOf? c).map fun i => s.length - 1 - i

/-- A repeated name with its number, before the extension if there is one after a first letter. -/
def webSuffixed (name : JsString) (count : Nat) : JsString :=
  match lastIndexOf (Alphabet.js.letter '.') name with
  | some dot =>
    if dot > 0 then Alphabet.js.suffixed (name.take dot) count ++ name.drop dot
    else Alphabet.js.suffixed name count
  | none => Alphabet.js.suffixed name count

/-- `dedupName` of the web preview. -/
def Web.dedupName (name : JsString) (seen : Map JsString Nat) : JsString × Map JsString Nat :=
  let count := (seen.lookup name).getD 0
  (if count = 0 then name else webSuffixed name count, seen.insert name (count + 1))

/-- What the web preview calls the `k`-th repetition of a name. -/
def webLabel (name : JsString) (k : Nat) : JsString :=
  if k = 0 then name else webSuffixed name k

theorem dedupName_web_counts : Counts Web.dedupName webLabel fun _ => True where
  empty := trivial
  name _ := rfl
  seen _ _ := rfl
  step _ _ _ := trivial

theorem lastIndexOf_eq_none {α : Type} [DecidableEq α] {c : α} {s : List α} :
    lastIndexOf c s = none ↔ c ∉ s := by
  rw [lastIndexOf, Option.map_eq_none_iff, List.idxOf?_eq_none_iff, List.mem_reverse]

theorem lastIndexOf_eq_some {α : Type} [DecidableEq α] {c : α} {s : List α} {i : Nat}
    (h : lastIndexOf c s = some i) :
    ∃ front back, s = front ++ c :: back ∧ c ∉ back ∧ front.length = i := by
  obtain ⟨j, hj, rfl⟩ := Option.map_eq_some_iff.mp h
  obtain ⟨hlt, hget, hbefore⟩ := List.idxOf?_eq_some_iff.mp hj
  have hsplit : s.reverse = s.reverse.take j ++ c :: s.reverse.drop (j + 1) := by
    rw [← hget, List.getElem_cons_drop, List.take_append_drop]
  refine ⟨(s.reverse.drop (j + 1)).reverse, (s.reverse.take j).reverse, ?_, ?_, ?_⟩
  · have hs := congrArg List.reverse hsplit
    simpa using hs
  · rw [List.mem_reverse]
    intro hmem
    obtain ⟨k, hk, hkeq⟩ := List.getElem_of_mem hmem
    rw [List.getElem_take] at hkeq
    exact hbefore k (by rw [List.length_take] at hk; omega) hkeq
  · rw [List.length_reverse, List.length_drop, List.length_reverse]
    omega

/-- Where the number goes: before the last dot if something stands before it, else at the end. -/
theorem webSuffixed_cases (name : JsString) (count : Nat) :
    (∃ stem ext, stem ≠ [] ∧ Alphabet.js.letter '.' ∉ ext ∧
      name = stem ++ Alphabet.js.letter '.' :: ext ∧
      webSuffixed name count =
        Alphabet.js.suffixed stem count ++ Alphabet.js.letter '.' :: ext) ∨
    (Alphabet.js.letter '.' ∉ name.tail ∧
      webSuffixed name count = Alphabet.js.suffixed name count) := by
  rw [webSuffixed]
  cases hdot : lastIndexOf (Alphabet.js.letter '.') name with
  | none =>
    refine Or.inr ⟨?_, rfl⟩
    intro hmem
    exact lastIndexOf_eq_none.mp hdot (List.mem_of_mem_tail hmem)
  | some dot =>
    obtain ⟨stem, ext, hname, hext, hlength⟩ := lastIndexOf_eq_some hdot
    subst hlength
    cases stem with
    | nil =>
      refine Or.inr ⟨?_, rfl⟩
      rw [hname]
      exact hext
    | cons a stem =>
      refine Or.inl ⟨a :: stem, ext, List.cons_ne_nil _ _, hext, hname, ?_⟩
      have hpos : (a :: stem).length > 0 := Nat.succ_pos _
      simp only [if_pos hpos, hname, List.take_left, List.drop_left]

theorem dot_notMem_tail_suffixed {name : JsString} {count : Nat}
    (h : Alphabet.js.letter '.' ∉ name.tail) :
    Alphabet.js.letter '.' ∉ (Alphabet.js.suffixed name count).tail := by
  have hname : ∀ name : JsString, Alphabet.js.letter '.' ∉ name →
      Alphabet.js.letter '.' ∉ Alphabet.js.suffixed name count := by
    intro name hnot hmem
    exact hnot ((Alphabet.js.letter_mem_suffixed (by decide) (by decide) (by decide)).mp hmem)
  cases name with
  | nil =>
    intro hmem
    exact hname [] List.not_mem_nil (List.mem_of_mem_tail hmem)
  | cons a name => exact hname name h

theorem webSuffixed_inj {n m : JsString} {j k : Nat} (h : webSuffixed n j = webSuffixed m k) :
    n = m ∧ j = k := by
  -- the two shapes differ in whether a dot stands after the first letter
  have hshape : ∀ {stem ext name : JsString} {j k : Nat}, stem ≠ [] →
      Alphabet.js.letter '.' ∉ name.tail →
      Alphabet.js.suffixed stem j ++ Alphabet.js.letter '.' :: ext ≠
        Alphabet.js.suffixed name k := by
    intro stem ext name j k hstem htail heq
    refine dot_notMem_tail_suffixed htail (?_ : _ ∈ (Alphabet.js.suffixed name k).tail)
    rw [← heq]
    cases stem with
    | nil => exact absurd rfl hstem
    | cons a stem => exact List.mem_append_right _ List.mem_cons_self
  rcases webSuffixed_cases n j with ⟨stem, ext, hstem, hext, rfl, hn⟩ | ⟨htail, hn⟩
  · rcases webSuffixed_cases m k with ⟨stem', ext', hstem', hext', rfl, hm⟩ | ⟨htail', hm⟩
    · rw [hn, hm] at h
      obtain ⟨hfront, rfl⟩ := append_cons_inj_last hext hext' h
      obtain ⟨rfl, rfl⟩ := Alphabet.js.suffixed_inj hfront
      exact ⟨rfl, rfl⟩
    · rw [hn, hm] at h
      exact absurd h (hshape hstem htail')
  · rcases webSuffixed_cases m k with ⟨stem', ext', hstem', hext', rfl, hm⟩ | ⟨htail', hm⟩
    · rw [hn, hm] at h
      exact absurd h.symm (hshape hstem' htail)
    · rw [hn, hm] at h
      exact Alphabet.js.suffixed_inj h

theorem webLabel_labels : Labels webLabel where
  first _ := rfl
  repeated := by
    intro n m j k hj hk h
    rw [webLabel, webLabel, if_neg (by omega), if_neg (by omega)] at h
    exact webSuffixed_inj h

/-- The web preview's fold gives distinct names exactly when no name of the list is what a
repetition of another is called. -/
theorem nodup_dedupNames_web (names : List JsString) :
    (dedupNames Web.dedupName names).Nodup ↔
      ∀ name k, 1 ≤ k → k < names.count name → webSuffixed name k ∉ names := by
  rw [dedupName_web_counts.dedupNames_eq, nodup_numbered_iff webLabel_labels]
  refine forall₄_congr fun name k hk hcount => ?_
  rw [webLabel, if_neg (by omega)]

/-- The four folds give a list as long as theirs, and one without repetitions exactly when no name of
the list is the numbered form of a name that occurs often enough to get that number. -/
theorem dedup_name_injective_iff (names : List Text) (webNames : List JsString) :
    (((dedupNames Native.dedupName names).length = names.length ∧
        (dedupNames Native.dedupName names).Nodup) ↔
      ∀ name k, 2 ≤ k → k ≤ names.count name → Alphabet.rust.suffixed name k ∉ names) ∧
    (((dedupNames WasmIo.dedupName names).length = names.length ∧
        (dedupNames WasmIo.dedupName names).Nodup) ↔
      ∀ name k, 2 ≤ k → k ≤ names.count name → Alphabet.rust.suffixed name k ∉ names) ∧
    (((dedupNames Commands.dedupName names).length = names.length ∧
        (dedupNames Commands.dedupName names).Nodup) ↔
      ∀ name k, 2 ≤ k → k ≤ names.count name → Alphabet.rust.suffixed name k ∉ names) ∧
    (((dedupNames Web.dedupName webNames).length = webNames.length ∧
        (dedupNames Web.dedupName webNames).Nodup) ↔
      ∀ name k, 1 ≤ k → k < webNames.count name → webSuffixed name k ∉ webNames) := by
  have hengine : (dedupNames dedupNameBody names).length = names.length := by
    rw [dedupNames_engine, length_numbered]
  have hweb : (dedupNames Web.dedupName webNames).length = webNames.length := by
    rw [dedupName_web_counts.dedupNames_eq, length_numbered]
  have hcopy : ((dedupNames dedupNameBody names).length = names.length ∧
        (dedupNames dedupNameBody names).Nodup) ↔
      ∀ name k, 2 ≤ k → k ≤ names.count name → Alphabet.rust.suffixed name k ∉ names := by
    rw [and_iff_right hengine]
    exact nodup_dedupNames_engine names
  refine ⟨hcopy, hcopy, hcopy, ?_⟩
  rw [and_iff_right hweb]
  exact nodup_dedupNames_web webNames

/-- Two files `a` and a file `a (2)`; on the web, two files `a` and a file `a (1)`. -/
theorem dedup_name_not_injective :
    ¬ (∀ names : List Text, (dedupNames Native.dedupName names).Nodup) ∧
    ¬ (∀ names : List Text, (dedupNames WasmIo.dedupName names).Nodup) ∧
    ¬ (∀ names : List Text, (dedupNames Commands.dedupName names).Nodup) ∧
    ¬ (∀ names : List JsString, (dedupNames Web.dedupName names).Nodup) := by
  have hrust : ¬ (dedupNames dedupNameBody
      [['a'], ['a'], ['a', ' ', '(', '2', ')']]).Nodup := by decide +kernel
  have hweb : ¬ (dedupNames Web.dedupName
      [Alphabet.js.text "a", Alphabet.js.text "a", Alphabet.js.text "a (1)"]).Nodup := by
    decide +kernel
  exact ⟨fun h => hrust (h _), fun h => hrust (h _), fun h => hrust (h _), fun h => hweb (h _)⟩

end DashBeam.Collection
