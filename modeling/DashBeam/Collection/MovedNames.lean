import DashBeam.Collection.ExportDirectory
import DashBeam.Lib.Trim

/-!
# Names that entries are moved to

`resolve_conflict_path` numbers a name before the extension of its last part, if it has one, and at
its end otherwise (`movedName_cases`). Among sorted names this makes a difference: a name numbered at
its end comes after the name, one numbered before its extension comes before it.
-/

namespace DashBeam.Collection

open Lib

/-! ## Folders of names -/

theorem splitOn_inj {name other : Text} (h : name.splitOn '/' = other.splitOn '/') :
    name = other := by
  have hjoin := congrArg (List.intercalate ['/']) h
  rwa [List.intercalate_splitOn, List.intercalate_splitOn] at hjoin

theorem splitOn_prefix_iff {name other : Text} :
    name.splitOn '/' <+: other.splitOn '/' ↔ name = other ∨ name ++ ['/'] <+: other := by
  constructor
  · rintro ⟨rest, hrest⟩
    cases rest with
    | nil =>
      rw [List.append_nil] at hrest
      exact Or.inl (splitOn_inj hrest)
    | cons part parts =>
      have hclean : ∀ piece ∈ part :: parts, '/' ∉ piece := by
        intro piece hpiece
        have hmem : piece ∈ other.splitOn '/' := by
          rw [← hrest]
          exact List.mem_append_right _ hpiece
        exact notMem_of_mem_splitOn hmem
      refine Or.inr ⟨List.intercalate ['/'] (part :: parts), splitOn_inj ?_⟩
      rw [List.append_assoc, List.singleton_append, List.splitOn_append_cons_self,
        List.splitOn_intercalate '/' hclean (List.cons_ne_nil _ _), hrest]
  · rintro (rfl | ⟨rest, rfl⟩)
    · exact List.prefix_refl _
    · rw [List.append_assoc, List.singleton_append, List.splitOn_append_cons_self]
      exact List.prefix_append _ _

theorem desiredPath_prefix_iff {outputDir : PathBuf} {name other : Text} :
    desiredPath outputDir name <+: desiredPath outputDir other ↔
      name = other ∨ name ++ ['/'] <+: other := by
  rw [desiredPath, desiredPath, List.prefix_append_right_inj, List.prefix_map_iff_of_injective,
    splitOn_prefix_iff]
  intro part part' h
  exact OsStr.text.inj (Component.normal.inj h)

theorem desiredPath_inj {outputDir : PathBuf} {name other : Text}
    (h : desiredPath outputDir name = desiredPath outputDir other) : name = other := by
  rw [desiredPath, desiredPath, List.append_cancel_left_eq] at h
  refine splitOn_inj (List.map_injective_iff.mpr ?_ h)
  intro part part' heq
  exact OsStr.text.inj (Component.normal.inj heq)

/-! ## The moved name -/

def lastPart (name : Text) : Text := (name.splitOn '/').getLast (List.splitOn_ne_nil _ _)

/-- The candidate's name at an index, with its folders. -/
def movedName (name : Text) (index : Nat) : Text :=
  List.intercalate ['/'] ((name.splitOn '/').dropLast ++
    [candidateName (lastPart name) ((fileStem (lastPart name)).getD (lastPart name))
      (extension (lastPart name)) index])

/-- Whether the last part of a name has an extension. -/
def HasExtension (name : Text) : Prop := (extension (lastPart name)).isSome = true

instance (name : Text) : Decidable (HasExtension name) := inferInstanceAs (Decidable (_ = true))

theorem splitOn_eq_lastPart (name : Text) :
    name.splitOn '/' = (name.splitOn '/').dropLast ++ [lastPart name] :=
  (List.dropLast_append_getLast _).symm

theorem eq_intercalate_lastPart (name : Text) :
    name = List.intercalate ['/'] ((name.splitOn '/').dropLast ++ [lastPart name]) := by
  rw [← splitOn_eq_lastPart, List.intercalate_splitOn]

theorem folder_iff {folder name : Text} :
    folder ++ ['/'] <+: name ↔ folder.splitOn '/' <+: (name.splitOn '/').dropLast := by
  rw [← strictlyBelow_iff (List.splitOn_ne_nil '/' name), StrictlyBelow, splitOn_prefix_iff]
  constructor
  · intro hpre
    refine ⟨Or.inr hpre, fun heq => ?_⟩
    have hlength := hpre.length_le
    rw [splitOn_inj heq, List.length_append, List.length_singleton] at hlength
    omega
  · rintro ⟨rfl | hpre, hne⟩
    · exact absurd rfl hne
    · exact hpre

/-! ## Extensions -/

/-- A name has no dot after its first letter, or is cut at its last dot. -/
theorem extension_cases {name : Text} (hne : name ≠ ['.', '.']) :
    (extension name = none ∧ '.' ∉ name.tail) ∨
    ∃ stem ext, stem ≠ [] ∧ '.' ∉ ext ∧ name = stem ++ '.' :: ext ∧
      fileStem name = some stem ∧ extension name = some ext := by
  have hsplit : name = (name.reverse.dropWhile (· ≠ '.')).reverse ++
      (name.reverse.takeWhile (· ≠ '.')).reverse := by
    rw [← List.reverse_append, List.takeWhile_append_dropWhile, List.reverse_reverse]
  have hafter : '.' ∉ (name.reverse.takeWhile (· ≠ '.')).reverse := by
    intro hmem
    have hdot := List.mem_takeWhile_imp (List.mem_reverse.mp hmem)
    exact absurd hdot (by decide)
  have hhead : ∀ c before, name.reverse.dropWhile (· ≠ '.') = c :: before → c = '.' := by
    intro c before hdrop
    have hnot := List.head?_dropWhile_not (fun c : Char => decide (c ≠ '.')) name.reverse
    rw [hdrop] at hnot
    simpa using hnot
  rw [fileStem, extension, rsplitFileAtDot, if_neg hne]
  dsimp only
  generalize name.reverse.dropWhile (· ≠ '.') = back at hsplit hhead
  generalize (name.reverse.takeWhile (· ≠ '.')).reverse = after at hsplit hafter
  cases back with
  | nil =>
    refine Or.inl ⟨rfl, fun hmem => hafter ?_⟩
    rw [List.reverse_nil, List.nil_append] at hsplit
    rw [← hsplit]
    exact List.mem_of_mem_tail hmem
  | cons c before =>
    obtain rfl := hhead c before rfl
    rw [List.reverse_cons, List.append_assoc, List.singleton_append] at hsplit
    dsimp only
    by_cases hbefore : before = []
    · rw [if_pos hbefore]
      refine Or.inl ⟨rfl, ?_⟩
      rw [hsplit, hbefore]
      exact hafter
    · rw [if_neg hbefore]
      exact Or.inr ⟨before.reverse, after, by simpa using hbefore, hafter, hsplit, rfl, rfl⟩

theorem extension_isSome_iff {name : Text} (hne : name ≠ ['.', '.']) :
    (extension name).isSome = true ↔ '.' ∈ name.tail := by
  rcases extension_cases hne with ⟨hnone, hdot⟩ | ⟨stem, ext, hstem, -, hname, -, hsome⟩
  · rw [hnone]
    simpa using hdot
  · rw [hsome, hname]
    cases stem with
    | nil => exact absurd rfl hstem
    | cons c stem => simp

/-! ## The shapes of a moved name -/

theorem Accepted.lastPart {name : Text} (h : Accepted name) : ValidComponent (lastPart name) :=
  h _ (List.getLast_mem _)

/-- A name is numbered at its end if it has no extension, else before its last dot, which is in its
last part and not the first letter of it. -/
theorem movedName_cases {name : Text} (h : Accepted name) :
    (¬ HasExtension name ∧ ∀ index, movedName name index = Alphabet.rust.suffixed name index) ∨
    (HasExtension name ∧ ∃ stem ext, name = stem ++ '.' :: ext ∧ '.' ∉ ext ∧ '/' ∉ ext ∧
      ∀ index, movedName name index = Alphabet.rust.suffixed stem index ++ '.' :: ext) := by
  have hvalid := h.lastPart
  have hname := eq_intercalate_lastPart name
  rcases extension_cases hvalid.notDotDot with ⟨hnone, -⟩ | ⟨stem, ext, -, hdot, hlast, hstem, hsome⟩
  · refine Or.inl ⟨by rw [HasExtension, hnone]; exact Bool.false_ne_true, fun index => ?_⟩
    rw [movedName, hnone]
    conv_rhs => rw [hname]
    rw [rust_suffixed, intercalate_append_last]
    simp [candidateName]
  · refine Or.inr ⟨by rw [HasExtension, hsome]; rfl,
      List.intercalate ['/'] ((name.splitOn '/').dropLast ++ [stem]), ext, ?_, hdot, ?_,
      fun index => ?_⟩
    · rw [intercalate_append_last, ← hlast]
      exact hname
    · intro hmem
      refine hvalid.noSlash ?_
      rw [hlast]
      exact List.mem_append_right _ (List.mem_cons_of_mem _ hmem)
    · rw [movedName, hsome, hstem, Option.getD_some, rust_suffixed, intercalate_append_last,
        intercalate_append_last]
      simp [candidateName]

theorem lastPart_append (front : Text) {back : Text} (h : '/' ∉ back) :
    lastPart (front ++ back) = lastPart front ++ back := by
  have hclean : ∀ part ∈ (front.splitOn '/').dropLast ++ [lastPart front ++ back], '/' ∉ part := by
    intro part hpart
    rcases List.mem_append.mp hpart with hpart | hpart
    · exact notMem_of_mem_splitOn ((List.dropLast_prefix _).subset hpart)
    · rw [List.mem_singleton.mp hpart, List.mem_append, not_or]
      exact ⟨notMem_of_mem_splitOn (List.getLast_mem (List.splitOn_ne_nil '/' front)), h⟩
  have hsplit : (front ++ back).splitOn '/' =
      (front.splitOn '/').dropLast ++ [lastPart front ++ back] := by
    conv_lhs => rw [eq_intercalate_lastPart front]
    rw [intercalate_append_last, splitOn_joined (by simp) hclean]
  rw [lastPart]
  simp only [hsplit, List.getLast_concat]

theorem dot_notMem_suffix (index : Nat) : '.' ∉ [' ', '('] ++ Nat.toDigits 10 index ++ [')'] := by
  intro hmem
  simp only [List.mem_append, List.mem_cons, List.not_mem_nil, or_false] at hmem
  rcases hmem with ((h | h) | h) | h
  · exact absurd h (by decide)
  · exact absurd h (by decide)
  · exact absurd (Nat.isDigit_of_mem_toDigits (by decide) (by decide) h) (by decide)
  · exact absurd h (by decide)

theorem suffixed_ne_of_extension {name stem ext : Text} {index index' : Nat} (h : Accepted name)
    (hname : ¬ HasExtension name) (hslash : '/' ∉ ext) :
    Alphabet.rust.suffixed name index ≠ Alphabet.rust.suffixed stem index' ++ '.' :: ext := by
  intro heq
  have hsuffix := dot_notMem_suffix index
  rw [rust_suffixed name] at heq
  generalize [' ', '('] ++ Nat.toDigits 10 index ++ [')'] = suffix at heq hsuffix
  rcases List.append_eq_append_iff.mp heq with ⟨mid, -, hmid⟩ | ⟨mid, hfront, hmid⟩
  · refine hsuffix ?_
    rw [hmid]
    exact List.mem_append_right _ List.mem_cons_self
  · cases mid with
    | nil =>
      refine hsuffix ?_
      rw [← List.nil_append suffix, ← hmid]
      exact List.mem_cons_self
    | cons c mid =>
      -- then the name itself has the dot, after a parenthesis
      obtain ⟨rfl, rfl⟩ := List.cons.inj hmid
      have hback : '/' ∉ ')' :: '.' :: mid := by
        simp only [List.mem_cons, not_or]
        exact ⟨by decide, by decide, fun hmem => hslash (List.mem_append_left _ hmem)⟩
      have hlast := lastPart_append (stem ++ ([' ', '('] ++ Nat.toDigits 10 index')) hback
      rw [rust_suffixed, ← List.append_assoc, List.append_assoc _ [')'], List.singleton_append]
        at hfront
      rw [← hfront] at hlast
      refine hname ((extension_isSome_iff h.lastPart.notDotDot).mpr ?_)
      rw [hlast]
      cases lastPart (stem ++ ([' ', '('] ++ Nat.toDigits 10 index')) <;> simp

theorem movedName_inj {name other : Text} {index index' : Nat} (h : Accepted name)
    (h' : Accepted other) (heq : movedName name index = movedName other index') :
    name = other ∧ index = index' := by
  rcases movedName_cases h with ⟨hext, hmoved⟩ | ⟨-, stem, ext, rfl, hdot, hslash, hmoved⟩
  · rcases movedName_cases h' with ⟨-, hmoved'⟩ | ⟨-, stem', ext', -, -, hslash', hmoved'⟩
    · rw [hmoved, hmoved'] at heq
      exact Alphabet.rust.suffixed_inj heq
    · rw [hmoved, hmoved'] at heq
      exact absurd heq (suffixed_ne_of_extension h hext hslash')
  · rcases movedName_cases h' with ⟨hext', hmoved'⟩ | ⟨-, stem', ext', rfl, hdot', -, hmoved'⟩
    · rw [hmoved, hmoved'] at heq
      exact absurd heq.symm (suffixed_ne_of_extension h' hext' hslash)
    · rw [hmoved, hmoved'] at heq
      obtain ⟨hfront, rfl⟩ := append_cons_inj_last hdot hdot' heq
      obtain ⟨rfl, rfl⟩ := Alphabet.rust.suffixed_inj hfront
      exact ⟨rfl, rfl⟩

/-! ## Its path -/

theorem desiredPath_eq_fileIn (outputDir : PathBuf) (name : Text) :
    desiredPath outputDir name =
      fileIn (outputDir ++ (name.splitOn '/').dropLast.map fun part => .normal (.text part))
        (lastPart name) := by
  rw [desiredPath, splitOn_eq_lastPart, List.map_append, fileIn, List.append_assoc,
    ← splitOn_eq_lastPart]
  rfl

theorem splitOn_movedName {name : Text} (h : Accepted name) (index : Nat) :
    (movedName name index).splitOn '/' = (name.splitOn '/').dropLast ++
      [candidateName (lastPart name) ((fileStem (lastPart name)).getD (lastPart name))
        (extension (lastPart name)) index] := by
  obtain ⟨stem, hstem, hsub⟩ := fileStem_some (lastPart name)
  rw [movedName, hstem]
  refine splitOn_joined (by simp) fun part hpart => ?_
  rcases List.mem_append.mp hpart with hpart | hpart
  · exact notMem_of_mem_splitOn ((List.dropLast_prefix _).subset hpart)
  · rw [List.mem_singleton.mp hpart]
    exact (candidateName_isFileName h.lastPart.isFileName hsub index).noSlash

theorem numberedPath_desiredPath (outputDir : PathBuf) {name : Text} (h : Accepted name)
    (index : Nat) :
    numberedPath (desiredPath outputDir name) index =
      desiredPath outputDir (movedName name index) := by
  rw [desiredPath_eq_fileIn, numberedPath_fileIn, desiredPath, splitOn_movedName h, fileIn,
    List.map_append, List.append_assoc]
  rfl

theorem folder_movedName {folder name : Text} (h : Accepted name) (index : Nat) :
    folder ++ ['/'] <+: movedName name index ↔ folder ++ ['/'] <+: name := by
  rw [folder_iff, folder_iff, splitOn_movedName h, List.dropLast_concat]

/-! ## Order -/

/-- A name without extension comes before what it is moved to, and before what lies below that. -/
theorem lt_of_movedName_prefix {name other : Text} {index : Nat} (h : Accepted name)
    (hext : ¬ HasExtension name) (hpre : movedName name index <+: other) : name < other := by
  rcases movedName_cases h with ⟨-, hmoved⟩ | ⟨hsome, -⟩
  · rw [hmoved, rust_suffixed] at hpre
    obtain ⟨rest, rfl⟩ := hpre
    have hlt : ([] : Text) < [' ', '('] ++ Nat.toDigits 10 index ++ [')'] ++ rest := by
      simp
    have happend : name ++ [] < name ++ ([' ', '('] ++ Nat.toDigits 10 index ++ [')'] ++ rest) :=
      List.append_left_lt hlt
    rwa [List.append_nil, ← List.append_assoc] at happend
  · exact absurd hsome hext

theorem lt_movedName {name : Text} (h : Accepted name) (hext : ¬ HasExtension name) (index : Nat) :
    name < movedName name index := lt_of_movedName_prefix h hext (List.prefix_refl _)

theorem movedName_prefix_lt {name other : Text} {index : Nat} (h : Accepted name)
    (hext : HasExtension name) (hpre : movedName name index <+: other) : other < name := by
  rcases movedName_cases h with ⟨hnone, -⟩ | ⟨-, stem, ext, rfl, -, -, hmoved⟩
  · exact absurd hext hnone
  · rw [hmoved, rust_suffixed] at hpre
    obtain ⟨rest, rfl⟩ := hpre
    simp only [List.append_assoc, List.cons_append, List.nil_append]
    apply List.append_left_lt
    exact List.cons_lt_cons_iff.mpr (Or.inl (by decide))

end DashBeam.Collection
