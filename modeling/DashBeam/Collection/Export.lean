import DashBeam.Collection.Import
import DashBeam.Lib.Framing

/-!
# What can be exported

`get_export_path` and the browser's `validate_collection_path` check each component of a name by one
rule, the import by another. A selected name is accepted, numbered or not, exactly when it has no
colon (`IsSelectedName.accepted_iff`).
-/

namespace DashBeam.Collection

open Lib

/-! ## The code -/

/-- The body of `validate_path_component`, which both exports share. -/
def validatePathComponentBody (component : Text) : Except String Unit := do
  ensure (component ≠ []) "empty path component"
  ensure ('/' ∉ component) "contains /"
  ensure ('\\' ∉ component) "contains \\"
  ensure (':' ∉ component) "contains colon"
  ensure (component ≠ ['.', '.']) "parent directory traversal"
  ensure (component ≠ ['.']) "current directory reference"
  ensure ('\x00' ∉ component) "contains null byte"

/-- `validate_path_component` of the native export. -/
def Native.validatePathComponent : Text → Except String Unit := validatePathComponentBody

/-- `validate_path_component` of the browser export. -/
def WasmIo.validatePathComponent : Text → Except String Unit := validatePathComponentBody

/-- The loop of `get_export_path`. -/
def pushParts (path : PathBuf) : List Text → Except String PathBuf
  | [] => .ok path
  | part :: parts => do
    Native.validatePathComponent part
    pushParts (path ++ components part) parts

def getExportPath (root : PathBuf) (name : Text) : Except String PathBuf :=
  pushParts root (name.splitOn '/')

/-- The loop of `validate_collection_path`. -/
def validateParts : List Text → Except String Unit
  | [] => .ok ()
  | part :: parts => do
    WasmIo.validatePathComponent part
    validateParts parts

def validateCollectionPath (name : Text) : Except String Unit := validateParts (name.splitOn '/')

/-! ## Accepted names -/

/-- What both rules check. -/
structure ValidComponent (component : Text) : Prop where
  nonempty : component ≠ []
  noSlash : '/' ∉ component
  noBackslash : '\\' ∉ component
  noColon : ':' ∉ component
  notDotDot : component ≠ ['.', '.']
  notDot : component ≠ ['.']
  noNul : '\x00' ∉ component

theorem ensure_ok {ok : Bool} {message : String} :
    (ensure ok message : Except String Unit) = .ok () ↔ ok = true := by
  cases ok with
  | true => exact iff_of_true rfl rfl
  | false => exact iff_of_false (fun h => by cases h) Bool.false_ne_true

theorem bind_eq_ok_unit {ε : Type} {x y : Except ε Unit} :
    (do x; y) = .ok () ↔ x = .ok () ∧ y = .ok () := by
  cases x with
  | error e => simp [bind, Except.bind]
  | ok u => simp [bind, Except.bind]

theorem validatePathComponent_ok {component : Text} :
    validatePathComponentBody component = .ok () ↔ ValidComponent component := by
  simp only [validatePathComponentBody, bind_eq_ok_unit, ensure_ok, decide_eq_true_eq]
  constructor
  · rintro ⟨h₁, h₂, h₃, h₄, h₅, h₆, h₇⟩
    exact ⟨h₁, h₂, h₃, h₄, h₅, h₆, h₇⟩
  · rintro ⟨h₁, h₂, h₃, h₄, h₅, h₆, h₇⟩
    exact ⟨h₁, h₂, h₃, h₄, h₅, h₆, h₇⟩

/-- A name is accepted when its parts are. -/
def Accepted (name : Text) : Prop := ∀ part ∈ name.splitOn '/', ValidComponent part

theorem pushParts_ok {path : PathBuf} {parts : List Text} :
    (∃ target, pushParts path parts = .ok target) ↔ ∀ part ∈ parts, ValidComponent part := by
  induction parts generalizing path with
  | nil => simp [pushParts]
  | cons part parts ih =>
    rw [List.forall_mem_cons, pushParts, ← validatePathComponent_ok, Native.validatePathComponent]
    cases validatePathComponentBody part with
    | error e => simp [bind, Except.bind]
    | ok u => simpa [bind, Except.bind] using ih

theorem getExportPath_ok {root : PathBuf} {name : Text} :
    (∃ target, getExportPath root name = .ok target) ↔ Accepted name := pushParts_ok

theorem validateCollectionPath_ok {name : Text} :
    validateCollectionPath name = .ok () ↔ Accepted name := by
  rw [validateCollectionPath, Accepted]
  induction name.splitOn '/' with
  | nil => simp [validateParts]
  | cons part parts ih =>
    rw [validateParts, bind_eq_ok_unit, ih, List.forall_mem_cons, WasmIo.validatePathComponent,
      validatePathComponent_ok]

/-! ## Names of selected files -/

theorem filterMap_toStr_transferable {rel : List OsStr} (h : ∀ name ∈ rel, Transferable name) :
    ∃ parts : List Text, rel = parts.map OsStr.text ∧ rel.filterMap OsStr.toStr = parts ∧
      ∀ part ∈ parts, '/' ∉ part ∧ '\\' ∉ part := by
  induction rel with
  | nil => exact ⟨[], rfl, rfl, fun part hpart => absurd hpart List.not_mem_nil⟩
  | cons name rel ih =>
    obtain ⟨s, rfl, hs⟩ := h name List.mem_cons_self
    obtain ⟨parts, hrel, hparts, hclean⟩ := ih fun n hn => h n (List.mem_cons_of_mem _ hn)
    refine ⟨s :: parts, ?_, ?_, ?_⟩
    · rw [List.map_cons, ← hrel]
    · rw [List.filterMap_cons, OsStr.toStr, hparts]
    · rw [List.forall_mem_cons]
      exact ⟨hs, hclean⟩

/-- A selected name: file names without backslash, joined. -/
structure IsSelectedName (name : Text) (front : List Text) (last : Text) : Prop where
  eq : name = List.intercalate ['/'] (front ++ [last])
  fileName : ∀ part ∈ front ++ [last], IsFileName part
  noBackslash : ∀ part ∈ front ++ [last], '\\' ∉ part

theorem selectedFiles_isFileName {fs : FileSystem} {path : PathBuf} (hstem : IsFileName (stem path))
    {rel : List OsStr} (h : rel ∈ selectedFiles fs path) :
    rel ≠ [] ∧ ∀ s, OsStr.text s ∈ rel → IsFileName s := by
  rw [selectedFiles] at h
  cases hnode : fs.node path with
  | none =>
    rw [hnode] at h
    cases h
  | some node =>
    rw [hnode] at h
    cases node with
    | other => cases h
    | file data =>
      rw [List.mem_singleton] at h
      subst h
      refine ⟨List.cons_ne_nil _ _, ?_⟩
      intro s hs
      rw [List.mem_singleton] at hs
      rw [OsStr.text.inj hs]
      exact hstem
    | directory dir =>
      obtain ⟨entry, hentry, hrel⟩ := List.mem_filterMap.mp h
      cases hkind : entry.kind with
      | file data =>
        rw [hkind] at hrel
        obtain rfl := Option.some.inj hrel
        refine ⟨List.cons_ne_nil _ _, ?_⟩
        intro s hs
        rcases List.mem_cons.mp hs with hs | hs
        · rw [OsStr.text.inj hs]
          exact hstem
        · exact dir.names entry hentry s hs
      | _ =>
        rw [hkind] at hrel
        cases hrel

theorem isSelectedName_of_mem {completion : Completion} {fs : FileSystem} {paths : List PathBuf}
    {total : Nat} {collection : List (Text × Bytes)}
    (h : importPaths completion fs paths = .ok (total, collection)) {name : Text}
    (hname : name ∈ selectedNames fs paths) : ∃ front last, IsSelectedName name front last := by
  obtain ⟨path, hpath, hmem⟩ := List.mem_flatMap.mp hname
  obtain ⟨rel, hrel, rfl⟩ := List.mem_map.mp hmem
  obtain ⟨htransferable, hstem⟩ := importPaths_transferable h path hpath
  obtain ⟨parts, heq, hparts, hclean⟩ := filterMap_toStr_transferable (htransferable rel hrel)
  obtain ⟨hne, hnames⟩ := selectedFiles_isFileName hstem hrel
  have hpartsNe : parts ≠ [] := by
    rintro rfl
    exact hne heq
  refine ⟨parts.dropLast, parts.getLast hpartsNe, ?_, ?_, ?_⟩
  · rw [List.dropLast_append_getLast, joined, hparts]
  · intro part hpart
    rw [List.dropLast_append_getLast] at hpart
    refine hnames part ?_
    rw [heq]
    exact List.mem_map_of_mem hpart
  · intro part hpart
    rw [List.dropLast_append_getLast] at hpart
    exact (hclean part hpart).2

/-! ## Names with a number -/

theorem rust_suffixed (name : Text) (k : Nat) :
    Alphabet.rust.suffixed name k = name ++ ([' ', '('] ++ Nat.toDigits 10 k ++ [')']) := by
  have hmap : ∀ l : Text, l.map id = l := List.map_id
  simp [Alphabet.suffixed, Alphabet.text, Alphabet.digits, Alphabet.rust]

theorem rust_suffixed_eq (name : Text) (k : Nat) :
    ∃ suffix, Alphabet.rust.suffixed name k = name ++ suffix ∧ suffix ≠ [] ∧
      suffix.getLast? = some ')' ∧
      ∀ c ∈ suffix, c ≠ '/' ∧ c ≠ '\\' ∧ c ≠ ':' ∧ c ≠ '\x00' ∧ c ≠ '.' := by
  refine ⟨[' ', '('] ++ Nat.toDigits 10 k ++ [')'], rust_suffixed name k, ?_, ?_, ?_⟩
  · simp
  · exact List.getLast?_concat
  · intro c hc
    simp only [List.mem_append, List.mem_cons, List.not_mem_nil, or_false] at hc
    rcases hc with ((rfl | rfl) | hdigit) | rfl
    · decide
    · decide
    · have hisDigit := Nat.isDigit_of_mem_toDigits (by decide) (by decide) hdigit
      refine ⟨?_, ?_, ?_, ?_, ?_⟩ <;>
        · rintro rfl
          exact absurd hisDigit (by decide)
    · decide

theorem engineLabel_eq (name : Text) (k : Nat) :
    engineLabel name k = name ∨ ∃ suffix, engineLabel name k = name ++ suffix ∧ suffix ≠ [] ∧
      suffix.getLast? = some ')' ∧
      ∀ c ∈ suffix, c ≠ '/' ∧ c ≠ '\\' ∧ c ≠ ':' ∧ c ≠ '\x00' ∧ c ≠ '.' := by
  rw [engineLabel]
  split
  · exact Or.inl rfl
  · exact Or.inr (rust_suffixed_eq name (k + 1))

theorem intercalate_append_last (front : List Text) (last suffix : Text) :
    List.intercalate ['/'] (front ++ [last]) ++ suffix =
      List.intercalate ['/'] (front ++ [last ++ suffix]) := by
  induction front with
  | nil => simp [List.intercalate_singleton]
  | cons part front ih =>
    rw [List.cons_append, List.cons_append, List.intercalate_cons_of_ne_nil (by simp),
      List.intercalate_cons_of_ne_nil (by simp), List.append_assoc, ih]

theorem splitOn_joined {parts : List Text} (hne : parts ≠ []) (h : ∀ part ∈ parts, '/' ∉ part) :
    (List.intercalate ['/'] parts).splitOn '/' = parts :=
  List.splitOn_intercalate '/' h hne

theorem mem_intercalate {c : Char} {parts : List Text} (hc : c ≠ '/') :
    c ∈ List.intercalate ['/'] parts ↔ ∃ part ∈ parts, c ∈ part := by
  induction parts with
  | nil => simp
  | cons part parts ih =>
    rcases List.eq_nil_or_concat parts with rfl | ⟨rest, last, rfl⟩
    · simp
    · rw [List.intercalate_cons_of_ne_nil (by simp), List.mem_append, List.mem_append, ih]
      simp [hc]

theorem validComponent_iff {part : Text} (hname : IsFileName part) (hback : '\\' ∉ part) :
    ValidComponent part ↔ ':' ∉ part :=
  ⟨fun hv => hv.noColon, fun hcolon => ⟨hname.nonempty, hname.noSlash, hback, hcolon,
    hname.notDotDot, hname.notDot, hname.noNul⟩⟩

theorem IsFileName.append_suffix {last suffix : Text} (hlast : IsFileName last) (hsuffix : suffix ≠ [])
    (hend : suffix.getLast? = some ')') (hchars : ∀ c ∈ suffix, c ≠ '/' ∧ c ≠ '\x00') :
    IsFileName (last ++ suffix) := by
  refine ⟨?_, ?_, ?_, ?_, ?_⟩
  · exact List.append_ne_nil_of_right_ne_nil last hsuffix
  · rw [List.mem_append, not_or]
    exact ⟨hlast.noSlash, fun hmem => (hchars _ hmem).1 rfl⟩
  · rw [List.mem_append, not_or]
    exact ⟨hlast.noNul, fun hmem => (hchars _ hmem).2 rfl⟩
  · intro heq
    have hgetLast := congrArg List.getLast? heq
    rw [List.getLast?_append_of_ne_nil _ hsuffix, hend] at hgetLast
    cases hgetLast
  · intro heq
    have hgetLast := congrArg List.getLast? heq
    rw [List.getLast?_append_of_ne_nil _ hsuffix, hend] at hgetLast
    cases hgetLast

theorem IsSelectedName.accepted_iff {name : Text} {front : List Text} {last : Text}
    (h : IsSelectedName name front last) (k : Nat) :
    Accepted (engineLabel name k) ↔ ':' ∉ name := by
  have hcolon : ':' ∈ name ↔ ∃ part ∈ front ++ [last], ':' ∈ part := by
    rw [h.eq]
    exact mem_intercalate (by decide)
  rcases engineLabel_eq name k with heq | ⟨suffix, heq, hsuffix, hend, hchars⟩
  · rw [heq, Accepted, h.eq, splitOn_joined (by simp) fun part hp => (h.fileName part hp).noSlash,
      ← h.eq, hcolon, not_exists]
    refine forall_congr' fun part => ?_
    rw [not_and]
    exact imp_congr_right fun hp => validComponent_iff (h.fileName part hp) (h.noBackslash part hp)
  · have hlast := h.fileName last (by simp)
    have hlabel := hlast.append_suffix hsuffix hend fun c hc => ⟨(hchars c hc).1, (hchars c hc).2.2.2.1⟩
    have hback : '\\' ∉ last ++ suffix := by
      rw [List.mem_append, not_or]
      exact ⟨h.noBackslash last (by simp), fun hmem => (hchars _ hmem).2.1 rfl⟩
    have hsame : ':' ∈ last ++ suffix ↔ ':' ∈ last := by
      rw [List.mem_append, or_iff_left]
      exact fun hmem => (hchars _ hmem).2.2.1 rfl
    have hparts : ∀ part ∈ front ++ [last ++ suffix], IsFileName part ∧ '\\' ∉ part := by
      intro part hp
      rcases List.mem_append.mp hp with hp | hp
      · exact ⟨h.fileName part (List.mem_append_left _ hp),
          h.noBackslash part (List.mem_append_left _ hp)⟩
      · rw [List.mem_singleton] at hp
        subst hp
        exact ⟨hlabel, hback⟩
    rw [heq, Accepted, h.eq, intercalate_append_last,
      splitOn_joined (by simp) fun part hp => (hparts part hp).1.noSlash, ← h.eq, hcolon]
    simp only [List.mem_append, List.mem_singleton]
    constructor
    · rintro hall ⟨part, hp | rfl, hmem⟩
      · exact (hall part (Or.inl hp)).noColon hmem
      · exact (hall (part ++ suffix) (Or.inr rfl)).noColon (hsame.mpr hmem)
    · rintro hnone part (hp | rfl)
      · refine (validComponent_iff (h.fileName part (by simp [hp])) (h.noBackslash part (by simp [hp]))).mpr ?_
        exact fun hmem => hnone ⟨part, Or.inl hp, hmem⟩
      · refine (validComponent_iff hlabel hback).mpr ?_
        exact fun hmem => hnone ⟨last, Or.inr rfl, hsame.mp hmem⟩

theorem folder_of_label {folder name : Text} {k : Nat} :
    folder ++ ['/'] <+: engineLabel name k ↔ folder ++ ['/'] <+: name := by
  rcases engineLabel_eq name k with heq | ⟨suffix, heq, -, -, hchars⟩
  · rw [heq]
  · rw [heq]
    constructor
    · intro hpre
      rcases List.prefix_or_prefix_of_prefix hpre (List.prefix_append name suffix) with h | h
      · exact h
      · -- the slash would lie in the suffix
        obtain ⟨rest, hrest⟩ := h
        rw [← hrest, List.prefix_append_right_inj] at hpre
        rcases List.eq_nil_or_concat rest with rfl | ⟨init, c, rfl⟩
        · rw [List.append_nil] at hrest
          exact ⟨[], by rw [List.append_nil, hrest]⟩
        · have hslash : c = '/' := by
            have hlast := congrArg List.getLast? hrest
            simpa using hlast
          have hmem : c ∈ suffix := hpre.subset (by simp)
          exact absurd hslash (hchars c hmem).1
    · exact fun hpre => hpre.trans (List.prefix_append name suffix)

end DashBeam.Collection
