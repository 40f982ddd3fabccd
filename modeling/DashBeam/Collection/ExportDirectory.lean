import DashBeam.Collection.Export
import DashBeam.Lib.FileTree
import Mathlib.Data.List.ReduceOption

/-!
# Exporting a collection into a directory

The names of a collection come from the peer, and an entry's target may be taken by what was there
before or by what earlier entries made. The file system is a tree of files without links; the
operating system may refuse any directory and the store may fail at any entry, leaving part of a file.

One entry makes folders on the way to its target and a file there, where nothing was
(`exportEntry_spec`). Over all entries, what existed stays as it was and what is new is below the
output directory (`export_confined`).
-/

namespace DashBeam.Collection

open Lib

/-! ## The code -/

abbrev Disk : Type := FileTree Component Bytes

/-- `Path::parent`. -/
def parentPath (path : PathBuf) : Option PathBuf :=
  match path.getLast? with
  | none | some .rootDir => none
  | some _ => some path.dropLast

/-- A file name cut at its last dot, as `Path` does it: a dot at the start does not count. -/
def rsplitFileAtDot (name : Text) : Option Text × Option Text :=
  if name = ['.', '.'] then (some name, none)
  else
    let after := (name.reverse.takeWhile (· ≠ '.')).reverse
    match name.reverse.dropWhile (· ≠ '.') with
    | [] => (none, some after)
    | _ :: before => if before = [] then (some name, none) else (some before.reverse, some after)

def fileStem (name : Text) : Option Text :=
  (rsplitFileAtDot name).1.or (rsplitFileAtDot name).2

def extension (name : Text) : Option Text :=
  match rsplitFileAtDot name with
  | (some _, after) => after
  | (none, _) => none

inductive ExportError
  /-- What `get_export_path` refuses. -/
  | exportPath (message : String)
  /-- "path has no parent: {}" -/
  | noParent (path : PathBuf)
  /-- "invalid filename: {}" -/
  | invalidFilename (path : PathBuf)
  /-- "invalid file stem: {}" -/
  | invalidFileStem (path : PathBuf)
  /-- "too many filename conflicts for {}" -/
  | tooManyConflicts (path : PathBuf)
  /-- "failed creating export parent {}: {}" -/
  | creatingParent (parent : PathBuf) (cause : IoError)
  /-- "error exporting {}: {}" -/
  | exporting (name : Text) (cause : String)
  deriving DecidableEq, Repr

/-- An entry that was renamed: the path it should have had, and the one it has. -/
structure ExportConflict where
  original : PathBuf
  resolved : PathBuf
  deriving DecidableEq, Repr

/-- The name tried at an index of `resolve_conflict_path`. -/
def candidateName (fileName stem : Text) (extension : Option Text) (index : Nat) : Text :=
  match extension with
  | some ext => stem ++ [' ', '('] ++ Nat.toDigits 10 index ++ [')', '.'] ++ ext
  | none => fileName ++ [' ', '('] ++ Nat.toDigits 10 index ++ [')']

/-- The indices that `resolve_conflict_path` tries. -/
def conflictIndices : List Nat := List.range' 1 9999

def resolveConflictPath (disk : Disk) (path : PathBuf) : Except ExportError PathBuf :=
  match parentPath path with
  | none => .error (.noParent path)
  | some parent =>
    match (fileName path).bind OsStr.toStr with
    | none => .error (.invalidFilename path)
    | some name =>
      match fileStem name with
      | none => .error (.invalidFileStem path)
      | some stem =>
        let candidate := fun index => parent ++ components (candidateName name stem (extension name) index)
        match conflictIndices.find? fun index => !disk.exists_ (candidate index) with
        | some index => .ok (candidate index)
        | none => .error (.tooManyConflicts path)

/-- What the store does when it is asked to write an entry's blob at the target. -/
inductive Exported
  | done
  /-- It fails, possibly after writing part of the file. -/
  | error (cause : String) (part : Option Bytes)

/-- What the operating system and the store decide, for each entry. -/
structure Environment where
  refused : Nat → PathBuf → Option IoError
  exported : Nat → Exported
  /-- The cause the store gives where no file can be written. -/
  unwritable : String

def exportTarget (disk : Disk) (outputDir : PathBuf) (name : Text) :
    Except ExportError (PathBuf × Option ExportConflict) :=
  match getExportPath outputDir name with
  | .error message => .error (.exportPath message)
  | .ok desired =>
    if disk.exists_ desired then
      match resolveConflictPath disk desired with
      | .error e => .error e
      | .ok resolved => .ok (resolved, some ⟨desired, resolved⟩)
    else .ok (desired, none)

def exportBlob (env : Environment) (i : Nat) (name : Text) (bytes : Bytes) (target : PathBuf)
    (disk : Disk) : Except ExportError Unit × Disk :=
  match env.exported i with
  | .done =>
    match disk.write target bytes with
    | some disk => (.ok (), disk)
    | none => (.error (.exporting name env.unwritable), disk)
  | .error cause part =>
    (.error (.exporting name cause), (part.bind fun part => disk.write target part).getD disk)

/-- The folder of a target is made. -/
def createParent (env : Environment) (i : Nat) (target : PathBuf) (disk : Disk) :
    Except ExportError Unit × Disk :=
  match parentPath target with
  | none => (.ok (), disk)
  | some parent =>
    match disk.createDirAll (env.refused i) parent with
    | (.ok (), disk) => (.ok (), disk)
    | (.error e, disk) => (.error (.creatingParent parent e), disk)

/-- One pass of the loop of `export_to_directory`. -/
def exportEntry (env : Environment) (outputDir : PathBuf) (i : Nat) (name : Text) (bytes : Bytes)
    (disk : Disk) : Except ExportError (Option ExportConflict) × Disk :=
  match exportTarget disk outputDir name with
  | .error e => (.error e, disk)
  | .ok (target, conflict) =>
    match createParent env i target disk with
    | (.error e, disk) => (.error e, disk)
    | (.ok (), disk) =>
      match exportBlob env i name bytes target disk with
      | (.error e, disk) => (.error e, disk)
      | (.ok (), disk) => (.ok conflict, disk)

/-- The loop of `export_to_directory`. -/
def exportEntries (env : Environment) (outputDir : PathBuf) :
    Nat → List (Text × Bytes) → Disk → Except ExportError (List ExportConflict) × Disk
  | _, [], disk => (.ok [], disk)
  | i, (name, bytes) :: entries, disk =>
    match exportEntry env outputDir i name bytes disk with
    | (.error e, disk) => (.error e, disk)
    | (.ok conflict, disk) =>
      match exportEntries env outputDir (i + 1) entries disk with
      | (.error e, disk) => (.error e, disk)
      | (.ok conflicts, disk) => (.ok (conflict.toList ++ conflicts), disk)

/-- `export_to_directory`: what it returns, and the file system it leaves. -/
def exportToDirectory (env : Environment) (disk : Disk) (collection : List (Text × Bytes))
    (outputDir : PathBuf) : Except ExportError (List ExportConflict) × Disk :=
  exportEntries env outputDir 0 collection disk

/-! ## Paths of entries -/

def fileIn (folder : PathBuf) (name : Text) : PathBuf := folder ++ [.normal (.text name)]

def desiredPath (outputDir : PathBuf) (name : Text) : PathBuf :=
  outputDir ++ (name.splitOn '/').map fun part => .normal (.text part)

/-- The path tried at an index, when a path is taken. -/
def numberedPath (path : PathBuf) (index : Nat) : PathBuf :=
  let name := ((fileName path).bind OsStr.toStr).getD []
  fileIn path.dropLast (candidateName name ((fileStem name).getD name) (extension name) index)

@[simp]
theorem dropLast_fileIn (folder : PathBuf) (name : Text) : (fileIn folder name).dropLast = folder :=
  List.dropLast_concat

@[simp]
theorem fileName_fileIn (folder : PathBuf) (name : Text) :
    fileName (fileIn folder name) = some (.text name) := by
  rw [fileName, fileIn, List.getLast?_concat]

@[simp]
theorem parentPath_fileIn (folder : PathBuf) (name : Text) :
    parentPath (fileIn folder name) = some folder := by
  rw [parentPath, fileIn, List.getLast?_concat]
  exact congrArg some List.dropLast_concat

theorem numberedPath_fileIn (folder : PathBuf) (name : Text) (index : Nat) :
    numberedPath (fileIn folder name) index =
      fileIn folder (candidateName name ((fileStem name).getD name) (extension name) index) := by
  simp only [numberedPath, fileName_fileIn, dropLast_fileIn, Option.bind_some, OsStr.toStr,
    Option.getD_some]

theorem strictlyBelow_fileIn {dir folder : PathBuf} (h : dir <+: folder) (name : Text) :
    StrictlyBelow dir (fileIn folder name) := by
  refine ⟨h.trans (List.prefix_append _ _), ?_⟩
  intro heq
  have hlength := congrArg List.length heq
  rw [fileIn, List.length_append, List.length_singleton] at hlength
  have := h.length_le
  omega

theorem ValidComponent.isFileName {part : Text} (h : ValidComponent part) : IsFileName part :=
  ⟨h.nonempty, h.noSlash, h.noNul, h.notDot, h.notDotDot⟩

theorem pushParts_eq {path : PathBuf} {parts : List Text} (h : ∀ part ∈ parts, ValidComponent part) :
    pushParts path parts = .ok (path ++ parts.map fun part => .normal (.text part)) := by
  induction parts generalizing path with
  | nil => simp [pushParts]
  | cons part parts ih =>
    rw [List.forall_mem_cons] at h
    rw [pushParts, Native.validatePathComponent, validatePathComponent_ok.mpr h.1,
      components_of_isFileName h.1.isFileName]
    simp only [bind, Except.bind]
    rw [ih h.2, List.append_assoc]
    rfl

/-- An accepted name has the path it stands for: a file in a folder at or below the output directory. -/
theorem getExportPath_eq {outputDir : PathBuf} {name : Text} {desired : PathBuf}
    (h : getExportPath outputDir name = .ok desired) :
    desired = desiredPath outputDir name ∧ ∃ folder last, desired = fileIn folder last ∧
      outputDir <+: folder ∧ IsFileName last := by
  have hvalid : Accepted name := getExportPath_ok.mp ⟨desired, h⟩
  have heq : desired = desiredPath outputDir name := by
    rw [getExportPath, pushParts_eq hvalid] at h
    exact (Except.ok.inj h).symm
  refine ⟨heq, ?_⟩
  have hne : name.splitOn '/' ≠ [] := List.splitOn_ne_nil _ _
  refine ⟨outputDir ++ (name.splitOn '/').dropLast.map fun part => .normal (.text part),
    (name.splitOn '/').getLast hne, ?_, List.prefix_append _ _,
    (hvalid _ (List.getLast_mem hne)).isFileName⟩
  rw [heq, desiredPath, fileIn, List.append_assoc]
  congr 1
  conv_lhs => rw [← List.dropLast_append_getLast hne]
  rw [List.map_append, List.map_singleton]

/-! ## Candidates -/

theorem rsplitFileAtDot_subset {name : Text} {before after : Option Text}
    (h : rsplitFileAtDot name = (before, after)) :
    (before.isSome ∨ after.isSome) ∧ (∀ s ∈ before, s ⊆ name) ∧ ∀ s ∈ after, s ⊆ name := by
  have htake : (name.reverse.takeWhile (· ≠ '.')).reverse ⊆ name := by
    intro c hc
    exact List.mem_reverse.mp ((List.takeWhile_sublist _).subset (List.mem_reverse.mp hc))
  have hdrop : name.reverse.dropWhile (· ≠ '.') ⊆ name := by
    intro c hc
    exact List.mem_reverse.mp ((List.dropWhile_sublist _).subset hc)
  rw [rsplitFileAtDot] at h
  split at h
  · obtain ⟨rfl, rfl⟩ := Prod.mk.inj h
    simp
  · dsimp only at h
    split at h
    · obtain ⟨rfl, rfl⟩ := Prod.mk.inj h
      simpa using htake
    · rename_i dot rest hrest
      split at h
      · obtain ⟨rfl, rfl⟩ := Prod.mk.inj h
        simp
      · obtain ⟨rfl, rfl⟩ := Prod.mk.inj h
        refine ⟨Or.inl rfl, ?_, ?_⟩
        · intro s hs c hc
          obtain rfl := Option.some.inj hs
          refine hdrop ?_
          rw [hrest]
          exact List.mem_cons_of_mem _ (List.mem_reverse.mp hc)
        · intro s hs
          obtain rfl := Option.some.inj hs
          exact htake

theorem fileStem_some (name : Text) : ∃ stem, fileStem name = some stem ∧ stem ⊆ name := by
  obtain ⟨hsome, hbefore, hafter⟩ := rsplitFileAtDot_subset (Prod.eta (rsplitFileAtDot name)).symm
  rw [fileStem]
  cases hb : (rsplitFileAtDot name).1 with
  | some stem => exact ⟨stem, rfl, hbefore stem hb⟩
  | none =>
    rw [hb] at hsome
    obtain ⟨stem, hstem⟩ := Option.isSome_iff_exists.mp (hsome.resolve_left (by simp))
    exact ⟨stem, by rw [hstem]; rfl, hafter stem hstem⟩

theorem extension_subset {name ext : Text} (h : extension name = some ext) : ext ⊆ name := by
  obtain ⟨-, -, hafter⟩ := rsplitFileAtDot_subset (Prod.eta (rsplitFileAtDot name)).symm
  rw [extension] at h
  split at h
  · rename_i before after heq
    rw [heq] at hafter
    exact hafter ext h
  · cases h

theorem candidateName_isFileName {name stem : Text} (hname : IsFileName name) (hstem : stem ⊆ name)
    (index : Nat) : IsFileName (candidateName name stem (extension name) index) := by
  have hdigits : ∀ c ∈ Nat.toDigits 10 index, c ≠ '/' ∧ c ≠ '\x00' := by
    intro c hc
    have hdigit := Nat.isDigit_of_mem_toDigits (by decide) (by decide) hc
    refine ⟨?_, ?_⟩ <;>
      · rintro rfl
        exact absurd hdigit (by decide)
  have hspace : ' ' ∈ candidateName name stem (extension name) index := by
    cases extension name <;> simp [candidateName]
  have hmem : ∀ c ∈ candidateName name stem (extension name) index,
      c ∈ name ∨ c ∈ [' ', '(', ')', '.'] ∨ c ∈ Nat.toDigits 10 index := by
    intro c hc
    cases hext : extension name with
    | some ext =>
      rw [hext] at hc
      simp only [candidateName, List.mem_append, List.mem_cons, List.not_mem_nil, or_false] at hc ⊢
      rcases hc with (((hc | hc) | hc) | hc) | hc
      · exact Or.inl (hstem hc)
      · tauto
      · exact Or.inr (Or.inr hc)
      · tauto
      · exact Or.inl (extension_subset hext hc)
    | none =>
      rw [hext] at hc
      simp only [candidateName, List.mem_append, List.mem_cons, List.not_mem_nil, or_false] at hc ⊢
      tauto
  refine ⟨List.ne_nil_of_mem hspace, ?_, ?_, ?_, ?_⟩
  · intro hslash
    rcases hmem _ hslash with h | h | h
    · exact hname.noSlash h
    · exact absurd h (by decide)
    · exact (hdigits _ h).1 rfl
  · intro hnul
    rcases hmem _ hnul with h | h | h
    · exact hname.noNul h
    · exact absurd h (by decide)
    · exact (hdigits _ h).2 rfl
  · intro heq
    rw [heq] at hspace
    exact absurd hspace (by decide)
  · intro heq
    rw [heq] at hspace
    exact absurd hspace (by decide)

theorem resolveConflictPath_eq (disk : Disk) (folder : PathBuf) {name : Text}
    (hname : IsFileName name) :
    resolveConflictPath disk (fileIn folder name) =
      match conflictIndices.find? fun index =>
        !disk.exists_ (numberedPath (fileIn folder name) index) with
      | some index => .ok (numberedPath (fileIn folder name) index)
      | none => .error (.tooManyConflicts (fileIn folder name)) := by
  obtain ⟨stem, hstem, hsub⟩ := fileStem_some name
  have hcandidate : ∀ index, folder ++ components (candidateName name stem (extension name) index) =
      numberedPath (fileIn folder name) index := by
    intro index
    rw [components_of_isFileName (candidateName_isFileName hname hsub index), numberedPath_fileIn,
      hstem]
    rfl
  simp only [resolveConflictPath, parentPath_fileIn, fileName_fileIn, Option.bind_some,
    OsStr.toStr, hstem, hcandidate]

/-- A taken path is resolved to the candidate with the smallest free index. -/
theorem resolveConflictPath_ok {disk : Disk} {folder resolved : PathBuf} {name : Text}
    (hname : IsFileName name) (h : resolveConflictPath disk (fileIn folder name) = .ok resolved) :
    ∃ index, 1 ≤ index ∧ index ≤ 9999 ∧ resolved = numberedPath (fileIn folder name) index ∧
      disk.exists_ resolved = false ∧
      (∀ j, 1 ≤ j → j < index → disk.exists_ (numberedPath (fileIn folder name) j) = true) ∧
      ∃ last, resolved = fileIn folder last := by
  rw [resolveConflictPath_eq disk folder hname] at h
  split at h
  · rename_i index hfind
    obtain rfl := Except.ok.inj h
    obtain ⟨hfree, hmem, hbefore⟩ := List.find?_range'_eq_some.mp hfind
    rw [List.mem_range'_1] at hmem
    refine ⟨index, hmem.1, by omega, rfl, by simpa using hfree, ?_, _,
      numberedPath_fileIn folder name index⟩
    intro j hone hlt
    simpa using hbefore j hone hlt
  · cases h

theorem resolveConflictPath_of_free {disk : Disk} {folder : PathBuf} {name : Text} {index : Nat}
    (hname : IsFileName name) (hone : 1 ≤ index) (hmax : index ≤ 9999)
    (hfree : disk.exists_ (numberedPath (fileIn folder name) index) = false) :
    ∃ resolved, resolveConflictPath disk (fileIn folder name) = .ok resolved := by
  rw [resolveConflictPath_eq disk folder hname]
  split
  · exact ⟨_, rfl⟩
  · rename_i hnone
    have hmem : index ∈ conflictIndices := List.mem_range'_1.mpr ⟨hone, by omega⟩
    have htaken := List.find?_eq_none.mp hnone index hmem
    rw [hfree] at htaken
    exact absurd rfl htaken

/-! ## Targets -/

/-- Where an entry goes when certain paths are taken: its own path, or the free candidate with the
smallest index. -/
def Placed (taken : PathBuf → Prop) (desired target : PathBuf) : Prop :=
  ¬ taken desired ∧ target = desired ∨
  taken desired ∧ ∃ index, 1 ≤ index ∧ index ≤ 9999 ∧ target = numberedPath desired index ∧
    ¬ taken target ∧ ∀ j, 1 ≤ j → j < index → taken (numberedPath desired j)

/-- The targets of all names in order. An entry takes its target and the folders on the way to it. -/
def Placement (outputDir : PathBuf) : (PathBuf → Prop) → List Text → List PathBuf → Prop
  | _, [], targets => targets = []
  | _, _ :: _, [] => False
  | taken, name :: names, target :: targets =>
    Placed taken (desiredPath outputDir name) target ∧
      Placement outputDir (fun path => taken path ∨ path <+: target) names targets

/-- The conflict to report for an entry. -/
def conflictOf (desired target : PathBuf) : Option ExportConflict :=
  if target = desired then none else some ⟨desired, target⟩

/-- The renamed entries, in order. -/
def conflictsOf (outputDir : PathBuf) (names : List Text) (targets : List PathBuf) :
    List ExportConflict :=
  (List.zipWith (fun name target => conflictOf (desiredPath outputDir name) target) names
    targets).reduceOption

theorem exportTarget_ok {disk : Disk} {outputDir target : PathBuf} {name : Text}
    {conflict : Option ExportConflict}
    (h : exportTarget disk outputDir name = .ok (target, conflict)) :
    Placed (fun path => disk.exists_ path = true) (desiredPath outputDir name) target ∧
    conflict = conflictOf (desiredPath outputDir name) target ∧ disk.find target = none ∧
    ∃ folder last, target = fileIn folder last ∧ outputDir <+: folder := by
  rw [exportTarget] at h
  cases hpath : getExportPath outputDir name with
  | error message =>
    rw [hpath] at h
    cases h
  | ok desired =>
    obtain ⟨hdesired, folder, last, hfile, hpre, hlast⟩ := getExportPath_eq hpath
    rw [← hdesired]
    simp only [hpath] at h
    by_cases htaken : disk.exists_ desired = true
    · rw [if_pos htaken] at h
      cases hresolved : resolveConflictPath disk desired with
      | error e =>
        rw [hresolved] at h
        cases h
      | ok resolved =>
        rw [hresolved] at h
        obtain ⟨rfl, rfl⟩ := Prod.mk.inj (Except.ok.inj h)
        rw [hfile] at hresolved
        obtain ⟨index, hone, hmax, hnumbered, hfree, hbefore, last', hlast'⟩ :=
          resolveConflictPath_ok hlast hresolved
        rw [← hfile] at hnumbered hbefore
        have hne : resolved ≠ desired := by
          rintro rfl
          rw [htaken] at hfree
          cases hfree
        refine ⟨Or.inr ⟨htaken, index, hone, hmax, hnumbered, ?_, hbefore⟩, ?_,
          FileTree.not_exists_iff.mp hfree, folder, last', hlast', hpre⟩
        · show ¬ disk.exists_ resolved = true
          rw [hfree]
          exact Bool.false_ne_true
        · rw [conflictOf, if_neg hne]
    · rw [if_neg htaken] at h
      obtain ⟨rfl, rfl⟩ := Prod.mk.inj (Except.ok.inj h)
      refine ⟨Or.inl ⟨htaken, rfl⟩, ?_, FileTree.not_exists_iff.mp (by simpa using htaken), folder,
        last, hfile, hpre⟩
      rw [conflictOf, if_pos rfl]

/-! ## What an export does to the file system -/

/-- Everything stays, and what is new lies strictly below the output directory. -/
structure Confined (outputDir : PathBuf) (disk disk' : Disk) : Prop where
  keeps : ∀ path node, disk.find path = some node → disk'.find path = some node
  below : ∀ path, disk.find path = none → disk'.find path ≠ none → StrictlyBelow outputDir path

theorem Confined.refl (outputDir : PathBuf) (disk : Disk) : Confined outputDir disk disk :=
  ⟨fun _ _ h => h, fun _ hfree h => absurd hfree h⟩

theorem Confined.trans {outputDir : PathBuf} {disk disk' disk'' : Disk}
    (h : Confined outputDir disk disk') (h' : Confined outputDir disk' disk'') :
    Confined outputDir disk disk'' := by
  refine ⟨fun path node hnode => h'.keeps path node (h.keeps path node hnode), ?_⟩
  intro path hfree hnew
  by_cases hmid : disk'.find path = none
  · exact h'.below path hmid hnew
  · exact h.below path hfree hmid

theorem Confined.of_growth {outputDir path : PathBuf} {disk disk' : Disk}
    (hdir : disk.find outputDir = some .folder) (hpre : outputDir <+: path)
    (h : FileTree.FolderGrowth path disk disk') : Confined outputDir disk disk' := by
  refine ⟨h.keeps, ?_⟩
  intro new hfree hnew
  obtain ⟨node, hnode⟩ := Option.ne_none_iff_exists'.mp hnew
  rcases h.adds new node hnode with hold | ⟨-, hway⟩
  · rw [hfree] at hold
    cases hold
  · exact disk.below_of_new (by rw [hdir]; exact Option.some_ne_none _) hpre hway hfree

theorem Confined.of_put {outputDir target : PathBuf} {disk : Disk} {node : FileNode Bytes}
    (hfree : disk.find target = none) (hbelow : StrictlyBelow outputDir target)
    (h : disk.CanPut target) : Confined outputDir disk (disk.put target node h) := by
  constructor
  · intro path other hother
    have hne : path ≠ target := by
      rintro rfl
      rw [hfree] at hother
      cases hother
    rw [FileTree.find_put, if_neg hne]
    exact hother
  · intro path hpath hnew
    by_cases heq : path = target
    · rw [heq]
      exact hbelow
    · rw [FileTree.find_put, if_neg heq] at hnew
      exact absurd hpath hnew

theorem exportBlob_cases (env : Environment) (i : Nat) (name : Text) (bytes : Bytes)
    (target : PathBuf) (disk : Disk) :
    (∃ e, exportBlob env i name bytes target disk = (.error e, disk)) ∨
    (∃ e part h, exportBlob env i name bytes target disk =
      (.error e, disk.put target (.file part) h)) ∨
    ∃ h, exportBlob env i name bytes target disk = (.ok (), disk.put target (.file bytes) h) := by
  rw [exportBlob]
  cases env.exported i with
  | done =>
    by_cases h : disk.CanPut target
    · refine Or.inr (Or.inr ⟨h, ?_⟩)
      simp only [FileTree.write, dif_pos h]
    · simp only [FileTree.write, dif_neg h]
      exact Or.inl ⟨_, rfl⟩
  | error cause part =>
    cases part with
    | none => exact Or.inl ⟨_, rfl⟩
    | some part =>
      by_cases h : disk.CanPut target
      · refine Or.inr (Or.inl ⟨.exporting name cause, part, h, ?_⟩)
        simp only [FileTree.write, Option.bind_some, dif_pos h]
        rfl
      · simp only [FileTree.write, Option.bind_some, dif_neg h]
        exact Or.inl ⟨_, rfl⟩

/-- The file system after an entry was exported to a target. -/
structure FileAdded (target : PathBuf) (bytes : Bytes) (disk disk' : Disk) : Prop where
  free : disk.find target = none
  taken : ∀ path, disk'.exists_ path = true ↔ disk.exists_ path = true ∨ path <+: target
  files : ∀ path content, disk'.find path = some (.file content) ↔
    disk.find path = some (.file content) ∨ path = target ∧ content = bytes

/-- Making the folders of a target and then the file adds just the file, and folders on the way. -/
theorem fileAdded_put {folder : PathBuf} {last : Text} {bytes : Bytes} {disk disk' : Disk}
    (hfree : disk.find (fileIn folder last) = none)
    (hgrowth : FileTree.FolderGrowth folder disk disk') (h : disk'.CanPut (fileIn folder last)) :
    FileAdded (fileIn folder last) bytes disk (disk'.put (fileIn folder last) (.file bytes) h) := by
  refine ⟨hfree, ?_, ?_⟩
  · intro path
    constructor
    · intro hexists
      obtain ⟨node, hnode⟩ := FileTree.exists_iff.mp hexists
      rw [FileTree.find_put] at hnode
      split at hnode
      · rename_i heq
        exact Or.inr (heq ▸ List.prefix_refl _)
      · rcases hgrowth.adds path node hnode with hold | ⟨-, hway⟩
        · exact Or.inl (FileTree.exists_of_find hold)
        · exact Or.inr (hway.trans (List.prefix_append _ _))
    · rintro (hold | hway)
      · obtain ⟨node, hnode⟩ := FileTree.exists_iff.mp hold
        have hkept := hgrowth.keeps path node hnode
        rw [FileTree.exists_, FileTree.find_put]
        split
        · rfl
        · rw [hkept]
          rfl
      · have htarget : (disk'.put (fileIn folder last) (.file bytes) h).exists_
            (fileIn folder last) = true := by
          rw [FileTree.exists_, FileTree.find_put, if_pos rfl]
          rfl
        exact FileTree.exists_of_prefix _ htarget hway
  · intro path content
    rw [FileTree.find_put]
    constructor
    · intro hfile
      split at hfile
      · rename_i heq
        exact Or.inr ⟨heq, (FileNode.file.inj (Option.some.inj hfile)).symm⟩
      · rcases hgrowth.adds path _ hfile with hold | ⟨hfolder, -⟩
        · exact Or.inl hold
        · cases hfolder
    · rintro (hold | ⟨rfl, rfl⟩)
      · have hne : path ≠ fileIn folder last := by
          rintro rfl
          rw [hfree] at hold
          cases hold
        rw [if_neg hne]
        exact hgrowth.keeps path _ hold
      · rw [if_pos rfl]

theorem top_folder {disk : Disk} {dir : PathBuf} (h : disk.find dir = some .folder) :
    disk.find [] = some .folder := by
  by_cases heq : dir = []
  · rw [← heq]
    exact h
  · exact disk.find_of_prefix (by rw [h]; exact Option.some_ne_none _) List.nil_prefix (Ne.symm heq)

theorem exportEntry_spec (env : Environment) (i : Nat) (name : Text) (bytes : Bytes)
    {outputDir : PathBuf} {disk : Disk} (hdir : disk.find outputDir = some .folder) :
    Confined outputDir disk (exportEntry env outputDir i name bytes disk).2 ∧
    ∀ conflict, (exportEntry env outputDir i name bytes disk).1 = .ok conflict →
      ∃ target, Placed (fun path => disk.exists_ path = true) (desiredPath outputDir name) target ∧
        conflict = conflictOf (desiredPath outputDir name) target ∧
        FileAdded target bytes disk (exportEntry env outputDir i name bytes disk).2 := by
  rw [exportEntry]
  cases htarget : exportTarget disk outputDir name with
  | error e => exact ⟨Confined.refl _ _, fun conflict h => nomatch h⟩
  | ok chosen =>
    obtain ⟨target, conflict⟩ := chosen
    obtain ⟨hplaced, hconflict, hfree, folder, last, rfl, hpre⟩ := exportTarget_ok htarget
    have hgrowth := FileTree.createDirAll_growth (env.refused i) disk folder (top_folder hdir)
    dsimp only
    rw [createParent, parentPath_fileIn]
    dsimp only
    generalize disk.createDirAll (env.refused i) folder = made at hgrowth
    obtain ⟨r, disk₁⟩ := made
    obtain ⟨hgrowth, hfolder⟩ := hgrowth
    have hconfined := Confined.of_growth hdir hpre hgrowth
    cases r with
    | error e => exact ⟨hconfined, fun conflict h => nomatch h⟩
    | ok u =>
      have hfree₁ : disk₁.find (fileIn folder last) = none := by
        by_contra hthere
        obtain ⟨node, hnode⟩ := Option.ne_none_iff_exists'.mp hthere
        rcases hgrowth.adds _ node hnode with hold | ⟨-, hway⟩
        · rw [hfree] at hold
          cases hold
        · have hlength := hway.length_le
          rw [fileIn, List.length_append, List.length_singleton] at hlength
          omega
      have hbelow := strictlyBelow_fileIn hpre last
      dsimp only
      rcases exportBlob_cases env i name bytes (fileIn folder last) disk₁ with
        ⟨e, heq⟩ | ⟨e, part, h, heq⟩ | ⟨h, heq⟩
      · rw [heq]
        exact ⟨hconfined, fun conflict h => nomatch h⟩
      · rw [heq]
        exact ⟨hconfined.trans (Confined.of_put hfree₁ hbelow h), fun conflict h => nomatch h⟩
      · rw [heq]
        refine ⟨hconfined.trans (Confined.of_put hfree₁ hbelow h), ?_⟩
        intro conflict' hok
        obtain rfl := Except.ok.inj hok
        exact ⟨_, hplaced, hconflict, fileAdded_put hfree hgrowth h⟩

/-- A complete export: every entry has one new file with its bytes, at its target, there is no other
new file, and the conflicts are the renamed entries. -/
structure Delivered (outputDir : PathBuf) (disk disk' : Disk) (collection : List (Text × Bytes))
    (conflicts : List ExportConflict) (targets : List PathBuf) : Prop where
  placed : Placement outputDir (fun path => disk.exists_ path = true) (collection.map Prod.fst)
    targets
  length : targets.length = collection.length
  nodup : targets.Nodup
  fresh : ∀ target ∈ targets, disk.find target = none
  files : ∀ path content, disk'.find path = some (.file content) ↔
    disk.find path = some (.file content) ∨ (path, content) ∈ targets.zip (collection.map Prod.snd)
  conflicts : conflicts = conflictsOf outputDir (collection.map Prod.fst) targets

theorem Delivered.nil (outputDir : PathBuf) (disk : Disk) :
    Delivered outputDir disk disk [] [] [] :=
  ⟨rfl, rfl, List.nodup_nil, fun _ h => absurd h List.not_mem_nil, by simp, rfl⟩

/-- What the later entries see as taken is what was taken before, the target and the way to it. -/
theorem Delivered.cons {outputDir target : PathBuf} {disk disk₁ disk' : Disk} {name : Text}
    {bytes : Bytes} {collection : List (Text × Bytes)} {conflicts : List ExportConflict}
    {targets : List PathBuf}
    (hplaced : Placed (fun path => disk.exists_ path = true) (desiredPath outputDir name) target)
    (hadded : FileAdded target bytes disk disk₁) (hconfined : Confined outputDir disk disk₁)
    (h : Delivered outputDir disk₁ disk' collection conflicts targets) :
    Delivered outputDir disk disk' ((name, bytes) :: collection)
      ((conflictOf (desiredPath outputDir name) target).toList ++ conflicts) (target :: targets) := by
  have htarget : disk₁.find target = some (.file bytes) :=
    (hadded.files target bytes).mpr (Or.inr ⟨rfl, rfl⟩)
  refine ⟨⟨hplaced, ?_⟩, ?_, ?_, ?_, ?_, ?_⟩
  · have htaken : (fun path => disk.exists_ path = true ∨ path <+: target) =
        fun path => disk₁.exists_ path = true :=
      funext fun path => propext (hadded.taken path).symm
    rw [htaken]
    exact h.placed
  · rw [List.length_cons, List.length_cons, h.length]
  · refine List.nodup_cons.mpr ⟨?_, h.nodup⟩
    intro hmem
    rw [h.fresh target hmem] at htarget
    cases htarget
  · rw [List.forall_mem_cons]
    refine ⟨hadded.free, ?_⟩
    intro other hother
    by_contra hthere
    obtain ⟨node, hnode⟩ := Option.ne_none_iff_exists'.mp hthere
    have hkept := hconfined.keeps other node hnode
    rw [h.fresh other hother] at hkept
    cases hkept
  · intro path content
    rw [h.files, hadded.files, List.map_cons, List.zip_cons_cons, List.mem_cons, Prod.mk.injEq,
      or_assoc]
  · rw [h.conflicts, conflictsOf, conflictsOf, List.map_cons, List.zipWith_cons_cons]
    cases conflictOf (desiredPath outputDir name) target with
    | none => rw [List.reduceOption_cons_of_none, Option.toList_none, List.nil_append]
    | some conflict => rw [List.reduceOption_cons_of_some, Option.toList_some, List.singleton_append]

/-- The loop from any file system with the output directory. -/
theorem exportEntries_spec (env : Environment) (collection : List (Text × Bytes)) (i : Nat)
    {outputDir : PathBuf} {disk : Disk} (hdir : disk.find outputDir = some .folder) :
    Confined outputDir disk (exportEntries env outputDir i collection disk).2 ∧
    ∀ conflicts, (exportEntries env outputDir i collection disk).1 = .ok conflicts →
      ∃ targets, Delivered outputDir disk (exportEntries env outputDir i collection disk).2 collection
        conflicts targets := by
  induction collection generalizing i disk with
  | nil =>
    refine ⟨Confined.refl _ _, ?_⟩
    intro conflicts h
    obtain rfl := Except.ok.inj h
    exact ⟨[], Delivered.nil _ _⟩
  | cons entry collection ih =>
    obtain ⟨name, bytes⟩ := entry
    obtain ⟨hconfined, hok⟩ := exportEntry_spec env i name bytes hdir
    rw [exportEntries]
    generalize exportEntry env outputDir i name bytes disk = first at hconfined hok
    obtain ⟨r, disk₁⟩ := first
    cases r with
    | error e => exact ⟨hconfined, fun conflicts h => nomatch h⟩
    | ok conflict =>
      obtain ⟨target, hplaced, rfl, hadded⟩ := hok conflict rfl
      obtain ⟨hconfined', hok'⟩ := ih (i + 1) (hconfined.keeps _ _ hdir)
      dsimp only
      generalize exportEntries env outputDir (i + 1) collection disk₁ = rest at hconfined' hok'
      obtain ⟨r', disk₂⟩ := rest
      cases r' with
      | error e => exact ⟨hconfined.trans hconfined', fun conflicts h => nomatch h⟩
      | ok conflicts =>
        refine ⟨hconfined.trans hconfined', ?_⟩
        intro all hall
        obtain rfl := Except.ok.inj hall
        obtain ⟨targets, hdelivered⟩ := hok' conflicts rfl
        exact ⟨target :: targets, Delivered.cons hplaced hadded hconfined hdelivered⟩

/-- An export into an existing directory changes nothing that existed and creates only paths strictly
below the directory, whether it succeeds or not; on success each entry has its new file. -/
theorem export_confined (env : Environment) (disk : Disk) (collection : List (Text × Bytes))
    (outputDir : PathBuf) (hdir : disk.find outputDir = some .folder) :
    Confined outputDir disk (exportToDirectory env disk collection outputDir).2 ∧
    ∀ conflicts, (exportToDirectory env disk collection outputDir).1 = .ok conflicts →
      ∃ targets, Delivered outputDir disk (exportToDirectory env disk collection outputDir).2
        collection conflicts targets :=
  exportEntries_spec env collection 0 hdir

/-- A file system with nothing but its root. -/
def emptyDisk : Disk where
  find path := if path = [] ∨ path = [.rootDir] then some .folder else none
  parent := by
    intro path hne hfind
    have hpath : path = [] ∨ path = [.rootDir] := by
      by_contra hnot
      exact hfind (if_neg hnot)
    rcases hpath with rfl | rfl
    · exact absurd rfl hne
    · rfl

/-- A system and a store that never fail. -/
def Environment.reliable : Environment := ⟨fun _ _ => none, fun _ => .done, ""⟩

/-- Two entries of one name: the second goes to `a (1)`. -/
theorem export_two_of_a_name :
    ∃ targets, Delivered [.rootDir] emptyDisk
      (exportToDirectory .reliable emptyDisk [(['a'], [1]), (['a'], [2])] [.rootDir]).2
      [(['a'], [1]), (['a'], [2])]
      [⟨fileIn [.rootDir] ['a'], fileIn [.rootDir] ['a', ' ', '(', '1', ')']⟩] targets :=
  (export_confined .reliable emptyDisk [(['a'], [1]), (['a'], [2])] [.rootDir] rfl).2 _ rfl

end DashBeam.Collection
