import DashBeam.Collection.ExportDirectory
import DashBeam.Lib.Trim

/-!
# What a history row opens

`resolve_open_target` of `src-tauri/src/commands.rs`: the names recorded for a transfer are looked up
below its destination, and what is shown is the one file that is left, or the folder the files left
have in common. Names come from the peer's collection. The file system is what exists, and the
loop that climbs to the common folder runs on fuel.

Every file found is the destination or below it (`mem_existingPaths`). The loop climbs from a folder to
what it has in common with another (`climb_reaches`), so over all files to the deepest folder that
holds them (`commonFolder_reaches`). A recorded name that leads to the destination itself takes
the loop out of it.
-/

namespace DashBeam.Desktop

open Lib Collection

/-! ## The code -/

/-- The paths that exist: with a path its parents, where they are not the empty path. -/
structure ExistingPaths where
  exists_ : PathBuf → Bool
  parent : ∀ {path up}, exists_ path = true → parentPath path = some up → up ≠ [] →
    exists_ up = true

def isRelative (path : PathBuf) : Bool := path.head? ≠ some .rootDir

/-- `Path::join`: an absolute path replaces the base, and a dot at the start of a relative one is no
component after the base. -/
def join (base path : PathBuf) : PathBuf :=
  if isRelative path = false ∨ base = [] then path else base ++ path.filter (· ≠ .curDir)

/-- The filter for names of this transfer. -/
def staysBelow (name : Text) : Bool :=
  isRelative (components name) && (components name).all (· ≠ .parentDir)

/-- `existing`. -/
def existingPaths (disk : ExistingPaths) (base : PathBuf) (fileNames : List Text) : List PathBuf :=
  ((fileNames.filter staysBelow).map fun name => join base (components name)).filter disk.exists_

/-- `while !parent.starts_with(&common)`: the folder reached, or none where there is no parent left. -/
def climb (parent : PathBuf) : Nat → PathBuf → Option (Option PathBuf)
  | 0, _ => none
  | fuel + 1, common =>
    if common <+: parent then some (some common)
    else
      match parentPath common with
      | some up => climb parent fuel up
      | none => some none

/-- `for path in rest`. -/
def commonFolder (fuel : Nat) (base : PathBuf) : PathBuf → List PathBuf → Option PathBuf
  | common, [] => some common
  | common, path :: rest =>
    match parentPath path with
    | none => some base
    | some parent =>
      match climb parent fuel common with
      | none => none
      | some none => some base
      | some (some common) => commonFolder fuel base common rest

/-- `match existing.as_slice()`. -/
def openExisting (disk : ExistingPaths) (fuel : Nat) (base : PathBuf) (fileNames : List Text) :
    List PathBuf → Option (Option PathBuf)
  | [] => some (if fileNames.isEmpty && disk.exists_ base then some base else none)
  | [only] => some (some only)
  | first :: rest =>
    match parentPath first with
    | none => some none
    | some common => (commonFolder fuel base common rest).map some

def resolveOpenTarget (disk : ExistingPaths) (fuel : Nat) (savePath : Text)
    (fileNames : List Text) : Option (Option PathBuf) :=
  let trimmed := trimEnds isWhitespace savePath
  let base := components trimmed
  if trimmed = [] then some none
  else openExisting disk fuel base fileNames (existingPaths disk base fileNames)

/-! ## Paths below a folder -/

/-- The path is reached from the folder by components other than the root. -/
def Under (folder path : PathBuf) : Prop := ∃ rel, .rootDir ∉ rel ∧ path = folder ++ rel

theorem Under.isPrefix {folder path : PathBuf} (h : Under folder path) : folder <+: path := by
  obtain ⟨rel, -, rfl⟩ := h
  exact List.prefix_append folder rel

theorem Under.parentPath_eq {folder path : PathBuf} (h : Under folder path) (hne : path ≠ folder) :
    parentPath path = some path.dropLast ∧ Under folder path.dropLast := by
  obtain ⟨rel, hrel, rfl⟩ := h
  have hnil : rel ≠ [] := by
    rintro rfl
    exact hne (List.append_nil folder)
  have hlast : (folder ++ rel).getLast? = some (rel.getLast hnil) := by
    rw [List.getLast?_append, List.getLast?_eq_some_getLast hnil]
    rfl
  have hroot : rel.getLast hnil ≠ .rootDir := by
    intro heq
    rw [← heq] at hrel
    exact hrel (List.getLast_mem hnil)
  constructor
  · rw [parentPath, hlast]
    cases hcase : rel.getLast hnil with
    | rootDir => exact absurd hcase hroot
    | curDir => rfl
    | parentDir => rfl
    | normal name => rfl
  · rw [List.dropLast_append_of_ne_nil hnil]
    exact ⟨rel.dropLast, fun hmem => hrel (List.mem_of_mem_dropLast hmem), rfl⟩

theorem parentPath_some {path up : PathBuf} (h : parentPath path = some up) :
    ∃ last, last ≠ .rootDir ∧ path = up ++ [last] := by
  rw [parentPath] at h
  split at h
  · cases h
  · cases h
  · rename_i last hroot hlast
    obtain ⟨hne, rfl⟩ := List.mem_getLast?_eq_getLast hlast
    rw [← Option.some.inj h]
    exact ⟨path.getLast hne, hroot, (List.dropLast_append_getLast hne).symm⟩

theorem Under.exists_of_prefix {disk : ExistingPaths} {folder path above : PathBuf}
    (h : Under folder path) (hfolder : folder ≠ []) (hpath : disk.exists_ path = true)
    (habove : folder <+: above) (hpre : above <+: path) : disk.exists_ above = true := by
  obtain ⟨rest, rfl⟩ := hpre
  induction rest using List.reverseRecOn with
  | nil =>
    rw [List.append_nil] at hpath
    exact hpath
  | append_singleton rest last ih =>
    have hne : above ++ (rest ++ [last]) ≠ folder := by
      intro heq
      have hlength := habove.length_le
      rw [← heq] at hlength
      simp at hlength
    obtain ⟨hparent, hunder⟩ := h.parentPath_eq hne
    rw [← List.append_assoc, List.dropLast_concat] at hparent hunder
    have hnil : above ++ rest ≠ [] := by
      intro heq
      have hempty := habove.trans (List.prefix_append above rest)
      rw [heq] at hempty
      exact hfolder (List.prefix_nil.mp hempty)
    rw [← List.append_assoc] at hpath
    exact ih hunder (disk.parent hpath hparent hnil)

/-! ## The loops -/

theorem climb_stays {parent common : PathBuf} (h : common <+: parent) :
    LongestCommon common [common, parent] ∧
      ∀ fuel, common.length < fuel → climb parent fuel common = some (some common) := by
  constructor
  · exact longestCommon_pair.mpr ⟨List.prefix_refl _, h, fun other hother _ => hother⟩
  · intro fuel hfuel
    cases fuel with
    | zero => omega
    | succ fuel => rw [climb, if_pos h]

theorem climb_reaches {floor parent common : PathBuf} (hcommon : Under floor common)
    (hparent : floor <+: parent) : ∃ reached, Under floor reached ∧
      LongestCommon reached [common, parent] ∧ reached.length ≤ common.length ∧
      ∀ fuel, common.length < fuel → climb parent fuel common = some (some reached) := by
  induction common using List.reverseRecOn with
  | nil =>
    have hnil : ([] : PathBuf) <+: parent := List.nil_prefix
    obtain ⟨hlongest, hclimb⟩ := climb_stays hnil
    exact ⟨[], hcommon, hlongest, le_refl _, hclimb⟩
  | append_singleton front last ih =>
    by_cases hpre : front ++ [last] <+: parent
    · obtain ⟨hlongest, hclimb⟩ := climb_stays hpre
      exact ⟨_, hcommon, hlongest, le_refl _, hclimb⟩
    · have hne : front ++ [last] ≠ floor := by
        rintro rfl
        exact hpre hparent
      obtain ⟨hup, hunder⟩ := hcommon.parentPath_eq hne
      rw [List.dropLast_concat] at hup hunder
      obtain ⟨reached, hreached, hlongest, hlength, hclimb⟩ := ih hunder
      rw [List.length_append, List.length_singleton]
      refine ⟨reached, hreached, ?_, by omega, ?_⟩
      · -- a common start of the longer folder is one of the shorter, which is not itself above `parent`
        obtain ⟨hfront, hparent, hlongest⟩ := longestCommon_pair.mp hlongest
        refine longestCommon_pair.mpr
          ⟨hfront.trans (List.prefix_append _ _), hparent, fun other hother hotherParent => ?_⟩
        rcases List.prefix_concat_iff.mp hother with rfl | hother
        · exact absurd hotherParent hpre
        · exact hlongest other hother hotherParent
      · intro fuel hfuel
        cases fuel with
        | zero => omega
        | succ fuel =>
          rw [climb, if_neg hpre, hup]
          exact hclimb fuel (by omega)

/-- Over files below a folder, the loop ends at what their parents and its first folder have in
common. -/
theorem commonFolder_reaches (base : PathBuf) {floor common : PathBuf} {rest : List PathBuf}
    (hcommon : Under floor common) (hrest : ∀ path ∈ rest, Under floor path ∧ path ≠ floor) :
    ∃ reached, Under floor reached ∧ LongestCommon reached (common :: rest.map List.dropLast) ∧
      ∀ fuel, common.length < fuel → commonFolder fuel base common rest = some reached := by
  induction rest generalizing common with
  | nil => exact ⟨common, hcommon, longestCommon_singleton common, fun fuel _ => rfl⟩
  | cons path rest ih =>
    obtain ⟨hpath, hne⟩ := hrest path List.mem_cons_self
    obtain ⟨hup, hunder⟩ := hpath.parentPath_eq hne
    obtain ⟨front, hfront, hlongest, hlength, hclimb⟩ := climb_reaches hcommon hunder.isPrefix
    obtain ⟨reached, hreached, hall, hloop⟩ :=
      ih hfront fun other hother => hrest other (List.mem_cons_of_mem _ hother)
    refine ⟨reached, hreached, hlongest.merge hall, fun fuel hfuel => ?_⟩
    simp only [commonFolder, hup, hclimb fuel hfuel]
    exact hloop fuel (by omega)

/-- A file without a parent makes the loop answer the base. -/
theorem commonFolder_base {base common : PathBuf} {rest : List PathBuf}
    (hbase : parentPath base = none) (hcommon : Under base common)
    (hrest : ∀ path ∈ rest, Under base path) (hmem : base ∈ rest) :
    ∀ fuel, common.length < fuel → commonFolder fuel base common rest = some base := by
  induction rest generalizing common with
  | nil => exact absurd hmem List.not_mem_nil
  | cons path rest ih =>
    intro fuel hfuel
    by_cases hpath : path = base
    · rw [hpath, commonFolder, hbase]
    · obtain ⟨hup, hunder⟩ := (hrest path List.mem_cons_self).parentPath_eq hpath
      obtain ⟨front, hfront, -, hlength, hclimb⟩ := climb_reaches hcommon hunder.isPrefix
      have hlater : base ∈ rest := (List.mem_cons.mp hmem).resolve_left (Ne.symm hpath)
      simp only [commonFolder, hup, hclimb fuel hfuel]
      exact ih hfront (fun other hother => hrest other (List.mem_cons_of_mem _ hother)) hlater fuel
        (by omega)

/-! ## The files found -/

/-- A recorded name that is looked up, and found. -/
def survives (disk : ExistingPaths) (base : PathBuf) (name : Text) : Bool :=
  staysBelow name && disk.exists_ (join base (components name))

/-- The name has no component of its own: it is empty, or dots and slashes. -/
def leadsToBase (name : Text) : Bool := (components name).all (· = .curDir)

theorem survives_iff {disk : ExistingPaths} {base : PathBuf} {name : Text} :
    survives disk base name = true ↔
      staysBelow name = true ∧ disk.exists_ (join base (components name)) = true := by
  rw [survives, Bool.and_eq_true]

theorem existingPaths_eq (disk : ExistingPaths) (base : PathBuf) (names : List Text) :
    existingPaths disk base names =
      (names.filter (survives disk base)).map fun name => join base (components name) := by
  rw [existingPaths, List.filter_map, List.filter_filter]
  congr 1
  refine List.filter_congr fun name _ => ?_
  rw [survives, Function.comp_apply, Bool.and_comm]

theorem join_eq {base : PathBuf} {name : Text} (hbase : base ≠ []) (h : staysBelow name = true) :
    join base (components name) = base ++ (components name).filter (· ≠ .curDir) := by
  rw [staysBelow, Bool.and_eq_true] at h
  rw [join, if_neg]
  simp [h.1, hbase]

theorem rootDir_notMem {s : Text} (h : isRelative (components s) = true) :
    Component.rootDir ∉ components s := by
  rw [isRelative, decide_eq_true_eq] at h
  have hslash : s.head? ≠ some '/' := by
    intro heq
    rw [components, if_pos heq] at h
    exact h rfl
  rw [components, if_neg hslash, List.nil_append, List.mem_filterMap]
  rintro ⟨part, -, hpart⟩
  split at hpart
  · cases hpart
  · split at hpart
    · split at hpart <;> cases hpart
    · split at hpart <;> cases hpart

theorem under_join {base : PathBuf} {name : Text} (hbase : base ≠ [])
    (h : staysBelow name = true) : Under base (join base (components name)) := by
  rw [join_eq hbase h]
  rw [staysBelow, Bool.and_eq_true] at h
  exact ⟨_, fun hmem => rootDir_notMem h.1 (List.mem_filter.mp hmem).1, rfl⟩

theorem join_eq_base_iff {base : PathBuf} {name : Text} (hbase : base ≠ [])
    (h : staysBelow name = true) :
    join base (components name) = base ↔ leadsToBase name = true := by
  rw [join_eq hbase h, List.append_right_eq_self, List.filter_eq_nil_iff, leadsToBase, List.all_eq_true]
  simp

theorem components_ne_nil {s : Text} (h : s ≠ []) : components s ≠ [] := by
  by_cases hslash : s.head? = some '/'
  · rw [components, if_pos hslash]
    exact List.cons_ne_nil _ _
  · rw [components, if_neg hslash, List.nil_append]
    cases hsplit : s.splitOn '/' with
    | nil => exact absurd hsplit (List.splitOn_ne_nil _ _)
    | cons first parts =>
      have hfirst : first ≠ [] := by
        have hhead := head?_splitOn '/' s
        rw [hsplit, List.head?_cons, Option.some.injEq] at hhead
        rw [hhead]
        cases s with
        | nil => exact absurd rfl h
        | cons c s =>
          have hc : c ≠ '/' := fun heq => hslash (congrArg some heq)
          simp [hc]
      rw [List.zipIdx_cons, List.filterMap_cons, if_neg hfirst]
      intro hnil
      split at hnil
      · rename_i hnone
        split at hnone
        · cases hnone
        · split at hnone <;> cases hnone
      · cases hnil

theorem mem_existingPaths {disk : ExistingPaths} {base path : PathBuf} {names : List Text}
    (hbase : base ≠ []) (h : path ∈ existingPaths disk base names) :
    Under base path ∧ disk.exists_ path = true := by
  rw [existingPaths_eq, List.mem_map] at h
  obtain ⟨name, hname, rfl⟩ := h
  obtain ⟨hbelow, hexists⟩ := survives_iff.mp (List.mem_filter.mp hname).2
  exact ⟨under_join hbase hbelow, hexists⟩

theorem base_mem_existingPaths {disk : ExistingPaths} {base : PathBuf} {names : List Text}
    (hbase : base ≠ []) : base ∈ existingPaths disk base names ↔
      ∃ name ∈ names, survives disk base name = true ∧ leadsToBase name = true := by
  rw [existingPaths_eq, List.mem_map]
  refine exists_congr fun name => ?_
  rw [List.mem_filter, and_assoc]
  refine and_congr_right fun _ => and_congr_right fun hsurvives => ?_
  exact join_eq_base_iff hbase (survives_iff.mp hsurvives).1

theorem head_existingPaths {disk : ExistingPaths} {base : PathBuf} {names : List Text}
    (hbase : base ≠ []) : (existingPaths disk base names).head? = some base ↔
      ∃ name, names.find? (survives disk base) = some name ∧ leadsToBase name = true := by
  rw [existingPaths_eq, List.head?_map, List.head?_filter, Option.map_eq_some_iff]
  refine exists_congr fun name => and_congr_right fun hfind => ?_
  exact join_eq_base_iff hbase (survives_iff.mp (List.find?_some hfind)).1

/-- Several files below a floor are shown in the deepest folder that holds them. -/
theorem openExisting_folder (disk : ExistingPaths) (base : PathBuf) (names : List Text)
    {floor first second : PathBuf} {rest : List PathBuf}
    (hpaths : ∀ path ∈ first :: second :: rest, Under floor path ∧ path ≠ floor) :
    ∃ folder enough, Under floor folder ∧ DeepestFolder folder (first :: second :: rest) ∧
      ∀ fuel, enough ≤ fuel →
        openExisting disk fuel base names (first :: second :: rest) = some (some folder) := by
  obtain ⟨hfirst, hne⟩ := hpaths first List.mem_cons_self
  obtain ⟨hup, hunder⟩ := hfirst.parentPath_eq hne
  obtain ⟨folder, hfolder, hlongest, hloop⟩ := commonFolder_reaches base hunder
    fun path hpath => hpaths path (List.mem_cons_of_mem _ hpath)
  refine ⟨folder, first.dropLast.length + 1, hfolder, ?_, fun fuel hfuel => ?_⟩
  · refine LongestCommon.deepestFolder (fun path hpath hnil => ?_) hlongest
    obtain ⟨hfloor, hother⟩ := hpaths path hpath
    rw [hnil] at hfloor hother
    exact hother (List.prefix_nil.mp hfloor.isPrefix).symm
  · simp only [openExisting, hup, hloop fuel hfuel, Option.map_some]

/-! ## Staying inside the destination -/

/-- What is opened is the base or below it and exists, and of several files it is the deepest folder
that holds them. -/
def OpensInside (disk : ExistingPaths) (base : PathBuf) (paths : List PathBuf)
    (result : Option PathBuf) : Prop :=
  ∀ target, result = some target → base <+: target ∧ disk.exists_ target = true ∧
    (2 ≤ paths.length → DeepestFolder target paths)

/-- There is no base, at most one file is found, or no name that leads to the base itself; or the base
has no parent and the first file found is the base. -/
def KeepsInside (disk : ExistingPaths) (savePath : Text) (names : List Text) : Prop :=
  let trimmed := trimEnds isWhitespace savePath
  let base := components trimmed
  trimmed = [] ∨ (names.filter (survives disk base)).length ≤ 1 ∨
    (¬ ∃ name ∈ names, survives disk base name = true ∧ leadsToBase name = true) ∨
    parentPath base = none ∧
      ∃ name, names.find? (survives disk base) = some name ∧ leadsToBase name = true

theorem keepsInside_iff {disk : ExistingPaths} {savePath trimmed : Text} {names : List Text}
    {base : PathBuf} {paths : List PathBuf} (htrim : trimEnds isWhitespace savePath = trimmed)
    (hne : trimmed ≠ []) (hbase : components trimmed = base)
    (hpaths : existingPaths disk base names = paths) :
    KeepsInside disk savePath names ↔
      paths.length ≤ 1 ∨ base ∉ paths ∨ parentPath base = none ∧ paths.head? = some base := by
  have hnil : base ≠ [] := hbase ▸ components_ne_nil hne
  have hlength : (names.filter (survives disk base)).length = paths.length := by
    rw [← hpaths, existingPaths_eq, List.length_map]
  rw [KeepsInside, htrim, hbase, or_iff_right hne, hlength, ← base_mem_existingPaths hnil,
    ← head_existingPaths hnil, hpaths]

/-- Several files found, none of them the base. -/
theorem opensInside_of_notMem {disk : ExistingPaths} (names : List Text)
    {base first second : PathBuf} {rest : List PathBuf} (hbase : base ≠ [])
    (hpaths : ∀ path ∈ first :: second :: rest, Under base path ∧ disk.exists_ path = true)
    (hnot : base ∉ first :: second :: rest) : ∃ result,
      (∃ enough, ∀ fuel, enough ≤ fuel →
        openExisting disk fuel base names (first :: second :: rest) = some result) ∧
      OpensInside disk base (first :: second :: rest) result := by
  obtain ⟨folder, enough, hfolder, hdeepest, hopen⟩ :=
    openExisting_folder disk base names fun path hpath =>
      ⟨(hpaths path hpath).1, fun heq => hnot (heq ▸ hpath)⟩
  refine ⟨some folder, ⟨enough, hopen⟩, ?_⟩
  rintro _ ⟨⟩
  obtain ⟨hfirst, hexists⟩ := hpaths first List.mem_cons_self
  have hpre := (hdeepest.contains first List.mem_cons_self).1
  exact ⟨hfolder.isPrefix, hfirst.exists_of_prefix hbase hexists hfolder.isPrefix hpre,
    fun _ => hdeepest⟩

/-- Several files found, one of them the base, which has a parent: what is opened is above it. -/
theorem opensOutside_of_mem {disk : ExistingPaths} (names : List Text)
    {base up first second : PathBuf} {rest : List PathBuf} (hup : parentPath base = some up)
    (hpaths : ∀ path ∈ first :: second :: rest, Under base path ∧ disk.exists_ path = true)
    (hmem : base ∈ first :: second :: rest) : ∃ result,
      (∃ enough, ∀ fuel, enough ≤ fuel →
        openExisting disk fuel base names (first :: second :: rest) = some result) ∧
      ¬ OpensInside disk base (first :: second :: rest) result := by
  obtain ⟨last, hroot, rfl⟩ := parentPath_some hup
  have hunder : ∀ path ∈ first :: second :: rest, Under up path ∧ path ≠ up := by
    intro path hpath
    obtain ⟨rel, hrel, rfl⟩ := (hpaths path hpath).1
    refine ⟨⟨last :: rel, ?_, by rw [List.append_assoc, List.singleton_append]⟩, ?_⟩
    · rw [List.mem_cons, not_or]
      exact ⟨hroot.symm, hrel⟩
    · intro heq
      have hlength := congrArg List.length heq
      simp at hlength
  obtain ⟨folder, enough, -, hdeepest, hopen⟩ :=
    openExisting_folder disk (up ++ [last]) names hunder
  refine ⟨some folder, ⟨enough, hopen⟩, fun hinside => ?_⟩
  have hbelow := hdeepest.contains _ hmem
  have hpre := (hinside folder rfl).1
  exact hbelow.2 (hpre.eq_of_length_le hbelow.1.length_le)

/-- Several files found, one of them the base, which has no parent: nothing is opened if it is the first,
and else the base, which does not hold itself. -/
theorem opens_of_mem_root {disk : ExistingPaths} (names : List Text)
    {base first second : PathBuf} {rest : List PathBuf} (hroot : parentPath base = none)
    (hpaths : ∀ path ∈ first :: second :: rest, Under base path ∧ disk.exists_ path = true)
    (hmem : base ∈ first :: second :: rest) : ∃ result,
      (∃ enough, ∀ fuel, enough ≤ fuel →
        openExisting disk fuel base names (first :: second :: rest) = some result) ∧
      (OpensInside disk base (first :: second :: rest) result ↔ first = base) := by
  by_cases hfirst : first = base
  · refine ⟨none, ⟨0, fun fuel _ => ?_⟩, iff_of_true (fun target h => nomatch h) hfirst⟩
    simp only [openExisting, hfirst, hroot]
  · obtain ⟨hup, hunder⟩ := (hpaths first List.mem_cons_self).1.parentPath_eq hfirst
    have hlater : base ∈ second :: rest := (List.mem_cons.mp hmem).resolve_left (Ne.symm hfirst)
    have hloop := commonFolder_base hroot hunder
      (fun path hpath => (hpaths path (List.mem_cons_of_mem _ hpath)).1) hlater
    refine ⟨some base, ⟨first.dropLast.length + 1, fun fuel hfuel => ?_⟩,
      iff_of_false (fun hinside => ?_) hfirst⟩
    · simp only [openExisting, hup, hloop fuel hfuel, Option.map_some]
    · have hdeepest := (hinside base rfl).2.2 (by simp)
      exact (hdeepest.contains base hmem).2 rfl

/-- The loop ends. What is opened stays inside the destination, and is the deepest folder of several
files, unless the base itself is among several files found. -/
theorem open_target_inside_iff (disk : ExistingPaths) (savePath : Text) (names : List Text) :
    ∃ result, (∃ enough, ∀ fuel, enough ≤ fuel →
        resolveOpenTarget disk fuel savePath names = some result) ∧
      (OpensInside disk (components (trimEnds isWhitespace savePath))
          (existingPaths disk (components (trimEnds isWhitespace savePath)) names) result ↔
        KeepsInside disk savePath names) := by
  generalize htrim : trimEnds isWhitespace savePath = trimmed
  by_cases hne : trimmed = []
  · refine ⟨none, ⟨0, fun fuel _ => ?_⟩, iff_of_true (fun target h => nomatch h) ?_⟩
    · simp only [resolveOpenTarget, htrim, if_pos hne]
    · exact Or.inl (htrim.trans hne)
  · generalize hcomponents : components trimmed = base
    generalize hexisting : existingPaths disk base names = paths
    have hbase : base ≠ [] := hcomponents ▸ components_ne_nil hne
    have hpaths : ∀ path ∈ paths, Under base path ∧ disk.exists_ path = true :=
      fun path hpath => mem_existingPaths hbase (hexisting ▸ hpath)
    rw [keepsInside_iff htrim hne hcomponents hexisting]
    simp only [resolveOpenTarget, htrim, hcomponents, hexisting, if_neg hne]
    match paths, hpaths with
    | [], _ =>
      refine ⟨_, ⟨0, fun fuel _ => rfl⟩, iff_of_true (fun target h => ?_) (Or.inl (Nat.zero_le 1))⟩
      split at h
      · rename_i hthere
        rw [Bool.and_eq_true] at hthere
        rw [← Option.some.inj h]
        exact ⟨List.prefix_refl _, hthere.2, fun hlength => absurd hlength (by decide)⟩
      · cases h
    | [only], hpaths =>
      refine ⟨_, ⟨0, fun fuel _ => rfl⟩, iff_of_true (fun target h => ?_) (Or.inl (le_refl 1))⟩
      obtain ⟨hunder, hexists⟩ := hpaths only List.mem_cons_self
      rw [← Option.some.inj h]
      exact ⟨hunder.isPrefix, hexists, fun hlength => absurd hlength (by simp)⟩
    | first :: second :: rest, hpaths =>
      rw [or_iff_right (by simp)]
      by_cases hmem : base ∈ first :: second :: rest
      · rw [or_iff_right (not_not_intro hmem)]
        cases hup : parentPath base with
        | none =>
          obtain ⟨result, hopen, hiff⟩ := opens_of_mem_root names hup hpaths hmem
          refine ⟨result, hopen, hiff.trans ?_⟩
          rw [List.head?_cons, Option.some.injEq, and_iff_right rfl]
        | some up =>
          obtain ⟨result, hopen, houtside⟩ := opensOutside_of_mem names hup hpaths hmem
          exact ⟨result, hopen, iff_of_false houtside fun h => nomatch h.1⟩
      · obtain ⟨result, hopen, hinside⟩ :=
          opensInside_of_notMem names hbase hpaths hmem
        exact ⟨result, hopen, iff_of_true hinside (Or.inl hmem)⟩

/-! ## A name without components -/

def oneFileBelow (destination file : Text) : ExistingPaths where
  exists_ path := decide (path <+: [.rootDir, .normal (.text destination), .normal (.text file)])
  parent := by
    intro path up hpath hup hne
    obtain ⟨last, -, rfl⟩ := parentPath_some hup
    rw [decide_eq_true_eq] at hpath ⊢
    exact (List.prefix_append up [last]).trans hpath

/-- With an empty name and a file recorded, the folder opened is the one above the destination. -/
theorem open_target_outside : ¬ ∀ (disk : ExistingPaths) (savePath : Text) (names : List Text)
    (fuel : Nat) (target : PathBuf), savePath ≠ [] →
      resolveOpenTarget disk fuel savePath names = some (some target) →
        components (trimEnds isWhitespace savePath) <+: target := by
  intro h
  have hopen := h (oneFileBelow "dest".toList "a.txt".toList) "/dest".toList
    ["a.txt".toList, []] 3 [.rootDir] (by decide) (by decide +kernel)
  exact absurd hopen (by decide +kernel)

end DashBeam.Desktop
