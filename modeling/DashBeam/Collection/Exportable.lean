import DashBeam.Collection.MovedNames
import DashBeam.Collection.RoundTrip

/-!
# Which imported collections can be exported

The export fails at a name it does not accept, at a file where it needs a folder, and at a name that is
taken with all its numbered forms. The import gives the names sorted and each at most twice, and so
what an export into an empty directory leaves is known after each entry (`Progress`): the entries at
their names, except those that were moved (`Moved`).
-/

namespace DashBeam.Collection

open Lib
open Lib.FileTree (Mirrored)

/-! ## What can be exported -/

/-- The names whose entries are moved: those given twice, and what an entry without extension is
moved to, if that is given as well. -/
inductive Moved (twice given : Text → Prop) : Text → Prop
  | twice {name : Text} : twice name → Moved twice given name
  | onto {name : Text} : Moved twice given name → ¬ HasExtension name →
      given (movedName name 1) → Moved twice given (movedName name 1)

/-- A name that the import gives to selected files. -/
def Given (names : List Text) (name : Text) : Prop :=
  ∃ selected k, k < names.count selected ∧ engineLabel selected k = name

/-- A name that the import gives twice: that of a selected file, and of a repetition of another. -/
def GivenTwice (names : List Text) (name : Text) : Prop :=
  name ∈ names ∧ ∃ selected k, 0 < k ∧ k < names.count selected ∧ engineLabel selected k = name

/-- When the collection of selected files can be exported. -/
structure Exportable (names : List Text) : Prop where
  noColon : ∀ name ∈ names, ':' ∉ name
  noFolder : ∀ name, Given names name → ∀ other ∈ names, ¬ name ++ ['/'] <+: other
  movedEnd : ∀ name, Moved (GivenTwice names) (Given names) name → ¬ HasExtension name →
    ∀ other ∈ names, ¬ movedName name 1 ++ ['/'] <+: other
  movedInside : ∀ name, Moved (GivenTwice names) (Given names) name → HasExtension name →
    ∃ index, 1 ≤ index ∧ index ≤ 9999 ∧ ¬ Given names (movedName name index) ∧
      ∀ other ∈ names, ¬ movedName name index ++ ['/'] <+: other

/-- A directory with nothing in it. -/
structure EmptyDirectory (disk : Disk) (dir : PathBuf) : Prop where
  folder : disk.find dir = some .folder
  nothing : ∀ path, StrictlyBelow dir path → disk.find path = none

/-- A collection is exported: both exports accept its names, none of which is a folder of another, and
the export into the directory succeeds. -/
structure Exports (env : Environment) (disk : Disk) (collection : List (Text × Bytes))
    (outputDir : PathBuf) : Prop where
  accepted : ∀ name ∈ collection.map Prod.fst,
    (∃ target, getExportPath outputDir name = .ok target) ∧ validateCollectionPath name = .ok ()
  noFolder : ∀ name ∈ collection.map Prod.fst, ∀ other ∈ collection.map Prod.fst,
    ¬ name ++ ['/'] <+: other
  exported : ∃ conflicts, (exportToDirectory env disk collection outputDir).1 = .ok conflicts

/-! ## What the directory holds -/

/-- A name is that of a file, or of a folder of one. -/
def Taken (held : List Text) (name : Text) : Prop :=
  ∃ other ∈ held, name = other ∨ name ++ ['/'] <+: other

theorem prefix_of_below {name other : Text} (h : name = other ∨ name ++ ['/'] <+: other) :
    name <+: other := by
  rcases h with rfl | hpre
  · exact List.prefix_refl _
  · exact (List.prefix_append _ _).trans hpre

theorem taken_of_mem {held : List Text} {name : Text} (h : name ∈ held) : Taken held name :=
  ⟨name, h, Or.inl rfl⟩

/-- The directory has files of certain names, and their folders. -/
structure Holds (outputDir : PathBuf) (held : List Text) (disk : Disk) : Prop where
  folder : disk.find outputDir = some .folder
  taken : ∀ name, disk.exists_ (desiredPath outputDir name) = true ↔ Taken held name
  file : ∀ name, disk.isFile (desiredPath outputDir name) = true ↔ name ∈ held

theorem strictlyBelow_desiredPath (outputDir : PathBuf) (name : Text) :
    StrictlyBelow outputDir (desiredPath outputDir name) := by
  rw [desiredPath_eq_fileIn]
  exact strictlyBelow_fileIn (List.prefix_append _ _) _

theorem EmptyDirectory.holds {disk : Disk} {outputDir : PathBuf}
    (h : EmptyDirectory disk outputDir) : Holds outputDir [] disk := by
  have hnothing : ∀ name, disk.find (desiredPath outputDir name) = none :=
    fun name => h.nothing _ (strictlyBelow_desiredPath outputDir name)
  refine ⟨h.folder, fun name => ?_, fun name => ?_⟩
  · rw [FileTree.exists_, hnothing]
    simp [Taken]
  · rw [FileTree.isFile, hnothing]
    simp

theorem isFile_iff {disk : Disk} {path : PathBuf} :
    disk.isFile path = true ↔ ∃ content, disk.find path = some (.file content) := by
  rw [← Bool.not_eq_false, isFile_eq_false_iff]
  simp

theorem Holds.of_mirrored {outputDir : PathBuf} {held : List Text} {disk disk' : Disk}
    {target : Text} {bytes : Bytes} (h : Holds outputDir held disk)
    (hmirrored : Mirrored [(desiredPath outputDir target, bytes)] disk disk') :
    Holds outputDir (target :: held) disk' := by
  refine ⟨hmirrored.keeps h.folder, fun name => ?_, fun name => ?_⟩
  · have hnew : disk'.exists_ (desiredPath outputDir name) = true ↔
        disk.exists_ (desiredPath outputDir name) = true ∨
          desiredPath outputDir name <+: desiredPath outputDir target := by
      rw [FileTree.exists_iff, FileTree.exists_iff]
      constructor
      · rintro ⟨node, hnode⟩
        cases node with
        | file content =>
          rcases (hmirrored.files _ content).mp hnode with hold | hmem
          · exact Or.inl ⟨_, hold⟩
          · rw [(Prod.mk.inj (List.mem_singleton.mp hmem)).1]
            exact Or.inr (List.prefix_refl _)
        | folder =>
          rcases (hmirrored.folders _).mp hnode with hold | ⟨file, hmem, hpre, -⟩
          · exact Or.inl ⟨_, hold⟩
          · rw [List.mem_singleton.mp hmem] at hpre
            exact Or.inr hpre
      · rintro (⟨node, hnode⟩ | hpre)
        · exact ⟨node, hmirrored.keeps hnode⟩
        · by_cases heq : desiredPath outputDir name = desiredPath outputDir target
          · rw [heq]
            exact ⟨_, (hmirrored.files _ bytes).mpr (Or.inr List.mem_cons_self)⟩
          · exact ⟨_, (hmirrored.folders _).mpr
              (Or.inr ⟨_, List.mem_cons_self, hpre, Ne.symm heq⟩)⟩
    rw [hnew, h.taken, desiredPath_prefix_iff, Taken, Taken, List.exists_mem_cons_iff, or_comm]
  · rw [List.mem_cons, ← h.file, isFile_iff, isFile_iff]
    simp only [hmirrored.files, List.mem_singleton, Prod.mk.injEq]
    constructor
    · rintro ⟨content, hold | ⟨heq, -⟩⟩
      · exact Or.inr ⟨content, hold⟩
      · exact Or.inl (desiredPath_inj heq)
    · rintro (rfl | ⟨content, hold⟩)
      · exact ⟨bytes, Or.inr ⟨rfl, rfl⟩⟩
      · exact ⟨content, Or.inl hold⟩

theorem Holds.noFolder {outputDir : PathBuf} {held : List Text} {disk : Disk}
    (h : Holds outputDir held disk) {name other : Text} (hname : name ∈ held)
    (hother : other ∈ held) : ¬ name ++ ['/'] <+: other := by
  intro hpre
  obtain ⟨content, hfile⟩ := isFile_iff.mp ((h.file name).mpr hname)
  obtain ⟨node, hnode⟩ := FileTree.exists_iff.mp ((h.taken other).mpr (taken_of_mem hother))
  have hne : desiredPath outputDir name ≠ desiredPath outputDir other := by
    intro heq
    have hlength := hpre.length_le
    rw [desiredPath_inj heq, List.length_append, List.length_singleton] at hlength
    omega
  have hfolder := disk.find_of_prefix (by rw [hnode]; exact Option.some_ne_none _)
    (desiredPath_prefix_iff.mpr (Or.inr hpre)) hne
  rw [hfile] at hfolder
  cases hfolder

/-- Where an entry goes: to its name, or to the first of its numbered forms that is free. -/
def Settled (held : List Text) (name target : Text) : Prop :=
  ¬ Taken held name ∧ target = name ∨
  Taken held name ∧ ∃ index, 1 ≤ index ∧ index ≤ 9999 ∧ target = movedName name index ∧
    ¬ Taken held target ∧ ∀ j, 1 ≤ j → j < index → Taken held (movedName name j)

theorem settled_of_placed {outputDir path : PathBuf} {held : List Text} {disk : Disk} {name : Text}
    (haccepted : Accepted name) (h : Holds outputDir held disk)
    (hplaced : Placed (fun path => disk.exists_ path = true) (desiredPath outputDir name) path) :
    ∃ target, path = desiredPath outputDir target ∧ Settled held name target := by
  simp only [Placed, numberedPath_desiredPath _ haccepted, h.taken] at hplaced
  rcases hplaced with ⟨hfree, rfl⟩ | ⟨htaken, index, hone, hmax, rfl, hfree, hbefore⟩
  · exact ⟨name, rfl, Or.inl ⟨hfree, rfl⟩⟩
  · rw [h.taken] at hfree
    exact ⟨_, rfl, Or.inr ⟨htaken, index, hone, hmax, rfl, hfree, hbefore⟩⟩

theorem exportEntry_holds {env : Environment} {i : Nat} {name : Text} {bytes : Bytes}
    {outputDir : PathBuf} {held : List Text} {disk : Disk} {conflict : Option ExportConflict}
    (haccepted : Accepted name) (h : Holds outputDir held disk)
    (hok : (exportEntry env outputDir i name bytes disk).1 = .ok conflict) :
    ∃ target, Settled held name target ∧
      Holds outputDir (target :: held) (exportEntry env outputDir i name bytes disk).2 := by
  obtain ⟨-, hspec⟩ := exportEntry_spec env i name bytes h.folder
  obtain ⟨path, hplaced, -, hadded⟩ := hspec conflict hok
  obtain ⟨target, rfl, hsettled⟩ := settled_of_placed haccepted h hplaced
  exact ⟨target, hsettled, h.of_mirrored hadded.mirrored⟩

theorem exportTarget_of_free {outputDir : PathBuf} {disk : Disk} {name : Text}
    (haccepted : Accepted name)
    (hfree : disk.exists_ (desiredPath outputDir name) = true → ∃ index, 1 ≤ index ∧ index ≤ 9999 ∧
      disk.exists_ (numberedPath (desiredPath outputDir name) index) = false) :
    ∃ target conflict, exportTarget disk outputDir name = .ok (target, conflict) := by
  obtain ⟨desired, hpath⟩ := getExportPath_ok.mpr haccepted
  obtain ⟨rfl, folder, last, hfile, -, hlast⟩ := getExportPath_eq hpath
  rw [exportTarget, hpath]
  dsimp only
  split
  · rename_i htaken
    obtain ⟨index, hone, hmax, hindex⟩ := hfree htaken
    rw [hfile] at hindex ⊢
    obtain ⟨resolved, hresolved⟩ := resolveConflictPath_of_free hlast hone hmax hindex
    rw [hresolved]
    exact ⟨_, _, rfl⟩
  · exact ⟨_, _, rfl⟩

theorem way_desiredPath {outputDir above : PathBuf} {name : Text}
    (hpre : above <+: desiredPath outputDir name) :
    above <+: outputDir ∨ ∃ folder, above = desiredPath outputDir folder := by
  rcases List.prefix_or_prefix_of_prefix hpre (List.prefix_append _ _) with hdir | ⟨rest, rfl⟩
  · exact Or.inl hdir
  · rw [desiredPath, List.prefix_append_right_inj, List.prefix_iff_eq_take, ← List.map_take] at hpre
    by_cases hnil : (name.splitOn '/').take rest.length = []
    · rw [hnil, List.map_nil] at hpre
      exact Or.inl (by rw [hpre, List.append_nil])
    · refine Or.inr ⟨List.intercalate ['/'] ((name.splitOn '/').take rest.length), ?_⟩
      rw [desiredPath, splitOn_joined hnil, ← hpre]
      intro part hpart
      exact notMem_of_mem_splitOn ((List.take_prefix _ _).subset hpart)

theorem Settled.folder_iff {held : List Text} {name target folder : Text} (haccepted : Accepted name)
    (h : Settled held name target) : folder ++ ['/'] <+: target ↔ folder ++ ['/'] <+: name := by
  rcases h with ⟨-, rfl⟩ | ⟨-, index, -, -, rfl, -⟩
  · exact Iff.rfl
  · exact folder_movedName haccepted index

/-- An entry is exported when it has somewhere to go and no file is on its way. -/
theorem exportEntry_succeeds {env : Environment} (henv : env.Reliable) (i : Nat) {name : Text}
    (bytes : Bytes) {outputDir : PathBuf} {held : List Text} {disk : Disk}
    (haccepted : Accepted name) (h : Holds outputDir held disk)
    (hfree : Taken held name → ∃ index, 1 ≤ index ∧ index ≤ 9999 ∧
      ¬ Taken held (movedName name index))
    (hway : ∀ other ∈ held, ¬ other ++ ['/'] <+: name) :
    ∃ conflict, (exportEntry env outputDir i name bytes disk).1 = .ok conflict := by
  have hpaths : disk.exists_ (desiredPath outputDir name) = true → ∃ index, 1 ≤ index ∧
      index ≤ 9999 ∧ disk.exists_ (numberedPath (desiredPath outputDir name) index) = false := by
    intro htaken
    obtain ⟨index, hone, hmax, hindex⟩ := hfree ((h.taken name).mp htaken)
    rw [← h.taken, Bool.not_eq_true] at hindex
    exact ⟨index, hone, hmax, by rw [numberedPath_desiredPath _ haccepted, hindex]⟩
  obtain ⟨path, conflict, htarget⟩ := exportTarget_of_free haccepted hpaths
  obtain ⟨hplaced, -, hnothing, folder, last, hfile, -⟩ := exportTarget_ok htarget
  obtain ⟨target, hdesired, hsettled⟩ := settled_of_placed haccepted h hplaced
  have hclear : ∀ above, above <+: folder → disk.isFile above = false := by
    intro above habove
    have hstrict : StrictlyBelow above (desiredPath outputDir target) := by
      rw [← hdesired, hfile]
      exact strictlyBelow_fileIn habove last
    rw [← Bool.not_eq_true]
    intro hthere
    rcases way_desiredPath hstrict.1 with hdir | ⟨name', rfl⟩
    · -- the directory and what is above it are folders
      obtain ⟨content, hcontent⟩ := isFile_iff.mp hthere
      have hfolder : disk.find above = some .folder := by
        by_cases heq : above = outputDir
        · rw [heq, h.folder]
        · exact disk.find_of_prefix (by rw [h.folder]; exact Option.some_ne_none _) hdir heq
      rw [hcontent] at hfolder
      cases hfolder
    · rcases desiredPath_prefix_iff.mp hstrict.1 with rfl | hpre
      · exact hstrict.2 rfl
      · exact hway name' ((h.file name').mp hthere) ((hsettled.folder_iff haccepted).mp hpre)
  rw [hfile] at htarget hnothing
  obtain ⟨disk', hentry, -⟩ :=
    exportEntry_mirrored henv i bytes (top_folder h.folder) htarget hnothing hclear
  exact ⟨conflict, by rw [hentry]⟩

/-! ## Sorted names -/

/-- The names of a collection that is to be exported: sorted and accepted, none a folder of another,
each at most twice, and what an entry is moved to at its end at most once. -/
structure Listed (given : List Text) : Prop where
  sorted : given.Pairwise (· ≤ ·)
  accepted : ∀ name ∈ given, Accepted name
  noFolder : ∀ name ∈ given, ∀ other ∈ given, ¬ name ++ ['/'] <+: other
  twice : ∀ name, given.count name ≤ 2
  once : ∀ name ∈ given, ¬ HasExtension name → given.count (movedName name 1) ≤ 1

def MovedIn (names : List Text) : Text → Prop := Moved (fun name => 2 ≤ names.count name) (· ∈ names)

theorem MovedIn.mem {names : List Text} {name : Text} (h : MovedIn names name) : name ∈ names := by
  cases h with
  | twice h => exact List.count_pos_iff.mp (by omega)
  | onto _ _ h => exact h

theorem MovedIn.cases {names : List Text} {name : Text} (h : MovedIn names name) :
    2 ≤ names.count name ∨
    ∃ moved, MovedIn names moved ∧ ¬ HasExtension moved ∧ name = movedName moved 1 := by
  cases h with
  | twice h => exact Or.inl h
  | onto hfrom hext _ => exact Or.inr ⟨_, hfrom, hext, rfl⟩

theorem Moved.mono {twice twice' given given' : Text → Prop} {name : Text}
    (h : Moved twice given name) (htwice : ∀ name, twice name → twice' name)
    (hgiven : ∀ name, given name → given' name) : Moved twice' given' name := by
  induction h with
  | twice h => exact .twice (htwice _ h)
  | onto _ hext h ih => exact .onto ih hext (hgiven _ h)

theorem MovedIn.append {front : List Text} {name : Text} (h : MovedIn front name) (back : List Text) :
    MovedIn (front ++ back) name := by
  refine Moved.mono h (fun other hother => ?_) fun other hother => List.mem_append_left _ hother
  rw [List.count_append]
  omega

/-- What is held after some of the names: these, and what entries were moved to. An entry is moved at
its end to the first form, before its extension to one that no entry needs. -/
structure Progress (given done held : List Text) : Prop where
  own : ∀ target ∈ held, target ∈ done ∨ ∃ name index, MovedIn done name ∧
    target = movedName name index ∧ (¬ HasExtension name → index = 1) ∧
    (HasExtension name → ¬ Taken given target)
  names : ∀ name ∈ done, name ∈ held
  movedEnd : ∀ name, MovedIn done name → ¬ HasExtension name → movedName name 1 ∈ held
  movedInside : ∀ name, MovedIn done name → HasExtension name → ∃ index, 1 ≤ index ∧ index ≤ 9999 ∧
    ¬ Taken given (movedName name index)

section Next

variable {given done rest held : List Text} {name : Text}

theorem Progress.nil (given : List Text) : Progress given [] [] := by
  have hnone : ∀ name, ¬ MovedIn [] name := fun name h => List.not_mem_nil h.mem
  refine ⟨fun _ h => absurd h List.not_mem_nil, fun _ h => absurd h List.not_mem_nil, ?_, ?_⟩
  · intro name h
    exact absurd h (hnone name)
  · intro name h
    exact absurd h (hnone name)

theorem mem_next (done rest : List Text) (name : Text) : name ∈ done ++ name :: rest :=
  List.mem_append_right _ List.mem_cons_self

theorem Listed.le_next (h : Listed (done ++ name :: rest)) {other : Text} (hother : other ∈ done) :
    other ≤ name :=
  (List.pairwise_append.mp h.sorted).2.2 other hother name List.mem_cons_self

theorem Listed.mem_done_of_lt (h : Listed (done ++ name :: rest)) {other : Text}
    (hother : other ∈ done ++ name :: rest) (hlt : other < name) : other ∈ done := by
  rcases List.mem_append.mp hother with hdone | hrest
  · exact hdone
  · rcases List.mem_cons.mp hrest with rfl | hrest
    · exact absurd hlt (lt_irrefl _)
    · have hle := (List.pairwise_cons.mp (List.pairwise_append.mp h.sorted).2.1).1 other hrest
      exact absurd (lt_of_lt_of_le hlt hle) (lt_irrefl _)

theorem Listed.not_moved (h : Listed (done ++ name :: rest)) : ¬ MovedIn done name := by
  intro hmoved
  have hcount : (done ++ name :: rest).count name = done.count name + (rest.count name + 1) := by
    rw [List.count_append, List.count_cons_self]
  cases hmoved with
  | twice htwice =>
    have hle := h.twice name
    omega
  | onto hfrom hext hmem =>
    have hle := h.once _ (List.mem_append_left _ (MovedIn.mem hfrom)) hext
    have hpos := List.count_pos_iff.mpr hmem
    omega

theorem Listed.accepted_of_moved (h : Listed (done ++ name :: rest)) {other : Text}
    (hmoved : MovedIn done other) : Accepted other :=
  h.accepted other (List.mem_append_left _ hmoved.mem)

theorem Listed.accepted_next (h : Listed (done ++ name :: rest)) : Accepted name :=
  h.accepted name (mem_next done rest name)

namespace Progress

theorem taken_cases (hl : Listed (done ++ name :: rest)) (h : Progress (done ++ name :: rest) done held)
    {other : Text} (htaken : Taken held other) :
    (∃ earlier ∈ done, other = earlier ∨ other ++ ['/'] <+: earlier) ∨
    ∃ moved index, MovedIn done moved ∧ other = movedName moved index := by
  obtain ⟨target, htarget, hbelow⟩ := htaken
  rcases h.own target htarget with hdone | ⟨moved, index, hmoved, rfl, -⟩
  · exact Or.inl ⟨target, hdone, hbelow⟩
  · rcases hbelow with rfl | hpre
    · exact Or.inr ⟨moved, index, hmoved, rfl⟩
    · exact Or.inl ⟨moved, hmoved.mem,
        Or.inr ((folder_movedName (hl.accepted_of_moved hmoved) index).mp hpre)⟩

theorem mem_of_taken (hl : Listed (done ++ name :: rest))
    (h : Progress (done ++ name :: rest) done held) (htaken : Taken held name) : name ∈ held := by
  have hnext := mem_next done rest name
  obtain ⟨target, htarget, rfl | hpre⟩ := htaken
  · exact htarget
  · rcases h.own target htarget with hdone | ⟨moved, index, hmoved, rfl, -⟩
    · exact absurd hpre (hl.noFolder name hnext target (List.mem_append_left _ hdone))
    · rw [folder_movedName (hl.accepted_of_moved hmoved)] at hpre
      exact absurd hpre (hl.noFolder name hnext moved (List.mem_append_left _ hmoved.mem))

theorem moved_of_mem (h : Progress (done ++ name :: rest) done held) (hmem : name ∈ held) :
    MovedIn (done ++ [name]) name := by
  rcases h.own name hmem with hdone | ⟨moved, index, hmoved, hname, hend, hinside⟩
  · refine .twice ?_
    have hpos := List.count_pos_iff.mpr hdone
    rw [List.count_append, List.count_singleton_self]
    omega
  · by_cases hext : HasExtension moved
    · exact absurd (taken_of_mem (mem_next done rest name)) (hinside hext)
    · obtain rfl := hend hext
      have honto : MovedIn (done ++ [name]) (movedName moved 1) := by
        refine .onto (hmoved.append _) hext ?_
        rw [← hname]
        exact List.mem_append_right _ List.mem_cons_self
      rwa [← hname] at honto

theorem free_end (hl : Listed (done ++ name :: rest)) (h : Progress (done ++ name :: rest) done held)
    (hext : ¬ HasExtension name) : ¬ Taken held (movedName name 1) := by
  intro htaken
  rcases h.taken_cases hl htaken with ⟨earlier, hearlier, hbelow⟩ | ⟨moved, index, hmoved, heq⟩
  · have hlt := lt_of_movedName_prefix hl.accepted_next hext (prefix_of_below hbelow)
    exact absurd (lt_of_lt_of_le hlt (hl.le_next hearlier)) (lt_irrefl _)
  · obtain ⟨rfl, -⟩ := movedName_inj hl.accepted_next (hl.accepted_of_moved hmoved) heq
    exact hl.not_moved hmoved

/-- All names at or below a form before the extension of the next name are earlier, so it is free when
none needs it. -/
theorem taken_inside (hl : Listed (done ++ name :: rest))
    (h : Progress (done ++ name :: rest) done held) (hext : HasExtension name) (index : Nat) :
    Taken held (movedName name index) ↔ Taken (done ++ name :: rest) (movedName name index) := by
  constructor
  · intro htaken
    rcases h.taken_cases hl htaken with ⟨earlier, hearlier, hbelow⟩ | ⟨moved, index', hmoved, heq⟩
    · exact ⟨earlier, List.mem_append_left _ hearlier, hbelow⟩
    · obtain ⟨rfl, -⟩ := movedName_inj hl.accepted_next (hl.accepted_of_moved hmoved) heq
      exact absurd hmoved hl.not_moved
  · rintro ⟨other, hother, hbelow⟩
    have hlt := movedName_prefix_lt hl.accepted_next hext (prefix_of_below hbelow)
    exact ⟨other, h.names other (hl.mem_done_of_lt hother hlt), hbelow⟩

theorem moved_concat (hl : Listed (done ++ name :: rest)) {other : Text}
    (hmoved : MovedIn (done ++ [name]) other) : MovedIn done other ∨ other = name := by
  induction hmoved with
  | @twice other htwice =>
    by_cases heq : other = name
    · exact Or.inr heq
    · rw [List.count_append, List.count_singleton, if_neg (by simpa using Ne.symm heq)] at htwice
      exact Or.inl (.twice htwice)
  | @onto other hfrom hext hmem ih =>
    rcases List.mem_append.mp hmem with hdone | hname
    · rcases ih with hold | rfl
      · exact Or.inl (.onto hold hext hdone)
      · have hlt := lt_movedName hl.accepted_next hext 1
        exact absurd (lt_of_lt_of_le hlt (hl.le_next hdone)) (lt_irrefl _)
    · exact Or.inr (List.mem_singleton.mp hname)

theorem mem_of_moved (hl : Listed (done ++ name :: rest))
    (h : Progress (done ++ name :: rest) done held) (hmoved : MovedIn (done ++ [name]) name) :
    name ∈ held := by
  rcases hmoved.cases with htwice | ⟨moved, hfrom, hext, hname⟩
  · rw [List.count_append, List.count_singleton_self] at htwice
    exact h.names name (List.count_pos_iff.mp (by omega))
  · rcases moved_concat hl hfrom with hold | rfl
    · rw [hname]
      exact h.movedEnd moved hold hext
    · exact absurd hname (ne_of_lt (lt_movedName hl.accepted_next hext 1))

theorem next (hl : Listed (done ++ name :: rest)) (h : Progress (done ++ name :: rest) done held)
    {target : Text} (hsettled : Settled held name target) :
    Progress (done ++ name :: rest) (done ++ [name]) (target :: held) := by
  have hown : ∀ other ∈ held, other ∈ done ++ [name] ∨ ∃ moved index,
      MovedIn (done ++ [name]) moved ∧ other = movedName moved index ∧
      (¬ HasExtension moved → index = 1) ∧
      (HasExtension moved → ¬ Taken (done ++ name :: rest) other) := by
    intro other hother
    rcases h.own other hother with hdone | ⟨moved, index, hmoved, hrest⟩
    · exact Or.inl (List.mem_append_left _ hdone)
    · exact Or.inr ⟨moved, index, hmoved.append _, hrest⟩
  have hdone : ∀ other ∈ done, other ∈ target :: held :=
    fun other hother => List.mem_cons_of_mem _ (h.names other hother)
  rcases hsettled with ⟨hfree, rfl⟩ | ⟨htaken, index, hone, hmax, rfl, hfree, hbefore⟩
  · -- the entry keeps its name, and nothing is moved
    have hmoved : ∀ other, MovedIn (done ++ [target]) other → MovedIn done other := by
      intro other hother
      rcases moved_concat hl hother with hold | rfl
      · exact hold
      · exact absurd (taken_of_mem (h.mem_of_moved hl hother)) hfree
    refine ⟨?_, ?_, ?_, ?_⟩
    · rw [List.forall_mem_cons]
      exact ⟨Or.inl (List.mem_append_right _ List.mem_cons_self), hown⟩
    · intro other hother
      rcases List.mem_append.mp hother with hother | hother
      · exact hdone other hother
      · rw [List.mem_singleton.mp hother]
        exact List.mem_cons_self
    · intro other hother hext
      exact List.mem_cons_of_mem _ (h.movedEnd other (hmoved other hother) hext)
    · intro other hother hext
      exact h.movedInside other (hmoved other hother) hext
  · have hmem := h.mem_of_taken hl htaken
    have hmoved := h.moved_of_mem hmem
    have hindex : ¬ HasExtension name → index = 1 := by
      intro hext
      by_contra hne
      exact h.free_end hl hext (hbefore 1 (Nat.le_refl 1) (by omega))
    have hinside : HasExtension name → ¬ Taken (done ++ name :: rest) (movedName name index) :=
      fun hext htarget => hfree ((h.taken_inside hl hext index).mpr htarget)
    refine ⟨?_, ?_, ?_, ?_⟩
    · rw [List.forall_mem_cons]
      exact ⟨Or.inr ⟨name, index, hmoved, rfl, hindex, hinside⟩, hown⟩
    · intro other hother
      rcases List.mem_append.mp hother with hother | hother
      · exact hdone other hother
      · rw [List.mem_singleton.mp hother]
        exact List.mem_cons_of_mem _ hmem
    · intro other hother hext
      rcases moved_concat hl hother with hold | rfl
      · exact List.mem_cons_of_mem _ (h.movedEnd other hold hext)
      · rw [hindex hext]
        exact List.mem_cons_self
    · intro other hother hext
      rcases moved_concat hl hother with hold | rfl
      · exact h.movedInside other hold hext
      · exact ⟨index, hone, hmax, hinside hext⟩

end Progress

end Next

/-! ## The loop -/

/-- The moved entries have somewhere to go, and are in no one's way there. -/
structure MovesFit (given : List Text) : Prop where
  movedEnd : ∀ name, MovedIn given name → ¬ HasExtension name → ∀ other ∈ given,
    ¬ movedName name 1 ++ ['/'] <+: other
  movedInside : ∀ name, MovedIn given name → HasExtension name → ∃ index, 1 ≤ index ∧ index ≤ 9999 ∧
    ¬ Taken given (movedName name index)

section Loop

variable {env : Environment} {outputDir : PathBuf} {collection : List (Text × Bytes)}
  {given done held : List Text} {disk : Disk}

theorem exportEntries_progress (i : Nat) {conflicts : List ExportConflict}
    (hgiven : given = done ++ collection.map Prod.fst) (hl : Listed given)
    (hp : Progress given done held) (h : Holds outputDir held disk)
    (hok : (exportEntries env outputDir i collection disk).1 = .ok conflicts) :
    ∃ held', Progress given given held' ∧
      Holds outputDir held' (exportEntries env outputDir i collection disk).2 := by
  induction collection generalizing i done held disk conflicts with
  | nil =>
    rw [List.map_nil, List.append_nil] at hgiven
    exact ⟨held, hgiven ▸ hp, h⟩
  | cons entry collection ih =>
    obtain ⟨name, bytes⟩ := entry
    rw [List.map_cons] at hgiven
    subst hgiven
    rw [exportEntries] at hok ⊢
    have hstep : ∀ conflict, (exportEntry env outputDir i name bytes disk).1 = .ok conflict →
        ∃ target, Settled held name target ∧
          Holds outputDir (target :: held) (exportEntry env outputDir i name bytes disk).2 :=
      fun conflict => exportEntry_holds hl.accepted_next h
    generalize exportEntry env outputDir i name bytes disk = first at hok hstep
    obtain ⟨r, disk₁⟩ := first
    cases r with
    | error e => cases hok
    | ok conflict =>
      obtain ⟨target, hsettled, hholds⟩ := hstep conflict rfl
      have hrest : ∀ conflicts, (exportEntries env outputDir (i + 1) collection disk₁).1 =
          .ok conflicts → ∃ held', Progress (done ++ name :: collection.map Prod.fst)
            (done ++ name :: collection.map Prod.fst) held' ∧
            Holds outputDir held' (exportEntries env outputDir (i + 1) collection disk₁).2 :=
        fun conflicts => ih (i + 1) (by simp) (hp.next hl hsettled) hholds
      dsimp only at hok ⊢
      generalize exportEntries env outputDir (i + 1) collection disk₁ = last at hok hrest
      obtain ⟨r', disk₂⟩ := last
      cases r' with
      | error e => cases hok
      | ok conflicts' => exact hrest conflicts' rfl

theorem movesFit_of_progress (hp : Progress given given held) (h : Holds outputDir held disk) :
    MovesFit given := by
  refine ⟨?_, hp.movedInside⟩
  intro name hmoved hext other hother
  exact h.noFolder (hp.movedEnd name hmoved hext) (hp.names other hother)

theorem MovesFit.free {name : Text} {rest : List Text} (hfit : MovesFit (done ++ name :: rest))
    (hl : Listed (done ++ name :: rest)) (hp : Progress (done ++ name :: rest) done held)
    (htaken : Taken held name) :
    ∃ index, 1 ≤ index ∧ index ≤ 9999 ∧ ¬ Taken held (movedName name index) := by
  by_cases hext : HasExtension name
  · have hmoved := (hp.moved_of_mem (hp.mem_of_taken hl htaken)).append rest
    rw [List.append_assoc, List.singleton_append] at hmoved
    obtain ⟨index, hone, hmax, hfree⟩ := hfit.movedInside name hmoved hext
    exact ⟨index, hone, hmax, fun h => hfree ((hp.taken_inside hl hext index).mp h)⟩
  · exact ⟨1, Nat.le_refl 1, by omega, hp.free_end hl hext⟩

theorem MovesFit.way {name : Text} {rest : List Text} (hfit : MovesFit (done ++ name :: rest))
    (hl : Listed (done ++ name :: rest)) (hp : Progress (done ++ name :: rest) done held)
    {other : Text} (hother : other ∈ held) : ¬ other ++ ['/'] <+: name := by
  have hnext := mem_next done rest name
  intro hpre
  rcases hp.own other hother with hdone | ⟨moved, index, hmoved, rfl, hend, hinside⟩
  · exact hl.noFolder other (List.mem_append_left _ hdone) name hnext hpre
  · by_cases hext : HasExtension moved
    · exact hinside hext ⟨name, hnext, Or.inr hpre⟩
    · rw [hend hext] at hpre
      exact hfit.movedEnd moved (hmoved.append _) hext name hnext hpre

theorem exportEntries_succeeds (henv : env.Reliable) (i : Nat)
    (hgiven : given = done ++ collection.map Prod.fst) (hl : Listed given) (hfit : MovesFit given)
    (hp : Progress given done held) (h : Holds outputDir held disk) :
    ∃ conflicts, (exportEntries env outputDir i collection disk).1 = .ok conflicts := by
  induction collection generalizing i done held disk with
  | nil => exact ⟨[], rfl⟩
  | cons entry collection ih =>
    obtain ⟨name, bytes⟩ := entry
    rw [List.map_cons] at hgiven
    subst hgiven
    obtain ⟨conflict, hok⟩ := exportEntry_succeeds henv i bytes hl.accepted_next h
      (hfit.free hl hp) fun other => hfit.way hl hp
    obtain ⟨target, hsettled, hholds⟩ := exportEntry_holds hl.accepted_next h hok
    rw [exportEntries]
    generalize exportEntry env outputDir i name bytes disk = first at hok hholds
    obtain ⟨r, disk₁⟩ := first
    obtain rfl : r = .ok conflict := hok
    obtain ⟨conflicts, hrest⟩ := ih (i + 1) (by simp) (hp.next hl hsettled) hholds
    dsimp only
    generalize exportEntries env outputDir (i + 1) collection disk₁ = last at hrest
    obtain ⟨r', disk₂⟩ := last
    obtain rfl : r' = .ok conflicts := hrest
    exact ⟨_, rfl⟩

/-- Listed names are exported into an empty directory exactly when the moved entries fit. -/
theorem exportToDirectory_ok_iff (henv : env.Reliable) (hempty : EmptyDirectory disk outputDir)
    (hl : Listed (collection.map Prod.fst)) :
    (∃ conflicts, (exportToDirectory env disk collection outputDir).1 = .ok conflicts) ↔
      MovesFit (collection.map Prod.fst) := by
  have hgiven : collection.map Prod.fst = [] ++ collection.map Prod.fst := rfl
  constructor
  · rintro ⟨conflicts, hok⟩
    obtain ⟨held, hp, h⟩ :=
      exportEntries_progress 0 hgiven hl (Progress.nil _) hempty.holds hok
    exact movesFit_of_progress hp h
  · intro hfit
    exact exportEntries_succeeds henv 0 hgiven hl hfit (Progress.nil _) hempty.holds

end Loop

/-! ## Imported collections -/

section Imported

variable {completion : Completion} {fs : FileSystem} {paths : List PathBuf} {total : Nat}
  {collection : List (Text × Bytes)}

theorem importPaths_twice (h : importPaths completion fs paths = .ok (total, collection))
    (name : Text) :
    (collection.map Prod.fst).count name ≤ 2 ∧
    (2 ≤ (collection.map Prod.fst).count name ↔ GivenTwice (selectedNames fs paths) name) := by
  obtain ⟨-, names, hperm, hlabels⟩ := importPaths_perm h
  rw [hlabels.count_eq, two_le_count_numbered engineLabel_labels, GivenTwice, hperm.mem_iff]
  simp only [hperm.count_eq]
  exact ⟨count_numbered_le_two engineLabel_labels names name, trivial⟩

theorem importPaths_given (h : importPaths completion fs paths = .ok (total, collection))
    (name : Text) : name ∈ collection.map Prod.fst ↔ Given (selectedNames fs paths) name :=
  importPaths_names h name

/-- A form with the number 1 is not the name of a repetition, as these are numbered from 2. -/
theorem not_givenTwice_movedName {names : List Text} {name : Text} (haccepted : Accepted name)
    (hext : ¬ HasExtension name) : ¬ GivenTwice names (movedName name 1) := by
  rintro ⟨-, selected, k, hk, -, hlabel⟩
  rcases movedName_cases haccepted with ⟨-, hmoved⟩ | ⟨hsome, -⟩
  · rw [hmoved, engineLabel, if_neg (by omega)] at hlabel
    have heq := (Alphabet.rust.suffixed_inj hlabel).2
    omega
  · exact hext hsome

theorem listed_of_import (h : importPaths completion fs paths = .ok (total, collection))
    (haccepted : ∀ name ∈ collection.map Prod.fst, Accepted name)
    (hfolder : ∀ name ∈ collection.map Prod.fst, ∀ other ∈ collection.map Prod.fst,
      ¬ name ++ ['/'] <+: other) : Listed (collection.map Prod.fst) := by
  refine ⟨(importPaths_perm h).1, haccepted, hfolder, fun name => (importPaths_twice h name).1, ?_⟩
  intro name hname hext
  by_contra hcount
  exact not_givenTwice_movedName (haccepted name hname) hext
    ((importPaths_twice h (movedName name 1)).2.mp (by omega))

theorem movedIn_import (h : importPaths completion fs paths = .ok (total, collection))
    {name : Text} : MovedIn (collection.map Prod.fst) name ↔
      Moved (GivenTwice (selectedNames fs paths)) (Given (selectedNames fs paths)) name := by
  constructor
  · intro hmoved
    exact Moved.mono hmoved (fun other => (importPaths_twice h other).2.mp)
      fun other => (importPaths_given h other).mp
  · intro hmoved
    exact Moved.mono hmoved (fun other => (importPaths_twice h other).2.mpr)
      fun other => (importPaths_given h other).mpr

theorem folder_import (h : importPaths completion fs paths = .ok (total, collection))
    (folder : Text) : (∃ other ∈ collection.map Prod.fst, folder ++ ['/'] <+: other) ↔
      ∃ other ∈ selectedNames fs paths, folder ++ ['/'] <+: other := by
  constructor
  · rintro ⟨other, hother, hpre⟩
    obtain ⟨selected, k, hk, rfl⟩ := (importPaths_given h other).mp hother
    exact ⟨selected, List.count_pos_iff.mp (Nat.zero_lt_of_lt hk), folder_of_label.mp hpre⟩
  · rintro ⟨other, hother, hpre⟩
    exact ⟨other, (importPaths_given h other).mpr ⟨other, 0, List.count_pos_iff.mpr hother, rfl⟩,
      hpre⟩

theorem taken_import (h : importPaths completion fs paths = .ok (total, collection))
    (name : Text) : Taken (collection.map Prod.fst) name ↔
      Given (selectedNames fs paths) name ∨
        ∃ other ∈ selectedNames fs paths, name ++ ['/'] <+: other := by
  rw [← folder_import h, ← importPaths_given h, Taken]
  constructor
  · rintro ⟨other, hother, rfl | hpre⟩
    · exact Or.inl hother
    · exact Or.inr ⟨other, hother, hpre⟩
  · rintro (hmem | ⟨other, hother, hpre⟩)
    · exact taken_of_mem hmem
    · exact ⟨other, hother, Or.inr hpre⟩

theorem accepted_import_iff (h : importPaths completion fs paths = .ok (total, collection)) :
    (∀ name ∈ collection.map Prod.fst, Accepted name) ↔
      ∀ name ∈ selectedNames fs paths, ':' ∉ name := by
  constructor
  · intro haccepted name hname
    obtain ⟨front, last, hselected⟩ := isSelectedName_of_mem h hname
    refine (hselected.accepted_iff 0).mp (haccepted _ ?_)
    exact (importPaths_given h _).mpr ⟨name, 0, List.count_pos_iff.mpr hname, rfl⟩
  · intro hcolon final hfinal
    obtain ⟨name, k, hk, rfl⟩ := (importPaths_given h final).mp hfinal
    have hmem : name ∈ selectedNames fs paths := List.count_pos_iff.mp (Nat.zero_lt_of_lt hk)
    obtain ⟨front, last, hselected⟩ := isSelectedName_of_mem h hmem
    exact (hselected.accepted_iff k).mpr (hcolon name hmem)

theorem not_folder_import (h : importPaths completion fs paths = .ok (total, collection))
    (folder : Text) : (∀ other ∈ collection.map Prod.fst, ¬ folder ++ ['/'] <+: other) ↔
      ∀ other ∈ selectedNames fs paths, ¬ folder ++ ['/'] <+: other := by
  have hfolder := not_congr (folder_import h folder)
  simpa only [not_exists, not_and] using hfolder

theorem not_taken_import (h : importPaths completion fs paths = .ok (total, collection))
    (name : Text) : ¬ Taken (collection.map Prod.fst) name ↔
      ¬ Given (selectedNames fs paths) name ∧
        ∀ other ∈ selectedNames fs paths, ¬ name ++ ['/'] <+: other := by
  have htaken := not_congr (taken_import h name)
  simpa only [not_or, not_exists, not_and] using htaken

theorem noFolder_import_iff (h : importPaths completion fs paths = .ok (total, collection)) :
    (∀ name ∈ collection.map Prod.fst, ∀ other ∈ collection.map Prod.fst,
      ¬ name ++ ['/'] <+: other) ↔
    ∀ name, Given (selectedNames fs paths) name → ∀ other ∈ selectedNames fs paths,
      ¬ name ++ ['/'] <+: other := by
  refine forall_congr' fun name => ?_
  rw [importPaths_given h, not_folder_import h]

theorem movesFit_import_iff (h : importPaths completion fs paths = .ok (total, collection)) :
    MovesFit (collection.map Prod.fst) ↔
      (∀ name, Moved (GivenTwice (selectedNames fs paths)) (Given (selectedNames fs paths)) name →
        ¬ HasExtension name → ∀ other ∈ selectedNames fs paths,
          ¬ movedName name 1 ++ ['/'] <+: other) ∧
      ∀ name, Moved (GivenTwice (selectedNames fs paths)) (Given (selectedNames fs paths)) name →
        HasExtension name → ∃ index, 1 ≤ index ∧ index ≤ 9999 ∧
          ¬ Given (selectedNames fs paths) (movedName name index) ∧
          ∀ other ∈ selectedNames fs paths, ¬ movedName name index ++ ['/'] <+: other := by
  simp only [← movedIn_import h]
  constructor
  · rintro ⟨hend, hinside⟩
    refine ⟨fun name hmoved hext => (not_folder_import h _).mp (hend name hmoved hext), ?_⟩
    intro name hmoved hext
    obtain ⟨index, hone, hmax, hfree⟩ := hinside name hmoved hext
    exact ⟨index, hone, hmax, (not_taken_import h _).mp hfree⟩
  · rintro ⟨hend, hinside⟩
    refine ⟨fun name hmoved hext => (not_folder_import h _).mpr (hend name hmoved hext), ?_⟩
    intro name hmoved hext
    obtain ⟨index, hone, hmax, hfree⟩ := hinside name hmoved hext
    exact ⟨index, hone, hmax, (not_taken_import h _).mpr hfree⟩

end Imported

/-- An imported collection is exported into an empty directory, by a system and a store that refuse
nothing, exactly when no selected name has a colon, no given name is a folder of another, and the
entries that have to be moved can be. -/
theorem import_exportable_iff (completion : Completion) (fs : FileSystem) (paths : List PathBuf)
    (env : Environment) (disk : Disk) (outputDir : PathBuf) (total : Nat)
    (collection : List (Text × Bytes))
    (h : importPaths completion fs paths = .ok (total, collection)) (henv : env.Reliable)
    (hempty : EmptyDirectory disk outputDir) :
    Exports env disk collection outputDir ↔ Exportable (selectedNames fs paths) := by
  have haccepted : (∀ name ∈ collection.map Prod.fst,
      (∃ target, getExportPath outputDir name = .ok target) ∧ validateCollectionPath name = .ok ()) ↔
      ∀ name ∈ collection.map Prod.fst, Accepted name := by
    simp only [getExportPath_ok, validateCollectionPath_ok, and_self]
  constructor
  · rintro ⟨hnames, hfolder, hexported⟩
    have hlisted := listed_of_import h (haccepted.mp hnames) hfolder
    obtain ⟨hend, hinside⟩ := (movesFit_import_iff h).mp
      ((exportToDirectory_ok_iff henv hempty hlisted).mp hexported)
    exact ⟨(accepted_import_iff h).mp (haccepted.mp hnames), (noFolder_import_iff h).mp hfolder,
      hend, hinside⟩
  · rintro ⟨hcolon, hfolder, hend, hinside⟩
    have hnames := (accepted_import_iff h).mpr hcolon
    have hno := (noFolder_import_iff h).mpr hfolder
    have hfit := (movesFit_import_iff h).mpr ⟨hend, hinside⟩
    exact ⟨haccepted.mpr hnames, hno,
      (exportToDirectory_ok_iff henv hempty (listed_of_import h hnames hno)).mpr hfit⟩

/-! ## Files of one name, and a folder -/

/-- Two files `x` and a file `x (2)` in three folders, and a folder `d`. -/
def namesakes : FileSystem :=
  .ofNodes [(fileIn (rootPath ['p']) ['x'], .file ⟨.ok 1, .ok [1]⟩),
    (fileIn (rootPath ['q']) ['x'], .file ⟨.ok 1, .ok [2]⟩),
    (fileIn (rootPath ['r']) ['x', ' ', '(', '2', ')'], .file ⟨.ok 1, .ok [3]⟩),
    (rootPath ['d'], .directory (nestedFile [4]))]
    (by
      have hx : IsFileName ['x'] := by constructor <;> decide
      have hx2 : IsFileName ['x', ' ', '(', '2', ')'] := by constructor <;> decide
      have hd : IsFileName ['d'] := by constructor <;> decide
      simp [rootPath, fileIn, fileName, hx, hx2, hd])

def namesakePaths : List PathBuf :=
  [fileIn (rootPath ['p']) ['x'], fileIn (rootPath ['q']) ['x'],
    fileIn (rootPath ['r']) ['x', ' ', '(', '2', ')'], rootPath ['d']]

theorem selectedNames_namesakes : selectedNames namesakes namesakePaths =
    [['x'], ['x'], ['x', ' ', '(', '2', ')'], ['d', '/', 's', '/', 'b']] := rfl

theorem importPaths_namesakes : importPaths .inOrder namesakes namesakePaths =
    .ok (4, [(['d', '/', 's', '/', 'b'], [4]), (['x'], [1]), (['x', ' ', '(', '2', ')'], [2]),
      (['x', ' ', '(', '2', ')'], [3])]) := by decide +kernel

theorem given_iff {names : List Text} {name : Text} :
    Given names name ↔ name ∈ numbered engineLabel names := mem_numbered.symm

theorem givenTwice_iff {names : List Text} {name : Text} :
    GivenTwice names name ↔ 2 ≤ (numbered engineLabel names).count name :=
  (two_le_count_numbered engineLabel_labels).symm

theorem numbered_namesakes : numbered engineLabel (selectedNames namesakes namesakePaths) =
    [['x'], ['x', ' ', '(', '2', ')'], ['x', ' ', '(', '2', ')'], ['d', '/', 's', '/', 'b']] := by
  rw [selectedNames_namesakes]
  decide +kernel

theorem moved_namesakes {name : Text}
    (h : Moved (GivenTwice (selectedNames namesakes namesakePaths))
      (Given (selectedNames namesakes namesakePaths)) name) :
    name = ['x', ' ', '(', '2', ')'] := by
  induction h with
  | @twice name htwice =>
    rw [givenTwice_iff, numbered_namesakes] at htwice
    have hmem := List.count_pos_iff.mp (Nat.lt_of_lt_of_le Nat.zero_lt_two htwice)
    simp only [List.mem_cons, List.not_mem_nil, or_false] at hmem
    rcases hmem with rfl | rfl | rfl | rfl
    · exact absurd htwice (by decide)
    · rfl
    · rfl
    · exact absurd htwice (by decide)
  | onto _ _ hgiven ih =>
    rw [given_iff, numbered_namesakes, ih] at hgiven
    exact absurd hgiven (by decide +kernel)

theorem exportable_namesakes : Exportable (selectedNames namesakes namesakePaths) := by
  refine ⟨?_, ?_, ?_, ?_⟩
  · rw [selectedNames_namesakes]
    decide
  · intro name hname
    rw [given_iff, numbered_namesakes] at hname
    rw [selectedNames_namesakes]
    revert name
    decide
  · intro name hname _
    rw [moved_namesakes hname, selectedNames_namesakes]
    decide +kernel
  · intro name hname hext
    rw [moved_namesakes hname] at hext
    exact absurd hext (by decide +kernel)

theorem emptyDirectory_root : EmptyDirectory emptyDisk [.rootDir] := by
  refine ⟨rfl, ?_⟩
  rintro path ⟨hpre, hne⟩
  have hnil : path ≠ [] := by
    rintro rfl
    exact absurd (List.prefix_nil.mp hpre) (List.cons_ne_nil _ _)
  simp [emptyDisk, hnil, hne]

/-- They are exported, the second `x (2)` to `x (2) (1)`. -/
theorem import_exportable_namesakes :
    Exports .reliable emptyDisk [(['d', '/', 's', '/', 'b'], [4]), (['x'], [1]),
      (['x', ' ', '(', '2', ')'], [2]), (['x', ' ', '(', '2', ')'], [3])] [.rootDir] :=
  (import_exportable_iff .inOrder namesakes namesakePaths .reliable emptyDisk [.rootDir] _ _
    importPaths_namesakes ⟨fun _ _ => rfl, fun _ => rfl⟩ emptyDirectory_root).mpr
    exportable_namesakes

/-- A file `a:b` is imported, and its name is refused by the export. -/
theorem import_colon_not_exportable :
    ¬ ∀ (completion : Completion) (fs : FileSystem) (paths : List PathBuf) (env : Environment)
      (disk : Disk) (outputDir : PathBuf) (total : Nat) (collection : List (Text × Bytes)),
      importPaths completion fs paths = .ok (total, collection) → env.Reliable →
      EmptyDirectory disk outputDir → Exports env disk collection outputDir := by
  intro h
  have hname : IsFileName ['a', ':', 'b'] := by constructor <;> decide
  have hexports := h .inOrder (oneFileSystem ['a', ':', 'b'] [7] hname)
    [rootPath ['a', ':', 'b']] .reliable emptyDisk [.rootDir] 1 [(['a', ':', 'b'], [7])] rfl
    ⟨fun _ _ => rfl, fun _ => rfl⟩ emptyDirectory_root
  obtain ⟨⟨target, htarget⟩, -⟩ := hexports.accepted _ List.mem_cons_self
  cases htarget

end DashBeam.Collection
