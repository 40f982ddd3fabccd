import Mathlib.Data.Char
import Mathlib.Data.List.Lex
import Mathlib.Data.List.Sort
import DashBeam.Collection.Names

/-!
# Importing files into a collection

What `import_paths` reads of a file system is, for each selected path, its last component, whether it
leads to a file or a directory, and what walking the directory yields. Files of one path are imported
concurrently and come back in any order. The names of a collection are the relative paths of the
files below the names of the selected paths, numbered where they repeat, and sorted.
-/

namespace DashBeam.Collection

open Lib

/-! ## Paths and file systems -/

/-- A string of the operating system: text, or bytes that are not UTF-8. -/
inductive OsStr
  | text (s : Text)
  | bytes (raw : Bytes)
  deriving DecidableEq, Repr

def OsStr.toStr : OsStr → Option Text
  | .text s => some s
  | .bytes _ => none

/-- The names that files can have. -/
structure IsFileName (s : Text) : Prop where
  nonempty : s ≠ []
  noSlash : '/' ∉ s
  noNul : '\x00' ∉ s
  notDot : s ≠ ['.']
  notDotDot : s ≠ ['.', '.']

inductive Component
  | rootDir
  | curDir
  | parentDir
  | normal (name : OsStr)
  deriving DecidableEq, Repr

abbrev PathBuf : Type := List Component

/-- `Path::components` of a path given as text. -/
def components (s : Text) : PathBuf :=
  (if s.head? = some '/' then [.rootDir] else []) ++
    (s.splitOn '/').zipIdx.filterMap fun part =>
      if part.1 = [] then none
      else if part.1 = ['.'] then if part.2 = 0 then some .curDir else none
      else if part.1 = ['.', '.'] then some .parentDir
      else some (.normal (.text part.1))

def fileName (path : PathBuf) : Option OsStr :=
  match path.getLast? with
  | some (.normal name) => some name
  | _ => none

/-- What is read of a file: its length from the file system, and its bytes or why adding them to the
store fails. -/
structure FileData where
  length : Except String Nat
  added : Except String Bytes

inductive WalkKind
  | file (data : FileData)
  | directory
  /-- Symbolic links, which are not followed, and special files. -/
  | other
  /-- The walk yields an error here. -/
  | inaccessible (error : String)

/-- What the walk yields, with its path from the directory. -/
structure WalkEntry where
  rel : List OsStr
  kind : WalkKind

/-- The walk of a directory: all names are file names, no path is yielded twice, and nothing lies
below a file. -/
structure Directory where
  entries : List WalkEntry
  names : ∀ entry ∈ entries, ∀ s, .text s ∈ entry.rel → IsFileName s
  nodup : (entries.map WalkEntry.rel).Nodup
  leaf : ∀ entry ∈ entries, ∀ data, entry.kind = .file data →
    entry.rel ≠ [] ∧ ∀ entry' ∈ entries, entry.rel <+: entry'.rel → entry'.rel = entry.rel

/-- What a selected path leads to, links followed. -/
inductive Node
  | file (data : FileData)
  | directory (dir : Directory)
  | other

/-- A file system, as far as selected paths read it: the names of what exists are file names. -/
structure FileSystem where
  node : PathBuf → Option Node
  names : ∀ path s, (node path).isSome → fileName path = some (.text s) → IsFileName s

/-! ## The code -/

inductive ImportError
  /-- "invalid character in path" -/
  | invalidCharacter
  /-- "invalid path component {:?}" -/
  | invalidComponent (component : Component)
  /-- "path is neither file nor directory" -/
  | neitherFileNorDirectory
  /-- "error importing {}:{}" -/
  | importing (name : Text) (cause : String)
  /-- "no valid files found in provided paths" -/
  | noValidFiles
  deriving DecidableEq, Repr

/-- One component of `canonicalized_path_to_string`: a part of the name, nothing for an allowed root,
or an error. -/
def componentPart (mustBeRelative : Bool) (c : Component) : Except ImportError (Option Text) :=
  match c with
  | .normal x =>
    match x.toStr with
    | none => .error .invalidCharacter
    | some s => if '/' ∉ s ∧ '\\' ∉ s then .ok (some s) else .error (.invalidComponent c)
  | .rootDir => if mustBeRelative then .error (.invalidComponent c) else .ok none
  | _ => .error (.invalidComponent c)

def canonicalizedPathToString (path : PathBuf) (mustBeRelative : Bool) :
    Except ImportError Text := do
  let parts ← path.mapM (componentPart mustBeRelative)
  let root := if .rootDir ∈ path then ['/'] else []
  return root ++ List.intercalate ['/'] (parts.filterMap id)

/-- The loop of `collect_path_files` over the walk. -/
def collectEntries (rootName : Text) : List WalkEntry → Except ImportError (List (Text × FileData))
  | [] => .ok []
  | entry :: entries =>
    match entry.kind with
    | .file data => do
      let pathed := components rootName ++ entry.rel.map .normal
      let safe ← canonicalizedPathToString pathed true
      let out ← collectEntries rootName entries
      return (safe, data) :: out
    | _ => collectEntries rootName entries

def collectPathFiles (fs : FileSystem) (path : PathBuf) (rootName : Text) :
    Except ImportError (List (Text × FileData)) :=
  match fs.node path with
  | some (.file data) => do
    let rel ← canonicalizedPathToString (components rootName) true
    return [(rel, data)]
  | some (.directory dir) => collectEntries rootName dir.entries
  | _ => .error .neitherFileNorDirectory

/-- The name `import_paths` gives a selected path. -/
def stem (path : PathBuf) : Text := ((fileName path).bind OsStr.toStr).getD ['i', 't', 'e', 'm']

/-- A file in the store: its name, its blob and its size. -/
structure Entry where
  name : Text
  blob : Bytes
  size : Nat
  deriving DecidableEq, Repr

/-- The future that adds one file to the store. -/
def addFile (item : Text × FileData) : Except ImportError Entry :=
  match item.2.added with
  | .ok bytes => .ok ⟨item.1, bytes, bytes.length⟩
  | .error cause => .error (.importing item.1 cause)

/-- In which order the futures of the `i`-th path complete. -/
structure Completion where
  order : Nat → List (Except ImportError Entry) → List (Except ImportError Entry)
  perm : ∀ i results, (order i results).Perm results

/-- The loop of `import_paths` over the paths. -/
def importLoop (completion : Completion) (fs : FileSystem) :
    Nat → Map Text Nat → List PathBuf → Except ImportError (List Entry)
  | _, _, [] => .ok []
  | i, nameSeen, path :: paths => do
    let files ← collectPathFiles fs path (stem path)
    let localEntries ← (completion.order i (files.map addFile)).mapM id
    let finals := dedupAll Native.dedupName nameSeen (localEntries.map Entry.name)
    let rest ← importLoop completion fs (i + 1) finals.2 paths
    return List.zipWith (fun (entry : Entry) name => { entry with name := name }) localEntries
      finals.1 ++ rest

/-- `import_paths`, up to storing the collection: the total size and the collection, which is the
names with their blobs. -/
def importPaths (completion : Completion) (fs : FileSystem) (paths : List PathBuf) :
    Except ImportError (Nat × List (Text × Bytes)) := do
  let entries ← importLoop completion fs 0 ∅ paths
  let entries := entries.insertionSort fun a b => a.name ≤ b.name
  if entries = [] then .error .noValidFiles
  else return ((entries.map Entry.size).sum, entries.map fun entry => (entry.name, entry.blob))

/-! ## The selected files -/

/-- The relative paths of the regular files that a selected path brings, below its name. -/
def selectedFiles (fs : FileSystem) (path : PathBuf) : List (List OsStr) :=
  match fs.node path with
  | some (.file _) => [[.text (stem path)]]
  | some (.directory dir) => dir.entries.filterMap fun entry =>
    match entry.kind with
    | .file _ => some (.text (stem path) :: entry.rel)
    | _ => none
  | _ => []

/-- A relative path as the name of a file. -/
def joined (rel : List OsStr) : Text := List.intercalate ['/'] (rel.filterMap OsStr.toStr)

def selectedNames (fs : FileSystem) (paths : List PathBuf) : List Text :=
  paths.flatMap fun path => (selectedFiles fs path).map joined

/-! ## One file -/

/-- The path of a file in the root directory. -/
def rootPath (name : Text) : PathBuf := [.rootDir, .normal (.text name)]

def oneFileSystem (name : Text) (bytes : Bytes) (hname : IsFileName name) : FileSystem where
  node path := if path = rootPath name then some (.file ⟨.ok bytes.length, .ok bytes⟩) else none
  names := by
    intro path s hsome hs
    split at hsome
    · rename_i hpath
      subst hpath
      cases hs
      exact hname
    · cases hsome

/-- Files come back in the order they were asked for. -/
def Completion.inOrder : Completion where
  order _ results := results
  perm _ _ := List.Perm.refl _

/-! ## Names of files -/

/-- A name that can be part of a collection's names. -/
def Transferable (name : OsStr) : Prop := ∃ s, name = .text s ∧ '/' ∉ s ∧ '\\' ∉ s

theorem components_of_isFileName {s : Text} (h : IsFileName s) :
    components s = [.normal (.text s)] := by
  have hhead : s.head? ≠ some '/' := fun heq => h.noSlash (List.mem_of_mem_head? heq)
  rw [components, if_neg hhead, List.splitOn_eq_singleton h.noSlash]
  simp [h.nonempty, h.notDot, h.notDotDot]

theorem stem_isFileName {fs : FileSystem} {path : PathBuf} (h : (fs.node path).isSome) :
    IsFileName (stem path) := by
  have hitem : IsFileName ['i', 't', 'e', 'm'] := by constructor <;> decide
  rw [stem]
  cases hname : fileName path with
  | none => exact hitem
  | some name =>
    cases name with
    | text s => exact fs.names path s h hname
    | bytes raw => exact hitem

theorem componentPart_ok {name : OsStr} {part : Option Text}
    (h : componentPart true (.normal name) = .ok part) : Transferable name ∧ part = name.toStr := by
  cases name with
  | bytes raw => cases h
  | text s =>
    simp only [componentPart, OsStr.toStr] at h
    split at h
    · rename_i hclean
      exact ⟨⟨s, rfl, hclean⟩, (Except.ok.inj h).symm⟩
    · cases h

theorem mapM_componentPart_ok {rel : List OsStr} {parts : List (Option Text)}
    (h : (rel.map Component.normal).mapM (componentPart true) = .ok parts) :
    (∀ name ∈ rel, Transferable name) ∧ parts = rel.map OsStr.toStr := by
  induction rel generalizing parts with
  | nil =>
    obtain rfl := Except.ok.inj h
    exact ⟨fun name hname => absurd hname List.not_mem_nil, rfl⟩
  | cons name rel ih =>
    rw [List.map_cons, List.mapM_cons] at h
    cases hpart : componentPart true (.normal name) with
    | error e =>
      rw [hpart] at h
      cases h
    | ok part =>
      rw [hpart] at h
      cases hrest : (rel.map Component.normal).mapM (componentPart true) with
      | error e =>
        simp only [bind, Except.bind, hrest] at h
        cases h
      | ok rest =>
        simp only [bind, Except.bind, hrest, pure, Except.pure] at h
        obtain rfl := Except.ok.inj h
        obtain ⟨hname, rfl⟩ := componentPart_ok hpart
        obtain ⟨hrel, rfl⟩ := ih hrest
        refine ⟨?_, rfl⟩
        intro other hother
        rcases List.mem_cons.mp hother with rfl | hother
        · exact hname
        · exact hrel other hother

theorem canonicalizedPathToString_ok {rel : List OsStr} {safe : Text}
    (h : canonicalizedPathToString (rel.map .normal) true = .ok safe) :
    (∀ name ∈ rel, Transferable name) ∧ safe = joined rel := by
  have hroot : Component.rootDir ∉ rel.map Component.normal := by
    intro hmem
    obtain ⟨name, -, heq⟩ := List.mem_map.mp hmem
    cases heq
  rw [canonicalizedPathToString] at h
  cases hparts : (rel.map Component.normal).mapM (componentPart true) with
  | error e =>
    rw [hparts] at h
    cases h
  | ok parts =>
    rw [hparts] at h
    obtain ⟨hrel, rfl⟩ := mapM_componentPart_ok hparts
    refine ⟨hrel, ?_⟩
    simp only [bind, Except.bind, if_neg hroot, List.nil_append, pure, Except.pure,
      List.filterMap_map, Except.ok.injEq] at h
    exact h.symm

/-! ## What a successful import has collected -/

theorem collectEntries_ok {root : Text} (hroot : IsFileName root) {entries : List WalkEntry}
    {files : List (Text × FileData)} (h : collectEntries root entries = .ok files) :
    files.map Prod.fst = (entries.filterMap fun entry =>
      match entry.kind with
      | .file _ => some (OsStr.text root :: entry.rel)
      | _ => none).map joined ∧
    ∀ entry ∈ entries, ∀ data, entry.kind = .file data →
      ∀ name ∈ OsStr.text root :: entry.rel, Transferable name := by
  induction entries generalizing files with
  | nil =>
    obtain rfl := Except.ok.inj h
    exact ⟨rfl, fun entry hentry => absurd hentry List.not_mem_nil⟩
  | cons entry entries ih =>
    cases hkind : entry.kind with
    | file data =>
      have hpath : components root ++ entry.rel.map .normal =
          (OsStr.text root :: entry.rel).map Component.normal := by
        rw [components_of_isFileName hroot]
        rfl
      simp only [collectEntries, hkind, hpath] at h
      cases hsafe : canonicalizedPathToString
          ((OsStr.text root :: entry.rel).map Component.normal) true with
      | error e =>
        rw [hsafe] at h
        cases h
      | ok safe =>
        rw [hsafe] at h
        cases hout : collectEntries root entries with
        | error e =>
          rw [hout] at h
          cases h
        | ok out =>
          rw [hout] at h
          obtain rfl := Except.ok.inj h
          obtain ⟨hrel, rfl⟩ := canonicalizedPathToString_ok hsafe
          obtain ⟨hnames, hrest⟩ := ih hout
          refine ⟨?_, ?_⟩
          · simp only [List.map_cons, List.filterMap_cons, hkind, hnames]
          · intro other hother data' hdata
            rcases List.mem_cons.mp hother with rfl | hother
            · exact hrel
            · exact hrest other hother data' hdata
    | _ =>
      simp only [collectEntries, hkind] at h
      obtain ⟨hnames, hrest⟩ := ih h
      refine ⟨?_, ?_⟩
      · simp only [List.filterMap_cons, hkind, hnames]
      · intro other hother data' hdata
        rcases List.mem_cons.mp hother with rfl | hother
        · rw [hkind] at hdata
          cases hdata
        · exact hrest other hother data' hdata

/-- The files collected for a path have the joined relative paths of the selected files, and these
are transferable. -/
theorem collectPathFiles_ok {fs : FileSystem} {path : PathBuf} {files : List (Text × FileData)}
    (h : collectPathFiles fs path (stem path) = .ok files) :
    files.map Prod.fst = (selectedFiles fs path).map joined ∧
    (∀ rel ∈ selectedFiles fs path, ∀ name ∈ rel, Transferable name) ∧
    IsFileName (stem path) := by
  rw [collectPathFiles] at h
  rw [selectedFiles]
  cases hnode : fs.node path with
  | none =>
    rw [hnode] at h
    cases h
  | some node =>
    have hstem : IsFileName (stem path) := stem_isFileName (by rw [hnode]; rfl)
    rw [hnode] at h
    cases node with
    | other => cases h
    | file data =>
      simp only [components_of_isFileName hstem] at h
      cases hsafe : canonicalizedPathToString ([OsStr.text (stem path)].map Component.normal) true with
      | error e =>
        rw [List.map_cons, List.map_nil] at hsafe
        rw [hsafe] at h
        cases h
      | ok safe =>
        obtain ⟨hrel, rfl⟩ := canonicalizedPathToString_ok hsafe
        rw [List.map_cons, List.map_nil] at hsafe
        rw [hsafe] at h
        obtain rfl := Except.ok.inj h
        refine ⟨rfl, ?_, hstem⟩
        intro rel hmem
        rw [List.mem_singleton] at hmem
        rw [hmem]
        exact hrel
    | directory dir =>
      obtain ⟨hnames, hrest⟩ := collectEntries_ok hstem h
      refine ⟨hnames, ?_, hstem⟩
      intro rel hmem
      obtain ⟨entry, hentry, hrel⟩ := List.mem_filterMap.mp hmem
      cases hkind : entry.kind with
      | file data =>
        rw [hkind] at hrel
        obtain rfl := Option.some.inj hrel
        exact hrest entry hentry data hkind
      | _ =>
        rw [hkind] at hrel
        cases hrel

theorem mapM_id_ok {results : List (Except ImportError Entry)} {entries : List Entry}
    (h : results.mapM id = .ok entries) : results = entries.map Except.ok := by
  induction results generalizing entries with
  | nil =>
    obtain rfl := Except.ok.inj h
    rfl
  | cons result results ih =>
    rw [List.mapM_cons] at h
    cases result with
    | error e => cases h
    | ok entry =>
      cases hrest : results.mapM id with
      | error e =>
        simp only [bind, Except.bind, id, hrest] at h
        cases h
      | ok rest =>
        simp only [bind, Except.bind, id, hrest, pure, Except.pure] at h
        obtain rfl := Except.ok.inj h
        rw [List.map_cons, ih hrest]

def resultName : Except ImportError Entry → Text
  | .ok entry => entry.name
  | .error _ => []

theorem names_perm {completion : Completion} {i : Nat} {files : List (Text × FileData)}
    {entries : List Entry} (h : (completion.order i (files.map addFile)).mapM id = .ok entries) :
    (entries.map Entry.name).Perm (files.map Prod.fst) := by
  have horder := mapM_id_ok h
  have hperm := completion.perm i (files.map addFile)
  rw [horder] at hperm
  have hnames := hperm.map resultName
  rw [List.map_map, List.map_map] at hnames
  have hfiles : files.map (resultName ∘ addFile) = files.map Prod.fst := by
    apply List.map_congr_left
    intro item hitem
    have hok : addFile item ∈ entries.map Except.ok :=
      hperm.mem_iff.mpr (List.mem_map_of_mem hitem)
    obtain ⟨entry, -, hentry⟩ := List.mem_map.mp hok
    rw [Function.comp_apply, ← hentry]
    rw [addFile] at hentry
    split at hentry
    · exact congrArg Entry.name (Except.ok.inj hentry)
    · cases hentry
  rw [hfiles] at hnames
  exact hnames

theorem map_name_zipWith {entries : List Entry} {names : List Text}
    (h : names.length = entries.length) :
    (List.zipWith (fun (entry : Entry) name => { entry with name := name }) entries names).map
      Entry.name = names := by
  induction entries generalizing names with
  | nil => exact (List.length_eq_zero_iff.mp h).symm
  | cons entry entries ih =>
    cases names with
    | nil => cases h
    | cons name names =>
      rw [List.zipWith_cons_cons, List.map_cons, ih (Nat.succ_inj.mp h)]

theorem length_dedupAll {ν : Type} (dedup : ν → Map ν Nat → ν × Map ν Nat) (seen : Map ν Nat)
    (names : List ν) : (dedupAll dedup seen names).1.length = names.length := by
  induction names generalizing seen with
  | nil => rfl
  | cons name names ih => rw [dedupAll, List.length_cons, List.length_cons, ih]

/-- The loop folds `dedup_name` over the names of the selected files, in an order that the
completions decide. -/
theorem importLoop_ok {completion : Completion} {fs : FileSystem} {i : Nat} {seen : Map Text Nat}
    {paths : List PathBuf} {entries : List Entry}
    (h : importLoop completion fs i seen paths = .ok entries) :
    (∃ names : List Text, names.Perm (selectedNames fs paths) ∧
      entries.map Entry.name = (dedupAll Native.dedupName seen names).1) ∧
    ∀ path ∈ paths, (∀ rel ∈ selectedFiles fs path, ∀ name ∈ rel, Transferable name) ∧
      IsFileName (stem path) := by
  induction paths generalizing i seen entries with
  | nil =>
    obtain rfl := Except.ok.inj h
    exact ⟨⟨[], List.Perm.refl _, rfl⟩, fun path hpath => absurd hpath List.not_mem_nil⟩
  | cons path paths ih =>
    rw [importLoop] at h
    cases hfiles : collectPathFiles fs path (stem path) with
    | error e =>
      rw [hfiles] at h
      cases h
    | ok files =>
      simp only [hfiles, bind, Except.bind] at h
      cases hlocal : (completion.order i (files.map addFile)).mapM id with
      | error e =>
        rw [hlocal] at h
        cases h
      | ok localEntries =>
        simp only [hlocal] at h
        generalize hfinals : dedupAll Native.dedupName seen (localEntries.map Entry.name) = finals
          at h
        cases hrest : importLoop completion fs (i + 1) finals.2 paths with
        | error e =>
          rw [hrest] at h
          cases h
        | ok rest =>
          simp only [hrest, pure, Except.pure] at h
          obtain rfl := Except.ok.inj h
          obtain ⟨⟨names, hperm, hnames⟩, hpaths⟩ := ih hrest
          obtain ⟨hcollected, htransferable, hstem⟩ := collectPathFiles_ok hfiles
          refine ⟨⟨localEntries.map Entry.name ++ names, ?_, ?_⟩, ?_⟩
          · rw [selectedNames, List.flatMap_cons, ← hcollected]
            exact (names_perm hlocal).append hperm
          · have hlength : finals.1.length = localEntries.length := by
              rw [← hfinals, length_dedupAll, List.length_map]
            rw [List.map_append, map_name_zipWith hlength, hnames, dedupAll_append, hfinals]
          · intro other hother
            rcases List.mem_cons.mp hother with rfl | hother
            · exact ⟨htransferable, hstem⟩
            · exact hpaths other hother

/-- The names of an imported collection are the labels of the occurrences of the selected names, in
order. -/
theorem importPaths_perm {completion : Completion} {fs : FileSystem} {paths : List PathBuf}
    {total : Nat} {collection : List (Text × Bytes)}
    (h : importPaths completion fs paths = .ok (total, collection)) :
    (collection.map Prod.fst).Pairwise (· ≤ ·) ∧
    ∃ names : List Text, names.Perm (selectedNames fs paths) ∧
      (collection.map Prod.fst).Perm (numbered engineLabel names) := by
  rw [importPaths] at h
  cases hloop : importLoop completion fs 0 ∅ paths with
  | error e =>
    rw [hloop] at h
    cases h
  | ok entries =>
    simp only [hloop, bind, Except.bind] at h
    split at h
    · cases h
    · obtain rfl := (Prod.mk.inj (Except.ok.inj h)).2
      obtain ⟨⟨names, hperm, hnames⟩, -⟩ := importLoop_ok hloop
      have hfst : ((entries.insertionSort fun a b => a.name ≤ b.name).map fun entry =>
          (entry.name, entry.blob)).map Prod.fst =
          (entries.insertionSort fun a b => a.name ≤ b.name).map Entry.name := by
        rw [List.map_map]
        rfl
      rw [hfst]
      refine ⟨?_, names, hperm, ?_⟩
      · have htotal : Std.Total fun a b : Entry => a.name ≤ b.name :=
          ⟨fun a b => le_total a.name b.name⟩
        have htrans : IsTrans Entry fun a b => a.name ≤ b.name :=
          ⟨fun _ _ _ hab hbc => le_trans hab hbc⟩
        exact List.pairwise_map.mpr (List.pairwise_insertionSort _ _)
      · rw [← dedupNames_engine, show dedupNames dedupNameBody names =
          (dedupAll Native.dedupName ∅ names).1 from rfl, ← hnames]
        exact (List.perm_insertionSort _ entries).map Entry.name

theorem importPaths_names {completion : Completion} {fs : FileSystem} {paths : List PathBuf}
    {total : Nat} {collection : List (Text × Bytes)}
    (h : importPaths completion fs paths = .ok (total, collection)) (final : Text) :
    final ∈ collection.map Prod.fst ↔
      ∃ name k, k < (selectedNames fs paths).count name ∧ engineLabel name k = final := by
  obtain ⟨-, names, hperm, hlabels⟩ := importPaths_perm h
  rw [hlabels.mem_iff, mem_numbered]
  simp only [hperm.count_eq]

theorem importPaths_transferable {completion : Completion} {fs : FileSystem}
    {paths : List PathBuf} {total : Nat} {collection : List (Text × Bytes)}
    (h : importPaths completion fs paths = .ok (total, collection)) :
    ∀ path ∈ paths, (∀ rel ∈ selectedFiles fs path, ∀ name ∈ rel, Transferable name) ∧
      IsFileName (stem path) := by
  rw [importPaths] at h
  cases hloop : importLoop completion fs 0 ∅ paths with
  | error e =>
    rw [hloop] at h
    cases h
  | ok entries => exact (importLoop_ok hloop).2

end DashBeam.Collection
