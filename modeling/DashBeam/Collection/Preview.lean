import DashBeam.Collection.Import
import DashBeam.Protocol.Framing

/-!
# The preview of a share

Before files are shared, `build_send_metadata` announces one item per selected path, with the base
names numbered where they repeat. What is shared later are the files, whose full relative paths are
numbered where they repeat. The two agree on the top level exactly when no selected folder has the
name of another selected path and no numbered name is taken.
-/

namespace DashBeam.Collection

open Lib Protocol

/-! ## The code -/

/-- What the preview gets from outside: the guessed type of a file, its thumbnail, and how bytes that
are not UTF-8 are shown. -/
structure Media where
  mimeGuess : PathBuf → Text
  thumbnail : PathBuf → Option Text
  lossy : Bytes → Text

def isFile (fs : FileSystem) (path : PathBuf) : Bool :=
  match fs.node path with
  | some (.file _) => true
  | _ => false

def isDir (fs : FileSystem) (path : PathBuf) : Bool :=
  match fs.node path with
  | some (.directory _) => true
  | _ => false

/-- `u64::saturating_add`. -/
def saturatingAdd64 (a b : Nat) : Nat := min (a + b) (2 ^ 64 - 1)

/-- The loop of `get_total_size` over a directory. -/
def totalSizeOfEntries (total : Nat) : List WalkEntry → Except String Nat
  | [] => .ok total
  | entry :: entries =>
    match entry.kind with
    | .inaccessible error => .error ("Failed to traverse: " ++ error)
    | .file data =>
      match data.length with
      | .ok length => totalSizeOfEntries (saturatingAdd64 total length) entries
      | .error error => .error ("Failed to read metadata: " ++ error)
    | _ => totalSizeOfEntries total entries

def getTotalSize (fs : FileSystem) (path : PathBuf) : Except String Nat :=
  match fs.node path with
  | some (.file data) => data.length.mapError ("Failed to read metadata: " ++ ·)
  | some (.directory dir) => totalSizeOfEntries 0 dir.entries
  | _ => .error "Path is neither a file nor a directory"

/-- The base name the preview gives a path. -/
def previewStem (path : PathBuf) : Text :=
  (((fileName path).bind OsStr.toStr).filter (· ≠ [])).getD ['i', 't', 'e', 'm']

/-- The MIME type of a folder. -/
def inodeDirectory : Text := "inode/directory".toList

/-- The loop of `collect_preview_items`. -/
def previewLoop (media : Media) (fs : FileSystem) (seenNames : Map Text Nat) :
    List PathBuf → Except String (List FilePreviewItem)
  | [] => .ok []
  | path :: paths => do
    let final := Commands.dedupName (previewStem path) seenNames
    let size ← getTotalSize fs path
    let mimeType := if isDir fs path then inodeDirectory else media.mimeGuess path
    let thumbnail := if isFile fs path then media.thumbnail path else none
    let items ← previewLoop media fs final.2 paths
    return ⟨final.1, size, thumbnail, some mimeType⟩ :: items

def collectPreviewItems (media : Media) (fs : FileSystem) (paths : List PathBuf) :
    Except String (List FilePreviewItem) := do
  let items ← previewLoop media fs ∅ paths
  return items.insertionSort fun a b => a.fileName ≤ b.fileName

/-- `path.file_name().unwrap_or_default().to_string_lossy()`. -/
def lossyName (media : Media) (path : PathBuf) : Text :=
  match fileName path with
  | some (.text s) => s
  | some (.bytes raw) => media.lossy raw
  | none => []

def totalSizeOfPaths (fs : FileSystem) (total : Nat) : List PathBuf → Except String Nat
  | [] => .ok total
  | path :: paths => do
    let size ← getTotalSize fs path
    totalSizeOfPaths fs (saturatingAdd64 total size) paths

def buildSendMetadata (media : Media) (fs : FileSystem) (paths : List PathBuf) :
    Except String FileMetadata :=
  match paths with
  | [] => .error "No paths provided"
  | [path] => do
    let totalSize ← totalSizeOfPaths fs 0 [path]
    let mimeType := if isFile fs path then media.mimeGuess path else inodeDirectory
    return ⟨lossyName media path, 1, totalSize, media.thumbnail path, some mimeType, none⟩
  | first :: rest => do
    let totalSize ← totalSizeOfPaths fs 0 (first :: rest)
    let previewItems ← collectPreviewItems media fs (first :: rest)
    return ⟨lossyName media first, (first :: rest).length % 2 ^ 32, totalSize,
      previewItems.findSome? FilePreviewItem.thumbnail,
      some "application/x-iroh-collection".toList, some previewItems⟩

/-! ## Names of the preview -/

/-- The base names of the selected paths. -/
def stems (paths : List PathBuf) : List Text := paths.map stem

theorem previewStem_eq {fs : FileSystem} {path : PathBuf} (h : (fs.node path).isSome) :
    previewStem path = stem path := by
  rw [previewStem, stem]
  cases hname : fileName path with
  | none => rfl
  | some name =>
    cases name with
    | bytes raw => rfl
    | text s =>
      have hne : s ≠ [] := (fs.names path s h hname).nonempty
      simp [OsStr.toStr, Option.filter, hne]

theorem getTotalSize_isSome {fs : FileSystem} {path : PathBuf} {size : Nat}
    (h : getTotalSize fs path = .ok size) : (fs.node path).isSome := by
  rw [getTotalSize] at h
  cases hnode : fs.node path with
  | none =>
    rw [hnode] at h
    cases h
  | some node => rfl

theorem previewLoop_names {media : Media} {fs : FileSystem} {seen : Map Text Nat}
    {paths : List PathBuf} {items : List FilePreviewItem}
    (h : previewLoop media fs seen paths = .ok items) :
    items.map FilePreviewItem.fileName = (dedupAll Commands.dedupName seen (stems paths)).1 := by
  induction paths generalizing seen items with
  | nil =>
    obtain rfl := Except.ok.inj h
    rfl
  | cons path paths ih =>
    rw [previewLoop] at h
    cases hsize : getTotalSize fs path with
    | error e =>
      simp only [hsize, bind, Except.bind] at h
      cases h
    | ok size =>
      simp only [hsize, bind, Except.bind] at h
      rw [previewStem_eq (getTotalSize_isSome hsize)] at h
      cases hrest : previewLoop media fs (Commands.dedupName (stem path) seen).2 paths with
      | error e =>
        rw [hrest] at h
        cases h
      | ok rest =>
        simp only [hrest, pure, Except.pure] at h
        obtain rfl := Except.ok.inj h
        rw [List.map_cons, ih hrest]
        rfl

theorem collectPreviewItems_names {media : Media} {fs : FileSystem} {paths : List PathBuf}
    {items : List FilePreviewItem} (h : collectPreviewItems media fs paths = .ok items) :
    (items.map FilePreviewItem.fileName).toFinset =
      (numbered engineLabel (stems paths)).toFinset := by
  rw [collectPreviewItems] at h
  cases hloop : previewLoop media fs ∅ paths with
  | error e =>
    rw [hloop] at h
    cases h
  | ok unsorted =>
    rw [hloop] at h
    obtain rfl := Except.ok.inj h
    have hperm := (List.perm_insertionSort (fun a b : FilePreviewItem => a.fileName ≤ b.fileName)
      unsorted).map FilePreviewItem.fileName
    rw [List.toFinset_eq_of_perm _ _ hperm, previewLoop_names hloop]
    exact congrArg List.toFinset (dedupNames_engine (stems paths))

/-! ## Top-level components of the shared names -/

/-- The top-level component of a name. -/
def top (name : Text) : Text := (name.splitOn '/').headD []

/-- The top-level components of the names of a collection. -/
def shareTops (collection : List (Text × Bytes)) : Finset Text :=
  ((collection.map Prod.fst).map top).toFinset

def announcedNames (metadata : FileMetadata) : Finset Text :=
  ((metadata.items.getD []).map FilePreviewItem.fileName).toFinset

/-- What is announced is the top level of what is shared. -/
def PreviewMatches (metadata : FileMetadata) (collection : List (Text × Bytes)) : Prop :=
  announcedNames metadata = shareTops collection ∧
    metadata.itemCount = (shareTops collection).card

/-- The base names of the selected files, and of the selected folders. -/
def fileStems (fs : FileSystem) (paths : List PathBuf) : List Text :=
  stems (paths.filter fun path => isFile fs path)

def folderStems (fs : FileSystem) (paths : List PathBuf) : List Text :=
  stems (paths.filter fun path => !isFile fs path)

theorem buildSendMetadata_names {media : Media} {fs : FileSystem} {paths : List PathBuf}
    (hlength : 2 ≤ paths.length) {metadata : FileMetadata}
    (h : buildSendMetadata media fs paths = .ok metadata) :
    metadata.itemCount = paths.length % 2 ^ 32 ∧
      announcedNames metadata = (numbered engineLabel (stems paths)).toFinset := by
  match paths, hlength with
  | first :: second :: rest, _ =>
    rw [buildSendMetadata] at h
    · cases htotal : totalSizeOfPaths fs 0 (first :: second :: rest) with
      | error e =>
        rw [htotal] at h
        cases h
      | ok total =>
        cases hitems : collectPreviewItems media fs (first :: second :: rest) with
        | error e =>
          rw [htotal, hitems] at h
          cases h
        | ok items =>
          rw [htotal, hitems] at h
          obtain rfl := Except.ok.inj h
          exact ⟨rfl, collectPreviewItems_names hitems⟩
    · intro hnil
      cases hnil

theorem top_of_notMem {name : Text} (h : '/' ∉ name) : top name = name := by
  rw [top, List.splitOn_eq_singleton h]
  rfl

theorem top_append {front : Text} (h : '/' ∉ front) (rest : Text) :
    top (front ++ '/' :: rest) = front := by
  rw [top, List.splitOn_append_cons_self_of_not_mem h]
  rfl

theorem engineLabel_noSlash {name : Text} (h : '/' ∉ name) (k : Nat) : '/' ∉ engineLabel name k := by
  rw [engineLabel]
  split
  · exact h
  · intro hmem
    exact h ((Alphabet.rust.letter_mem_suffixed (c := '/') (by decide) (by decide)
      (by decide)).mp hmem)

/-- Of a numbered name in a folder, the top is the folder. -/
theorem top_engineLabel_append {front : Text} (h : '/' ∉ front) (rest : Text) (k : Nat) :
    top (engineLabel (front ++ '/' :: rest) k) = front := by
  rw [engineLabel]
  split
  · exact top_append h rest
  · rw [Alphabet.suffixed_eq, List.append_assoc, List.append_assoc]
    exact top_append h _

theorem joined_folder {fs : FileSystem} {path : PathBuf} {rel : List OsStr}
    (hfolder : isFile fs path = false) (h : rel ∈ selectedFiles fs path)
    (htransferable : ∀ name ∈ rel, Transferable name) :
    ∃ rest, joined rel = stem path ++ '/' :: rest := by
  rw [selectedFiles] at h
  rw [isFile] at hfolder
  cases hnode : fs.node path with
  | none =>
    rw [hnode] at h
    cases h
  | some node =>
    rw [hnode] at h hfolder
    cases node with
    | file data => cases hfolder
    | other => cases h
    | directory dir =>
      obtain ⟨entry, hentry, hrel⟩ := List.mem_filterMap.mp h
      cases hkind : entry.kind with
      | file data =>
        rw [hkind] at hrel
        obtain rfl := Option.some.inj hrel
        have hne := (dir.leaf entry hentry data hkind).1
        obtain ⟨name, rest, hcons⟩ := List.exists_cons_of_ne_nil hne
        obtain ⟨s, rfl, -⟩ := htransferable name (by rw [hcons]; simp)
        refine ⟨List.intercalate ['/'] (s :: rest.filterMap OsStr.toStr), ?_⟩
        rw [hcons]
        change List.intercalate ['/'] (stem path :: s :: rest.filterMap OsStr.toStr) = _
        rw [List.intercalate_cons_of_ne_nil (List.cons_ne_nil _ _), List.append_assoc,
          List.singleton_append]
      | _ =>
        rw [hkind] at hrel
        cases hrel

/-- A selected file's name is its base name, or is in the folder that was selected. -/
theorem selectedFiles_file {fs : FileSystem} {path : PathBuf} (h : isFile fs path = true) :
    (selectedFiles fs path).map joined = [stem path] := by
  rw [isFile] at h
  rw [selectedFiles]
  cases hnode : fs.node path with
  | none =>
    rw [hnode] at h
    cases h
  | some node =>
    rw [hnode] at h
    cases node with
    | file data => simp [joined, OsStr.toStr]
    | directory dir => cases h
    | other => cases h

theorem fileStems_cons (fs : FileSystem) (path : PathBuf) (paths : List PathBuf) :
    fileStems fs (path :: paths) =
      if isFile fs path then stem path :: fileStems fs paths else fileStems fs paths := by
  simp only [fileStems, stems, List.filter_cons]
  split <;> rfl

theorem count_selectedNames {fs : FileSystem} {paths : List PathBuf}
    (h : ∀ path ∈ paths, ∀ rel ∈ selectedFiles fs path, ∀ name ∈ rel, Transferable name)
    {name : Text} (hname : '/' ∉ name) :
    (selectedNames fs paths).count name = (fileStems fs paths).count name := by
  induction paths with
  | nil => rfl
  | cons path paths ih =>
    have hrest := ih fun p hp => h p (List.mem_cons_of_mem _ hp)
    rw [selectedNames, List.flatMap_cons, List.count_append, ← selectedNames, hrest]
    cases hfile : isFile fs path with
    | true =>
      rw [selectedFiles_file hfile, fileStems_cons, if_pos hfile,
        ← List.count_append, List.singleton_append]
    | false =>
      have hzero : ((selectedFiles fs path).map joined).count name = 0 := by
        rw [List.count_eq_zero]
        intro hmem
        obtain ⟨rel, hrel, rfl⟩ := List.mem_map.mp hmem
        obtain ⟨rest, hjoined⟩ :=
          joined_folder hfile hrel (h path List.mem_cons_self rel hrel)
        rw [hjoined] at hname
        exact hname (List.mem_append_right _ List.mem_cons_self)
      have hnot : ¬ isFile fs path = true := by
        rw [hfile]
        decide
      rw [hzero, Nat.zero_add, fileStems_cons, if_neg hnot]

theorem mem_fileStems {fs : FileSystem} {paths : List PathBuf} {name : Text} :
    name ∈ fileStems fs paths ↔ ∃ path ∈ paths, isFile fs path = true ∧ stem path = name := by
  simp [fileStems, stems, and_assoc]

theorem mem_folderStems {fs : FileSystem} {paths : List PathBuf} {name : Text} :
    name ∈ folderStems fs paths ↔ ∃ path ∈ paths, isFile fs path = false ∧ stem path = name := by
  simp [folderStems, stems, and_assoc]

theorem count_stems (fs : FileSystem) (paths : List PathBuf) (name : Text) :
    (stems paths).count name =
      (fileStems fs paths).count name + (folderStems fs paths).count name := by
  have hperm := ((List.filter_append_perm (fun path => isFile fs path) paths).map stem).count_eq name
  rw [List.map_append, List.count_append] at hperm
  exact hperm.symm

/-- The top level of a share: the numbered names of the selected files, and the names of the selected
folders. -/
theorem tops_importPaths {completion : Completion} {fs : FileSystem} {paths : List PathBuf}
    {total : Nat} {collection : List (Text × Bytes)}
    (h : importPaths completion fs paths = .ok (total, collection))
    (hfiles : ∀ path ∈ paths, selectedFiles fs path ≠ []) :
    shareTops collection =
      (numbered engineLabel (fileStems fs paths) ++ folderStems fs paths).toFinset := by
  have hnames := importPaths_names h
  have htransferable := importPaths_transferable h
  have hcount : ∀ {name : Text}, '/' ∉ name →
      (selectedNames fs paths).count name = (fileStems fs paths).count name :=
    fun hname => count_selectedNames (fun path hpath => (htransferable path hpath).1) hname
  have hstem : ∀ path ∈ paths, '/' ∉ stem path :=
    fun path hpath => (htransferable path hpath).2.noSlash
  ext t
  rw [shareTops, List.mem_toFinset, List.mem_toFinset, List.mem_map, List.mem_append, mem_numbered]
  constructor
  · rintro ⟨final, hfinal, rfl⟩
    obtain ⟨name, k, hk, rfl⟩ := (hnames final).mp hfinal
    have hmem : name ∈ selectedNames fs paths := List.count_pos_iff.mp (Nat.zero_lt_of_lt hk)
    obtain ⟨path, hpath, hfound⟩ := List.mem_flatMap.mp hmem
    cases hfile : isFile fs path with
    | true =>
      rw [selectedFiles_file hfile, List.mem_singleton] at hfound
      subst hfound
      rw [top_of_notMem (engineLabel_noSlash (hstem path hpath) k)]
      exact Or.inl ⟨stem path, k, by rwa [← hcount (hstem path hpath)], rfl⟩
    | false =>
      obtain ⟨rel, hrel, rfl⟩ := List.mem_map.mp hfound
      obtain ⟨rest, hjoined⟩ :=
        joined_folder hfile hrel ((htransferable path hpath).1 rel hrel)
      rw [hjoined, top_engineLabel_append (hstem path hpath)]
      exact Or.inr (mem_folderStems.mpr ⟨path, hpath, hfile, rfl⟩)
  · rintro (⟨name, k, hk, rfl⟩ | hfolder)
    · obtain ⟨path, hpath, hfile, rfl⟩ :=
        mem_fileStems.mp (List.count_pos_iff.mp (Nat.zero_lt_of_lt hk))
      refine ⟨engineLabel (stem path) k, (hnames _).mpr ⟨stem path, k, ?_, rfl⟩, ?_⟩
      · rwa [hcount (hstem path hpath)]
      · exact top_of_notMem (engineLabel_noSlash (hstem path hpath) k)
    · obtain ⟨path, hpath, hfile, rfl⟩ := mem_folderStems.mp hfolder
      obtain ⟨rel, hrel⟩ := List.exists_mem_of_ne_nil _ (hfiles path hpath)
      obtain ⟨rest, hjoined⟩ :=
        joined_folder hfile hrel ((htransferable path hpath).1 rel hrel)
      have hselected : joined rel ∈ selectedNames fs paths :=
        List.mem_flatMap.mpr ⟨path, hpath, List.mem_map_of_mem hrel⟩
      refine ⟨engineLabel (joined rel) 0,
        (hnames _).mpr ⟨joined rel, 0, List.count_pos_iff.mpr hselected, rfl⟩, ?_⟩
      rw [hjoined, top_engineLabel_append (hstem path hpath)]

/-- The desktop preview of several paths, each a file or a folder with a file in it, announces the
top level of the share and its number exactly when the number fits, no folder has the name of another
selected path, and no numbered name is taken. -/
theorem desktop_preview_iff {media : Media} {completion : Completion} {fs : FileSystem}
    {paths : List PathBuf} (hlength : 2 ≤ paths.length)
    (hfiles : ∀ path ∈ paths, selectedFiles fs path ≠ []) {metadata : FileMetadata}
    (hpreview : buildSendMetadata media fs paths = .ok metadata) {total : Nat}
    {collection : List (Text × Bytes)}
    (himport : importPaths completion fs paths = .ok (total, collection)) :
    PreviewMatches metadata collection ↔
    paths.length < 2 ^ 32 ∧
      (∀ path ∈ paths, isFile fs path = false → (stems paths).count (stem path) = 1) ∧
      ∀ name k, 2 ≤ k → k ≤ (stems paths).count name →
        Alphabet.rust.suffixed name k ∉ stems paths := by
  obtain ⟨hcount, hnames⟩ := buildSendMetadata_names hlength hpreview
  have hmerged := numbered_eq_merged_iff engineLabel_labels (M := 2 ^ 32) (by decide)
    (count_stems fs paths)
  have hstemsLength : (stems paths).length = paths.length := List.length_map _
  rw [hstemsLength] at hmerged
  have hfolders : (∀ path ∈ paths, isFile fs path = false → (stems paths).count (stem path) = 1) ↔
      ∀ n ∈ folderStems fs paths, (stems paths).count n = 1 := by
    constructor
    · intro h n hn
      obtain ⟨path, hpath, hfile, rfl⟩ := mem_folderStems.mp hn
      exact h path hpath hfile
    · intro h path hpath hfile
      exact h _ (mem_folderStems.mpr ⟨path, hpath, hfile, rfl⟩)
  have hlabels : (∀ name k, 2 ≤ k → k ≤ (stems paths).count name →
        Alphabet.rust.suffixed name k ∉ stems paths) ↔
      ∀ n k, 0 < k → k < (stems paths).count n → engineLabel n k ∉ stems paths := by
    rw [← nodup_dedupNames_engine, dedupNames_engine, nodup_numbered_iff engineLabel_labels]
  rw [PreviewMatches, hnames, hcount, tops_importPaths himport hfiles, hfolders, hlabels]
  exact hmerged

end DashBeam.Collection
