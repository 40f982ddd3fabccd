import DashBeam.Collection.Preview

/-!
# The preview of a share in the browser

In the browser the selected paths are keys of an in-memory registry of files and folders. The preview
announces the last component of each path, numbered by its own rule; what is shared are the keys
themselves, and the engine numbers those that repeat. A key without a slash is shared once, so the top
level of the share are the first components of the selected paths.
-/

namespace DashBeam.Collection

open Lib Protocol

/-! ## The registry of files -/

/-- A `File` of the browser: its name, type and size, and its bytes or why reading them fails. -/
structure WebFile where
  name : JsString
  type : JsString
  size : Nat
  arrayBuffer : Except String Bytes

/-- The registered files, in the order of their registration, and the registered folders. Names that
the browser gives are well-formed strings, and no path is both. -/
structure WebFileStore where
  filesByPath : List (JsString × WebFile)
  directoryPaths : Finset JsString
  nodup : (filesByPath.map Prod.fst).Nodup
  disjoint : ∀ path ∈ directoryPaths, path ∉ filesByPath.map Prod.fst
  wellFormed : ∀ path, path ∈ directoryPaths ∨ path ∈ filesByPath.map Prod.fst → path.WellFormed

/-- `Map.prototype.set`: a known key keeps its place. -/
def setFile (files : List (JsString × WebFile)) (path : JsString) (file : WebFile) :
    List (JsString × WebFile) :=
  if path ∈ files.map Prod.fst then
    files.map fun entry => if entry.1 = path then (path, file) else entry
  else files ++ [(path, file)]

/-- `Map.prototype.delete`. -/
def deleteFile (files : List (JsString × WebFile)) (path : JsString) : List (JsString × WebFile) :=
  files.filter fun entry => entry.1 ≠ path

theorem keys_setFile (files : List (JsString × WebFile)) (path : JsString) (file : WebFile) :
    (setFile files path file).map Prod.fst =
      if path ∈ files.map Prod.fst then files.map Prod.fst else files.map Prod.fst ++ [path] := by
  rw [setFile]
  split
  · rw [List.map_map]
    apply List.map_congr_left
    intro entry _
    by_cases h : entry.1 = path
    · simp [h]
    · simp [h]
  · rw [List.map_append, List.map_singleton]

theorem mem_keys_setFile {files : List (JsString × WebFile)} {path other : JsString}
    {file : WebFile} :
    other ∈ (setFile files path file).map Prod.fst ↔
      other = path ∨ other ∈ files.map Prod.fst := by
  rw [keys_setFile]
  split
  · rename_i hmem
    constructor
    · exact Or.inr
    · rintro (rfl | h)
      · exact hmem
      · exact h
  · rw [List.mem_append, List.mem_singleton]
    exact or_comm

theorem nodup_keys_setFile {files : List (JsString × WebFile)} (h : (files.map Prod.fst).Nodup)
    (path : JsString) (file : WebFile) : ((setFile files path file).map Prod.fst).Nodup := by
  rw [keys_setFile]
  split
  · exact h
  · rename_i hnot
    exact List.nodup_append.mpr ⟨h, List.nodup_singleton _, by
      rintro a ha b hb rfl
      exact hnot (List.mem_singleton.mp hb ▸ ha)⟩

theorem mem_keys_deleteFile {files : List (JsString × WebFile)} {path other : JsString} :
    other ∈ (deleteFile files path).map Prod.fst ↔
      other ∈ files.map Prod.fst ∧ other ≠ path := by
  simp only [deleteFile, List.mem_map, List.mem_filter, decide_eq_true_eq]
  constructor
  · rintro ⟨entry, ⟨hentry, hne⟩, rfl⟩
    exact ⟨⟨entry, hentry, rfl⟩, hne⟩
  · rintro ⟨⟨entry, hentry, rfl⟩, hne⟩
    exact ⟨entry, ⟨hentry, hne⟩, rfl⟩

namespace WebFileStore

/-- The registry at first, and after `clearWebFiles`. -/
def clearWebFiles : WebFileStore where
  filesByPath := []
  directoryPaths := ∅
  nodup := List.nodup_nil
  disjoint _ _ := List.not_mem_nil
  wellFormed := by
    intro path h
    simp at h

def registerWebFile (store : WebFileStore) (path : JsString) (hpath : path.WellFormed)
    (file : WebFile) : WebFileStore where
  filesByPath := setFile store.filesByPath path file
  directoryPaths := store.directoryPaths.erase path
  nodup := nodup_keys_setFile store.nodup path file
  disjoint := by
    intro other hother hmem
    obtain ⟨hne, hdir⟩ := Finset.mem_erase.mp hother
    rcases mem_keys_setFile.mp hmem with rfl | hkey
    · exact hne rfl
    · exact store.disjoint other hdir hkey
  wellFormed := by
    rintro other (hdir | hkey)
    · exact store.wellFormed other (Or.inl (Finset.mem_of_mem_erase hdir))
    · rcases mem_keys_setFile.mp hkey with rfl | hkey
      · exact hpath
      · exact store.wellFormed other (Or.inr hkey)

def registerWebDirectory (store : WebFileStore) (path : JsString) (hpath : path.WellFormed) :
    WebFileStore where
  filesByPath := deleteFile store.filesByPath path
  directoryPaths := insert path store.directoryPaths
  nodup := store.nodup.sublist (List.filter_sublist.map _)
  disjoint := by
    intro other hother hmem
    obtain ⟨hkey, hne⟩ := mem_keys_deleteFile.mp hmem
    rcases Finset.mem_insert.mp hother with rfl | hdir
    · exact hne rfl
    · exact store.disjoint other hdir hkey
  wellFormed := by
    rintro other (hdir | hkey)
    · rcases Finset.mem_insert.mp hdir with rfl | hdir
      · exact hpath
      · exact store.wellFormed other (Or.inl hdir)
    · exact store.wellFormed other (Or.inr (mem_keys_deleteFile.mp hkey).1)

def getWebFile (store : WebFileStore) (path : JsString) : Option WebFile :=
  store.filesByPath.lookup path

def isWebDirectory (store : WebFileStore) (path : JsString) : Bool :=
  path ∈ store.directoryPaths

/-- The unit of `/`. -/
def slash : UInt16 := Alphabet.js.letter '/'

def listWebFileEntriesUnderPath (store : WebFileStore) (path : JsString) :
    List (JsString × WebFile) :=
  store.filesByPath.filter fun entry =>
    entry.1 = path || (path ++ [slash]).isPrefixOf entry.1

def listWebFilesUnderPath (store : WebFileStore) (path : JsString) : List WebFile :=
  (store.listWebFileEntriesUnderPath path).map Prod.snd

end WebFileStore

open WebFileStore

/-! ## The metadata of a share -/

structure WebFilePreviewItem where
  fileName : JsString
  size : Nat
  mimeType : JsString

structure WebFileMetadata where
  fileName : JsString
  itemCount : Nat
  size : Nat
  mimeType : JsString
  items : Option (List WebFilePreviewItem)

inductive WebSendError
  /-- "No paths provided" -/
  | noPaths
  /-- "Selected file is no longer available", in the metadata -/
  | noLongerAvailable
  /-- "Folder "${path}" has no files to share. Please choose the folder again." -/
  | emptyFolder (path : JsString)
  /-- "Selected file is no longer available. Please choose the file again." -/
  | chooseAgain
  /-- "No files selected" -/
  | noFilesSelected
  /-- Reading the bytes of a file fails. -/
  | reading (cause : String)
  deriving DecidableEq, Repr

def webMimeType (file : WebFile) : JsString :=
  if file.type = [] then Alphabet.js.text "application/octet-stream" else file.type

/-- The last component of a path, empty ones left out, and the path where there is none. -/
def basename (path : JsString) : JsString :=
  ((path.splitOn slash).filter (· ≠ [])).getLastD path

/-- The size of what is below a folder. -/
def sizeUnderPath (store : WebFileStore) (path : JsString) : Nat :=
  ((store.listWebFilesUnderPath path).map WebFile.size).sum

/-- The loop of `buildPreviewItems`. A path that is not registered is passed over. -/
def webPreviewLoop (store : WebFileStore) (seen : Map JsString Nat) :
    List JsString → List WebFilePreviewItem
  | [] => []
  | path :: paths =>
    let final := Web.dedupName (basename path) seen
    if store.isWebDirectory path then
      ⟨final.1, sizeUnderPath store path, Alphabet.js.text "inode/directory"⟩ ::
        webPreviewLoop store final.2 paths
    else
      match store.getWebFile path with
      | none => webPreviewLoop store seen paths
      | some file =>
        ⟨final.1, file.size, webMimeType file⟩ :: webPreviewLoop store final.2 paths

/-- `buildPreviewItems`, sorted as `localeCompare` says. -/
def buildPreviewItems (localeCompare : JsString → JsString → Int) (store : WebFileStore)
    (paths : List JsString) : List WebFilePreviewItem :=
  (webPreviewLoop store ∅ paths).insertionSort fun a b => localeCompare a.fileName b.fileName ≤ 0

def totalSizeForPaths (store : WebFileStore) (paths : List JsString) : Nat :=
  (paths.map fun path =>
    if store.isWebDirectory path then sizeUnderPath store path
    else ((store.getWebFile path).map WebFile.size).getD 0).sum

def buildWebSendMetadataForFile (file : WebFile) : WebFileMetadata :=
  ⟨file.name, 1, file.size, webMimeType file, none⟩

def buildWebSendMetadataForPaths (localeCompare : JsString → JsString → Int)
    (store : WebFileStore) (paths : List JsString) : Except WebSendError WebFileMetadata :=
  match paths with
  | [] => .error .noPaths
  | [path] =>
    if store.isWebDirectory path then
      .ok ⟨basename path, 1, totalSizeForPaths store [path],
        Alphabet.js.text "inode/directory", none⟩
    else
      match store.getWebFile path with
      | none => .error .noLongerAvailable
      | some file => .ok (buildWebSendMetadataForFile file)
  | first :: rest =>
    let items := buildPreviewItems localeCompare store (first :: rest)
    .ok ⟨basename first, items.length, totalSizeForPaths store (first :: rest),
      Alphabet.js.text "application/x-iroh-collection", some items⟩

/-- What the engine reads of the metadata. -/
def WebFileMetadata.parsed (metadata : WebFileMetadata) : FileMetadata :=
  ⟨metadata.fileName.scalars, metadata.itemCount, metadata.size, none,
    some metadata.mimeType.scalars,
    metadata.items.map fun items => items.map fun item =>
      ⟨item.fileName.scalars, item.size, none, some item.mimeType.scalars⟩⟩

/-! ## The share -/

/-- The keys and bytes of registered files. -/
def readEntries (entries : List (JsString × WebFile)) :
    Except WebSendError (List (JsString × Bytes)) :=
  entries.mapM fun entry =>
    match entry.2.arrayBuffer with
    | .ok bytes => .ok (entry.1, bytes)
    | .error cause => .error (.reading cause)

/-- What one selected path brings to the payload. -/
def payloadOfPath (store : WebFileStore) (path : JsString) :
    Except WebSendError (List (JsString × Bytes)) :=
  if store.isWebDirectory path then
    match store.listWebFileEntriesUnderPath path with
    | [] => .error (.emptyFolder path)
    | entries => readEntries entries
  else
    match store.getWebFile path with
    | none => .error .chooseAgain
    | some file => readEntries [(path, file)]

/-- The loop of `collectWebSendPayload`. -/
def payloadLoop (store : WebFileStore) : List JsString →
    Except WebSendError (List (JsString × Bytes))
  | [] => .ok []
  | path :: paths => do
    let found ← payloadOfPath store path
    let rest ← payloadLoop store paths
    return found ++ rest

inductive WebSendEntryType
  | file
  | directory
  | collection
  deriving DecidableEq, Repr

def webSendEntryType (store : WebFileStore) (paths : List JsString) : WebSendEntryType :=
  match paths with
  | [] => .file
  | [path] => if store.isWebDirectory path then .directory else .file
  | _ => .collection

structure WebSendPayload where
  names : List JsString
  bytesList : List Bytes
  entryType : WebSendEntryType
  metadata : WebFileMetadata

def collectWebSendPayload (localeCompare : JsString → JsString → Int) (store : WebFileStore)
    (paths : List JsString) : Except WebSendError WebSendPayload := do
  let found ← payloadLoop store paths
  if found = [] then .error .noFilesSelected
  else
    let metadata ← buildWebSendMetadataForPaths localeCompare store paths
    return ⟨found.map Prod.fst, found.map Prod.snd, webSendEntryType store paths, metadata⟩

/-- The names and bytes as the engine gets them. -/
def WebSendPayload.items (payload : WebSendPayload) : List (Text × Bytes) :=
  List.zip (payload.names.map JsString.scalars) payload.bytesList

inductive WasmImportError
  /-- "error importing {name}: {cause}" -/
  | importing (name : Text) (cause : String)
  /-- "no files to import" -/
  | noFilesToImport
  deriving DecidableEq, Repr

/-- The loop of `import_named_bytes_collection`; `faults` says which items the store refuses. -/
def importNamedLoop (faults : Nat → Option String) :
    Nat → Map Text Nat → List (Text × Bytes) → Except WasmImportError (List Entry)
  | _, _, [] => .ok []
  | i, nameSeen, (name, bytes) :: items =>
    match faults i with
    | some cause => .error (.importing name cause)
    | none => do
      let final := WasmIo.dedupName name nameSeen
      let rest ← importNamedLoop faults (i + 1) final.2 items
      return ⟨final.1, bytes, bytes.length⟩ :: rest

/-- `import_named_bytes_collection`, up to storing the collection. -/
def importNamedBytesCollection (faults : Nat → Option String) (items : List (Text × Bytes)) :
    Except WasmImportError (Nat × List (Text × Bytes)) := do
  let entries ← importNamedLoop faults 0 ∅ items
  let entries := entries.insertionSort fun a b => a.name ≤ b.name
  if entries = [] then .error .noFilesToImport
  else return ((entries.map Entry.size).sum, entries.map fun entry => (entry.name, entry.blob))

/-! ## First and last components -/

def webTop (path : JsString) : JsString := (path.splitOn slash).headD []

theorem splitOn_slash (text : Text) :
    (utf16 text).splitOn slash = (text.splitOn '/').map utf16 :=
  splitOn_utf16 (by decide) text

theorem webTop_utf16 (text : Text) : webTop (utf16 text) = utf16 (top text) := by
  rw [webTop, splitOn_slash, top]
  cases text.splitOn '/' with
  | nil => rfl
  | cons first rest => rfl

theorem webTop_wellFormed {path : JsString} (h : path.WellFormed) : (webTop path).WellFormed := by
  obtain ⟨text, rfl⟩ := h
  exact ⟨top text, webTop_utf16 text⟩

theorem top_scalars {path : JsString} (h : path.WellFormed) :
    top path.scalars = (webTop path).scalars := by
  obtain ⟨text, rfl⟩ := h
  rw [JsString.scalars_utf16, webTop_utf16, JsString.scalars_utf16]

theorem webTop_under (path rest : JsString) : webTop (path ++ slash :: rest) = webTop path := by
  rw [webTop, webTop]
  by_cases h : slash ∈ path
  · obtain ⟨front, back, rfl, hfront⟩ := List.eq_append_cons_of_mem h
    rw [List.append_assoc, List.cons_append, List.splitOn_append_cons_self_of_not_mem hfront,
      List.splitOn_append_cons_self_of_not_mem hfront]
    rfl
  · rw [List.splitOn_append_cons_self_of_not_mem h, List.splitOn_eq_singleton h]
    rfl

theorem webTop_of_notMem {path : JsString} (h : slash ∉ path) : webTop path = path := by
  rw [webTop, List.splitOn_eq_singleton h]
  rfl

theorem basename_of_notMem {path : JsString} (h : slash ∉ path) : basename path = path := by
  rw [basename, List.splitOn_eq_singleton h]
  by_cases hnil : path = []
  · subst hnil
    rfl
  · simp [hnil]

theorem basename_wellFormed {path : JsString} (h : path.WellFormed) :
    (basename path).WellFormed := by
  obtain ⟨text, rfl⟩ := h
  rw [basename, splitOn_slash, List.getLastD_eq_getLast?]
  cases hlast : (((text.splitOn '/').map utf16).filter (· ≠ [])).getLast? with
  | none => exact ⟨text, rfl⟩
  | some last =>
    have hmem := List.mem_of_mem_filter (List.mem_of_getLast? hlast)
    obtain ⟨part, -, rfl⟩ := List.mem_map.mp hmem
    exact ⟨part, rfl⟩

theorem utf16_ascii {l : List Char} (h : ∀ c ∈ l, c.toNat < 128) :
    utf16 l = l.map Alphabet.js.letter := by
  induction l with
  | nil => rfl
  | cons c l ih =>
    rw [utf16_cons, utf16Char_ascii (h c List.mem_cons_self),
      ih fun d hd => h d (List.mem_cons_of_mem _ hd)]
    rfl

theorem suffixed_utf16 (text : Text) (count : Nat) :
    Alphabet.js.suffixed (utf16 text) count = utf16 (Alphabet.rust.suffixed text count) := by
  have hdigits : utf16 (Alphabet.rust.digits count) = Alphabet.js.digits count := by
    rw [Alphabet.digits, Alphabet.digits, utf16_ascii]
    · rw [List.map_map]
      rfl
    · intro c hc
      obtain ⟨d, hd, rfl⟩ := List.mem_map.mp hc
      have hlt := Alphabet.toNat_lt_of_isDigit
        (Nat.isDigit_of_mem_toDigits (by decide) (by decide) hd)
      exact Nat.lt_of_lt_of_le hlt (by decide)
  rw [Alphabet.suffixed, Alphabet.suffixed, utf16_append, utf16_append, utf16_append, hdigits]
  rfl

theorem webSuffixed_wellFormed {name : JsString} (h : name.WellFormed) (count : Nat) :
    (webSuffixed name count).WellFormed := by
  obtain ⟨text, rfl⟩ := h
  rcases webSuffixed_cases (utf16 text) count with ⟨stem, ext, -, -, hname, heq⟩ | ⟨-, heq⟩
  · obtain ⟨front, back, -, rfl, rfl⟩ := utf16_split (c := '.') (by decide) hname
    refine ⟨Alphabet.rust.suffixed front count ++ '.' :: back, ?_⟩
    rw [heq, suffixed_utf16, utf16_append, utf16_cons, utf16Char_ascii (by decide)]
    rfl
  · exact ⟨Alphabet.rust.suffixed text count, by rw [heq, suffixed_utf16]⟩

theorem webLabel_wellFormed {name : JsString} (h : name.WellFormed) (k : Nat) :
    (webLabel name k).WellFormed := by
  rw [webLabel]
  split
  · exact h
  · exact webSuffixed_wellFormed h k

/-! ## What is shared -/

/-- A path that leads to a file or a folder of the registry. -/
def Registered (store : WebFileStore) (path : JsString) : Prop :=
  store.isWebDirectory path ∨ (store.getWebFile path).isSome

def sharedKeys (store : WebFileStore) (path : JsString) : List JsString :=
  if store.isWebDirectory path then (store.listWebFileEntriesUnderPath path).map Prod.fst
  else [path]

theorem mem_keys_of_getWebFile {store : WebFileStore} {path : JsString}
    (h : (store.getWebFile path).isSome) : path ∈ store.filesByPath.map Prod.fst := by
  obtain ⟨file, hfile⟩ := Option.isSome_iff_exists.mp h
  obtain ⟨front, back, hsplit, -⟩ := List.lookup_eq_some_iff.mp hfile
  rw [hsplit]
  simp

theorem Registered.wellFormed {store : WebFileStore} {path : JsString}
    (h : Registered store path) : path.WellFormed := by
  rcases h with hdir | hfile
  · exact store.wellFormed path (Or.inl (of_decide_eq_true hdir))
  · exact store.wellFormed path (Or.inr (mem_keys_of_getWebFile hfile))

theorem readEntries_ok {entries : List (JsString × WebFile)} {found : List (JsString × Bytes)}
    (h : readEntries entries = .ok found) : found.map Prod.fst = entries.map Prod.fst := by
  induction entries generalizing found with
  | nil =>
    obtain rfl := Except.ok.inj h
    rfl
  | cons entry entries ih =>
    rw [readEntries, List.mapM_cons] at h
    cases hbytes : entry.2.arrayBuffer with
    | error cause =>
      rw [hbytes] at h
      cases h
    | ok bytes =>
      rw [hbytes] at h
      cases hrest : readEntries entries with
      | error e =>
        rw [readEntries] at hrest
        simp only [hrest, bind, Except.bind] at h
        cases h
      | ok rest =>
        have hkeys := ih hrest
        rw [readEntries] at hrest
        simp only [hrest, bind, Except.bind, pure, Except.pure] at h
        obtain rfl := Except.ok.inj h
        rw [List.map_cons, List.map_cons, hkeys]

theorem payloadOfPath_ok {store : WebFileStore} {path : JsString}
    {found : List (JsString × Bytes)} (h : payloadOfPath store path = .ok found) :
    found.map Prod.fst = sharedKeys store path ∧ sharedKeys store path ≠ [] ∧
      Registered store path := by
  rw [payloadOfPath] at h
  rw [sharedKeys]
  by_cases hdir : store.isWebDirectory path = true
  · rw [if_pos hdir] at h
    rw [if_pos hdir]
    cases hentries : store.listWebFileEntriesUnderPath path with
    | nil =>
      rw [hentries] at h
      cases h
    | cons entry entries =>
      rw [hentries] at h
      exact ⟨readEntries_ok h, List.cons_ne_nil _ _, Or.inl hdir⟩
  · rw [if_neg hdir] at h
    rw [if_neg hdir]
    cases hfile : store.getWebFile path with
    | none =>
      rw [hfile] at h
      cases h
    | some file =>
      rw [hfile] at h
      exact ⟨readEntries_ok h, List.cons_ne_nil _ _, Or.inr (by rw [hfile]; rfl)⟩

theorem payloadLoop_ok {store : WebFileStore} {paths : List JsString}
    {found : List (JsString × Bytes)} (h : payloadLoop store paths = .ok found) :
    found.map Prod.fst = paths.flatMap (sharedKeys store) ∧
      ∀ path ∈ paths, sharedKeys store path ≠ [] ∧ Registered store path := by
  induction paths generalizing found with
  | nil =>
    obtain rfl := Except.ok.inj h
    exact ⟨rfl, fun path hpath => absurd hpath List.not_mem_nil⟩
  | cons path paths ih =>
    rw [payloadLoop] at h
    cases hfirst : payloadOfPath store path with
    | error e =>
      rw [hfirst] at h
      cases h
    | ok first =>
      rw [hfirst] at h
      cases hrest : payloadLoop store paths with
      | error e =>
        simp only [hrest, bind, Except.bind] at h
        cases h
      | ok rest =>
        simp only [hrest, bind, Except.bind, pure, Except.pure] at h
        obtain rfl := Except.ok.inj h
        obtain ⟨hkeys, hpath⟩ := payloadOfPath_ok hfirst
        obtain ⟨hrestKeys, hpaths⟩ := ih hrest
        refine ⟨?_, ?_⟩
        · rw [List.map_append, hkeys, hrestKeys, List.flatMap_cons]
        · intro other hother
          rcases List.mem_cons.mp hother with rfl | hother
          · exact hpath
          · exact hpaths other hother

/-- A shared key is the selected path, a file, or lies below it, a folder. -/
theorem mem_sharedKeys {store : WebFileStore} {path key : JsString}
    (h : key ∈ sharedKeys store path) : key = path ∨ ∃ rest, key = path ++ slash :: rest := by
  rw [sharedKeys] at h
  split at h
  · obtain ⟨entry, hentry, rfl⟩ := List.mem_map.mp h
    obtain ⟨-, hunder⟩ := List.mem_filter.mp hentry
    rw [Bool.or_eq_true, decide_eq_true_eq, List.isPrefixOf_iff_prefix] at hunder
    rcases hunder with heq | ⟨rest, hrest⟩
    · exact Or.inl heq
    · exact Or.inr ⟨rest, by rw [← hrest, List.append_assoc]; rfl⟩
  · exact Or.inl (List.mem_singleton.mp h)

theorem sharedKeys_wellFormed {store : WebFileStore} {path key : JsString}
    (hpath : Registered store path) (h : key ∈ sharedKeys store path) : key.WellFormed := by
  rw [sharedKeys] at h
  split at h
  · obtain ⟨entry, hentry, rfl⟩ := List.mem_map.mp h
    exact store.wellFormed _ (Or.inr (List.mem_map_of_mem (List.mem_of_mem_filter hentry)))
  · rw [List.mem_singleton.mp h]
    exact hpath.wellFormed

theorem count_sharedKeys_le (store : WebFileStore) (path : JsString) {key : JsString}
    (hkey : slash ∉ key) :
    (sharedKeys store path).count key ≤ [path].count key := by
  rw [sharedKeys]
  split
  · rename_i hdir
    have hzero : ((store.listWebFileEntriesUnderPath path).map Prod.fst).count key = 0 := by
      rw [List.count_eq_zero]
      intro hmem
      obtain ⟨entry, hentry, rfl⟩ := List.mem_map.mp hmem
      obtain ⟨hfile, hunder⟩ := List.mem_filter.mp hentry
      rw [Bool.or_eq_true, decide_eq_true_eq, List.isPrefixOf_iff_prefix] at hunder
      rcases hunder with rfl | ⟨rest, hrest⟩
      · exact store.disjoint _ (of_decide_eq_true hdir) (List.mem_map_of_mem hfile)
      · rw [← hrest] at hkey
        exact hkey (by simp)
    omega
  · exact Nat.le_refl _

theorem count_keys_le_one (store : WebFileStore) {paths : List JsString} (hnodup : paths.Nodup)
    {key : JsString} (hkey : slash ∉ key) :
    (paths.flatMap (sharedKeys store)).count key ≤ 1 := by
  have hle : (paths.flatMap (sharedKeys store)).count key ≤ paths.count key := by
    clear hnodup
    induction paths with
    | nil => exact Nat.le_refl _
    | cons path paths ih =>
      have hfirst := count_sharedKeys_le store path hkey
      have hcons : ([path] ++ paths).count key = [path].count key + paths.count key :=
        List.count_append
      rw [List.flatMap_cons, List.count_append, ← List.singleton_append, hcons]
      omega
  exact hle.trans (List.nodup_iff_count_le_one.mp hnodup key)

/-! ## What the engine makes of it -/

theorem importNamedLoop_ok {faults : Nat → Option String} {i : Nat} {seen : Map Text Nat}
    {items : List (Text × Bytes)} {entries : List Entry}
    (h : importNamedLoop faults i seen items = .ok entries) :
    entries.map Entry.name = (dedupAll WasmIo.dedupName seen (items.map Prod.fst)).1 := by
  induction items generalizing i seen entries with
  | nil =>
    obtain rfl := Except.ok.inj h
    rfl
  | cons item items ih =>
    rw [importNamedLoop] at h
    cases hfault : faults i with
    | some cause =>
      rw [hfault] at h
      cases h
    | none =>
      rw [hfault] at h
      cases hrest : importNamedLoop faults (i + 1) (WasmIo.dedupName item.1 seen).2 items with
      | error e =>
        simp only [hrest, bind, Except.bind] at h
        cases h
      | ok rest =>
        simp only [hrest, bind, Except.bind, pure, Except.pure] at h
        obtain rfl := Except.ok.inj h
        rw [List.map_cons, ih hrest]
        rfl

theorem importNamedBytesCollection_names {faults : Nat → Option String}
    {items : List (Text × Bytes)} {total : Nat} {collection : List (Text × Bytes)}
    (h : importNamedBytesCollection faults items = .ok (total, collection)) (final : Text) :
    final ∈ collection.map Prod.fst ↔ final ∈ numbered engineLabel (items.map Prod.fst) := by
  rw [importNamedBytesCollection] at h
  cases hloop : importNamedLoop faults 0 ∅ items with
  | error e =>
    rw [hloop] at h
    cases h
  | ok entries =>
    simp only [hloop, bind, Except.bind] at h
    split at h
    · cases h
    · obtain rfl := (Prod.mk.inj (Except.ok.inj h)).2
      rw [List.map_map, show numbered engineLabel (items.map Prod.fst) = entries.map Entry.name by
        rw [importNamedLoop_ok hloop, ← dedupNames_engine]
        rfl]
      exact ((List.perm_insertionSort _ entries).map Entry.name).mem_iff

theorem webTop_sharedKeys {store : WebFileStore} {path key : JsString}
    (h : key ∈ sharedKeys store path) : webTop key = webTop path := by
  rcases mem_sharedKeys h with rfl | ⟨rest, rfl⟩
  · rfl
  · exact webTop_under path rest

theorem count_map_scalars {keys : List JsString} (h : ∀ key ∈ keys, key.WellFormed)
    {key : JsString} (hkey : key ∈ keys) :
    (keys.map JsString.scalars).count key.scalars = keys.count key := by
  rw [List.count, List.countP_map, List.count]
  apply List.countP_congr
  intro other hother
  simp only [Function.comp_apply, beq_iff_eq]
  exact ⟨fun heq => JsString.scalars_inj (h other hother) (h key hkey) heq, fun heq => by rw [heq]⟩

/-- Numbering a shared name leaves its top: a name without a slash is shared once. -/
theorem top_engineLabel_key {store : WebFileStore} {paths : List JsString} (hnodup : paths.Nodup)
    (hwf : ∀ key ∈ paths.flatMap (sharedKeys store), key.WellFormed) {key : JsString}
    (hkey : key ∈ paths.flatMap (sharedKeys store)) {k : Nat}
    (hk : k < ((paths.flatMap (sharedKeys store)).map JsString.scalars).count key.scalars) :
    top (engineLabel key.scalars k) = top key.scalars := by
  by_cases hslash : '/' ∈ key.scalars
  · obtain ⟨front, rest, hsplit, hfront⟩ := List.eq_append_cons_of_mem hslash
    rw [hsplit, top_engineLabel_append hfront, top_append hfront]
  · have hnot : slash ∉ key := by
      intro hmem
      obtain ⟨text, rfl⟩ := hwf key hkey
      rw [JsString.scalars_utf16] at hslash
      exact hslash (mem_of_mem_utf16 (by decide) hmem)
    have hone := count_keys_le_one store hnodup hnot
    rw [count_map_scalars hwf hkey] at hk
    obtain rfl : k = 0 := by omega
    rw [engineLabel_labels.first]

theorem shareTops_web {store : WebFileStore} {paths : List JsString} (hnodup : paths.Nodup)
    {found : List (JsString × Bytes)} (hfound : payloadLoop store paths = .ok found)
    {faults : Nat → Option String} {items : List (Text × Bytes)}
    (hitems : items.map Prod.fst = (found.map Prod.fst).map JsString.scalars) {total : Nat}
    {collection : List (Text × Bytes)}
    (himport : importNamedBytesCollection faults items = .ok (total, collection)) :
    shareTops collection = (paths.map webTop).toFinset.image JsString.scalars := by
  obtain ⟨hkeys, hpaths⟩ := payloadLoop_ok hfound
  have hwf : ∀ key ∈ paths.flatMap (sharedKeys store), key.WellFormed := by
    intro key hkey
    obtain ⟨path, hpath, hshared⟩ := List.mem_flatMap.mp hkey
    exact sharedKeys_wellFormed (hpaths path hpath).2 hshared
  have hnames := importNamedBytesCollection_names himport
  rw [hitems, hkeys] at hnames
  ext t
  rw [shareTops, List.mem_toFinset, List.mem_map, Finset.mem_image]
  constructor
  · rintro ⟨final, hfinal, rfl⟩
    obtain ⟨name, k, hk, rfl⟩ := mem_numbered.mp ((hnames final).mp hfinal)
    obtain ⟨key, hkey, rfl⟩ := List.mem_map.mp (List.count_pos_iff.mp (Nat.zero_lt_of_lt hk))
    obtain ⟨path, hpath, hshared⟩ := List.mem_flatMap.mp hkey
    refine ⟨webTop path, List.mem_toFinset.mpr (List.mem_map_of_mem hpath), ?_⟩
    rw [top_engineLabel_key hnodup hwf hkey hk, top_scalars (hwf key hkey),
      webTop_sharedKeys hshared]
  · rintro ⟨first, hfirst, rfl⟩
    obtain ⟨path, hpath, rfl⟩ := List.mem_map.mp (List.mem_toFinset.mp hfirst)
    obtain ⟨key, hshared⟩ := List.exists_mem_of_ne_nil _ (hpaths path hpath).1
    have hkey : key ∈ paths.flatMap (sharedKeys store) :=
      List.mem_flatMap.mpr ⟨path, hpath, hshared⟩
    refine ⟨key.scalars, (hnames _).mpr (mem_numbered.mpr ⟨key.scalars, 0, ?_, rfl⟩), ?_⟩
    · exact List.count_pos_iff.mpr (List.mem_map_of_mem hkey)
    · rw [top_scalars (hwf key hkey), webTop_sharedKeys hshared]

/-! ## What is announced -/

theorem webPreviewLoop_names {store : WebFileStore} (seen : Map JsString Nat)
    {paths : List JsString} (h : ∀ path ∈ paths, Registered store path) :
    (webPreviewLoop store seen paths).map WebFilePreviewItem.fileName =
      (dedupAll Web.dedupName seen (paths.map basename)).1 := by
  induction paths generalizing seen with
  | nil => rfl
  | cons path paths ih =>
    have hrest := fun seen => ih seen fun p hp => h p (List.mem_cons_of_mem _ hp)
    rw [webPreviewLoop, List.map_cons, dedupAll]
    by_cases hdir : store.isWebDirectory path = true
    · simp only [if_pos hdir, List.map_cons, hrest]
    · have hfile := (h path List.mem_cons_self).resolve_left hdir
      obtain ⟨file, hfile⟩ := Option.isSome_iff_exists.mp hfile
      simp only [if_neg hdir, hfile, List.map_cons, hrest]

theorem buildWebSendMetadataForPaths_names {localeCompare : JsString → JsString → Int}
    {store : WebFileStore} {paths : List JsString} (hlength : 2 ≤ paths.length)
    (hregistered : ∀ path ∈ paths, Registered store path) {metadata : WebFileMetadata}
    (h : buildWebSendMetadataForPaths localeCompare store paths = .ok metadata) :
    metadata.parsed.itemCount = paths.length ∧
      announcedNames metadata.parsed =
        (numbered webLabel (paths.map basename)).toFinset.image JsString.scalars := by
  match paths, hlength with
  | first :: second :: rest, _ =>
    rw [buildWebSendMetadataForPaths] at h
    · obtain rfl := Except.ok.inj h
      have hperm := (List.perm_insertionSort
        (fun a b : WebFilePreviewItem => localeCompare a.fileName b.fileName ≤ 0)
        (webPreviewLoop store ∅ (first :: second :: rest))).map WebFilePreviewItem.fileName
      have hnames : ((buildPreviewItems localeCompare store (first :: second :: rest)).map
          WebFilePreviewItem.fileName).Perm
            (numbered webLabel ((first :: second :: rest).map basename)) := by
        rw [← dedupName_web_counts.dedupNames_eq, dedupNames, ← webPreviewLoop_names ∅ hregistered]
        exact hperm
      refine ⟨?_, ?_⟩
      · have hcount := hnames.length_eq
        rw [List.length_map, length_numbered, List.length_map] at hcount
        exact hcount
      · ext t
        rw [announcedNames, WebFileMetadata.parsed, Option.map_some, Option.getD_some, List.map_map,
          List.mem_toFinset, List.mem_map, Finset.mem_image]
        constructor
        · rintro ⟨item, hitem, rfl⟩
          exact ⟨item.fileName, List.mem_toFinset.mpr
            (hnames.mem_iff.mp (List.mem_map_of_mem hitem)), rfl⟩
        · rintro ⟨name, hname, rfl⟩
          obtain ⟨item, hitem, rfl⟩ :=
            List.mem_map.mp (hnames.mem_iff.mpr (List.mem_toFinset.mp hname))
          exact ⟨item, hitem, rfl⟩
    · intro hnil
      cases hnil

theorem image_utf16_scalars {s : Finset JsString} (h : ∀ a ∈ s, a.WellFormed) :
    (s.image JsString.scalars).image utf16 = s := by
  rw [Finset.image_image]
  have hid : Set.EqOn (utf16 ∘ JsString.scalars) id s :=
    fun a ha => JsString.utf16_scalars (h a (Finset.mem_coe.mp ha))
  rw [Finset.image_congr hid, Finset.image_id]

theorem collectWebSendPayload_ok {localeCompare : JsString → JsString → Int}
    {store : WebFileStore} {paths : List JsString} {payload : WebSendPayload}
    (h : collectWebSendPayload localeCompare store paths = .ok payload) :
    ∃ found, payloadLoop store paths = .ok found ∧
      payload.items.map Prod.fst = (found.map Prod.fst).map JsString.scalars ∧
      buildWebSendMetadataForPaths localeCompare store paths = .ok payload.metadata := by
  rw [collectWebSendPayload] at h
  cases hfound : payloadLoop store paths with
  | error e =>
    rw [hfound] at h
    cases h
  | ok found =>
    simp only [hfound, bind, Except.bind] at h
    split at h
    · cases h
    · cases hmetadata : buildWebSendMetadataForPaths localeCompare store paths with
      | error e =>
        rw [hmetadata] at h
        cases h
      | ok metadata =>
        rw [hmetadata] at h
        obtain rfl := Except.ok.inj h
        refine ⟨found, rfl, ?_, rfl⟩
        apply List.map_fst_zip
        rw [List.length_map, List.length_map, List.length_map]

theorem webTops_wellFormed {store : WebFileStore} {paths : List JsString}
    (hregistered : ∀ path ∈ paths, Registered store path) :
    ∀ a ∈ (paths.map webTop).toFinset, a.WellFormed := by
  intro a ha
  obtain ⟨path, hpath, rfl⟩ := List.mem_map.mp (List.mem_toFinset.mp ha)
  exact webTop_wellFormed (hregistered path hpath).wellFormed

theorem numbered_web_wellFormed {store : WebFileStore} {paths : List JsString}
    (hregistered : ∀ path ∈ paths, Registered store path) :
    ∀ a ∈ (numbered webLabel (paths.map basename)).toFinset, a.WellFormed := by
  intro a ha
  obtain ⟨name, k, hk, rfl⟩ := mem_numbered.mp (List.mem_toFinset.mp ha)
  obtain ⟨path, hpath, rfl⟩ := List.mem_map.mp (List.count_pos_iff.mp (Nat.zero_lt_of_lt hk))
  exact webLabel_wellFormed (basename_wellFormed (hregistered path hpath).wellFormed) k

theorem numbered_web_iff {names tops : List JsString} :
    ((∀ name k, 0 < k → k < names.count name → webLabel name k ∉ names) ∧
      ∀ a ∈ numbered webLabel names, a ∈ tops) ↔
    (∀ name ∈ names, name ∈ tops) ∧
      ∀ name k, 1 ≤ k → k < names.count name →
        webSuffixed name k ∉ names ∧ webSuffixed name k ∈ tops := by
  have hlabel : ∀ (name : JsString) {k : Nat}, 1 ≤ k → webLabel name k = webSuffixed name k :=
    fun name k hk => if_neg (by omega)
  constructor
  · rintro ⟨hclear, hsub⟩
    refine ⟨?_, ?_⟩
    · intro name hname
      exact hsub _ (mem_numbered.mpr ⟨name, 0, List.count_pos_iff.mpr hname, rfl⟩)
    · intro name k hk hcount
      rw [← hlabel name hk]
      exact ⟨hclear name k hk hcount, hsub _ (mem_numbered.mpr ⟨name, k, hcount, rfl⟩)⟩
  · rintro ⟨hfirst, hrepeated⟩
    refine ⟨?_, ?_⟩
    · intro name k hk hcount
      rw [hlabel name hk]
      exact (hrepeated name k hk hcount).1
    · intro a ha
      obtain ⟨name, k, hcount, rfl⟩ := mem_numbered.mp ha
      rcases Nat.eq_zero_or_pos k with rfl | hk
      · exact hfirst name (List.count_pos_iff.mp (Nat.zero_lt_of_lt hcount))
      · rw [hlabel name hk]
        exact (hrepeated name k hk hcount).2

/-- The web preview of several paths announces the top level of the share and its number exactly when
the first components of the paths differ, no numbered last component is a last component, and every
announced name is a first component. -/
theorem web_preview_iff {localeCompare : JsString → JsString → Int} {store : WebFileStore}
    {paths : List JsString} (hlength : 2 ≤ paths.length) (hnodup : paths.Nodup)
    {payload : WebSendPayload}
    (hpayload : collectWebSendPayload localeCompare store paths = .ok payload)
    {faults : Nat → Option String} {total : Nat} {collection : List (Text × Bytes)}
    (himport : importNamedBytesCollection faults payload.items = .ok (total, collection)) :
    PreviewMatches payload.metadata.parsed collection ↔
    (paths.map webTop).Nodup ∧
      (∀ path ∈ paths, basename path ∈ paths.map webTop) ∧
      ∀ name k, 1 ≤ k → k < (paths.map basename).count name →
        webSuffixed name k ∉ paths.map basename ∧ webSuffixed name k ∈ paths.map webTop := by
  obtain ⟨found, hfound, hitems, hmetadata⟩ := collectWebSendPayload_ok hpayload
  have hregistered : ∀ path ∈ paths, Registered store path :=
    fun path hpath => ((payloadLoop_ok hfound).2 path hpath).2
  obtain ⟨hcount, hnames⟩ := buildWebSendMetadataForPaths_names hlength hregistered hmetadata
  have htopsWf := webTops_wellFormed hregistered
  have hnamesWf := numbered_web_wellFormed hregistered
  have hcard : ((paths.map webTop).toFinset.image JsString.scalars).card =
      (paths.map webTop).toFinset.card := by
    apply Finset.card_image_of_injOn
    intro a ha b hb heq
    exact JsString.scalars_inj (htopsWf a ha) (htopsWf b hb) heq
  have hsame : (numbered webLabel (paths.map basename)).toFinset.image JsString.scalars =
        (paths.map webTop).toFinset.image JsString.scalars ↔
      (numbered webLabel (paths.map basename)).toFinset = (paths.map webTop).toFinset := by
    constructor
    · intro h
      rw [← image_utf16_scalars hnamesWf, h, image_utf16_scalars htopsWf]
    · intro h
      rw [h]
  have hlengths : (numbered webLabel (paths.map basename)).length = (paths.map webTop).length := by
    rw [length_numbered, List.length_map, List.length_map]
  have hnumber : paths.length = (numbered webLabel (paths.map basename)).length := by
    rw [length_numbered, List.length_map]
  rw [PreviewMatches, hnames, hcount, shareTops_web hnodup hfound hitems himport, hsame, hcard,
    hnumber, toFinset_eq_and_length_iff hlengths, nodup_numbered_iff webLabel_labels,
    numbered_web_iff, List.forall_mem_map]

theorem web_preview_matches_of_noSlash {localeCompare : JsString → JsString → Int}
    {store : WebFileStore} {paths : List JsString} (hlength : 2 ≤ paths.length)
    (hnodup : paths.Nodup) (hslash : ∀ path ∈ paths, slash ∉ path) {payload : WebSendPayload}
    (hpayload : collectWebSendPayload localeCompare store paths = .ok payload)
    {faults : Nat → Option String} {total : Nat} {collection : List (Text × Bytes)}
    (himport : importNamedBytesCollection faults payload.items = .ok (total, collection)) :
    PreviewMatches payload.metadata.parsed collection := by
  have htops : paths.map webTop = paths :=
    (List.map_congr_left fun path hpath => webTop_of_notMem (hslash path hpath)).trans
      (List.map_id paths)
  have hnames : paths.map basename = paths :=
    (List.map_congr_left fun path hpath => basename_of_notMem (hslash path hpath)).trans
      (List.map_id paths)
  rw [web_preview_iff hlength hnodup hpayload himport, htops, hnames]
  refine ⟨hnodup, ?_, ?_⟩
  · intro path hpath
    rw [basename_of_notMem (hslash path hpath)]
    exact hpath
  · intro name k hk hcount
    have hone := List.nodup_iff_count_le_one.mp hnodup name
    omega

/-! ## Both previews -/

/-- On the desktop and in the browser, the metadata announce the top level of the share and its number
exactly when the names of the selected paths keep apart. The paths are canonical already: `start_share`
resolves their links and drops what is named twice before it imports them. -/
theorem preview_matches_share_iff {media : Media} {completion : Completion} {fs : FileSystem}
    {paths : List PathBuf} (hlength : 2 ≤ paths.length)
    (hfiles : ∀ path ∈ paths, selectedFiles fs path ≠ []) {metadata : FileMetadata}
    (hpreview : buildSendMetadata media fs paths = .ok metadata) {total : Nat}
    {collection : List (Text × Bytes)}
    (himport : importPaths completion fs paths = .ok (total, collection))
    {localeCompare : JsString → JsString → Int} {store : WebFileStore} {keys : List JsString}
    (hkeysLength : 2 ≤ keys.length) (hkeys : keys.Nodup) {payload : WebSendPayload}
    (hpayload : collectWebSendPayload localeCompare store keys = .ok payload)
    {faults : Nat → Option String} {webTotal : Nat} {webCollection : List (Text × Bytes)}
    (hwebImport :
      importNamedBytesCollection faults payload.items = .ok (webTotal, webCollection)) :
    (PreviewMatches metadata collection ↔
      paths.length < 2 ^ 32 ∧
        (∀ path ∈ paths, isFile fs path = false → (stems paths).count (stem path) = 1) ∧
        ∀ name k, 2 ≤ k → k ≤ (stems paths).count name →
          Alphabet.rust.suffixed name k ∉ stems paths) ∧
    (PreviewMatches payload.metadata.parsed webCollection ↔
      (keys.map webTop).Nodup ∧
        (∀ key ∈ keys, basename key ∈ keys.map webTop) ∧
        ∀ name k, 1 ≤ k → k < (keys.map basename).count name →
          webSuffixed name k ∉ keys.map basename ∧ webSuffixed name k ∈ keys.map webTop) :=
  ⟨desktop_preview_iff hlength hfiles hpreview himport,
    web_preview_iff hkeysLength hkeys hpayload hwebImport⟩

/-- What the previews see of the world in the examples. -/
def plainMedia : Media := ⟨fun _ => "text/plain".toList, fun _ => none, fun _ => []⟩

/-- A folder with a file `f`. -/
def folderWithFile : Directory where
  entries := [⟨[.text ['f']], .file ⟨.ok 1, .ok [2]⟩⟩]
  names := by
    intro entry hentry s hs
    obtain rfl := List.mem_singleton.mp hentry
    obtain rfl : s = ['f'] := by simpa using hs
    constructor <;> decide
  nodup := List.nodup_singleton _
  leaf := by
    intro entry hentry data hdata
    obtain rfl := List.mem_singleton.mp hentry
    refine ⟨List.cons_ne_nil _ _, ?_⟩
    intro other hother _
    rw [List.mem_singleton.mp hother]

/-- A file `/x/a`, and a folder `/y/a` with a file `f`. -/
def sameName : FileSystem where
  node path :=
    if path = [.rootDir, .normal (.text ['x']), .normal (.text ['a'])] then
      some (.file ⟨.ok 1, .ok [1]⟩)
    else if path = [.rootDir, .normal (.text ['y']), .normal (.text ['a'])] then
      some (.directory folderWithFile)
    else none
  names := by
    intro path s hsome hs
    have ha : IsFileName ['a'] := by constructor <;> decide
    split at hsome
    · rename_i hpath
      subst hpath
      cases hs
      exact ha
    · split at hsome
      · rename_i hpath
        subst hpath
        cases hs
        exact ha
      · cases hsome

/-- The two paths of `sameName`. -/
def sameNamePaths : List PathBuf :=
  [[.rootDir, .normal (.text ['x']), .normal (.text ['a'])],
    [.rootDir, .normal (.text ['y']), .normal (.text ['a'])]]

/-- What the desktop announces and shares of `sameName`. -/
def sameNameMetadata : FileMetadata :=
  ⟨['a'], 2, 2, none, some "application/x-iroh-collection".toList,
    some [⟨['a'], 1, none, some "text/plain".toList⟩,
      ⟨"a (2)".toList, 1, none, some inodeDirectory⟩]⟩

def sameNameCollection : List (Text × Bytes) := [(['a'], [1]), (['a', '/', 'f'], [2])]

/-- In the browser, a file `a` and a folder `b` with a file `f`. -/
def fileAndFolder : WebFileStore :=
  ((clearWebFiles.registerWebFile (utf16 ['a']) ⟨_, rfl⟩ ⟨utf16 ['a'], [], 1, .ok [1]⟩)
    |>.registerWebDirectory (utf16 ['b']) ⟨_, rfl⟩)
    |>.registerWebFile (utf16 ['b', '/', 'f']) ⟨_, rfl⟩ ⟨utf16 ['f'], [], 1, .ok [2]⟩

/-- What the browser announces and shares of `fileAndFolder`. -/
def fileAndFolderPayload : WebSendPayload :=
  ⟨[utf16 ['a'], utf16 ['b', '/', 'f']], [[1], [2]], .collection,
    ⟨utf16 ['a'], 2, 2, Alphabet.js.text "application/x-iroh-collection",
      some [⟨utf16 ['a'], 1, Alphabet.js.text "application/octet-stream"⟩,
        ⟨utf16 ['b'], 1, Alphabet.js.text "inode/directory"⟩]⟩⟩

theorem preview_matches_share_iff_examples :
    ¬ PreviewMatches sameNameMetadata sameNameCollection ∧
    PreviewMatches fileAndFolderPayload.metadata.parsed
      [(['a'], [1]), (['b', '/', 'f'], [2])] := by
  have h := @preview_matches_share_iff plainMedia Completion.inOrder sameName sameNamePaths
    (by decide) (by decide +kernel) sameNameMetadata rfl 2 sameNameCollection rfl
    (fun a b => if a ≤ b then -1 else 1) fileAndFolder [utf16 ['a'], utf16 ['b']]
    (by decide) (by decide +kernel) fileAndFolderPayload rfl (fun _ => none) 2
    [(['a'], [1]), (['b', '/', 'f'], [2])] rfl
  refine ⟨?_, ?_⟩
  · intro hmatch
    have honce := (h.1.mp hmatch).2.1
      [.rootDir, .normal (.text ['y']), .normal (.text ['a'])] (by decide) rfl
    exact absurd honce (by decide)
  · refine h.2.mpr ⟨by decide +kernel, by decide +kernel, ?_⟩
    intro name k hk hcount
    have hnodup : ([utf16 ['a'], utf16 ['b']].map basename).Nodup := by decide +kernel
    have hone := List.nodup_iff_count_le_one.mp hnodup name
    omega

/-- A file and a folder of one name: `a` and `a (2)` are announced, and all that is shared lies at
`a`. -/
theorem preview_not_matches_share :
    ¬ ∀ (media : Media) (completion : Completion) (fs : FileSystem) (paths : List PathBuf),
      2 ≤ paths.length → paths.Nodup → (∀ path ∈ paths, selectedFiles fs path ≠ []) →
      ∀ metadata, buildSendMetadata media fs paths = .ok metadata →
      ∀ total collection, importPaths completion fs paths = .ok (total, collection) →
      PreviewMatches metadata collection := by
  intro h
  have himport : ∃ total collection,
      importPaths Completion.inOrder sameName sameNamePaths = .ok (total, collection) ∧
        (shareTops collection).card = 1 := ⟨2, _, rfl, by decide +kernel⟩
  have hpreview : ∃ metadata, buildSendMetadata plainMedia sameName sameNamePaths = .ok metadata ∧
      metadata.itemCount = 2 := ⟨_, rfl, rfl⟩
  obtain ⟨total, collection, himport, hcard⟩ := himport
  obtain ⟨metadata, hpreview, hcount⟩ := hpreview
  have hmatch := (h plainMedia Completion.inOrder sameName sameNamePaths (by decide)
    (by decide +kernel) (by decide +kernel) metadata hpreview total collection himport).2
  omega

end DashBeam.Collection
