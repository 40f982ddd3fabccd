import DashBeam.Collection.RoundTrip
import DashBeam.Collection.WebPreview
import DashBeam.Frontend.Zip

/-!
# Saving a received collection in the browser

A browser has no paths: it has a handle of the directory that was picked, and asks for the folders and
files in it by name. A file whose name is taken by a file is saved under the first numbered name that
is not, and without a directory everything is downloaded, as one file or as an archive.

A save changes nothing that was there, whatever fails (`web_save_keeps`), and where it succeeds the
desktop's export of the same collection does too, with the same conflicts and the same result
(`web_save_agrees`).
-/

namespace DashBeam.Collection.WebSave

open Lib Frontend
open Lib.FileTree (Mirrored FolderGrowth)
open WebFileStore (slash)

/-! ## The code -/

/-- What is below the directory that was picked. -/
abbrev WebDirectory : Type := FileTree Text Bytes

structure ReceivedWebFile where
  name : JsString
  bytes : Bytes
  deriving DecidableEq, Repr

structure WebWriteConflict where
  original : JsString
  resolved : JsString
  deriving DecidableEq, Repr

structure WriteCollectionResult where
  savedToDirectory : Bool
  zippedDownload : Bool
  conflicts : List WebWriteConflict
  deriving DecidableEq, Repr

structure Download where
  bytes : Bytes
  fileName : JsString
  deriving DecidableEq, Repr

inductive SaveError
  /-- "No files to save" -/
  | noFiles
  /-- "Invalid relative path" -/
  | invalidRelativePath
  /-- "Too many filename conflicts for {}" -/
  | tooManyConflicts (fileName : JsString)
  /-- The browser's `TypeError` for what is no name of a file. -/
  | typeError
  | typeMismatchError
  | notFoundError
  /-- What the browser refuses for reasons of its own. -/
  | refused (message : String)
  /-- What `createStoreOnlyZip` throws. -/
  | zip (message : String)
  deriving DecidableEq, Repr

structure Browser where
  queryPermission : Except String Bool
  requestPermission : Except String Bool
  /-- Asking for a file that exists. -/
  probe : Nat → List Text → Option String
  /-- Asking for a file or folder that may have to be made. -/
  handle : Nat → List Text → Option String
  /-- Opening, writing or closing the stream of a file. -/
  written : Nat → Option String
  /-- The longest `Uint8Array`. -/
  maxLength : Nat

def ensureDirWritePermission (browser : Browser) : Except SaveError Bool :=
  match browser.queryPermission with
  | .error message => .error (.refused message)
  | .ok true => .ok true
  | .ok false => browser.requestPermission.mapError .refused

/-- What the browser takes for the name of a file or folder. -/
def isValidFileName (name : Text) : Bool :=
  decide (name ≠ [] ∧ name ≠ ['.'] ∧ name ≠ ['.', '.'] ∧ '/' ∉ name)

def getFileHandle (refused : List Text → Option String) (create : Bool) (dir : List Text)
    (name : JsString) (tree : WebDirectory) : Except SaveError (List Text) × WebDirectory :=
  let path := dir ++ [name.scalars]
  if isValidFileName name.scalars = false then (.error .typeError, tree)
  else
    match refused path with
    | some message => (.error (.refused message), tree)
    | none =>
      match tree.find path with
      | some (.file _) => (.ok path, tree)
      | some .folder => (.error .typeMismatchError, tree)
      | none =>
        if h : create = true ∧ tree.CanPut path then (.ok path, tree.put path (.file []) h.2)
        else (.error .notFoundError, tree)

/-- `FileSystemDirectoryHandle.getDirectoryHandle`, which makes the folder. -/
def getDirectoryHandle (refused : List Text → Option String) (dir : List Text) (name : JsString)
    (tree : WebDirectory) : Except SaveError (List Text) × WebDirectory :=
  let path := dir ++ [name.scalars]
  if isValidFileName name.scalars = false then (.error .typeError, tree)
  else
    match refused path with
    | some message => (.error (.refused message), tree)
    | none =>
      match tree.find path with
      | some .folder => (.ok path, tree)
      | some (.file _) => (.error .typeMismatchError, tree)
      | none =>
        if h : tree.CanPut path then (.ok path, tree.put path .folder h)
        else (.error .notFoundError, tree)

/-- `path.replace(/\\/g, '/').split('/').pop()`. -/
def basename (path : JsString) : JsString := ((normalizedPath path).splitOn slash).getLastD path

def resolveConflictName (fileName : JsString) (index : Nat) : JsString := webSuffixed fileName index

/-- `fileExists`: every rejection counts as no. -/
def fileExists (browser : Browser) (i : Nat) (dir : List Text) (tree : WebDirectory)
    (fileName : JsString) : Bool :=
  match (getFileHandle (browser.probe i) false dir fileName tree).1 with
  | .ok _ => true
  | .error _ => false

/-- The loop of `resolveWritableFileName`, for a number of turns. -/
def resolveLoop (taken : JsString → Bool) (fileName : JsString) :
    Nat → Nat → JsString → Option JsString
  | 0, _, _ => none
  | turns + 1, index, candidate =>
    if taken candidate then
      resolveLoop taken fileName turns (index + 1) (resolveConflictName fileName index)
    else some candidate

/-- `resolveWritableFileName`: `index` runs from 1 to 9999. -/
def resolveWritableFileName (taken : JsString → Bool) (fileName : JsString) :
    Except SaveError (JsString × Option WebWriteConflict) :=
  match resolveLoop taken fileName 9999 1 fileName with
  | none => .error (.tooManyConflicts fileName)
  | some candidate =>
    .ok (candidate, if candidate = fileName then none else some ⟨fileName, candidate⟩)

/-- `path.replace(/\\/g, '/').split('/').filter(Boolean)`. -/
def pathParts (path : JsString) : List JsString :=
  ((normalizedPath path).splitOn slash).filter (· ≠ [])

/-- The loop of `getDirectoryForRelativePath`. -/
def openDirectory (refused : List Text → Option String) :
    List Text → List JsString → WebDirectory → Except SaveError (List Text) × WebDirectory
  | current, [], tree => (.ok current, tree)
  | current, part :: parts, tree =>
    match getDirectoryHandle refused current part tree with
    | (.error e, tree) => (.error e, tree)
    | (.ok current, tree) => openDirectory refused current parts tree

/-- `getDirectoryForRelativePath`: the directory and the name of the file in it. -/
def getDirectoryForRelativePath (refused : List Text → Option String) (relativePath : JsString)
    (tree : WebDirectory) : Except SaveError (List Text × JsString) × WebDirectory :=
  match (pathParts relativePath).getLast? with
  | none => (.error .invalidRelativePath, tree)
  | some fileName =>
    match openDirectory refused [] (pathParts relativePath).dropLast tree with
    | (.error e, tree) => (.error e, tree)
    | (.ok dir, tree) => (.ok (dir, fileName), tree)

/-- `writeBytesToDirectory`: what is written reaches the file when its stream is closed. -/
def writeBytesToDirectory (browser : Browser) (i : Nat) (dir : List Text) (fileName : JsString)
    (bytes : Bytes) (tree : WebDirectory) :
    Except SaveError (Option WebWriteConflict) × WebDirectory :=
  match resolveWritableFileName (fileExists browser i dir tree) fileName with
  | .error e => (.error e, tree)
  | .ok (resolved, conflict) =>
    match getFileHandle (browser.handle i) true dir resolved tree with
    | (.error e, tree) => (.error e, tree)
    | (.ok path, tree) =>
      match browser.written i with
      | some message => (.error (.refused message), tree)
      | none =>
        match tree.write path bytes with
        | none => (.error .notFoundError, tree)
        | some tree => (.ok conflict, tree)

/-- One pass of the loop of `writeCollectionToDirectory`. -/
def writeFile (browser : Browser) (i : Nat) (file : ReceivedWebFile) (tree : WebDirectory) :
    Except SaveError (Option WebWriteConflict) × WebDirectory :=
  match getDirectoryForRelativePath (browser.handle i) (normalizedPath file.name) tree with
  | (.error e, tree) => (.error e, tree)
  | (.ok (dir, fileName), tree) => writeBytesToDirectory browser i dir fileName file.bytes tree

/-- `writeCollectionToDirectory`, from the `i`-th file. -/
def writeCollectionToDirectory (browser : Browser) :
    Nat → List ReceivedWebFile → WebDirectory →
      Except SaveError (List WebWriteConflict) × WebDirectory
  | _, [], tree => (.ok [], tree)
  | i, file :: files, tree =>
    match writeFile browser i file tree with
    | (.error e, tree) => (.error e, tree)
    | (.ok conflict, tree) =>
      match writeCollectionToDirectory browser (i + 1) files tree with
      | (.error e, tree) => (.error e, tree)
      | (.ok conflicts, tree) => (.ok (conflict.toList ++ conflicts), tree)

def deriveZipDownloadName (paths : List JsString) : JsString :=
  let roots := ((paths.map fun path =>
    ((normalizedPath path).splitOn slash).headD []).filter (· ≠ [])).dedup
  match roots with
  | [root] => root ++ Alphabet.js.text ".zip"
  | _ => Alphabet.js.text "download.zip"

/-- The one file of a collection without folders. -/
def simpleSingleFile (files : List ReceivedWebFile) : Option ReceivedWebFile :=
  match files with
  | [file] => if slash ∉ file.name ∧ Alphabet.js.letter '\\' ∉ file.name then some file else none
  | _ => none

/-- The part of `writeReceivedCollection` that writes into the directory. -/
def saveInDirectory (browser : Browser) (files : List ReceivedWebFile) (tree : WebDirectory) :
    Except SaveError (List WebWriteConflict) × WebDirectory :=
  match simpleSingleFile files with
  | some file =>
    match writeBytesToDirectory browser 0 [] (basename file.name) file.bytes tree with
    | (.error e, tree) => (.error e, tree)
    | (.ok conflict, tree) => (.ok conflict.toList, tree)
  | none => writeCollectionToDirectory browser 0 files tree

/-- The part of `writeReceivedCollection` that downloads. -/
def saveAsDownload (browser : Browser) (files : List ReceivedWebFile) :
    Except SaveError (Bool × Download) :=
  match simpleSingleFile files with
  | some file => .ok (false, ⟨file.bytes, basename file.name⟩)
  | none =>
    match createStoreOnlyZip browser.maxLength (files.map fun file => ⟨file.name, file.bytes⟩) with
    | .error message => .error (.zip message)
    | .ok zipBytes =>
      .ok (true, ⟨zipBytes, deriveZipDownloadName (files.map ReceivedWebFile.name)⟩)

/-- What a save leaves: what it returns, the directory, and the downloads. -/
structure Saved where
  result : Except SaveError WriteCollectionResult
  directory : Option WebDirectory
  downloads : List Download

/-- `writeReceivedCollection`, with the directory that was picked, if any. -/
def writeReceivedCollection (browser : Browser) (directory : Option WebDirectory)
    (files : List ReceivedWebFile) : Saved :=
  if files = [] then ⟨.error .noFiles, directory, []⟩
  else
    let download : Saved :=
      match saveAsDownload browser files with
      | .error e => ⟨.error e, directory, []⟩
      | .ok (zipped, download) => ⟨.ok ⟨false, zipped, []⟩, directory, [download]⟩
    match directory with
    | none => download
    | some tree =>
      match ensureDirWritePermission browser with
      | .error e => ⟨.error e, directory, []⟩
      | .ok false => download
      | .ok true =>
        match saveInDirectory browser files tree with
        | (.error e, tree) => ⟨.error e, some tree, []⟩
        | (.ok conflicts, tree) => ⟨.ok ⟨true, false, conflicts⟩, some tree, []⟩

/-- The loop of `export_collection_bytes`, which reads the blobs one after the other. -/
def exportBytes (reads : Nat → Option String) :
    Nat → List (Text × Bytes) → Except String (List (Text × Bytes))
  | _, [] => .ok []
  | i, (name, bytes) :: entries => do
    validateCollectionPath name
    match reads i with
    | some cause => .error cause
    | none => return (name, bytes) :: (← exportBytes reads (i + 1) entries)

def exportCollectionBytes (reads : Nat → Option String) (collection : List (Text × Bytes)) :
    Except String (List (Text × Bytes)) := do
  let files ← exportBytes reads 0 collection
  ensure (files ≠ []) "collection is empty"
  return files

/-- A file as it crosses from the engine to the page. -/
def receivedFile (file : Text × Bytes) : ReceivedWebFile := ⟨utf16 file.1, file.2⟩

/-! ## Names -/

/-- The name that is tried in the `k`-th turn, in a directory. -/
def numberedIn (dir : List Text) (fileName : JsString) (k : Nat) : List Text :=
  dir ++ [(webLabel fileName k).scalars]

/-- The conflict to report for the `k`-th name. -/
def conflictAt (fileName : JsString) (k : Nat) : Option WebWriteConflict :=
  if k = 0 then none else some ⟨fileName, webLabel fileName k⟩

theorem webLabel_eq_iff {fileName : JsString} {k : Nat} :
    webLabel fileName k = fileName ↔ k = 0 := by
  rw [webLabel]
  by_cases h : k = 0
  · simp [h]
  · rw [if_neg h]
    simp only [h, iff_false]
    intro heq
    have hlength := congrArg List.length heq
    rcases webSuffixed_cases fileName k with ⟨stem, ext, -, -, hname, hsuffixed⟩ | ⟨-, hsuffixed⟩
    · have := congrArg List.length hname
      rw [hsuffixed, Alphabet.suffixed_eq] at hlength
      simp only [List.length_append, List.length_cons] at hlength this
      omega
    · rw [hsuffixed, Alphabet.suffixed_eq] at hlength
      simp only [List.length_append, List.length_cons] at hlength
      omega

theorem resolveLoop_some {taken : JsString → Bool} {fileName candidate : JsString} {turns k : Nat}
    (h : resolveLoop taken fileName turns (k + 1) (webLabel fileName k) = some candidate) :
    ∃ found, k ≤ found ∧ found < k + turns ∧ candidate = webLabel fileName found ∧
      taken candidate = false ∧ ∀ j, k ≤ j → j < found → taken (webLabel fileName j) = true := by
  induction turns generalizing k with
  | zero => cases h
  | succ turns ih =>
    rw [resolveLoop] at h
    by_cases htaken : taken (webLabel fileName k) = true
    · have hnext : resolveConflictName fileName (k + 1) = webLabel fileName (k + 1) := by
        rw [resolveConflictName, webLabel, if_neg (by omega)]
      rw [if_pos htaken, hnext] at h
      obtain ⟨found, hle, hlt, hcandidate, hfree, hbefore⟩ := ih h
      refine ⟨found, by omega, by omega, hcandidate, hfree, ?_⟩
      intro j hj hfound
      by_cases heq : j = k
      · rw [heq]
        exact htaken
      · exact hbefore j (by omega) hfound
    · rw [if_neg htaken] at h
      obtain rfl := Option.some.inj h
      refine ⟨k, Nat.le_refl k, by omega, rfl, by simpa using htaken, ?_⟩
      intro j hj hlt
      omega

theorem resolveWritableFileName_ok {taken : JsString → Bool} {fileName resolved : JsString}
    {conflict : Option WebWriteConflict}
    (h : resolveWritableFileName taken fileName = .ok (resolved, conflict)) :
    ∃ k, k < 9999 ∧ resolved = webLabel fileName k ∧ conflict = conflictAt fileName k ∧
      taken resolved = false ∧ ∀ j < k, taken (webLabel fileName j) = true := by
  rw [resolveWritableFileName] at h
  cases hloop : resolveLoop taken fileName 9999 1 fileName with
  | none =>
    rw [hloop] at h
    cases h
  | some candidate =>
    rw [hloop] at h
    obtain ⟨rfl, rfl⟩ := Prod.mk.inj (Except.ok.inj h)
    obtain ⟨k, -, hlt, rfl, hfree, hbefore⟩ := resolveLoop_some (k := 0) hloop
    refine ⟨k, by omega, rfl, ?_, hfree, fun j hj => hbefore j (Nat.zero_le j) hj⟩
    simp only [conflictAt, webLabel_eq_iff]

/-! ## One file -/

/-- Asking whether a file exists is never refused. -/
def Browser.Probes (browser : Browser) : Prop := ∀ i path, browser.probe i path = none

theorem fileExists_eq {browser : Browser} (hprobe : browser.Probes) (i : Nat) (dir : List Text)
    (tree : WebDirectory) (fileName : JsString) :
    fileExists browser i dir tree fileName =
      (isValidFileName fileName.scalars && tree.isFile (dir ++ [fileName.scalars])) := by
  rw [fileExists, getFileHandle, hprobe i, FileTree.isFile]
  cases isValidFileName fileName.scalars with
  | false => rfl
  | true =>
    cases hfind : tree.find (dir ++ [fileName.scalars]) with
    | none => simp
    | some node => cases node <;> simp

/-- The number of a file: the first whose name no file has, where there is nothing else either. -/
structure Chosen (tree : WebDirectory) (dir : List Text) (fileName : JsString) (k : Nat) : Prop where
  bound : k < 9999
  free : tree.find (numberedIn dir fileName k) = none
  taken : ∀ j < k, tree.isFile (numberedIn dir fileName j) = true

/-- What writing bytes under a name can do: nothing, an empty file that stays empty, or the file. -/
inductive Written (dir : List Text) (fileName : JsString) (bytes : Bytes) (tree : WebDirectory) :
    Except SaveError (Option WebWriteConflict) × WebDirectory → Prop
  | failed (e : SaveError) : Written dir fileName bytes tree (.error e, tree)
  | emptied (e : SaveError) (k : Nat) (chosen : Chosen tree dir fileName k)
      (h : tree.CanPut (numberedIn dir fileName k)) :
      Written dir fileName bytes tree (.error e, tree.put (numberedIn dir fileName k) (.file []) h)
  | done (k : Nat) (chosen : Chosen tree dir fileName k)
      (h : tree.CanPut (numberedIn dir fileName k)) :
      Written dir fileName bytes tree
        (.ok (conflictAt fileName k), tree.put (numberedIn dir fileName k) (.file bytes) h)

theorem writeBytesToDirectory_written {browser : Browser} (hprobe : browser.Probes) (i : Nat)
    (dir : List Text) (fileName : JsString) (bytes : Bytes) (tree : WebDirectory) :
    Written dir fileName bytes tree
      (writeBytesToDirectory browser i dir fileName bytes tree) := by
  rw [writeBytesToDirectory]
  cases hresolved : resolveWritableFileName (fileExists browser i dir tree) fileName with
  | error e => exact .failed e
  | ok found =>
    obtain ⟨resolved, conflict⟩ := found
    obtain ⟨k, hbound, rfl, rfl, hfree, hbefore⟩ := resolveWritableFileName_ok hresolved
    dsimp only
    rw [getFileHandle]
    by_cases hvalid : isValidFileName (webLabel fileName k).scalars = true
    · rw [if_neg (by rw [hvalid]; exact Bool.noConfusion)]
      cases browser.handle i (dir ++ [(webLabel fileName k).scalars]) with
      | some message => exact .failed _
      | none =>
        dsimp only
        cases hfind : tree.find (dir ++ [(webLabel fileName k).scalars]) with
        | some node =>
          cases node with
          | folder => exact .failed _
          | file content =>
            -- it would have been found when asked for
            rw [fileExists_eq hprobe, hvalid, FileTree.isFile, hfind] at hfree
            cases hfree
        | none =>
          by_cases hput : tree.CanPut (dir ++ [(webLabel fileName k).scalars])
          · have hchosen : Chosen tree dir fileName k := by
              refine ⟨hbound, hfind, ?_⟩
              intro j hj
              have htaken := hbefore j hj
              rw [fileExists_eq hprobe, Bool.and_eq_true] at htaken
              exact htaken.2
            rw [dif_pos ⟨rfl, hput⟩]
            dsimp only
            cases browser.written i with
            | some message => exact .emptied _ k hchosen hput
            | none =>
              dsimp only
              rw [FileTree.write_put]
              exact .done k hchosen hput
          · rw [dif_neg (fun h => hput h.2)]
            exact .failed _
    · rw [if_pos (by simpa using hvalid)]
      exact .failed _

/-! ## Folders -/

theorem getDirectoryHandle_growth (refused : List Text → Option String) (dir : List Text)
    (name : JsString) (tree : WebDirectory) :
    FolderGrowth (dir ++ [name.scalars]) tree (getDirectoryHandle refused dir name tree).2 ∧
    ∀ path, (getDirectoryHandle refused dir name tree).1 = .ok path →
      path = dir ++ [name.scalars] ∧
        (getDirectoryHandle refused dir name tree).2.find path = some .folder := by
  have hfailed : ∀ e : SaveError,
      FolderGrowth (dir ++ [name.scalars]) tree tree ∧ ∀ path : List Text,
        (Except.error e : Except SaveError (List Text)) = .ok path →
          path = dir ++ [name.scalars] ∧ tree.find path = some .folder :=
    fun e => ⟨FolderGrowth.refl _ _, nofun⟩
  rw [getDirectoryHandle]
  split
  · exact hfailed _
  · split
    · exact hfailed _
    · split
      · rename_i hfind
        refine ⟨FolderGrowth.refl _ _, ?_⟩
        intro path hpath
        obtain rfl := Except.ok.inj hpath
        exact ⟨rfl, hfind⟩
      · exact hfailed _
      · rename_i hfind
        split
        · rename_i hput
          refine ⟨FileTree.growth_put (FileTree.not_exists_iff.mpr hfind) hput, ?_⟩
          intro path hpath
          obtain rfl := Except.ok.inj hpath
          refine ⟨rfl, ?_⟩
          rw [FileTree.find_put, if_pos rfl]
        · exact hfailed _

/-- Opening a directory makes folders on the way, and gives its path. -/
theorem openDirectory_growth (refused : List Text → Option String) (parts : List JsString)
    (current : List Text) (tree : WebDirectory) (hcurrent : tree.find current = some .folder) :
    FolderGrowth (current ++ parts.map JsString.scalars) tree
      (openDirectory refused current parts tree).2 ∧
    ∀ dir, (openDirectory refused current parts tree).1 = .ok dir →
      dir = current ++ parts.map JsString.scalars ∧
        (openDirectory refused current parts tree).2.find dir = some .folder := by
  induction parts generalizing current tree with
  | nil =>
    rw [openDirectory, List.map_nil, List.append_nil]
    refine ⟨FolderGrowth.refl _ _, ?_⟩
    intro dir hdir
    obtain rfl := Except.ok.inj hdir
    exact ⟨rfl, hcurrent⟩
  | cons part parts ih =>
    obtain ⟨hgrowth, hok⟩ := getDirectoryHandle_growth refused current part tree
    have hway : current ++ (part :: parts).map JsString.scalars =
        (current ++ [part.scalars]) ++ parts.map JsString.scalars := by
      rw [List.map_cons, List.append_assoc]
      rfl
    rw [openDirectory, hway]
    generalize getDirectoryHandle refused current part tree = first at hgrowth hok
    obtain ⟨r, tree₁⟩ := first
    cases r with
    | error e =>
      exact ⟨hgrowth.trans (List.prefix_append _ _) (FolderGrowth.refl _ _), nofun⟩
    | ok path =>
      obtain ⟨rfl, hfolder⟩ := hok path rfl
      obtain ⟨hgrowth', hok'⟩ := ih (current ++ [part.scalars]) tree₁ hfolder
      exact ⟨hgrowth.trans (List.prefix_append _ _) hgrowth', hok'⟩

/-- The directory a file's name asks for. -/
def folderOf (file : ReceivedWebFile) : List Text :=
  (pathParts file.name).dropLast.map JsString.scalars

def nameOf (file : ReceivedWebFile) : JsString := (pathParts file.name).getLastD []

/-- The path of a file with its `k`-th name. -/
def target (file : ReceivedWebFile) (k : Nat) : List Text :=
  numberedIn (folderOf file) (nameOf file) k

theorem normalizedPath_normalizedPath (path : JsString) :
    normalizedPath (normalizedPath path) = normalizedPath path := by
  rw [normalizedPath, normalizedPath, List.map_map]
  apply List.map_congr_left
  intro u _
  show (if (if u = 0x5c then 0x2f else u) = 0x5c then (0x2f : UInt16)
    else if u = 0x5c then 0x2f else u) = _
  by_cases h : u = 0x5c
  · simp [h]
  · simp [h]

theorem pathParts_normalizedPath (path : JsString) :
    pathParts (normalizedPath path) = pathParts path := by
  rw [pathParts, normalizedPath_normalizedPath, pathParts]

/-- What a file that is not saved leaves: folders on the way, or the whole way and one empty file, under
the name that the file was to have. -/
inductive Left (file : ReceivedWebFile) (tree tree' : WebDirectory) : Prop
  | folders (growth : FolderGrowth (folderOf file) tree tree') : Left file tree tree'
  | emptied (k : Nat) (chosen : Chosen tree (folderOf file) (nameOf file) k)
      (mirrored : Mirrored [(target file k, [])] tree tree') : Left file tree tree'

theorem Left.keeps {file : ReceivedWebFile} {tree tree' : WebDirectory} (h : Left file tree tree')
    {path : List Text} {node : FileNode Bytes} (hnode : tree.find path = some node) :
    tree'.find path = some node := by
  cases h with
  | folders hgrowth => exact hgrowth.keeps path node hnode
  | emptied k hchosen hmirrored => exact hmirrored.keeps hnode

inductive FileSaved (file : ReceivedWebFile) (tree : WebDirectory) :
    Except SaveError (Option WebWriteConflict) × WebDirectory → Prop
  | left (e : SaveError) (tree' : WebDirectory) (h : Left file tree tree') :
      FileSaved file tree (.error e, tree')
  | saved (k : Nat) (tree' : WebDirectory)
      (chosen : Chosen tree (folderOf file) (nameOf file) k)
      (mirrored : Mirrored [(target file k, file.bytes)] tree tree') :
      FileSaved file tree (.ok (conflictAt (nameOf file) k), tree')

theorem Chosen.of_growth {dir folder : List Text} {fileName : JsString} {k : Nat}
    {tree tree' : WebDirectory} (hgrowth : FolderGrowth folder tree tree')
    (h : Chosen tree' dir fileName k) : Chosen tree dir fileName k := by
  refine ⟨h.bound, ?_, ?_⟩
  · by_contra hthere
    obtain ⟨node, hnode⟩ := Option.ne_none_iff_exists'.mp hthere
    have hkept := hgrowth.keeps _ node hnode
    rw [h.free] at hkept
    cases hkept
  · intro j hj
    have htaken := h.taken j hj
    rw [FileTree.isFile] at htaken ⊢
    split at htaken
    · rename_i content hfind
      rcases hgrowth.adds _ _ hfind with hold | ⟨hfolder, -⟩
      · rw [hold]
      · cases hfolder
    · cases htaken

theorem writeBytes_saved {file : ReceivedWebFile} {tree tree' : WebDirectory}
    (hgrowth : FolderGrowth (folderOf file) tree tree')
    (hfolder : tree'.find (folderOf file) = some .folder)
    {outcome : Except SaveError (Option WebWriteConflict) × WebDirectory}
    (h : Written (folderOf file) (nameOf file) file.bytes tree' outcome) :
    FileSaved file tree outcome := by
  cases h with
  | failed e => exact .left e tree' (.folders hgrowth)
  | emptied e k hchosen hput =>
    have hold := hchosen.of_growth hgrowth
    exact .left e _ (.emptied k hold (FileTree.mirrored_put hold.free hgrowth hfolder hput))
  | done k hchosen hput =>
    have hold := hchosen.of_growth hgrowth
    exact .saved k _ hold (FileTree.mirrored_put hold.free hgrowth hfolder hput)

theorem writeFile_saved {browser : Browser} (hprobe : browser.Probes) (i : Nat)
    (file : ReceivedWebFile) {tree : WebDirectory} (htop : tree.find [] = some .folder) :
    FileSaved file tree (writeFile browser i file tree) := by
  rw [writeFile, getDirectoryForRelativePath, pathParts_normalizedPath]
  cases hlast : (pathParts file.name).getLast? with
  | none => exact .left _ _ (.folders (FolderGrowth.refl _ _))
  | some fileName =>
    have hname : fileName = nameOf file := by
      rw [nameOf, List.getLastD_eq_getLast?, hlast]
      rfl
    obtain ⟨hgrowth, hok⟩ :=
      openDirectory_growth (browser.handle i) (pathParts file.name).dropLast [] tree htop
    rw [List.nil_append] at hgrowth hok
    dsimp only
    generalize openDirectory (browser.handle i) [] (pathParts file.name).dropLast tree = opened
      at hgrowth hok
    obtain ⟨r, tree₁⟩ := opened
    cases r with
    | error e => exact .left e tree₁ (.folders hgrowth)
    | ok dir =>
      obtain ⟨rfl, hfolder⟩ := hok dir rfl
      rw [hname]
      exact writeBytes_saved hgrowth hfolder
        (writeBytesToDirectory_written hprobe i _ (nameOf file) file.bytes tree₁)

/-- The one file without folders is written as a file of a collection would be. -/
theorem simpleSingleFile_some {files : List ReceivedWebFile} {file : ReceivedWebFile}
    (h : simpleSingleFile files = some file) :
    files = [file] ∧ folderOf file = [] ∧ basename file.name = nameOf file := by
  unfold simpleSingleFile at h
  split at h
  · rename_i single
    split at h
    · rename_i hplain
      obtain rfl := Option.some.inj h
      have hback : ∀ u ∈ single.name, u ≠ 0x5c := by
        rintro u hu rfl
        exact hplain.2 hu
      have hnormal : normalizedPath single.name = single.name := by
        conv_rhs => rw [← List.map_id single.name]
        rw [normalizedPath]
        apply List.map_congr_left
        intro u hu
        rw [if_neg (hback u hu)]
        rfl
      have hsplit : (normalizedPath single.name).splitOn slash = [single.name] := by
        rw [hnormal, List.splitOn_eq_singleton hplain.1]
      refine ⟨rfl, ?_, ?_⟩
      · rw [folderOf, pathParts, hsplit]
        by_cases hnil : single.name = []
        · simp [hnil]
        · simp [hnil]
      · rw [basename, nameOf, pathParts, hsplit]
        by_cases hnil : single.name = []
        · simp [hnil]
        · simp [hnil]
    · cases h
  · cases h

/-! ## All files -/

/-- The numbers of all files in order, when certain paths are taken by files. -/
def Numbered : (List Text → Prop) → List ReceivedWebFile → List Nat → Prop
  | _, [], ks => ks = []
  | _, _ :: _, [] => False
  | taken, file :: files, k :: ks =>
    k < 9999 ∧ ¬ taken (target file k) ∧ (∀ j < k, taken (target file j)) ∧
      Numbered (fun path => taken path ∨ path = target file k) files ks

/-- Files with the paths their numbers give them, and their bytes. -/
def placed (files : List ReceivedWebFile) (ks : List Nat) : List (List Text × Bytes) :=
  List.zipWith (fun file k => (target file k, file.bytes)) files ks

/-- A save of files that succeeded: each is at a new path, the one of its number, nothing else is new
but the folders on the way, and the conflicts are the files with another name than their own. -/
structure Delivered (tree tree' : WebDirectory) (files : List ReceivedWebFile)
    (conflicts : List WebWriteConflict) (ks : List Nat) : Prop where
  numbered : Numbered (fun path => tree.isFile path = true) files ks
  length : ks.length = files.length
  nodup : ((placed files ks).map Prod.fst).Nodup
  fresh : ∀ file ∈ placed files ks, tree.find file.1 = none
  mirrored : Mirrored (placed files ks) tree tree'
  conflicts : conflicts =
    (List.zipWith (fun file k => conflictAt (nameOf file) k) files ks).reduceOption

theorem Delivered.nil (tree : WebDirectory) : Delivered tree tree [] [] [] :=
  ⟨rfl, rfl, List.nodup_nil, fun _ h => absurd h List.not_mem_nil, Mirrored.nil tree, rfl⟩

theorem isFile_iff {tree : WebDirectory} {path : List Text} :
    tree.isFile path = true ↔ ∃ content, tree.find path = some (.file content) := by
  rw [FileTree.isFile]
  split
  · rename_i content hfind
    exact ⟨fun _ => ⟨content, hfind⟩, fun _ => rfl⟩
  · rename_i hnot
    constructor
    · intro h
      cases h
    · rintro ⟨content, hfind⟩
      exact absurd hfind (hnot content)

/-- After a file is saved the later ones see it as taken. -/
theorem Delivered.cons {file : ReceivedWebFile} {k : Nat} {tree tree₁ tree' : WebDirectory}
    {files : List ReceivedWebFile} {conflicts : List WebWriteConflict} {ks : List Nat}
    (hchosen : Chosen tree (folderOf file) (nameOf file) k)
    (hfirst : Mirrored [(target file k, file.bytes)] tree tree₁)
    (h : Delivered tree₁ tree' files conflicts ks) :
    Delivered tree tree' (file :: files)
      ((conflictAt (nameOf file) k).toList ++ conflicts) (k :: ks) := by
  have hplaced : placed (file :: files) (k :: ks) =
      [(target file k, file.bytes)] ++ placed files ks := rfl
  have htarget : tree₁.find (target file k) = some (.file file.bytes) :=
    (hfirst.files _ _).mpr (Or.inr (List.mem_singleton.mpr rfl))
  have hnot : ¬ tree.isFile (target file k) = true := by
    rw [isFile_iff]
    rintro ⟨content, hfile⟩
    rw [show tree.find (target file k) = none from hchosen.free] at hfile
    cases hfile
  refine ⟨⟨hchosen.bound, hnot, hchosen.taken, ?_⟩, ?_, ?_, ?_, ?_, ?_⟩
  · have htaken : (fun path => tree.isFile path = true ∨ path = target file k) =
        fun path => tree₁.isFile path = true := by
      funext path
      rw [eq_iff_iff, isFile_iff, isFile_iff]
      simp only [hfirst.files, List.mem_singleton, Prod.mk.injEq, exists_or, exists_and_left,
        exists_eq, and_true]
    rw [htaken]
    exact h.numbered
  · rw [List.length_cons, List.length_cons, h.length]
  · rw [hplaced, List.map_append, List.map_singleton, List.singleton_append]
    refine List.nodup_cons.mpr ⟨?_, h.nodup⟩
    intro hmem
    obtain ⟨other, hother, heq⟩ := List.mem_map.mp hmem
    have hfresh := h.fresh other hother
    rw [heq, htarget] at hfresh
    cases hfresh
  · rw [hplaced, List.singleton_append, List.forall_mem_cons]
    refine ⟨hchosen.free, ?_⟩
    intro other hother
    by_contra hthere
    obtain ⟨node, hnode⟩ := Option.ne_none_iff_exists'.mp hthere
    have hkept := hfirst.keeps hnode
    rw [h.fresh other hother] at hkept
    cases hkept
  · exact hfirst.append h.mirrored
  · rw [h.conflicts, List.zipWith_cons_cons]
    cases conflictAt (nameOf file) k with
    | none => rw [List.reduceOption_cons_of_none, Option.toList_none, List.nil_append]
    | some conflict => rw [List.reduceOption_cons_of_some, Option.toList_some, List.singleton_append]

/-- What saving files can do: all are delivered, or the first of them are and the next one fails. -/
inductive FilesSaved (tree : WebDirectory) (files : List ReceivedWebFile) :
    Except SaveError (List WebWriteConflict) × WebDirectory → Prop
  | failed (e : SaveError) (before after : List ReceivedWebFile) (file : ReceivedWebFile)
      (conflicts : List WebWriteConflict) (ks : List Nat) (tree₁ tree' : WebDirectory)
      (split : files = before ++ file :: after)
      (delivered : Delivered tree tree₁ before conflicts ks) (left : Left file tree₁ tree') :
      FilesSaved tree files (.error e, tree')
  | saved (conflicts : List WebWriteConflict) (ks : List Nat) (tree' : WebDirectory)
      (delivered : Delivered tree tree' files conflicts ks) :
      FilesSaved tree files (.ok conflicts, tree')

theorem writeCollectionToDirectory_saved {browser : Browser} (hprobe : browser.Probes)
    (files : List ReceivedWebFile) (i : Nat) {tree : WebDirectory}
    (htop : tree.find [] = some .folder) :
    FilesSaved tree files (writeCollectionToDirectory browser i files tree) := by
  induction files generalizing i tree with
  | nil => exact .saved [] [] tree (Delivered.nil tree)
  | cons file files ih =>
    have hfirst := writeFile_saved hprobe i file htop
    rw [writeCollectionToDirectory]
    generalize writeFile browser i file tree = first at hfirst
    cases hfirst with
    | left e tree₁ hleft =>
      exact .failed e [] files file [] [] tree tree₁ rfl (Delivered.nil tree) hleft
    | saved k tree₁ hchosen hmirrored =>
      have hrest := ih (i + 1) (hmirrored.keeps htop)
      dsimp only
      generalize writeCollectionToDirectory browser (i + 1) files tree₁ = rest at hrest
      cases hrest with
      | failed e before after other conflicts ks tree₂ tree' hsplit hdelivered hleft =>
        exact .failed e (file :: before) after other _ _ tree₂ tree' (by rw [hsplit]; rfl)
          (Delivered.cons hchosen hmirrored hdelivered) hleft
      | saved conflicts ks tree' hdelivered =>
        exact .saved _ _ tree' (Delivered.cons hchosen hmirrored hdelivered)

theorem saveInDirectory_saved {browser : Browser} (hprobe : browser.Probes)
    (files : List ReceivedWebFile) {tree : WebDirectory} (htop : tree.find [] = some .folder) :
    FilesSaved tree files (saveInDirectory browser files tree) := by
  rw [saveInDirectory]
  cases hsimple : simpleSingleFile files with
  | none => exact writeCollectionToDirectory_saved hprobe files 0 htop
  | some file =>
    obtain ⟨rfl, hfolder, hname⟩ := simpleSingleFile_some hsimple
    have hwritten := writeBytesToDirectory_written hprobe 0 [] (basename file.name) file.bytes tree
    rw [hname, ← hfolder] at hwritten
    have hsaved := writeBytes_saved (FolderGrowth.refl (folderOf file) tree)
      (by rw [hfolder]; exact htop) hwritten
    rw [hfolder] at hsaved
    dsimp only
    rw [hname]
    generalize writeBytesToDirectory browser 0 [] (nameOf file) file.bytes tree = outcome at hsaved
    cases hsaved with
    | left e tree' hleft =>
      exact .failed e [] [] file [] [] tree tree' rfl (Delivered.nil tree) hleft
    | saved k tree' hchosen hmirrored =>
      have hdelivered := Delivered.cons hchosen hmirrored (Delivered.nil tree')
      rw [List.append_nil] at hdelivered
      exact .saved _ [k] tree' hdelivered

/-! ## A whole save -/

/-- What `writeReceivedCollection` can leave, with a directory. -/
inductive Outcome (browser : Browser) (tree : WebDirectory) (files : List ReceivedWebFile) :
    Saved → Prop
  | refused (e : SaveError) : Outcome browser tree files ⟨.error e, some tree, []⟩
  | downloaded (zipped : Bool) (download : Download)
      (saved : saveAsDownload browser files = .ok (zipped, download)) :
      Outcome browser tree files ⟨.ok ⟨false, zipped, []⟩, some tree, [download]⟩
  | failed (e : SaveError) (tree' : WebDirectory)
      (saved : saveInDirectory browser files tree = (.error e, tree')) :
      Outcome browser tree files ⟨.error e, some tree', []⟩
  | delivered (conflicts : List WebWriteConflict) (tree' : WebDirectory)
      (saved : saveInDirectory browser files tree = (.ok conflicts, tree')) :
      Outcome browser tree files ⟨.ok ⟨true, false, conflicts⟩, some tree', []⟩

theorem writeReceivedCollection_outcome (browser : Browser) (tree : WebDirectory)
    (files : List ReceivedWebFile) :
    Outcome browser tree files (writeReceivedCollection browser (some tree) files) := by
  have hdownload : Outcome browser tree files
      (match saveAsDownload browser files with
      | .error e => ⟨.error e, some tree, []⟩
      | .ok (zipped, download) => ⟨.ok ⟨false, zipped, []⟩, some tree, [download]⟩) := by
    cases hsaved : saveAsDownload browser files with
    | error e => exact .refused e
    | ok found => exact .downloaded found.1 found.2 hsaved
  rw [writeReceivedCollection]
  by_cases hnil : files = []
  · rw [if_pos hnil]
    exact .refused _
  · rw [if_neg hnil]
    dsimp only
    cases ensureDirWritePermission browser with
    | error e => exact .refused e
    | ok allowed =>
      cases allowed with
      | false => exact hdownload
      | true =>
        cases hsaved : saveInDirectory browser files tree with
        | mk r tree' =>
          cases r with
          | error e => exact .failed e tree' hsaved
          | ok conflicts => exact .delivered conflicts tree' hsaved

theorem FilesSaved.keeps {tree : WebDirectory} {files : List ReceivedWebFile}
    {outcome : Except SaveError (List WebWriteConflict) × WebDirectory}
    (h : FilesSaved tree files outcome) {path : List Text} {node : FileNode Bytes}
    (hnode : tree.find path = some node) : outcome.2.find path = some node := by
  cases h with
  | failed e before after file conflicts ks tree₁ tree' hsplit hdelivered hleft =>
    exact hleft.keeps (hdelivered.mirrored.keeps hnode)
  | saved conflicts ks tree' hdelivered => exact hdelivered.mirrored.keeps hnode

/-- Where asking for an existing file is never refused, a save leaves a directory in which everything
that was there is as it was. Either nothing is new in it, or the files have been saved under the first
free of their names, all of them or those before one that failed, of which there are at most folders
and one empty file under the first free of its names; only a save that does not touch the directory
downloads anything. -/
theorem web_save_keeps {browser : Browser} (hprobe : browser.Probes)
    (files : List ReceivedWebFile) {tree : WebDirectory} (htop : tree.find [] = some .folder) :
    Outcome browser tree files (writeReceivedCollection browser (some tree) files) ∧
    FilesSaved tree files (saveInDirectory browser files tree) ∧
    ∃ tree', (writeReceivedCollection browser (some tree) files).directory = some tree' ∧
      ∀ path node, tree.find path = some node → tree'.find path = some node := by
  have houtcome := writeReceivedCollection_outcome browser tree files
  have hsaved := saveInDirectory_saved hprobe files htop
  refine ⟨houtcome, hsaved, ?_⟩
  generalize writeReceivedCollection browser (some tree) files = saved at houtcome
  cases houtcome with
  | refused e => exact ⟨tree, rfl, fun _ _ h => h⟩
  | downloaded zipped download _ => exact ⟨tree, rfl, fun _ _ h => h⟩
  | failed e tree' heq | delivered conflicts tree' heq =>
    rw [heq] at hsaved
    exact ⟨tree', rfl, fun _ _ h => hsaved.keeps h⟩

def Browser.granting : Browser :=
  ⟨.ok true, .ok true, fun _ _ => none, fun _ _ => none, fun _ => none, 2 ^ 32⟩

def emptyDirectory : WebDirectory where
  find path := if path = [] then some .folder else none
  parent := by
    intro path hne hfind
    exact absurd (if_neg hne) hfind

/-- Two files of one name, as a page receives them. -/
def twoOfAName : List ReceivedWebFile := [(['a'], [1]), (['a'], [2])].map receivedFile

theorem web_save_keeps_twoOfAName :
    Outcome .granting emptyDirectory twoOfAName
      (writeReceivedCollection .granting (some emptyDirectory) twoOfAName) ∧
    FilesSaved emptyDirectory twoOfAName (saveInDirectory .granting twoOfAName emptyDirectory) ∧
    ∃ tree', (writeReceivedCollection .granting (some emptyDirectory) twoOfAName).directory =
        some tree' ∧
      ∀ path node, emptyDirectory.find path = some node → tree'.find path = some node :=
  web_save_keeps (fun _ _ => rfl) twoOfAName rfl

/-! ## Names on both sides -/

/-- The path of the desktop's file system for a path below the directory. -/
def seenAs (outputDir : PathBuf) (path : List Text) : PathBuf :=
  outputDir ++ path.map fun part => .normal (.text part)

theorem seenAs_append (outputDir : PathBuf) (path : List Text) (part : Text) :
    seenAs outputDir (path ++ [part]) = fileIn (seenAs outputDir path) part := by
  rw [seenAs, List.map_append, ← List.append_assoc]
  rfl

theorem seenAs_isPrefix_iff {outputDir : PathBuf} {path other : List Text} :
    seenAs outputDir path <+: seenAs outputDir other ↔ path <+: other := by
  rw [seenAs, seenAs, List.prefix_append_right_inj]
  apply List.prefix_map_iff_of_injective
  intro part part' heq
  exact OsStr.text.inj (Component.normal.inj heq)

theorem seenAs_inj {outputDir : PathBuf} {path other : List Text} :
    seenAs outputDir path = seenAs outputDir other ↔ path = other := by
  refine ⟨fun heq => ?_, fun heq => by rw [heq]⟩
  have hpre : path <+: other := by
    rw [← @seenAs_isPrefix_iff outputDir, heq]
  have hpre' : other <+: path := by
    rw [← @seenAs_isPrefix_iff outputDir, heq]
  exact hpre.eq_of_length (Nat.le_antisymm hpre.length_le hpre'.length_le)

/-- The directory is that folder of the desktop's file system. -/
def Shown (outputDir : PathBuf) (tree : WebDirectory) (disk : Disk) : Prop :=
  ∀ path, disk.find (seenAs outputDir path) = tree.find path

theorem Shown.mirrored {outputDir : PathBuf} {tree tree' : WebDirectory} {disk disk' : Disk}
    {path : List Text} {bytes : Bytes} (h : Shown outputDir tree disk)
    (htree : Mirrored [(path, bytes)] tree tree')
    (hdisk : Mirrored [(seenAs outputDir path, bytes)] disk disk') :
    Shown outputDir tree' disk' := by
  intro other
  apply Option.ext
  intro node
  cases node with
  | file content =>
    rw [hdisk.files, htree.files, h other]
    simp only [List.mem_singleton, Prod.mk.injEq, seenAs_inj]
  | folder =>
    rw [hdisk.folders, htree.folders, h other]
    simp only [List.mem_singleton, exists_eq_left, StrictlyBelow, seenAs_isPrefix_iff, ne_eq, seenAs_inj]

theorem rsplitFileAtDot_of_dot {stem ext : Text} (hstem : stem ≠ []) (hext : '.' ∉ ext)
    (hname : stem ++ '.' :: ext ≠ ['.', '.']) :
    rsplitFileAtDot (stem ++ '.' :: ext) = (some stem, some ext) := by
  have hreverse : (stem ++ '.' :: ext).reverse = ext.reverse ++ '.' :: stem.reverse := by
    rw [List.reverse_append, List.reverse_cons, List.append_assoc]
    rfl
  have hnot : ∀ c ∈ ext.reverse, (decide (c ≠ '.')) = true := by
    intro c hc
    rw [decide_eq_true_eq]
    rintro rfl
    exact hext (List.mem_reverse.mp hc)
  rw [rsplitFileAtDot, if_neg hname, hreverse, List.takeWhile_append_of_pos hnot,
    List.dropWhile_append_of_pos hnot]
  simp [hstem]

theorem extension_of_noDot {name : Text} (hdot : '.' ∉ name.tail) : extension name = none := by
  have hsplit : rsplitFileAtDot name = (some name, none) ∨ (rsplitFileAtDot name).1 = none := by
    rw [rsplitFileAtDot]
    split
    · exact Or.inl rfl
    · cases name with
      | nil => exact Or.inr rfl
      | cons c rest =>
        have hnot : ∀ d ∈ rest.reverse, (decide (d ≠ '.')) = true := by
          intro d hd
          rw [decide_eq_true_eq]
          rintro rfl
          exact hdot (List.mem_reverse.mp hd)
        rw [List.reverse_cons, List.dropWhile_append_of_pos hnot]
        by_cases hc : c = '.'
        · subst hc
          exact Or.inl rfl
        · simp [hc]
  rw [extension]
  rcases hsplit with hsplit | hsplit
  · rw [hsplit]
  · cases hcut : rsplitFileAtDot name with
    | mk before after =>
      rw [hcut] at hsplit
      obtain rfl : before = none := hsplit
      rfl

/-- The name the desktop tries at an index. -/
def desktopName (name : Text) (k : Nat) : Text :=
  candidateName name ((fileStem name).getD name) (extension name) k

theorem webLabel_desktop {name : Text} (hname : name ≠ ['.', '.']) {k : Nat} (hk : 0 < k) :
    webLabel (utf16 name) k = utf16 (desktopName name k) := by
  have hsuffixed : ∀ text : Text, Alphabet.rust.suffixed text k =
      text ++ [' ', '('] ++ Nat.toDigits 10 k ++ [')'] := by
    intro text
    have hmap : ∀ l : Text, l.map id = l := List.map_id
    simp [Alphabet.suffixed, Alphabet.text, Alphabet.digits, Alphabet.rust]
  rw [webLabel, if_neg (by omega)]
  rcases webSuffixed_cases (utf16 name) k with ⟨stem, ext, hstem, hext, hsplit, heq⟩ | ⟨hdot, heq⟩
  · obtain ⟨stem, ext, rfl, rfl, rfl⟩ := utf16_split (c := '.') (by decide) hsplit
    have hstem' : stem ≠ [] := by
      rintro rfl
      exact hstem rfl
    have hext' : '.' ∉ ext := by
      intro hmem
      apply hext
      obtain ⟨front, back, rfl⟩ := List.append_of_mem hmem
      rw [utf16_append, utf16_cons, utf16Char_ascii (by decide)]
      exact List.mem_append_right _ List.mem_cons_self
    have hcut := rsplitFileAtDot_of_dot hstem' hext' hname
    have hdesktop : desktopName (stem ++ '.' :: ext) k =
        Alphabet.rust.suffixed stem k ++ '.' :: ext := by
      rw [desktopName, fileStem, extension, hcut, hsuffixed]
      simp [candidateName]
    rw [heq, suffixed_utf16, hdesktop, utf16_append, utf16_cons, utf16Char_ascii (by decide)]
    rfl
  · have hdot' : '.' ∉ name.tail := by
      intro hmem
      cases name with
      | nil => exact absurd hmem List.not_mem_nil
      | cons c rest =>
        obtain ⟨front, back, hrest⟩ := List.append_of_mem hmem
        apply hdot
        have hne : utf16Char c ≠ [] := by
          intro hnil
          have hscalars := JsString.scalars_utf16Char_append c []
          rw [hnil] at hscalars
          cases hscalars
        rw [List.tail_cons] at hrest
        rw [hrest, utf16_cons, List.tail_append_of_ne_nil hne, utf16_append, utf16_cons,
          utf16Char_ascii (c := '.') (by decide)]
        exact List.mem_append_right _ (List.mem_append_right _ List.mem_cons_self)
    rw [heq, suffixed_utf16, desktopName, extension_of_noDot hdot', hsuffixed, candidateName]

theorem pathParts_of_accepted {name : Text} (h : Accepted name) :
    pathParts (utf16 name) = (name.splitOn '/').map utf16 := by
  have hback : '\\' ∉ name := by
    intro hmem
    have hjoined : List.intercalate ['/'] (name.splitOn '/') = name := List.intercalate_splitOn '/'
    rw [← hjoined, mem_intercalate (by decide)] at hmem
    obtain ⟨part, hpart, hin⟩ := hmem
    exact (h part hpart).noBackslash hin
  have hnormal : normalizedPath (utf16 name) = utf16 name := by
    conv_rhs => rw [← List.map_id (utf16 name)]
    rw [normalizedPath]
    apply List.map_congr_left
    intro u hu
    rw [if_neg]
    · rfl
    · rintro rfl
      exact hback (mem_of_mem_utf16 (c := '\\') (by decide) hu)
  rw [pathParts, hnormal, splitOn_slash, List.filter_eq_self]
  intro part hpart
  obtain ⟨text, htext, rfl⟩ := List.mem_map.mp hpart
  rw [decide_eq_true_eq, ne_eq, utf16_eq_nil]
  exact (h text htext).nonempty

theorem split_of_accepted {name : Text} (h : Accepted name) (bytes : Bytes) :
    ∃ front last, name.splitOn '/' = front ++ [last] ∧ ValidComponent last ∧
      folderOf (receivedFile (name, bytes)) = front ∧
      nameOf (receivedFile (name, bytes)) = utf16 last := by
  have hne : name.splitOn '/' ≠ [] := List.splitOn_ne_nil _ _
  have hsplit := List.dropLast_append_getLast hne
  refine ⟨_, _, hsplit.symm, h _ (List.getLast_mem hne), ?_, ?_⟩
  · rw [folderOf, receivedFile, pathParts_of_accepted h, ← List.map_dropLast, List.map_map]
    conv_rhs => rw [← List.map_id (name.splitOn '/').dropLast]
    apply List.map_congr_left
    intro part _
    exact JsString.scalars_utf16 part
  · rw [nameOf, receivedFile, pathParts_of_accepted h]
    conv_lhs => rw [← hsplit]
    rw [List.map_append, List.getLastD_eq_getLast?, List.map_singleton, List.getLast?_concat]
    rfl

/-! ## The desktop's export of the same collection -/

theorem resolveConflictPath_found {disk : Disk} {folder : PathBuf} {name : Text} {k : Nat}
    (hname : IsFileName name) (hone : 1 ≤ k) (hmax : k ≤ 9999)
    (hfree : disk.find (fileIn folder (desktopName name k)) = none)
    (hbefore : ∀ j, 1 ≤ j → j < k → disk.exists_ (fileIn folder (desktopName name j)) = true) :
    resolveConflictPath disk (fileIn folder name) = .ok (fileIn folder (desktopName name k)) := by
  obtain ⟨stem, hstem, hsub⟩ := fileStem_some name
  have hcandidate : ∀ index, folder ++ components (candidateName name stem (extension name) index) =
      fileIn folder (desktopName name index) := by
    intro index
    rw [components_of_isFileName (candidateName_isFileName hname hsub index), desktopName, hstem]
    rfl
  have hfind : (conflictIndices.find? fun index =>
      !disk.exists_ (fileIn folder (desktopName name index))) = some k := by
    rw [conflictIndices, List.find?_range'_eq_some]
    refine ⟨?_, ?_, ?_⟩
    · rw [FileTree.not_exists_iff.mpr hfree]
      rfl
    · rw [List.mem_range'_1]
      omega
    · intro j hj hlt
      rw [hbefore j hj hlt]
      rfl
  simp only [resolveConflictPath, parentPath_fileIn, fileName_fileIn, Option.bind_some, OsStr.toStr,
    hstem, hcandidate, hfind]

/-- A conflict of the desktop as the browser reports it: the names without their folders. -/
def shownConflict (conflict : ExportConflict) : WebWriteConflict :=
  ⟨utf16 (((fileName conflict.original).bind OsStr.toStr).getD []),
    utf16 (((fileName conflict.resolved).bind OsStr.toStr).getD [])⟩

theorem shownConflict_fileIn (folder : PathBuf) (name resolved : Text) :
    shownConflict ⟨fileIn folder name, fileIn folder resolved⟩ = ⟨utf16 name, utf16 resolved⟩ := by
  simp only [shownConflict, fileName_fileIn, Option.bind_some, OsStr.toStr, Option.getD_some]

theorem exportTarget_agrees {name last : Text} {outputDir folder : PathBuf} {disk : Disk} {k : Nat}
    (haccepted : Accepted name) (hlast : ValidComponent last)
    (hdesired : desiredPath outputDir name = fileIn folder last) (hmax : k < 9999)
    (hfree : disk.find (fileIn folder (if k = 0 then last else desktopName last k)) = none)
    (htaken : ∀ j < k, disk.exists_
      (fileIn folder (if j = 0 then last else desktopName last j)) = true) :
    ∃ conflict, exportTarget disk outputDir name =
        .ok (fileIn folder (if k = 0 then last else desktopName last k), conflict) ∧
      conflict.map shownConflict = conflictAt (utf16 last) k := by
  obtain ⟨desired, hpath⟩ := getExportPath_ok.mpr haccepted
  obtain ⟨rfl, -⟩ := getExportPath_eq hpath
  rw [exportTarget, hpath]
  dsimp only
  rw [hdesired]
  by_cases hk : k = 0
  · rw [if_pos hk] at hfree ⊢
    rw [if_neg (by rw [FileTree.not_exists_iff.mpr hfree]; exact Bool.false_ne_true)]
    refine ⟨none, rfl, ?_⟩
    rw [conflictAt, if_pos hk]
    rfl
  · rw [if_neg hk] at hfree ⊢
    have hexists := htaken 0 (by omega)
    rw [if_pos rfl] at hexists
    have hresolved := resolveConflictPath_found hlast.isFileName (by omega) (by omega) hfree
      fun j hone hlt => by
        have hj := htaken j hlt
        rwa [if_neg (by omega)] at hj
    rw [if_pos hexists, hresolved]
    refine ⟨_, rfl, ?_⟩
    rw [Option.map_some, shownConflict_fileIn, conflictAt, if_neg hk,
      webLabel_desktop hlast.notDotDot (by omega)]

/-- Where the browser has saved an entry's file, the desktop exports the entry with the same result. -/
theorem exportEntry_agrees {env : Environment} (henv : env.Reliable) (i : Nat) {name : Text}
    {bytes : Bytes} {outputDir : PathBuf} {tree tree' : WebDirectory} {disk : Disk} {k : Nat}
    (haccepted : Accepted name) (hdir : disk.find outputDir = some .folder)
    (hshown : Shown outputDir tree disk)
    (hchosen : Chosen tree (folderOf (receivedFile (name, bytes)))
      (nameOf (receivedFile (name, bytes))) k)
    (hmirrored : Mirrored [(target (receivedFile (name, bytes)) k, bytes)] tree tree') :
    ∃ conflict disk', exportEntry env outputDir i name bytes disk = (.ok conflict, disk') ∧
      conflict.map shownConflict = conflictAt (nameOf (receivedFile (name, bytes))) k ∧
      disk'.find outputDir = some .folder ∧ Shown outputDir tree' disk' := by
  obtain ⟨front, last, hsplit, hlast, hfolder, hname⟩ := split_of_accepted haccepted bytes
  have hnumbered : ∀ j, numberedIn front (utf16 last) j =
      front ++ [if j = 0 then last else desktopName last j] := by
    intro j
    rw [numberedIn]
    by_cases hj : j = 0
    · rw [if_pos hj, hj, webLabel, if_pos rfl, JsString.scalars_utf16]
    · rw [if_neg hj, webLabel_desktop hlast.notDotDot (by omega), JsString.scalars_utf16]
  have hfound : ∀ j, disk.find (fileIn (seenAs outputDir front)
      (if j = 0 then last else desktopName last j)) = tree.find (numberedIn front (utf16 last) j) := by
    intro j
    rw [hnumbered, ← hshown, seenAs_append]
  rw [target, hfolder, hname] at hmirrored
  rw [hfolder, hname] at hchosen
  rw [hname]
  have hfree := hchosen.free
  rw [← hfound] at hfree
  have hdesired : desiredPath outputDir name = fileIn (seenAs outputDir front) last := by
    rw [desiredPath, hsplit, ← seenAs_append]
    rfl
  have htaken : ∀ j < k, disk.exists_ (fileIn (seenAs outputDir front)
      (if j = 0 then last else desktopName last j)) = true := by
    intro j hj
    obtain ⟨content, hfile⟩ := isFile_iff.mp (hchosen.taken j hj)
    rw [← hfound] at hfile
    exact FileTree.exists_of_find hfile
  obtain ⟨conflict, htarget, hconflict⟩ :=
    exportTarget_agrees haccepted hlast hdesired hchosen.bound hfree htaken
  -- what is on the way to the target is a folder afterwards, so it is no file now
  have hway : ∀ above, above <+: seenAs outputDir front → disk.isFile above = false := by
    intro above habove
    rw [isFile_eq_false_iff]
    intro content hfile
    rcases List.prefix_or_prefix_of_prefix habove (List.prefix_append outputDir _) with hpre | hpre
    · by_cases heq : above = outputDir
      · rw [heq, hdir] at hfile
        cases hfile
      · rw [disk.find_of_prefix (by rw [hdir]; exact Option.some_ne_none _) hpre heq] at hfile
        cases hfile
    · obtain ⟨rest, rfl⟩ := hpre
      rw [seenAs, List.prefix_append_right_inj, List.prefix_iff_eq_take, ← List.map_take] at habove
      rw [habove] at hfile
      have hold : tree.find (front.take rest.length) = some (.file content) := by
        rw [← hshown]
        exact hfile
      have hnew := (hmirrored.folders (front.take rest.length)).mpr (Or.inr
        ⟨_, List.mem_singleton.mpr rfl, (strictlyBelow_iff (by simp [numberedIn])).mpr
          (by rw [numberedIn, List.dropLast_concat]; exact List.take_prefix _ _)⟩)
      rw [hmirrored.keeps hold] at hnew
      cases hnew
  obtain ⟨disk', hentry, harrived⟩ :=
    exportEntry_mirrored henv i bytes (top_folder hdir) htarget hfree hway
  refine ⟨conflict, disk', hentry, hconflict, harrived.keeps hdir, ?_⟩
  rw [hnumbered] at hmirrored
  rw [← seenAs_append] at harrived
  exact hshown.mirrored hmirrored harrived

theorem exportEntries_agrees {browser : Browser} (hprobe : browser.Probes) {env : Environment}
    (henv : env.Reliable) {collection : List (Text × Bytes)}
    (haccepted : ∀ entry ∈ collection, Accepted entry.1) (i j : Nat) {outputDir : PathBuf}
    {tree tree' : WebDirectory} {disk : Disk} {conflicts : List WebWriteConflict}
    (hdir : disk.find outputDir = some .folder) (hshown : Shown outputDir tree disk)
    (htop : tree.find [] = some .folder)
    (hsaved : writeCollectionToDirectory browser i (collection.map receivedFile) tree =
      (.ok conflicts, tree')) :
    ∃ exported disk', exportEntries env outputDir j collection disk = (.ok exported, disk') ∧
      exported.map shownConflict = conflicts ∧ Shown outputDir tree' disk' := by
  induction collection generalizing i j tree disk conflicts with
  | nil =>
    obtain ⟨hconflicts, rfl⟩ := Prod.mk.inj hsaved
    obtain rfl := Except.ok.inj hconflicts
    exact ⟨[], disk, rfl, rfl, hshown⟩
  | cons entry collection ih =>
    obtain ⟨name, bytes⟩ := entry
    rw [List.forall_mem_cons] at haccepted
    have hfirst := writeFile_saved hprobe i (receivedFile (name, bytes)) htop
    rw [List.map_cons, writeCollectionToDirectory] at hsaved
    generalize writeFile browser i (receivedFile (name, bytes)) tree = first at hfirst hsaved
    cases hfirst with
    | left e tree₁ hleft =>
      cases (Prod.mk.inj hsaved).1
    | saved k tree₁ hchosen hmirrored =>
      obtain ⟨conflict, disk₁, hentry, hconflict, hdir₁, hshown₁⟩ :=
        exportEntry_agrees henv j haccepted.1 hdir hshown hchosen hmirrored
      dsimp only at hsaved
      cases hrest : writeCollectionToDirectory browser (i + 1) (collection.map receivedFile)
          tree₁ with
      | mk r tree₂ =>
        rw [hrest] at hsaved
        cases r with
        | error e => cases (Prod.mk.inj hsaved).1
        | ok rest =>
          obtain ⟨hconflicts, rfl⟩ := Prod.mk.inj hsaved
          obtain ⟨exported, disk', hexport, hmap, hshown'⟩ :=
            ih haccepted.2 (i + 1) (j + 1) hdir₁ hshown₁ (hmirrored.keeps htop) hrest
          refine ⟨conflict.toList ++ exported, disk', ?_, ?_, hshown'⟩
          · rw [exportEntries, hentry]
            dsimp only
            rw [hexport]
          · rw [← Except.ok.inj hconflicts, List.map_append, hmap, ← hconflict]
            cases conflict <;> rfl

theorem exportBytes_ok {reads : Nat → Option String} {collection files : List (Text × Bytes)}
    {i : Nat} (h : exportBytes reads i collection = .ok files) :
    files = collection ∧ ∀ entry ∈ collection, Accepted entry.1 := by
  induction collection generalizing i files with
  | nil =>
    obtain rfl := Except.ok.inj h
    exact ⟨rfl, by simp⟩
  | cons entry collection ih =>
    obtain ⟨name, bytes⟩ := entry
    rw [exportBytes] at h
    cases hvalid : validateCollectionPath name with
    | error e =>
      rw [hvalid] at h
      cases h
    | ok u =>
      rw [hvalid] at h
      simp only [bind, Except.bind] at h
      cases hread : reads i with
      | some cause =>
        rw [hread] at h
        cases h
      | none =>
        rw [hread] at h
        cases hrest : exportBytes reads (i + 1) collection with
        | error e =>
          simp only [hrest] at h
          cases h
        | ok rest =>
          simp only [hrest] at h
          obtain rfl := Except.ok.inj h
          obtain ⟨rfl, haccepted⟩ := ih hrest
          refine ⟨rfl, ?_⟩
          rw [List.forall_mem_cons]
          exact ⟨validateCollectionPath_ok.mp hvalid, haccepted⟩

theorem exportCollectionBytes_ok {reads : Nat → Option String}
    {collection files : List (Text × Bytes)}
    (h : exportCollectionBytes reads collection = .ok files) :
    files = collection ∧ ∀ entry ∈ collection, Accepted entry.1 := by
  rw [exportCollectionBytes] at h
  cases hexport : exportBytes reads 0 collection with
  | error e =>
    rw [hexport] at h
    cases h
  | ok found =>
    rw [hexport] at h
    simp only [bind, Except.bind] at h
    cases hnonempty : (ensure (found ≠ []) "collection is empty" : Except String Unit) with
    | error e =>
      rw [hnonempty] at h
      cases h
    | ok u =>
      rw [hnonempty] at h
      obtain rfl := Except.ok.inj h
      exact exportBytes_ok hexport

/-- The one file without folders is saved as the loop would save it. -/
theorem saveInDirectory_accepted {browser : Browser} {collection : List (Text × Bytes)}
    (haccepted : ∀ entry ∈ collection, Accepted entry.1) {tree tree' : WebDirectory}
    {conflicts : List WebWriteConflict}
    (h : saveInDirectory browser (collection.map receivedFile) tree = (.ok conflicts, tree')) :
    writeCollectionToDirectory browser 0 (collection.map receivedFile) tree =
      (.ok conflicts, tree') := by
  rw [saveInDirectory] at h
  cases hsimple : simpleSingleFile (collection.map receivedFile) with
  | none =>
    rw [hsimple] at h
    exact h
  | some file =>
    rw [hsimple] at h
    obtain ⟨hfiles, hfolder, hname⟩ := simpleSingleFile_some hsimple
    obtain ⟨entry, rfl, rfl⟩ := List.map_eq_singleton_iff.mp hfiles
    have hne : pathParts (receivedFile entry).name ≠ [] := by
      show pathParts (utf16 entry.1) ≠ []
      rw [pathParts_of_accepted (haccepted entry (List.mem_singleton.mpr rfl)), ne_eq,
        List.map_eq_nil_iff]
      exact List.splitOn_ne_nil _ _
    have hlast : (pathParts (receivedFile entry).name).getLast? =
        some (nameOf (receivedFile entry)) := by
      rw [nameOf, List.getLastD_eq_getLast?, List.getLast?_eq_some_getLast hne, Option.getD_some]
    have hdrop : (pathParts (receivedFile entry).name).dropLast = [] :=
      List.map_eq_nil_iff.mp hfolder
    dsimp only at h
    rw [hname] at h
    rw [List.map_singleton, writeCollectionToDirectory, writeFile, getDirectoryForRelativePath,
      pathParts_normalizedPath, hlast, hdrop, openDirectory]
    dsimp only
    generalize writeBytesToDirectory browser 0 [] (nameOf (receivedFile entry))
      (receivedFile entry).bytes tree = outcome at h
    obtain ⟨r, tree₁⟩ := outcome
    cases r with
    | error e => cases (Prod.mk.inj h).1
    | ok conflict =>
      obtain ⟨hconflict, rfl⟩ := Prod.mk.inj h
      obtain rfl := Except.ok.inj hconflict
      simp only [writeCollectionToDirectory, List.append_nil]

/-- A collection whose names the engine accepts is saved in a browser's directory. Then the desktop's
export into a folder that looks the same, with a system and a store that refuse nothing, succeeds too:
it renames the same files in the same way, and the folder looks the same again. -/
theorem web_save_agrees {browser : Browser} (hprobe : browser.Probes) {env : Environment}
    (henv : env.Reliable) {reads : Nat → Option String} {collection files : List (Text × Bytes)}
    (hread : exportCollectionBytes reads collection = .ok files) {outputDir : PathBuf}
    {tree tree' : WebDirectory} {disk : Disk} (hdir : disk.find outputDir = some .folder)
    (hshown : Shown outputDir tree disk) {conflicts : List WebWriteConflict}
    (hsaved : writeReceivedCollection browser (some tree) (files.map receivedFile) =
      ⟨.ok ⟨true, false, conflicts⟩, some tree', []⟩) :
    ∃ exported disk', exportToDirectory env disk collection outputDir = (.ok exported, disk') ∧
      exported.map shownConflict = conflicts ∧ Shown outputDir tree' disk' := by
  obtain ⟨rfl, haccepted⟩ := exportCollectionBytes_ok hread
  have htop : tree.find [] = some .folder := by
    rw [← hshown, seenAs, List.map_nil, List.append_nil]
    exact hdir
  have hloop : saveInDirectory browser (files.map receivedFile) tree = (.ok conflicts, tree') := by
    have houtcome := writeReceivedCollection_outcome browser tree (files.map receivedFile)
    rw [hsaved] at houtcome
    cases houtcome with
    | delivered _ _ heq => exact heq
  exact exportEntries_agrees hprobe henv haccepted 0 0 hdir hshown htop
    (saveInDirectory_accepted haccepted hloop)

theorem shown_empty : Shown [.rootDir] emptyDirectory emptyDisk := by
  intro path
  cases path with
  | nil => rfl
  | cons part path => rfl

/-- The second is saved as `a (1)` on both sides. -/
theorem web_save_agrees_twoOfAName :
    ∃ exported disk', exportToDirectory .reliable emptyDisk [(['a'], [1]), (['a'], [2])] [.rootDir] =
        (.ok exported, disk') ∧
      exported.map shownConflict = [⟨utf16 ['a'], utf16 ['a', ' ', '(', '1', ')']⟩] ∧
      Shown [.rootDir] (saveInDirectory .granting twoOfAName emptyDirectory).2 disk' :=
  @web_save_agrees .granting (fun _ _ => rfl) .reliable ⟨fun _ _ => rfl, fun _ => rfl⟩ (fun _ => none)
    [(['a'], [1]), (['a'], [2])] _ rfl [.rootDir] emptyDirectory _ emptyDisk rfl shown_empty _ rfl

end DashBeam.Collection.WebSave
