import DashBeam.Collection.ExportDirectory
import DashBeam.Collection.Walk

/-!
# A share arrives as it was sent

The import turns what was selected into a list of names with bytes, the export turns such a list
into files. They meet at the files that were selected, each with its path below the selection
(`sharedFiles`): the collection is these with their paths joined (`importPaths_shareable`), and a
list of accepted names none of which stands in the way of another is written out without a conflict
(`exportEntries_clear`). So what was selected is there again below the output directory, with the
folders it lay in, and nothing else is new (`share_round_trip`).
-/

namespace DashBeam.Collection

open Lib
open Lib.FileTree (Mirrored)

/-! ## What is selected -/

/-- The regular files that a selected path brings, with their paths below its name. -/
def broughtFiles (fs : FileSystem) (path : PathBuf) : List (List OsStr × FileData) :=
  match fs.node path with
  | some (.file data) => [([.text (stem path)], data)]
  | some (.directory dir) => dir.entries.filterMap fun entry =>
    match entry.kind with
    | .file data => some (.text (stem path) :: entry.rel, data)
    | _ => none
  | _ => []

def FileData.bytes (data : FileData) : Bytes :=
  match data.added with
  | .ok bytes => bytes
  | .error _ => []

def sharedFiles (fs : FileSystem) (paths : List PathBuf) : List (List OsStr × Bytes) :=
  paths.flatMap fun path => (broughtFiles fs path).map fun file => (file.1, file.2.bytes)

/-- A part of a path that the other side accepts as well. -/
def Portable (name : OsStr) : Prop := ∃ s, name = .text s ∧ '/' ∉ s ∧ '\\' ∉ s ∧ ':' ∉ s

theorem Portable.transferable {name : OsStr} (h : Portable name) : Transferable name := by
  obtain ⟨s, hname, hslash, hback, -⟩ := h
  exact ⟨s, hname, hslash, hback⟩

/-- Files and directories under distinct names, with at least one regular file, all of which are
readable and portable. -/
structure Shareable (fs : FileSystem) (paths : List PathBuf) : Prop where
  nodes : ∀ path ∈ paths, ∃ node, fs.node path = some node ∧ node ≠ .other
  named : (paths.map stem).Nodup
  portable : ∀ path ∈ paths, ∀ file ∈ broughtFiles fs path, ∀ name ∈ file.1, Portable name
  readable : ∀ path ∈ paths, ∀ file ∈ broughtFiles fs path, ∃ bytes, file.2.added = .ok bytes
  nonempty : sharedFiles fs paths ≠ []

theorem selectedFiles_eq (fs : FileSystem) (path : PathBuf) :
    selectedFiles fs path = (broughtFiles fs path).map Prod.fst := by
  rw [selectedFiles, broughtFiles]
  cases fs.node path with
  | none => rfl
  | some node =>
    cases node with
    | file data => rfl
    | other => rfl
    | directory dir =>
      simp only [List.map_filterMap]
      congr 1
      funext entry
      cases entry.kind <;> rfl

theorem head_of_brought {fs : FileSystem} {path : PathBuf} {file : List OsStr × FileData}
    (h : file ∈ broughtFiles fs path) : ∃ rel, file.1 = .text (stem path) :: rel := by
  rw [broughtFiles] at h
  cases hnode : fs.node path with
  | none =>
    rw [hnode] at h
    exact absurd h List.not_mem_nil
  | some node =>
    rw [hnode] at h
    cases node with
    | other => exact absurd h List.not_mem_nil
    | file data =>
      obtain rfl := List.mem_singleton.mp h
      exact ⟨[], rfl⟩
    | directory dir =>
      obtain ⟨entry, -, hfile⟩ := List.mem_filterMap.mp h
      cases hkind : entry.kind with
      | file data =>
        simp only [hkind, Option.some.injEq] at hfile
        exact ⟨entry.rel, by rw [← hfile]⟩
      | directory | other | inaccessible =>
        simp only [hkind] at hfile
        cases hfile

/-- No file of a directory is another, or a folder on the way to another. -/
theorem apart_brought (fs : FileSystem) (path : PathBuf) :
    (broughtFiles fs path).Pairwise fun file other => Apart file.1 other.1 := by
  rw [broughtFiles]
  split
  · exact List.pairwise_singleton _ _
  · rename_i dir _
    have hdistinct : dir.entries.Pairwise fun entry other => entry.rel ≠ other.rel :=
      List.pairwise_map.mp dir.nodup
    rw [List.pairwise_filterMap]
    apply hdistinct.imp_of_mem
    intro entry other hentry hother hne file hfile file' hfile'
    cases hkind : entry.kind with
    | file data =>
      cases hkind' : other.kind with
      | file data' =>
        simp only [hkind, Option.some.injEq] at hfile
        simp only [hkind', Option.some.injEq] at hfile'
        rw [← hfile, ← hfile', apart_cons]
        constructor
        · intro hpre
          exact hne ((dir.leaf entry hentry data hkind).2 other hother hpre).symm
        · intro hpre
          exact hne ((dir.leaf other hother data' hkind').2 entry hentry hpre)
      | _ =>
        simp only [hkind'] at hfile'
        cases hfile'
    | _ =>
      simp only [hkind] at hfile
      cases hfile
  · exact List.Pairwise.nil

theorem mem_sharedFiles {fs : FileSystem} {paths : List PathBuf} {file : List OsStr × Bytes} :
    file ∈ sharedFiles fs paths ↔
      ∃ path ∈ paths, ∃ data, (file.1, data) ∈ broughtFiles fs path ∧ file.2 = data.bytes := by
  simp only [sharedFiles, List.mem_flatMap, List.mem_map, Prod.exists]
  constructor
  · rintro ⟨path, hpath, rel, data, hmem, rfl⟩
    exact ⟨path, hpath, data, hmem, rfl⟩
  · rintro ⟨path, hpath, data, hmem, hbytes⟩
    exact ⟨path, hpath, file.1, data, hmem, Prod.ext rfl hbytes.symm⟩

namespace Shareable

variable {fs : FileSystem} {paths : List PathBuf}

/-- Nor is any file of a share, as what different paths bring lies below different names. -/
theorem apart (h : Shareable fs paths) :
    (sharedFiles fs paths).Pairwise fun file other => Apart file.1 other.1 := by
  rw [sharedFiles, List.pairwise_flatMap]
  constructor
  · intro path _
    rw [List.pairwise_map]
    exact apart_brought fs path
  · apply (List.pairwise_map.mp h.named).imp
    intro path other hne file hfile file' hfile'
    obtain ⟨brought, hbrought, rfl⟩ := List.mem_map.mp hfile
    obtain ⟨brought', hbrought', rfl⟩ := List.mem_map.mp hfile'
    obtain ⟨rel, hrel⟩ := head_of_brought hbrought
    obtain ⟨rel', hrel'⟩ := head_of_brought hbrought'
    show Apart brought.1 brought'.1
    rw [hrel, hrel']
    exact apart_of_head (fun heq => hne (OsStr.text.inj heq)) rel rel'

theorem parts (h : Shareable fs paths) {file : List OsStr × Bytes}
    (hfile : file ∈ sharedFiles fs paths) :
    ∃ parts : List Text, file.1 = parts.map .text ∧ parts ≠ [] ∧
      ∀ part ∈ parts, ValidComponent part := by
  obtain ⟨path, hpath, data, hmem, -⟩ := mem_sharedFiles.mp hfile
  have hportable := h.portable path hpath _ hmem
  obtain ⟨node, hnode, -⟩ := h.nodes path hpath
  have hstem : IsFileName (stem path) := stem_isFileName (by rw [hnode]; rfl)
  have hselected : file.1 ∈ selectedFiles fs path := by
    rw [selectedFiles_eq]
    exact List.mem_map.mpr ⟨_, hmem, rfl⟩
  obtain ⟨hne, hnames⟩ := selectedFiles_isFileName hstem hselected
  obtain ⟨parts, hrel, -, -⟩ :=
    filterMap_toStr_transferable fun name hname => (hportable name hname).transferable
  change file.1 = _ at hrel
  refine ⟨parts, hrel, ?_, ?_⟩
  · rintro rfl
    exact hne hrel
  · intro part hpart
    have hin : OsStr.text part ∈ file.1 := by
      rw [hrel]
      exact List.mem_map_of_mem hpart
    obtain ⟨s, hs, -, hback, hcolon⟩ := hportable _ hin
    obtain rfl := OsStr.text.inj hs
    exact (validComponent_iff (hnames part hin) hback).mpr hcolon

theorem rel_transferable (h : Shareable fs paths) {file : List OsStr × Bytes}
    (hfile : file ∈ sharedFiles fs paths) :
    file.1 ≠ [] ∧ ∀ name ∈ file.1, Transferable name := by
  obtain ⟨parts, hrel, hne, hvalid⟩ := h.parts hfile
  rw [hrel]
  refine ⟨fun hnil => hne (List.map_eq_nil_iff.mp hnil), ?_⟩
  intro name hname
  obtain ⟨part, hpart, rfl⟩ := List.mem_map.mp hname
  exact ⟨part, rfl, (hvalid part hpart).noSlash, (hvalid part hpart).noBackslash⟩

theorem nodup_names (h : Shareable fs paths) :
    ((sharedFiles fs paths).map fun file => joined file.1).Nodup := by
  rw [List.Nodup, List.pairwise_map]
  apply h.apart.imp_of_mem
  intro file other hfile hother hapart heq
  obtain ⟨hne, hrel⟩ := h.rel_transferable hfile
  obtain ⟨hne', hrel'⟩ := h.rel_transferable hother
  have hsame := joined_inj hne hne' hrel hrel' heq
  apply hapart.1
  rw [hsame]

end Shareable

/-! ## The import -/

/-- What a selected file becomes in the store. -/
def storedEntry (file : List OsStr × Bytes) : Entry := ⟨joined file.1, file.2, file.2.length⟩

theorem collectPathFiles_brought {fs : FileSystem} {path : PathBuf} {node : Node}
    (hnode : fs.node path = some node) (hother : node ≠ .other)
    (h : ∀ file ∈ broughtFiles fs path, ∀ name ∈ file.1, Transferable name) :
    collectPathFiles fs path (stem path) =
      .ok ((broughtFiles fs path).map fun file => (joined file.1, file.2)) := by
  have hstem : IsFileName (stem path) := stem_isFileName (by rw [hnode]; rfl)
  rw [broughtFiles, hnode] at h
  rw [collectPathFiles, broughtFiles, hnode]
  cases node with
  | other => exact absurd rfl hother
  | file data =>
    have hsafe := canonicalizedPathToString_of_transferable
      (h ([.text (stem path)], data) (List.mem_singleton.mpr rfl))
    simp only [List.map_cons, List.map_nil] at hsafe
    simp only [components_of_isFileName hstem, hsafe]
    rfl
  | directory dir =>
    have hentries : ∀ entry ∈ dir.entries, ∀ data, entry.kind = .file data →
        ∀ name ∈ OsStr.text (stem path) :: entry.rel, Transferable name := by
      intro entry hentry data hkind
      refine h (.text (stem path) :: entry.rel, data) ?_
      apply List.mem_filterMap.mpr
      exact ⟨entry, hentry, by rw [hkind]⟩
    simp only [collectEntries_brought hstem hentries, List.map_filterMap]
    congr 2
    funext entry
    rw [collectedAs]
    cases entry.kind <;> rfl

theorem mapM_id_of_ok {results : List (Except ImportError Entry)}
    (h : ∀ result ∈ results, ∃ entry, result = .ok entry) :
    results.mapM id = .ok (results.filterMap Except.toOption) := by
  induction results with
  | nil => rfl
  | cons result results ih =>
    rw [List.forall_mem_cons] at h
    obtain ⟨entry, rfl⟩ := h.1
    rw [List.mapM_cons, ih h.2]
    rfl

theorem stored_of_readable (completion : Completion) (i : Nat)
    {files : List (List OsStr × FileData)}
    (h : ∀ file ∈ files, ∃ bytes, file.2.added = .ok bytes) :
    ∃ entries, (completion.order i ((files.map fun file => (joined file.1, file.2)).map
      addFile)).mapM id = .ok entries ∧
      entries.Perm (files.map fun file => storedEntry (file.1, file.2.bytes)) := by
  have hadded : (files.map fun file => (joined file.1, file.2)).map addFile =
      (files.map fun file => storedEntry (file.1, file.2.bytes)).map Except.ok := by
    rw [List.map_map, List.map_map]
    apply List.map_congr_left
    intro file hfile
    obtain ⟨bytes, hbytes⟩ := h file hfile
    simp only [Function.comp_apply, addFile, storedEntry, FileData.bytes, hbytes]
  rw [hadded]
  generalize files.map (fun file => storedEntry (file.1, file.2.bytes)) = stored
  have hperm := completion.perm i (stored.map Except.ok)
  generalize completion.order i (stored.map Except.ok) = results at hperm
  refine ⟨results.filterMap Except.toOption, ?_, ?_⟩
  · apply mapM_id_of_ok
    intro result hresult
    obtain ⟨entry, -, hentry⟩ := List.mem_map.mp (hperm.mem_iff.mp hresult)
    exact ⟨entry, hentry.symm⟩
  · have hstored := hperm.filterMap Except.toOption
    rw [List.filterMap_map] at hstored
    have hsome : (stored.filterMap ((Except.toOption : Except ImportError Entry → Option Entry) ∘
        Except.ok)) = stored := by
      show stored.filterMap some = stored
      exact List.filterMap_some
    rwa [hsome] at hstored

theorem importLoop_brought (completion : Completion) {fs : FileSystem} {paths : List PathBuf}
    (hnodes : ∀ path ∈ paths, ∃ node, fs.node path = some node ∧ node ≠ .other)
    (hnames : ∀ path ∈ paths, ∀ file ∈ broughtFiles fs path, ∀ name ∈ file.1, Transferable name)
    (hreadable : ∀ path ∈ paths, ∀ file ∈ broughtFiles fs path, ∃ bytes, file.2.added = .ok bytes)
    (i : Nat) (seen : Map Text Nat) :
    ∃ raw : List Entry, raw.Perm ((sharedFiles fs paths).map storedEntry) ∧
      importLoop completion fs i seen paths =
        .ok (List.zipWith (fun (entry : Entry) name => { entry with name := name }) raw
          (dedupAll Native.dedupName seen (raw.map Entry.name)).1) := by
  induction paths generalizing i seen with
  | nil => exact ⟨[], List.Perm.refl _, rfl⟩
  | cons path paths ih =>
    rw [List.forall_mem_cons] at hnodes hnames hreadable
    obtain ⟨node, hnode, hother⟩ := hnodes.1
    obtain ⟨first, hfirst, hperm⟩ := stored_of_readable completion i hreadable.1
    obtain ⟨rest, hrest, hloop⟩ := ih hnodes.2 hnames.2 hreadable.2 (i + 1)
      (dedupAll Native.dedupName seen (first.map Entry.name)).2
    refine ⟨first ++ rest, ?_, ?_⟩
    · rw [sharedFiles, List.flatMap_cons, List.map_append, List.map_map]
      exact hperm.append hrest
    · have hlength : first.length =
          (dedupAll Native.dedupName seen (first.map Entry.name)).1.length := by
        rw [length_dedupAll, List.length_map]
      rw [importLoop, collectPathFiles_brought hnode hother hnames.1]
      simp only [bind, Except.bind, hfirst, hloop, pure, Except.pure]
      rw [List.map_append, dedupAll_append, List.zipWith_append hlength]

theorem zipWith_own_names (entries : List Entry) :
    List.zipWith (fun (entry : Entry) name => { entry with name := name }) entries
      (entries.map Entry.name) = entries := by
  rw [List.zipWith_map_right]
  induction entries with
  | nil => rfl
  | cons entry entries ih => rw [List.zipWith_cons_cons, ih]

theorem importPaths_shareable {fs : FileSystem} {paths : List PathBuf} (h : Shareable fs paths)
    (completion : Completion) :
    ∃ collection, importPaths completion fs paths =
        .ok (((sharedFiles fs paths).map fun file => file.2.length).sum, collection) ∧
      collection.Perm ((sharedFiles fs paths).map fun file => (joined file.1, file.2)) := by
  have hnames : ∀ path ∈ paths, ∀ file ∈ broughtFiles fs path, ∀ name ∈ file.1,
      Transferable name := fun path hpath file hfile name hname =>
    (h.portable path hpath file hfile name hname).transferable
  obtain ⟨raw, hperm, hloop⟩ := importLoop_brought completion h.nodes hnames h.readable 0 ∅
  -- the names are distinct, so each file keeps its own
  have hown : (dedupAll Native.dedupName ∅ (raw.map Entry.name)).1 = raw.map Entry.name := by
    have hnodup : (raw.map Entry.name).Nodup := by
      rw [(hperm.map Entry.name).nodup_iff, List.map_map]
      exact h.nodup_names
    show dedupNames dedupNameBody (raw.map Entry.name) = _
    rw [dedupNames_engine, numbered_of_nodup engineLabel_labels hnodup]
  rw [hown, zipWith_own_names] at hloop
  have hsorted := (List.perm_insertionSort (fun a b : Entry => a.name ≤ b.name) raw).trans hperm
  rw [importPaths, hloop]
  simp only [bind, Except.bind]
  generalize raw.insertionSort (fun a b => a.name ≤ b.name) = sorted at hsorted
  have hne : sorted ≠ [] := by
    rintro rfl
    have hnil := List.map_eq_nil_iff.mp (List.nil_perm.mp hsorted)
    exact h.nonempty hnil
  refine ⟨sorted.map fun entry => (entry.name, entry.blob), ?_, ?_⟩
  · have hsizes := (hsorted.map Entry.size).sum_eq
    rw [List.map_map] at hsizes
    rw [if_neg hne, hsizes]
    rfl
  · have hentries := hsorted.map fun entry => (entry.name, entry.blob)
    rwa [List.map_map] at hentries

/-! ## The export -/

/-- A system and a store that refuse nothing. -/
structure Environment.Reliable (env : Environment) : Prop where
  refused : ∀ i path, env.refused i path = none
  exported : ∀ i, env.exported i = .done

/-- Nothing is at a path, and no file is on the way to it. -/
structure Clear (disk : Disk) (path : PathBuf) : Prop where
  free : disk.find path = none
  way : ∀ above, above <+: path → disk.isFile above = false

theorem isFile_eq_false_iff {disk : Disk} {path : PathBuf} :
    disk.isFile path = false ↔ ∀ content, disk.find path ≠ some (.file content) := by
  rw [FileTree.isFile]
  split
  · rename_i content hfind
    rw [hfind]
    simp
  · rename_i hnot
    simpa using hnot

theorem Clear.of_mirrored {target path : PathBuf} {bytes : Bytes} {disk disk' : Disk}
    (hclear : Clear disk path) (h : Mirrored [(target, bytes)] disk disk')
    (hapart : Apart target path) : Clear disk' path := by
  constructor
  · by_contra hthere
    obtain ⟨node, hnode⟩ := Option.ne_none_iff_exists'.mp hthere
    cases node with
    | file content =>
      rcases (h.files path content).mp hnode with hold | hnew
      · rw [hclear.free] at hold
        cases hold
      · obtain ⟨rfl, -⟩ := Prod.mk.inj (List.mem_singleton.mp hnew)
        exact hapart.1 (List.prefix_refl _)
    | folder =>
      rcases (h.folders path).mp hnode with hold | ⟨file, hfile, hpre, -⟩
      · rw [hclear.free] at hold
        cases hold
      · obtain rfl := List.mem_singleton.mp hfile
        exact hapart.2 hpre
  · intro above habove
    rw [isFile_eq_false_iff]
    intro content hfile
    rcases (h.files above content).mp hfile with hold | hnew
    · exact isFile_eq_false_iff.mp (hclear.way above habove) content hold
    · obtain ⟨rfl, -⟩ := Prod.mk.inj (List.mem_singleton.mp hnew)
      exact hapart.1 habove

theorem exportEntry_mirrored {env : Environment} (henv : env.Reliable) (i : Nat) {name last : Text}
    (bytes : Bytes) {outputDir folder : PathBuf} {disk : Disk} {conflict : Option ExportConflict}
    (htop : disk.find [] = some .folder)
    (htarget : exportTarget disk outputDir name = .ok (fileIn folder last, conflict))
    (hfree : disk.find (fileIn folder last) = none)
    (hway : ∀ above, above <+: folder → disk.isFile above = false) :
    ∃ disk', exportEntry env outputDir i name bytes disk = (.ok conflict, disk') ∧
      Mirrored [(fileIn folder last, bytes)] disk disk' := by
  have hreliable : env.refused i = fun _ => none := funext (henv.refused i)
  have hmade := FileTree.createDirAll_ok folder disk htop hway
  have hgrowth := FileTree.createDirAll_growth (env.refused i) disk folder htop
  rw [hreliable] at hgrowth
  rw [exportEntry, htarget]
  dsimp only
  rw [createParent, parentPath_fileIn]
  dsimp only
  rw [hreliable]
  generalize disk.createDirAll (fun _ => none) folder = made at hmade hgrowth
  obtain ⟨r, disk₁⟩ := made
  obtain rfl : r = .ok () := hmade
  obtain ⟨hgrowth, hfolder⟩ := hgrowth
  have hput : disk₁.CanPut (fileIn folder last) := by
    refine ⟨List.append_ne_nil_of_right_ne_nil _ (List.cons_ne_nil _ _), ?_, ?_⟩
    · rw [dropLast_fileIn]
      exact FileTree.isFolder_iff.mpr (hfolder rfl)
    · rw [← Bool.not_eq_true, FileTree.isFolder_iff]
      intro hthere
      rcases hgrowth.adds _ _ hthere with hold | ⟨-, hpre⟩
      · rw [hfree] at hold
        cases hold
      · have hlength := hpre.length_le
        rw [fileIn, List.length_append, List.length_singleton] at hlength
        omega
  refine ⟨disk₁.put (fileIn folder last) (.file bytes) hput, ?_, ?_⟩
  · dsimp only
    rw [exportBlob, henv.exported i]
    simp only [FileTree.write, dif_pos hput]
  · exact FileTree.mirrored_put hfree hgrowth (hfolder rfl) hput

theorem exportEntry_clear {env : Environment} (henv : env.Reliable) (i : Nat) {name : Text}
    (bytes : Bytes) {outputDir : PathBuf} {disk : Disk} (hdir : disk.find outputDir = some .folder)
    (haccepted : Accepted name) (hclear : Clear disk (desiredPath outputDir name)) :
    ∃ disk', exportEntry env outputDir i name bytes disk = (.ok none, disk') ∧
      Mirrored [(desiredPath outputDir name, bytes)] disk disk' := by
  obtain ⟨desired, hpath⟩ := getExportPath_ok.mpr haccepted
  obtain ⟨rfl, folder, last, hfile, -, -⟩ := getExportPath_eq hpath
  have hfree := FileTree.not_exists_iff.mpr hclear.free
  have htarget : exportTarget disk outputDir name = .ok (fileIn folder last, none) := by
    rw [exportTarget, hpath]
    dsimp only
    rw [hfree, hfile]
    rfl
  rw [hfile] at hclear ⊢
  exact exportEntry_mirrored henv i bytes (top_folder hdir) htarget hclear.free
    fun above habove => hclear.way above (habove.trans (List.prefix_append _ _))

def desiredFile (outputDir : PathBuf) (entry : Text × Bytes) : PathBuf × Bytes :=
  (desiredPath outputDir entry.1, entry.2)

theorem FileAdded.mirrored {target : PathBuf} {bytes : Bytes} {disk disk' : Disk}
    (h : FileAdded target bytes disk disk') : Mirrored [(target, bytes)] disk disk' := by
  have hfile : disk'.find target = some (.file bytes) := (h.files _ _).mpr (Or.inr ⟨rfl, rfl⟩)
  constructor
  · intro path content
    rw [h.files, List.mem_singleton, Prod.mk.injEq]
  · intro path
    constructor
    · intro hfolder
      rcases (h.taken path).mp (FileTree.exists_of_find hfolder) with hold | hpre
      · obtain ⟨node, hnode⟩ := FileTree.exists_iff.mp hold
        cases node with
        | folder => exact Or.inl hnode
        | file content =>
          rw [(h.files path content).mpr (Or.inl hnode)] at hfolder
          cases hfolder
      · refine Or.inr ⟨_, List.mem_singleton.mpr rfl, hpre, ?_⟩
        rintro rfl
        rw [hfile] at hfolder
        cases hfolder
    · rintro (hold | ⟨file, hmem, hpre, hne⟩)
      · obtain ⟨node, hnode⟩ := FileTree.exists_iff.mp
          ((h.taken path).mpr (Or.inl (FileTree.exists_of_find hold)))
        cases node with
        | folder => exact hnode
        | file content =>
          -- a file here is old or the target, and neither is a folder
          rcases (h.files path content).mp hnode with hnode | ⟨rfl, -⟩
          · rw [hold] at hnode
            cases hnode
          · rw [h.free] at hold
            cases hold
      · obtain rfl := List.mem_singleton.mp hmem
        exact disk'.find_of_prefix (by rw [hfile]; exact Option.some_ne_none _) hpre (Ne.symm hne)

theorem exportEntries_clear {env : Environment} (henv : env.Reliable)
    {collection : List (Text × Bytes)} {outputDir : PathBuf}
    (haccepted : ∀ entry ∈ collection, Accepted entry.1)
    (hapart : collection.Pairwise fun entry other =>
      Apart (desiredPath outputDir entry.1) (desiredPath outputDir other.1))
    (i : Nat) {disk : Disk} (hdir : disk.find outputDir = some .folder)
    (hclear : ∀ entry ∈ collection, Clear disk (desiredPath outputDir entry.1)) :
    (exportEntries env outputDir i collection disk).1 = .ok [] ∧
      Mirrored (collection.map (desiredFile outputDir)) disk
        (exportEntries env outputDir i collection disk).2 := by
  induction collection generalizing i disk with
  | nil => exact ⟨rfl, by simp [exportEntries], by simp [exportEntries]⟩
  | cons entry collection ih =>
    obtain ⟨name, bytes⟩ := entry
    rw [List.forall_mem_cons] at haccepted hclear
    rw [List.pairwise_cons] at hapart
    obtain ⟨disk₁, hentry, hfirst⟩ := exportEntry_clear henv i bytes hdir haccepted.1 hclear.1
    have hclear₁ : ∀ other ∈ collection, Clear disk₁ (desiredPath outputDir other.1) :=
      fun other hother => (hclear.2 other hother).of_mirrored hfirst (hapart.1 other hother)
    obtain ⟨hok, hmirrored⟩ := ih haccepted.2 hapart.2 (i + 1) (hfirst.keeps hdir) hclear₁
    rw [exportEntries, hentry]
    dsimp only
    generalize exportEntries env outputDir (i + 1) collection disk₁ = rest at hok hmirrored
    obtain ⟨r, disk₂⟩ := rest
    obtain rfl : r = .ok [] := hok
    exact ⟨rfl, hfirst.append hmirrored⟩

/-! ## Both -/

/-- The path of a shared file below a directory. -/
def arrivesAt (outputDir : PathBuf) (rel : List OsStr) : PathBuf := outputDir ++ rel.map .normal

theorem apart_arrivesAt {outputDir : PathBuf} {rel other : List OsStr} :
    Apart (arrivesAt outputDir rel) (arrivesAt outputDir other) ↔ Apart rel other := by
  rw [arrivesAt, arrivesAt, apart_append]
  apply apart_map
  intro x y heq
  exact Component.normal.inj heq

theorem Shareable.arrives {fs : FileSystem} {paths : List PathBuf} (h : Shareable fs paths)
    (outputDir : PathBuf) {file : List OsStr × Bytes} (hfile : file ∈ sharedFiles fs paths) :
    Accepted (joined file.1) ∧
      desiredPath outputDir (joined file.1) = arrivesAt outputDir file.1 := by
  obtain ⟨parts, hrel, hne, hvalid⟩ := h.parts hfile
  have hparts : (parts.map OsStr.text).filterMap OsStr.toStr = parts := by
    rw [List.filterMap_map]
    exact List.filterMap_some
  have hsplit : (joined file.1).splitOn '/' = parts := by
    rw [joined, hrel, hparts, splitOn_joined hne fun part hpart => (hvalid part hpart).noSlash]
  constructor
  · intro part hpart
    rw [hsplit] at hpart
    exact hvalid part hpart
  · rw [desiredPath, hsplit, arrivesAt, hrel, List.map_map]
    rfl

theorem clear_of_fresh {disk : Disk} {outputDir : PathBuf} {name : Text}
    (hdir : disk.find outputDir = some .folder) (hfresh : disk.find (fileIn outputDir name) = none)
    (rel : List OsStr) : Clear disk (arrivesAt outputDir (.text name :: rel)) := by
  have hbelow : fileIn outputDir name <+: arrivesAt outputDir (.text name :: rel) := by
    rw [fileIn, arrivesAt, List.map_cons, List.prefix_append_right_inj, List.prefix_cons_inj]
    exact List.nil_prefix
  have hnothing : ∀ path, fileIn outputDir name <+: path → disk.find path = none := by
    intro path hpre
    by_contra hthere
    have hexists := disk.exists_of_prefix (Option.isSome_iff_ne_none.mpr hthere) hpre
    rw [FileTree.exists_, hfresh] at hexists
    cases hexists
  refine ⟨hnothing _ hbelow, fun above habove => ?_⟩
  rw [isFile_eq_false_iff]
  intro content hfile
  -- what lies on the way is at or below the name, or at or above the folder
  rcases List.prefix_or_prefix_of_prefix hbelow habove with hpre | hpre
  · rw [hnothing above hpre] at hfile
    cases hfile
  · rcases List.prefix_concat_iff.mp hpre with rfl | hpre
    · rw [hnothing (outputDir ++ _) (List.prefix_refl _)] at hfile
      cases hfile
    · by_cases heq : above = outputDir
      · rw [heq, hdir] at hfile
        cases hfile
      · rw [disk.find_of_prefix (by rw [hdir]; exact Option.some_ne_none _) hpre heq] at hfile
        cases hfile

/-- Files and directories of distinct names, all readable and portable, that are exported into a
folder where none of the names is taken: the import and the export succeed without a conflict, the
size is that of the files, each file is there again below the folder with its bytes, and nothing
else is new but the folders it lies in. -/
theorem share_round_trip (fs : FileSystem) (paths : List PathBuf) (completion : Completion)
    (env : Environment) (disk : Disk) (outputDir : PathBuf) (h : Shareable fs paths)
    (henv : env.Reliable) (hdir : disk.find outputDir = some .folder)
    (hfresh : ∀ path ∈ paths, disk.find (fileIn outputDir (stem path)) = none) :
    ∃ total collection, importPaths completion fs paths = .ok (total, collection) ∧
      total = ((sharedFiles fs paths).map fun file => file.2.length).sum ∧
      (exportToDirectory env disk collection outputDir).1 = .ok [] ∧
      Mirrored ((sharedFiles fs paths).map fun file => (arrivesAt outputDir file.1, file.2)) disk
        (exportToDirectory env disk collection outputDir).2 := by
  obtain ⟨collection, himport, hperm⟩ := importPaths_shareable h completion
  -- where the entries are to be is where the files arrive
  have harrives : ∀ file ∈ sharedFiles fs paths, Accepted (joined file.1) ∧
      desiredPath outputDir (joined file.1) = arrivesAt outputDir file.1 :=
    fun file hfile => h.arrives outputDir hfile
  have hentry : ∀ entry ∈ collection, ∃ file ∈ sharedFiles fs paths,
      entry = (joined file.1, file.2) := by
    intro entry hentry
    obtain ⟨file, hfile, heq⟩ := List.mem_map.mp (hperm.mem_iff.mp hentry)
    exact ⟨file, hfile, heq.symm⟩
  have hdesired : (collection.map (desiredFile outputDir)).Perm
      ((sharedFiles fs paths).map fun file => (arrivesAt outputDir file.1, file.2)) := by
    have hmapped := hperm.map (desiredFile outputDir)
    rw [List.map_map] at hmapped
    have hfiles : (sharedFiles fs paths).map
        (desiredFile outputDir ∘ fun file => (joined file.1, file.2)) =
        (sharedFiles fs paths).map fun file => (arrivesAt outputDir file.1, file.2) := by
      apply List.map_congr_left
      intro file hfile
      show (desiredPath outputDir (joined file.1), file.2) = _
      rw [(harrives file hfile).2]
    rwa [hfiles] at hmapped
  have haccepted : ∀ entry ∈ collection, Accepted entry.1 := by
    intro entry hmem
    obtain ⟨file, hfile, rfl⟩ := hentry entry hmem
    exact (harrives file hfile).1
  have hapart : collection.Pairwise fun entry other =>
      Apart (desiredPath outputDir entry.1) (desiredPath outputDir other.1) := by
    have hfiles : ((sharedFiles fs paths).map fun file =>
        (arrivesAt outputDir file.1, file.2)).Pairwise fun file other => Apart file.1 other.1 := by
      rw [List.pairwise_map]
      exact h.apart.imp fun hapart => apart_arrivesAt.mpr hapart
    have hentries := (hdesired.pairwise_iff fun hapart => Apart.symm hapart).mpr hfiles
    rwa [List.pairwise_map] at hentries
  have hclear : ∀ entry ∈ collection, Clear disk (desiredPath outputDir entry.1) := by
    intro entry hmem
    obtain ⟨file, hfile, rfl⟩ := hentry entry hmem
    obtain ⟨path, hpath, data, hbrought, -⟩ := mem_sharedFiles.mp hfile
    obtain ⟨rel, hrel⟩ := head_of_brought hbrought
    dsimp only at hrel ⊢
    rw [(harrives file hfile).2, hrel]
    exact clear_of_fresh hdir (hfresh path hpath) rel
  obtain ⟨hok, hmirrored⟩ := exportEntries_clear henv haccepted hapart 0 hdir hclear
  exact ⟨_, collection, himport, rfl, hok, hmirrored.perm hdesired⟩

/-! ## A file and a folder -/

def FileSystem.ofNodes (nodes : List (PathBuf × Node))
    (hnames : ∀ entry ∈ nodes, ∀ s, fileName entry.1 = some (.text s) → IsFileName s) :
    FileSystem where
  node path := (nodes.find? fun entry => entry.1 = path).map Prod.snd
  names := by
    intro path s hsome hs
    rw [Option.isSome_map] at hsome
    obtain ⟨entry, hfind⟩ := Option.isSome_iff_exists.mp hsome
    have hpath : entry.1 = path := by simpa using List.find?_some hfind
    exact hnames entry (List.mem_of_find?_eq_some hfind) s (by rw [hpath, hs])

/-- A directory with a folder `s` that has a file `b` in it. -/
def nestedFile (bytes : Bytes) : Directory where
  entries := [⟨[.text ['s']], .directory⟩,
    ⟨[.text ['s'], .text ['b']], .file ⟨.ok bytes.length, .ok bytes⟩⟩]
  names := by
    have hs : IsFileName ['s'] := by constructor <;> decide
    simp [hs, isFileName_b]
  nodup := by simp
  leaf := by
    intro entry hentry data hkind
    simp only [List.mem_cons, List.not_mem_nil, or_false] at hentry ⊢
    rcases hentry with rfl | rfl
    · cases hkind
    · simp

/-- A file `a` and a folder `d` in the root. -/
def fileBesideFolder : FileSystem :=
  .ofNodes [(rootPath ['a'], .file ⟨.ok 2, .ok [7, 8]⟩), (rootPath ['d'], .directory (nestedFile [9]))]
    (by
      have hd : IsFileName ['d'] := by constructor <;> decide
      simp [rootPath, fileName, hd, isFileName_a])

theorem shareable_fileBesideFolder : Shareable fileBesideFolder [rootPath ['a'], rootPath ['d']] := by
  have hfile : broughtFiles fileBesideFolder (rootPath ['a']) =
      [([.text ['a']], ⟨.ok 2, .ok [7, 8]⟩)] := rfl
  have hfolder : broughtFiles fileBesideFolder (rootPath ['d']) =
      [([.text ['d'], .text ['s'], .text ['b']], ⟨.ok 1, .ok [9]⟩)] := rfl
  have hportable : ∀ c ∈ ['a', 'b', 'd', 's'], Portable (.text [c]) := by
    intro c hc
    refine ⟨_, rfl, ?_⟩
    simp only [List.mem_cons, List.not_mem_nil, or_false] at hc
    rcases hc with rfl | rfl | rfl | rfl <;> decide
  constructor
  · simp [fileBesideFolder, FileSystem.ofNodes, rootPath]
  · decide
  · simp [hfile, hfolder, hportable]
  · simp [hfile, hfolder]
  · simp [sharedFiles, hfile]

theorem share_round_trip_fileBesideFolder :
    ∃ total collection,
      importPaths .inOrder fileBesideFolder [rootPath ['a'], rootPath ['d']] = .ok (total, collection) ∧
      total = 3 ∧
      (exportToDirectory .reliable emptyDisk collection [.rootDir]).1 = .ok [] ∧
      Mirrored [(fileIn [.rootDir] ['a'], [7, 8]),
        (fileIn (fileIn (fileIn [.rootDir] ['d']) ['s']) ['b'], [9])] emptyDisk
        (exportToDirectory .reliable emptyDisk collection [.rootDir]).2 :=
  share_round_trip fileBesideFolder [rootPath ['a'], rootPath ['d']] .inOrder .reliable emptyDisk
    [.rootDir] shareable_fileBesideFolder ⟨fun _ _ => rfl, fun _ => rfl⟩ rfl
    (by simp [emptyDisk, fileIn])

end DashBeam.Collection
