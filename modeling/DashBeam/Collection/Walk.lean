import DashBeam.Collection.Export

/-!
# Files that cannot be transferred

The walk of `collect_path_files` passes over entries it cannot read, but fails as a whole at the first
regular file whose path has no name in a collection. So it brings the transferable files of a
directory exactly when there are no others.
-/

namespace DashBeam.Collection

open Lib

/-- A transferable name passes the check of `canonicalized_path_to_string`. -/
theorem componentPart_of_transferable {name : OsStr} (h : Transferable name) :
    componentPart true (.normal name) = .ok name.toStr := by
  obtain ⟨s, rfl, hclean⟩ := h
  rw [componentPart, OsStr.toStr]
  exact if_pos hclean

theorem mapM_componentPart_of_transferable {rel : List OsStr}
    (h : ∀ name ∈ rel, Transferable name) :
    (rel.map Component.normal).mapM (componentPart true) = .ok (rel.map OsStr.toStr) := by
  induction rel with
  | nil => rfl
  | cons name rel ih =>
    rw [List.forall_mem_cons] at h
    rw [List.map_cons, List.mapM_cons, componentPart_of_transferable h.1, ih h.2]
    rfl

theorem canonicalizedPathToString_of_transferable {rel : List OsStr}
    (h : ∀ name ∈ rel, Transferable name) :
    canonicalizedPathToString (rel.map .normal) true = .ok (joined rel) := by
  have hroot : Component.rootDir ∉ rel.map Component.normal := by
    intro hmem
    obtain ⟨name, -, heq⟩ := List.mem_map.mp hmem
    cases heq
  rw [canonicalizedPathToString, mapM_componentPart_of_transferable h]
  simp only [bind, Except.bind, if_neg hroot, List.nil_append, pure, Except.pure,
    List.filterMap_map, Except.ok.injEq]
  rfl

/-- What a regular file is collected as, below a root. -/
def collectedAs (root : Text) (entry : WalkEntry) : Option (Text × FileData) :=
  match entry.kind with
  | .file data => some (joined (.text root :: entry.rel), data)
  | _ => none

/-- When every regular file is transferable below the root's name, the walk collects them all. -/
theorem collectEntries_brought {root : Text} (hname : IsFileName root) {entries : List WalkEntry}
    (h : ∀ entry ∈ entries, ∀ data, entry.kind = .file data →
      ∀ name ∈ OsStr.text root :: entry.rel, Transferable name) :
    collectEntries root entries = .ok (entries.filterMap (collectedAs root)) := by
  induction entries with
  | nil => rfl
  | cons entry entries ih =>
    rw [List.forall_mem_cons] at h
    cases hkind : entry.kind with
    | file data =>
      have hpath : components root ++ entry.rel.map .normal =
          (OsStr.text root :: entry.rel).map Component.normal := by
        rw [components_of_isFileName hname]
        rfl
      have hsafe := canonicalizedPathToString_of_transferable (h.1 data hkind)
      simp only [collectEntries, hkind, hpath, hsafe, ih h.2, List.filterMap_cons, collectedAs]
      rfl
    | _ => simp only [collectEntries, hkind, ih h.2, List.filterMap_cons, collectedAs]

theorem collectEntries_of_transferable {root : Text} (hname : IsFileName root)
    (hroot : Transferable (.text root)) {entries : List WalkEntry}
    (h : ∀ entry ∈ entries, ∀ data, entry.kind = .file data →
      ∀ name ∈ entry.rel, Transferable name) :
    collectEntries root entries = .ok (entries.filterMap (collectedAs root)) := by
  apply collectEntries_brought hname
  intro entry hentry data hkind
  exact List.forall_mem_cons.mpr ⟨hroot, h entry hentry data hkind⟩

/-- Paths of file names are told apart by their joined names. -/
theorem joined_inj {rel rel' : List OsStr} (hne : rel ≠ []) (hne' : rel' ≠ [])
    (h : ∀ name ∈ rel, Transferable name) (h' : ∀ name ∈ rel', Transferable name)
    (heq : joined rel = joined rel') : rel = rel' := by
  obtain ⟨parts, rfl, hparts, hclean⟩ := filterMap_toStr_transferable h
  obtain ⟨parts', rfl, hparts', hclean'⟩ := filterMap_toStr_transferable h'
  rw [joined, joined, hparts, hparts'] at heq
  have hsplit := congrArg (List.splitOn '/') heq
  rw [splitOn_joined (fun hnil => hne (by rw [hnil]; rfl)) fun part hpart => (hclean part hpart).1,
    splitOn_joined (fun hnil => hne' (by rw [hnil]; rfl)) fun part hpart =>
      (hclean' part hpart).1] at hsplit
  rw [hsplit]

/-- The names of transferable files are distinct, as the walk yields no path twice. -/
theorem nodup_collected {root : Text} {entries : List WalkEntry}
    (hroot : Transferable (.text root)) (hnodup : (entries.map WalkEntry.rel).Nodup)
    (h : ∀ entry ∈ entries, ∀ data, entry.kind = .file data →
      ∀ name ∈ entry.rel, Transferable name) :
    ((entries.filterMap (collectedAs root)).map Prod.fst).Nodup := by
  induction entries with
  | nil => exact List.nodup_nil
  | cons entry entries ih =>
    rw [List.map_cons, List.nodup_cons] at hnodup
    rw [List.forall_mem_cons] at h
    cases hkind : entry.kind with
    | file data =>
      have hentry : collectedAs root entry = some (joined (.text root :: entry.rel), data) := by
        rw [collectedAs, hkind]
      rw [List.filterMap_cons_some hentry, List.map_cons, List.nodup_cons]
      refine ⟨?_, ih hnodup.2 h.2⟩
      intro hmem
      obtain ⟨item, hitem, heq⟩ := List.mem_map.mp hmem
      obtain ⟨other, hother, hcollected⟩ := List.mem_filterMap.mp hitem
      rw [collectedAs] at hcollected
      split at hcollected
      · rename_i data' hkind'
        obtain rfl := Option.some.inj hcollected
        have hrel := joined_inj (List.cons_ne_nil _ _) (List.cons_ne_nil _ _)
          (List.forall_mem_cons.mpr ⟨hroot, h.2 other hother data' hkind'⟩)
          (List.forall_mem_cons.mpr ⟨hroot, h.1 data hkind⟩) heq
        exact hnodup.1 (List.mem_map.mpr ⟨other, hother, (List.cons.inj hrel).2⟩)
      · cases hcollected
    | _ =>
      rw [List.filterMap_cons_none (by rw [collectedAs, hkind])]
      exact ih hnodup.2 h.2

/-! ## What a walk should bring -/

/-- The call returns the regular files with transferable components, each once, under the root's name
and their relative paths, and passes over the others. -/
def CollectsTransferable (fs : FileSystem) (path : PathBuf) (root : Text) (dir : Directory) : Prop :=
  ∃ files, collectPathFiles fs path root = .ok files ∧ (files.map Prod.fst).Nodup ∧
    ∀ name data, (name, data) ∈ files ↔ ∃ entry ∈ dir.entries, entry.kind = .file data ∧
      (∀ part ∈ entry.rel, Transferable part) ∧ name = joined (.text root :: entry.rel)

/-- For a directory below a transferable name, `collect_path_files` brings the transferable files and
skips the others exactly when there are no others: one file without a name fails the share. -/
theorem collectPathFiles_transferable_iff (fs : FileSystem) (path : PathBuf) (root : Text)
    (dir : Directory) (hdir : fs.node path = some (.directory dir)) (hname : IsFileName root)
    (hroot : Transferable (.text root)) :
    CollectsTransferable fs path root dir ↔
      ∀ entry ∈ dir.entries, ∀ data, entry.kind = .file data →
        ∀ part ∈ entry.rel, Transferable part := by
  have hcollect : collectPathFiles fs path root = collectEntries root dir.entries := by
    rw [collectPathFiles, hdir]
  constructor
  · rintro ⟨files, hfiles, -⟩ entry hentry data hkind part hpart
    rw [hcollect] at hfiles
    exact (collectEntries_ok hname hfiles).2 entry hentry data hkind part
      (List.mem_cons_of_mem _ hpart)
  · intro hall
    refine ⟨dir.entries.filterMap (collectedAs root), ?_, nodup_collected hroot dir.nodup hall, ?_⟩
    · rw [hcollect]
      exact collectEntries_of_transferable hname hroot hall
    · intro name data
      rw [List.mem_filterMap]
      refine exists_congr fun entry => and_congr_right fun hentry => ?_
      rw [collectedAs]
      constructor
      · intro hsome
        split at hsome
        · rename_i data' hkind
          obtain ⟨rfl, rfl⟩ := Prod.mk.inj (Option.some.inj hsome)
          exact ⟨hkind, hall entry hentry _ hkind, rfl⟩
        · cases hsome
      · rintro ⟨hkind, -, rfl⟩
        rw [hkind]

/-! ## One directory -/

/-- An empty regular file of a directory. -/
def emptyFile (name : Text) : WalkEntry := ⟨[.text name], .file ⟨.ok 0, .ok []⟩⟩

def twoFiles (a b : Text) (ha : IsFileName a) (hb : IsFileName b) (hab : a ≠ b) : Directory where
  entries := [emptyFile a, emptyFile b]
  names := by
    intro entry hentry s hs
    rw [List.mem_cons, List.mem_singleton] at hentry
    rcases hentry with rfl | rfl
    · rw [OsStr.text.inj (List.mem_singleton.mp hs)]
      exact ha
    · rw [OsStr.text.inj (List.mem_singleton.mp hs)]
      exact hb
  nodup := by
    simp [emptyFile, hab]
  leaf := by
    intro entry hentry data _
    simp only [emptyFile, List.mem_cons, List.not_mem_nil, or_false] at hentry ⊢
    rcases hentry with rfl | rfl <;> simp [hab, Ne.symm hab]

def directorySystem (root : Text) (dir : Directory) (hroot : IsFileName root) : FileSystem where
  node path := if path = rootPath root then some (.directory dir) else none
  names := by
    intro path s hsome hs
    split at hsome
    · rename_i hpath
      subst hpath
      cases hs
      exact hroot
    · cases hsome

theorem directorySystem_node (root : Text) (dir : Directory) (hroot : IsFileName root) :
    (directorySystem root dir hroot).node (rootPath root) = some (.directory dir) := by
  rw [directorySystem]
  exact if_pos rfl

theorem isFileName_a : IsFileName ['a'] := by constructor <;> decide

theorem isFileName_b : IsFileName ['b'] := by constructor <;> decide

theorem isFileName_backslash : IsFileName ['a', '\\', 'b'] := by constructor <;> decide

/-- A directory with two files of plain names is collected. -/
theorem collects_two_files :
    CollectsTransferable
      (directorySystem ['a'] (twoFiles ['a'] ['b'] isFileName_a isFileName_b (by decide))
        isFileName_a)
      (rootPath ['a']) ['a'] (twoFiles ['a'] ['b'] isFileName_a isFileName_b (by decide)) := by
  refine (collectPathFiles_transferable_iff _ _ _ _ (directorySystem_node _ _ _) isFileName_a
    ⟨_, rfl, by decide⟩).mpr ?_
  intro entry hentry data _ part hpart
  simp only [twoFiles, emptyFile, List.mem_cons, List.not_mem_nil, or_false] at hentry
  rcases hentry with rfl | rfl
  · exact ⟨_, List.mem_singleton.mp hpart, by decide⟩
  · exact ⟨_, List.mem_singleton.mp hpart, by decide⟩

/-- Next to a file `b`, a file `a\b` makes the call fail. -/
theorem collect_backslash_fails :
    ¬ ∀ (fs : FileSystem) (path : PathBuf) (root : Text) (dir : Directory),
      fs.node path = some (.directory dir) → IsFileName root → Transferable (.text root) →
      CollectsTransferable fs path root dir := by
  intro h
  obtain ⟨files, hfiles, -⟩ := h _ _ _ _ (directorySystem_node ['a'] (twoFiles ['b'] ['a', '\\', 'b']
    isFileName_b isFileName_backslash (by decide)) isFileName_a) isFileName_a ⟨_, rfl, by decide⟩
  cases hfiles

end DashBeam.Collection
