import Mathlib.Data.List.Infix
import Mathlib.Data.List.Induction

/-!
# Trees of files

`FileTree κ β` says what lies at each path, a path being a list of names from the top: nothing, a
file or a folder, and what exists lies in a folder. There are no links. `put` is the one update; making a
directory, making all directories of a path and writing a file are made of it.

`FolderGrowth path tree tree'` is what making directories can do: everything stays, and what is new is
a folder on the way to `path`. A folder that existed before has everything new below it
(`FileTree.below_of_new`).

The deepest folder that has several paths below it is the longest start their parents have in common
(`LongestCommon.deepestFolder`).
-/

namespace Lib

/-- What exists at a path. -/
inductive FileNode (β : Type)
  | file (content : β)
  | folder
  deriving DecidableEq, Repr

structure FileTree (κ β : Type) where
  find : List κ → Option (FileNode β)
  parent : ∀ path, path ≠ [] → find path ≠ none → find path.dropLast = some .folder

/-- A path strictly below a folder. -/
def StrictlyBelow {κ : Type} (dir path : List κ) : Prop := dir <+: path ∧ path ≠ dir

theorem strictlyBelow_iff {κ : Type} {dir path : List κ} (hne : path ≠ []) :
    StrictlyBelow dir path ↔ dir <+: path.dropLast := by
  have hpath := List.dropLast_append_getLast hne
  constructor
  · rintro ⟨hpre, hdir⟩
    rw [← hpath, List.prefix_concat_iff, hpath] at hpre
    exact hpre.resolve_left (Ne.symm hdir)
  · intro hpre
    refine ⟨hpre.trans (List.dropLast_prefix path), ?_⟩
    rintro rfl
    have hlength := hpre.length_le
    have hpos := List.length_pos_iff.mpr hne
    rw [List.length_dropLast] at hlength
    omega

/-- Neither path is the other or a folder on the way to it. -/
def Apart {κ : Type} (first second : List κ) : Prop := ¬ first <+: second ∧ ¬ second <+: first

theorem Apart.symm {κ : Type} {first second : List κ} (h : Apart first second) :
    Apart second first := ⟨h.2, h.1⟩

theorem apart_cons {κ : Type} {x : κ} {first second : List κ} :
    Apart (x :: first) (x :: second) ↔ Apart first second := by
  rw [Apart, Apart, List.prefix_cons_inj, List.prefix_cons_inj]

theorem apart_append {κ : Type} {front first second : List κ} :
    Apart (front ++ first) (front ++ second) ↔ Apart first second := by
  rw [Apart, Apart, List.prefix_append_right_inj, List.prefix_append_right_inj]

theorem apart_of_head {κ : Type} {x y : κ} (h : x ≠ y) (first second : List κ) :
    Apart (x :: first) (y :: second) := by
  constructor
  · intro hpre
    exact h (List.cons_prefix_cons.mp hpre).1
  · intro hpre
    exact h (List.cons_prefix_cons.mp hpre).1.symm

theorem apart_map {κ ν : Type} {f : κ → ν} (hf : ∀ x y, f x = f y → x = y)
    {first second : List κ} : Apart (first.map f) (second.map f) ↔ Apart first second := by
  rw [Apart, Apart, List.prefix_map_iff_of_injective hf, List.prefix_map_iff_of_injective hf]

/-! ## Folders of several paths -/

/-- The longest path that all of the paths start with. -/
structure LongestCommon {κ : Type} (common : List κ) (paths : List (List κ)) : Prop where
  starts : ∀ path ∈ paths, common <+: path
  longest : ∀ other, (∀ path ∈ paths, other <+: path) → other <+: common

theorem longestCommon_singleton {κ : Type} (path : List κ) : LongestCommon path [path] := by
  refine ⟨?_, fun other h => h path List.mem_cons_self⟩
  intro other hother
  rw [List.mem_singleton.mp hother]

theorem longestCommon_pair {κ : Type} {common first second : List κ} :
    LongestCommon common [first, second] ↔ common <+: first ∧ common <+: second ∧
      ∀ other, other <+: first → other <+: second → other <+: common := by
  have hboth : ∀ other : List κ, (∀ path ∈ [first, second], other <+: path) ↔
      other <+: first ∧ other <+: second := by
    intro other
    rw [List.forall_mem_cons, List.forall_mem_singleton]
  constructor
  · intro h
    obtain ⟨hfirst, hsecond⟩ := (hboth common).mp h.starts
    exact ⟨hfirst, hsecond, fun other hf hs => h.longest other ((hboth other).mpr ⟨hf, hs⟩)⟩
  · rintro ⟨hfirst, hsecond, hlongest⟩
    refine ⟨(hboth common).mpr ⟨hfirst, hsecond⟩, fun other hother => ?_⟩
    obtain ⟨hf, hs⟩ := (hboth other).mp hother
    exact hlongest other hf hs

theorem LongestCommon.merge {κ : Type} {common front first second : List κ}
    {paths : List (List κ)} (hfront : LongestCommon front [first, second])
    (h : LongestCommon common (front :: paths)) :
    LongestCommon common (first :: second :: paths) := by
  obtain ⟨hfirst, hsecond, hlongest⟩ := longestCommon_pair.mp hfront
  obtain ⟨hcommon, hrest⟩ := List.forall_mem_cons.mp h.starts
  constructor
  · rw [List.forall_mem_cons, List.forall_mem_cons]
    exact ⟨hcommon.trans hfirst, hcommon.trans hsecond, hrest⟩
  · intro other hother
    rw [List.forall_mem_cons, List.forall_mem_cons] at hother
    obtain ⟨hf, hs, hrest⟩ := hother
    exact h.longest other (List.forall_mem_cons.mpr ⟨hlongest other hf hs, hrest⟩)

/-- The deepest folder that has all of the paths below it. -/
structure DeepestFolder {κ : Type} (dir : List κ) (paths : List (List κ)) : Prop where
  contains : ∀ path ∈ paths, StrictlyBelow dir path
  deepest : ∀ other, (∀ path ∈ paths, StrictlyBelow other path) → other <+: dir

theorem LongestCommon.deepestFolder {κ : Type} {dir : List κ} {paths : List (List κ)}
    (hne : ∀ path ∈ paths, path ≠ []) (h : LongestCommon dir (paths.map List.dropLast)) :
    DeepestFolder dir paths := by
  constructor
  · intro path hpath
    rw [strictlyBelow_iff (hne path hpath)]
    exact h.starts _ (List.mem_map_of_mem hpath)
  · intro other hother
    refine h.longest other fun parent hparent => ?_
    obtain ⟨path, hpath, rfl⟩ := List.mem_map.mp hparent
    exact (strictlyBelow_iff (hne path hpath)).mp (hother path hpath)

/-- Why the operating system does not make a directory. -/
inductive IoError
  | notFound
  | other
  deriving DecidableEq, Repr

namespace FileTree

variable {κ β : Type}

/-- Whether something exists at a path. -/
def exists_ (tree : FileTree κ β) (path : List κ) : Bool := (tree.find path).isSome

/-- Whether a file exists at a path. -/
def isFile (tree : FileTree κ β) (path : List κ) : Bool :=
  match tree.find path with
  | some (.file _) => true
  | _ => false

/-- Whether a folder exists at a path. -/
def isFolder (tree : FileTree κ β) (path : List κ) : Bool :=
  match tree.find path with
  | some .folder => true
  | _ => false

theorem isFolder_iff {tree : FileTree κ β} {path : List κ} :
    tree.isFolder path = true ↔ tree.find path = some .folder := by
  rw [isFolder]
  split
  · rename_i h
    simp [h]
  · rename_i h
    simpa using h

theorem exists_iff {tree : FileTree κ β} {path : List κ} :
    tree.exists_ path = true ↔ ∃ node, tree.find path = some node :=
  Option.isSome_iff_exists

theorem exists_of_find {tree : FileTree κ β} {path : List κ} {node : FileNode β}
    (h : tree.find path = some node) : tree.exists_ path = true :=
  exists_iff.mpr ⟨node, h⟩

theorem not_exists_iff {tree : FileTree κ β} {path : List κ} :
    tree.exists_ path = false ↔ tree.find path = none :=
  Option.isSome_eq_false_iff.trans Option.isNone_iff_eq_none

theorem find_of_prefix (tree : FileTree κ β) {path above : List κ} (h : tree.find path ≠ none)
    (hpre : above <+: path) (hne : above ≠ path) : tree.find above = some .folder := by
  induction path using List.reverseRecOn with
  | nil => exact absurd (List.prefix_nil.mp hpre) hne
  | append_singleton front name ih =>
    have hfront : tree.find front = some .folder := by
      have hparent := tree.parent (front ++ [name]) (by simp) h
      rwa [List.dropLast_concat] at hparent
    rcases List.prefix_concat_iff.mp hpre with rfl | hpre
    · exact absurd rfl hne
    · by_cases heq : above = front
      · rw [heq]
        exact hfront
      · exact ih (by rw [hfront]; exact Option.some_ne_none _) hpre heq

theorem exists_of_prefix (tree : FileTree κ β) {path above : List κ}
    (h : tree.exists_ path = true) (hpre : above <+: path) : tree.exists_ above = true := by
  obtain ⟨node, hnode⟩ := exists_iff.mp h
  by_cases heq : above = path
  · rw [heq]
    exact h
  · exact exists_of_find (tree.find_of_prefix (by rw [hnode]; exact Option.some_ne_none _) hpre heq)

/-- What does not exist on the way to a path below a folder is itself below the folder. -/
theorem below_of_new (tree : FileTree κ β) {dir path new : List κ} (hdir : tree.find dir ≠ none)
    (hpath : dir <+: path) (hnew : new <+: path) (hfree : tree.find new = none) :
    StrictlyBelow dir new := by
  rcases List.prefix_or_prefix_of_prefix hpath hnew with h | h
  · refine ⟨h, ?_⟩
    rintro rfl
    exact hdir hfree
  · by_cases heq : new = dir
    · rw [heq] at hfree
      exact absurd hfree hdir
    · have hfolder := tree.find_of_prefix hdir h heq
      rw [hfree] at hfolder
      cases hfolder

/-- A node can be put where no folder is, in a folder. -/
def CanPut (tree : FileTree κ β) (path : List κ) : Prop :=
  path ≠ [] ∧ tree.isFolder path.dropLast = true ∧ tree.isFolder path = false

section Update

variable [DecidableEq κ]

instance (tree : FileTree κ β) (path : List κ) : Decidable (tree.CanPut path) :=
  inferInstanceAs (Decidable (_ ∧ _ ∧ _))

def put (tree : FileTree κ β) (path : List κ) (node : FileNode β) (h : tree.CanPut path) :
    FileTree κ β where
  find other := if other = path then some node else tree.find other
  parent := by
    intro other hne hother
    have hparent : tree.find other.dropLast = some .folder := by
      by_cases heq : other = path
      · rw [heq]
        exact isFolder_iff.mp h.2.1
      · rw [if_neg heq] at hother
        exact tree.parent other hne hother
    have hnot : other.dropLast ≠ path := by
      intro heq
      rw [heq] at hparent
      have hfolder := isFolder_iff.mpr hparent
      rw [h.2.2] at hfolder
      cases hfolder
    rw [if_neg hnot]
    exact hparent

theorem find_put (tree : FileTree κ β) (path : List κ) (node : FileNode β) (h : tree.CanPut path)
    (other : List κ) :
    (tree.put path node h).find other = if other = path then some node else tree.find other := rfl

/-! ## Directories -/

/-- `mkdir`, which the system may refuse for reasons of its own. -/
def mkdir (refused : List κ → Option IoError) (tree : FileTree κ β) (path : List κ) :
    Except IoError Unit × FileTree κ β :=
  match refused path with
  | some e => (.error e, tree)
  | none =>
    if h : tree.exists_ path = false ∧ tree.CanPut path then (.ok (), tree.put path .folder h.2)
    else if tree.exists_ path = true ∨ path.inits.any tree.isFile = true then (.error .other, tree)
    else (.error .notFound, tree)

/-- Making the first `n` directories of a path, the last one first: where its parent is missing, that
is made before, and it is tried again. -/
def createDirs (refused : List κ → Option IoError) (path : List κ) :
    Nat → FileTree κ β → Except IoError Unit × FileTree κ β
  | 0, tree => (.ok (), tree)
  | n + 1, tree =>
    match tree.mkdir refused (path.take (n + 1)) with
    | (.ok (), tree) => (.ok (), tree)
    | (.error .other, tree) =>
      (if tree.isFolder (path.take (n + 1)) then .ok () else .error .other, tree)
    | (.error .notFound, tree) =>
      match createDirs refused path n tree with
      | (.error e, tree) => (.error e, tree)
      | (.ok (), tree) =>
        match tree.mkdir refused (path.take (n + 1)) with
        | (.ok (), tree) => (.ok (), tree)
        | (.error e, tree) =>
          (if tree.isFolder (path.take (n + 1)) then .ok () else .error e, tree)

def createDirAll (refused : List κ → Option IoError) (tree : FileTree κ β) (path : List κ) :
    Except IoError Unit × FileTree κ β :=
  createDirs refused path path.length tree

/-- What making directories does: everything stays, and what is new is a folder on the way. -/
structure FolderGrowth (path : List κ) (tree tree' : FileTree κ β) : Prop where
  keeps : ∀ other node, tree.find other = some node → tree'.find other = some node
  adds : ∀ other node, tree'.find other = some node →
    tree.find other = some node ∨ node = .folder ∧ other <+: path

omit [DecidableEq κ] in
theorem FolderGrowth.refl (path : List κ) (tree : FileTree κ β) : FolderGrowth path tree tree :=
  ⟨fun _ _ h => h, fun _ _ h => Or.inl h⟩

omit [DecidableEq κ] in
theorem FolderGrowth.trans {path path' : List κ} {tree tree' tree'' : FileTree κ β}
    (h : FolderGrowth path tree tree') (hpre : path <+: path')
    (h' : FolderGrowth path' tree' tree'') : FolderGrowth path' tree tree'' := by
  refine ⟨fun other node hnode => h'.keeps other node (h.keeps other node hnode), ?_⟩
  intro other node hnode
  rcases h'.adds other node hnode with hnode | hnew
  · rcases h.adds other node hnode with hnode | ⟨hfolder, hother⟩
    · exact Or.inl hnode
    · exact Or.inr ⟨hfolder, hother.trans hpre⟩
  · exact Or.inr hnew

/-- `mkdir` makes the directory where there was nothing, or changes nothing. -/
theorem mkdir_cases (refused : List κ → Option IoError) (tree : FileTree κ β) (path : List κ) :
    ((tree.mkdir refused path).1 = .ok () ∧ tree.exists_ path = false ∧ ∃ h,
      (tree.mkdir refused path).2 = tree.put path .folder h) ∨
    ∃ e, tree.mkdir refused path = (.error e, tree) := by
  rw [mkdir]
  split
  · exact Or.inr ⟨_, rfl⟩
  · split
    · rename_i h
      exact Or.inl ⟨rfl, h.1, h.2, rfl⟩
    · split
      · exact Or.inr ⟨_, rfl⟩
      · exact Or.inr ⟨_, rfl⟩

theorem growth_put {tree : FileTree κ β} {path : List κ} (hfree : tree.exists_ path = false)
    (h : tree.CanPut path) : FolderGrowth path tree (tree.put path .folder h) := by
  constructor
  · intro other node hnode
    have hne : other ≠ path := by
      rintro rfl
      rw [not_exists_iff.mp hfree] at hnode
      cases hnode
    rw [find_put, if_neg hne]
    exact hnode
  · intro other node hnode
    rw [find_put] at hnode
    split at hnode
    · rename_i heq
      exact Or.inr ⟨(Option.some.inj hnode).symm, heq ▸ List.prefix_refl _⟩
    · exact Or.inl hnode

theorem mkdir_growth (refused : List κ → Option IoError) (tree : FileTree κ β) (path : List κ) :
    FolderGrowth path tree (tree.mkdir refused path).2 ∧
    ((tree.mkdir refused path).1 = .ok () → (tree.mkdir refused path).2.find path = some .folder) := by
  rcases mkdir_cases refused tree path with ⟨hok, hfree, h, hput⟩ | ⟨e, heq⟩
  · rw [hput]
    refine ⟨growth_put hfree h, fun _ => ?_⟩
    rw [find_put, if_pos rfl]
  · rw [heq]
    exact ⟨FolderGrowth.refl _ _, fun h => nomatch h⟩

theorem createDirs_growth (refused : List κ → Option IoError) (path : List κ) (n : Nat)
    (tree : FileTree κ β) (htop : tree.find [] = some .folder) :
    FolderGrowth (path.take n) tree (createDirs refused path n tree).2 ∧
    ((createDirs refused path n tree).1 = .ok () →
      (createDirs refused path n tree).2.find (path.take n) = some .folder) := by
  induction n generalizing tree with
  | zero =>
    refine ⟨FolderGrowth.refl _ _, fun _ => ?_⟩
    rw [List.take_zero]
    exact htop
  | succ n ih =>
    have hpre : path.take n <+: path.take (n + 1) := List.take_prefix_take_left (Nat.le_succ n)
    obtain ⟨hgrowth, hfolder⟩ := mkdir_growth refused tree (path.take (n + 1))
    rw [createDirs]
    generalize tree.mkdir refused (path.take (n + 1)) = first at hgrowth hfolder
    obtain ⟨r, tree₁⟩ := first
    have htop₁ := hgrowth.keeps _ _ htop
    cases r with
    | ok u => exact ⟨hgrowth, fun _ => hfolder rfl⟩
    | error e =>
      cases e with
      | other =>
        refine ⟨hgrowth, fun hok => ?_⟩
        by_cases hthere : tree₁.isFolder (path.take (n + 1)) = true
        · exact isFolder_iff.mp hthere
        · simp [hthere] at hok
      | notFound =>
        obtain ⟨hgrowth₁, -⟩ := ih tree₁ htop₁
        dsimp only
        generalize createDirs refused path n tree₁ = second at hgrowth₁
        obtain ⟨r₂, tree₂⟩ := second
        have hgrowth₂ : FolderGrowth (path.take (n + 1)) tree tree₂ :=
          hgrowth.trans (List.prefix_refl _)
            ((hgrowth₁.trans hpre (FolderGrowth.refl _ _)))
        cases r₂ with
        | error e => exact ⟨hgrowth₂, fun hok => nomatch hok⟩
        | ok u =>
          obtain ⟨hgrowth₃, hfolder₃⟩ := mkdir_growth refused tree₂ (path.take (n + 1))
          dsimp only
          generalize tree₂.mkdir refused (path.take (n + 1)) = third at hgrowth₃ hfolder₃
          obtain ⟨r₃, tree₃⟩ := third
          have hall := hgrowth₂.trans (List.prefix_refl _) hgrowth₃
          cases r₃ with
          | ok u => exact ⟨hall, fun _ => hfolder₃ rfl⟩
          | error e =>
            refine ⟨hall, fun hok => ?_⟩
            by_cases hthere : tree₃.isFolder (path.take (n + 1)) = true
            · exact isFolder_iff.mp hthere
            · simp [hthere] at hok

/-- Making all directories of a path adds folders on the way, and on success the path is a folder. -/
theorem createDirAll_growth (refused : List κ → Option IoError) (tree : FileTree κ β)
    (path : List κ) (htop : tree.find [] = some .folder) :
    FolderGrowth path tree (tree.createDirAll refused path).2 ∧
    ((tree.createDirAll refused path).1 = .ok () →
      (tree.createDirAll refused path).2.find path = some .folder) := by
  have h := createDirs_growth refused path path.length tree htop
  rwa [List.take_length] at h

theorem createDirs_ok (path : List κ) (n : Nat) (hn : n ≤ path.length) (tree : FileTree κ β)
    (htop : tree.find [] = some .folder) (hclear : ∀ above, above <+: path → tree.isFile above = false) :
    (createDirs (fun _ => none) path n tree).1 = .ok () := by
  induction n generalizing tree with
  | zero => rfl
  | succ n ih =>
    have hlength : (path.take (n + 1)).length = n + 1 := by
      rw [List.length_take]
      omega
    have hne : path.take (n + 1) ≠ [] := by
      intro hnil
      rw [hnil, List.length_nil] at hlength
      omega
    have hparent : (path.take (n + 1)).dropLast = path.take n := by
      rw [List.dropLast_eq_take, hlength, List.take_take]
      congr 1
      omega
    have hcanPut : ∀ tree : FileTree κ β, tree.find (path.take n) = some .folder →
        tree.find (path.take (n + 1)) = none → tree.CanPut (path.take (n + 1)) := by
      intro tree hfolder hfree
      refine ⟨hne, ?_, ?_⟩
      · rw [hparent]
        exact isFolder_iff.mpr hfolder
      · rw [isFolder, hfree]
    have hmade : ∀ tree : FileTree κ β, tree.find (path.take n) = some .folder →
        tree.find (path.take (n + 1)) = none →
        (tree.mkdir (fun _ => none) (path.take (n + 1))).1 = .ok () := by
      intro tree hfolder hfree
      have hput := hcanPut tree hfolder hfree
      simp only [mkdir, dif_pos (And.intro (not_exists_iff.mpr hfree) hput)]
    have hpre := List.take_prefix (n + 1) path
    rw [createDirs]
    cases hfind : tree.find (path.take (n + 1)) with
    | some node =>
      -- it is there already, and it is a folder
      have hnode : node = .folder := by
        cases node with
        | folder => rfl
        | file content =>
          have hfile := hclear _ hpre
          rw [isFile, hfind] at hfile
          cases hfile
      rw [hnode] at hfind
      have hexists := exists_of_find hfind
      have hmkdir : tree.mkdir (fun _ => none) (path.take (n + 1)) = (.error .other, tree) := by
        simp only [mkdir, hexists]
        rfl
      rw [hmkdir]
      dsimp only
      rw [isFolder_iff.mpr hfind]
      rfl
    | none =>
      by_cases hfolder : tree.find (path.take n) = some .folder
      · have hok := hmade tree hfolder hfind
        generalize tree.mkdir (fun _ => none) (path.take (n + 1)) = first at hok
        obtain ⟨r, tree₁⟩ := first
        obtain rfl : r = .ok () := hok
        rfl
      · have hnot : ¬ tree.CanPut (path.take (n + 1)) := by
          intro hput
          have := isFolder_iff.mp hput.2.1
          rw [hparent] at this
          exact hfolder this
        have hinits : (path.take (n + 1)).inits.any tree.isFile = false := by
          rw [List.any_eq_false]
          intro above habove
          rw [List.mem_inits] at habove
          rw [hclear above (habove.trans hpre)]
          exact Bool.false_ne_true
        have hmkdir : tree.mkdir (fun _ => none) (path.take (n + 1)) = (.error .notFound, tree) := by
          have hexists := not_exists_iff.mpr hfind
          simp only [mkdir, hnot, and_false, dif_neg, not_false_eq_true, hexists, hinits]
          rfl
        rw [hmkdir]
        dsimp only
        have hbelow := ih (by omega) tree htop hclear
        obtain ⟨hgrowth, hmadeBelow⟩ := createDirs_growth (fun _ => none) path n tree htop
        generalize createDirs (fun _ => none) path n tree = second at hbelow hgrowth hmadeBelow
        obtain ⟨r₂, tree₂⟩ := second
        obtain rfl : r₂ = .ok () := hbelow
        have hfree₂ : tree₂.find (path.take (n + 1)) = none := by
          by_contra hthere
          obtain ⟨node, hnode⟩ := Option.ne_none_iff_exists'.mp hthere
          rcases hgrowth.adds _ node hnode with hold | ⟨-, hway⟩
          · rw [hfind] at hold
            cases hold
          · have hle := hway.length_le
            rw [hlength, List.length_take] at hle
            omega
        have hok := hmade tree₂ (hmadeBelow rfl) hfree₂
        dsimp only
        generalize tree₂.mkdir (fun _ => none) (path.take (n + 1)) = third at hok
        obtain ⟨r₃, tree₃⟩ := third
        obtain rfl : r₃ = .ok () := hok
        rfl

theorem createDirAll_ok (path : List κ) (tree : FileTree κ β) (htop : tree.find [] = some .folder)
    (hclear : ∀ above, above <+: path → tree.isFile above = false) :
    (tree.createDirAll (fun _ => none) path).1 = .ok () :=
  createDirs_ok path path.length (Nat.le_refl _) tree htop hclear

/-! ## Files -/

/-- Writing a file at a path: a file that is there is replaced, a folder is not. -/
def write (tree : FileTree κ β) (path : List κ) (content : β) : Option (FileTree κ β) :=
  if h : tree.CanPut path then some (tree.put path (.file content) h) else none

theorem write_put (tree : FileTree κ β) {path : List κ} (content content' : β)
    (h : tree.CanPut path) :
    (tree.put path (.file content) h).write path content' = some (tree.put path (.file content') h) := by
  have hfolder : ∀ other, (tree.put path (.file content) h).isFolder other =
      if other = path then false else tree.isFolder other := by
    intro other
    rw [isFolder, isFolder, find_put]
    by_cases heq : other = path
    · rw [if_pos heq, if_pos heq]
    · rw [if_neg heq, if_neg heq]
  have hparent : path.dropLast ≠ path := by
    intro heq
    have hlength := congrArg List.length heq
    rw [List.length_dropLast] at hlength
    have := List.length_pos_iff.mpr h.1
    omega
  have hput : (tree.put path (.file content) h).CanPut path := by
    refine ⟨h.1, ?_, ?_⟩
    · rw [hfolder, if_neg hparent]
      exact h.2.1
    · rw [hfolder, if_pos rfl]
  rw [write, dif_pos hput, Option.some.injEq, FileTree.mk.injEq]
  funext other
  simp only [find_put]
  split <;> rfl

end Update

/-! ## Files that arrive -/

/-- What is above a folder that was made, and it, is a folder, and nothing else has changed. -/
theorem FolderGrowth.find_eq [DecidableEq κ] {path : List κ} {tree tree' : FileTree κ β}
    (h : FolderGrowth path tree tree') (hpath : tree'.find path = some .folder) (other : List κ) :
    tree'.find other = if other <+: path then some .folder else tree.find other := by
  split
  · rename_i hpre
    by_cases heq : other = path
    · rw [heq]
      exact hpath
    · exact tree'.find_of_prefix (by rw [hpath]; exact Option.some_ne_none _) hpre heq
  · rename_i hpre
    cases hold : tree.find other with
    | some node => exact h.keeps other node hold
    | none =>
      by_contra hnew
      obtain ⟨node, hnode⟩ := Option.ne_none_iff_exists'.mp hnew
      rcases h.adds other node hnode with hthere | ⟨-, hway⟩
      · rw [hold] at hthere
        cases hthere
      · exact hpre hway

/-- Each file that arrived is at its path, with the folders on the way, and nothing else is new. -/
structure Mirrored (arrived : List (List κ × β)) (tree tree' : FileTree κ β) : Prop where
  files : ∀ path content, tree'.find path = some (.file content) ↔
    tree.find path = some (.file content) ∨ (path, content) ∈ arrived
  folders : ∀ path, tree'.find path = some .folder ↔
    tree.find path = some .folder ∨ ∃ file ∈ arrived, StrictlyBelow path file.1

theorem Mirrored.nil (tree : FileTree κ β) : Mirrored [] tree tree := by
  constructor
  · simp
  · simp

theorem Mirrored.append {arrived arrived' : List (List κ × β)} {tree tree' tree'' : FileTree κ β}
    (h : Mirrored arrived tree tree') (h' : Mirrored arrived' tree' tree'') :
    Mirrored (arrived ++ arrived') tree tree'' := by
  constructor
  · intro path content
    rw [h'.files, h.files, List.mem_append, or_assoc]
  · intro path
    rw [h'.folders, h.folders, or_assoc]
    simp only [List.mem_append, or_and_right, exists_or]

theorem Mirrored.perm {arrived arrived' : List (List κ × β)} {tree tree' : FileTree κ β}
    (h : Mirrored arrived tree tree') (hperm : arrived.Perm arrived') :
    Mirrored arrived' tree tree' := by
  constructor
  · intro path content
    rw [h.files, hperm.mem_iff]
  · intro path
    rw [h.folders]
    simp only [hperm.mem_iff]

theorem Mirrored.keeps {arrived : List (List κ × β)} {tree tree' : FileTree κ β}
    (h : Mirrored arrived tree tree') {path : List κ} {node : FileNode β}
    (hnode : tree.find path = some node) : tree'.find path = some node := by
  cases node with
  | file content => exact (h.files path content).mpr (Or.inl hnode)
  | folder => exact (h.folders path).mpr (Or.inl hnode)

theorem mirrored_put [DecidableEq κ] {folder : List κ} {name : κ} {content : β}
    {tree tree' : FileTree κ β} (hfree : tree.find (folder ++ [name]) = none)
    (hgrowth : FolderGrowth folder tree tree') (hfolder : tree'.find folder = some .folder)
    (h : tree'.CanPut (folder ++ [name])) :
    Mirrored [(folder ++ [name], content)] tree (tree'.put (folder ++ [name]) (.file content) h) := by
  have hbelow : ∀ path, StrictlyBelow path (folder ++ [name]) ↔ path <+: folder := by
    intro path
    rw [strictlyBelow_iff (by simp), List.dropLast_concat]
  constructor
  · intro path content'
    rw [find_put, List.mem_singleton, Prod.mk.injEq]
    by_cases heq : path = folder ++ [name]
    · rw [if_pos heq, heq, hfree]
      simp [eq_comm]
    · rw [if_neg heq, hgrowth.find_eq hfolder]
      by_cases hpre : path <+: folder
      · rw [if_pos hpre]
        simp only [Option.some.injEq, reduceCtorEq, heq, false_and, or_false, false_iff]
        intro hfile
        have hkept := hgrowth.keeps path _ hfile
        rw [hgrowth.find_eq hfolder, if_pos hpre] at hkept
        cases hkept
      · rw [if_neg hpre]
        simp only [heq, false_and, or_false]
  · intro path
    rw [find_put]
    simp only [List.mem_singleton, exists_eq_left, hbelow]
    by_cases heq : path = folder ++ [name]
    · have hnot : ¬ path <+: folder := by
        intro hpre
        have hlength := hpre.length_le
        rw [heq, List.length_append, List.length_singleton] at hlength
        omega
      rw [if_pos heq, heq, hfree]
      rw [heq] at hnot
      simp only [Option.some.injEq, reduceCtorEq, hnot, or_self]
    · rw [if_neg heq, hgrowth.find_eq hfolder]
      by_cases hpre : path <+: folder
      · rw [if_pos hpre]
        simp only [hpre, or_true]
      · rw [if_neg hpre]
        simp only [hpre, or_false]

end FileTree

end Lib
