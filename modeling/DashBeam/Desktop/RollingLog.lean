import DashBeam.Collection.Preview
import DashBeam.Desktop.Logging
import DashBeam.Lib.Machine
import DashBeam.Lib.Past
import DashBeam.Lib.Retention

/-!
# What the log directory holds

The file sink of `src-tauri/src/logging.rs`: `init` prunes the directory and opens a new file when debug
logging is on, `RollingWriter` goes over to a new file at the cap and prunes again, `set_enabled` and
`clear` come from the settings. A marker in the config dir says whether the next launch logs, and since
when.

A run is over any number of launches, and any file operation of a step can fail. The directory stays
bounded, its text is the end of what was logged with nothing left out in between, and unless the logs
were cleared it holds the session's last lines up to nearly twice the cap (`logs_retained`). A session
writes to disk only if it began within a week of debug logging being switched on
(`logging_was_switched_on`).

A step happens at one time, in nanoseconds, and that is the stamp of a file it creates and the change
time of a file it writes.
-/

namespace DashBeam.Desktop.RollingLog

open Lib
open Lib.Retention (overflow sumOf Within)
open Collection (OsStr saturatingAdd64)

/-! ## The directory -/

def maxFileBytes : Nat := 1024 * 1024

def maxDirBytes : Nat := 4 * 1024 * 1024

def maxSessionFiles : Nat := 3

def maxEnabledAgeSecs : Nat := 7 * 24 * 60 * 60

/-- A session log: the stamp in its name, when it was last changed, and what is in it. -/
structure LogFile where
  stamp : Nat
  modified : Nat
  content : Bytes
  deriving DecidableEq, Repr

def logName (stamp : Nat) : Text := logPrefix ++ Nat.toDigits 10 stamp ++ logSuffix

namespace LogFile

def len (file : LogFile) : Nat := file.content.length

def name (file : LogFile) : OsStr := .text (logName file.stamp)

/-- The file as the directory shows it. Pruning does not read it. -/
def entry (file : LogFile) : LogEntry Unit :=
  ⟨file.name, true, .ok ⟨file.len, some file.modified⟩, none⟩

def log (file : LogFile) : SessionLog Unit := ⟨file.entry, file.len, file.modified⟩

end LogFile

/-- What the file system answers: the order in which `read_dir` gives the logs, if it can, and the names
that `remove_file` fails for. -/
structure PruneIo where
  order : Option (List LogFile)
  kept : List OsStr
  deriving DecidableEq, Repr

/-- The directory that holds `files`, if that is what the answer is about. -/
def PruneIo.dir (io : PruneIo) (files : List LogFile) : Option (LogDir Unit) :=
  match io.order with
  | none => some (.unreadable ())
  | some order =>
    if order.isPerm files then some (.entries (order.map fun file => some file.entry)) else none

/-- `fs::remove_file`, its error ignored. -/
def removeFile (kept : List OsStr) (files : List LogFile) (name : OsStr) : List LogFile :=
  if name ∈ kept then files else files.filter fun file => file.name ≠ name

/-- The loop of `prune` over the logs, the newest first. -/
def pruneLoop (kept : List OsStr) : Nat → Nat → List (SessionLog Unit) → List LogFile → List LogFile
  | _, _, [], files => files
  | index, total, log :: rest, files =>
    let total := saturatingAdd64 total log.len
    if index ≥ maxSessionFiles ∨ total > maxDirBytes then
      pruneLoop kept (index + 1) total rest (removeFile kept files log.entry.name)
    else pruneLoop kept (index + 1) total rest files

/-- `clear`, which goes on past a file it cannot remove. -/
def clear (io : PruneIo) (files : List LogFile) : Option (List LogFile) :=
  (io.dir files).map fun dir =>
    match sessionLogs dir with
    | .error _ => files
    | .ok logs => logs.foldl (fun files log => removeFile io.kept files log.entry.name) files

/-- `prune`. Its callers ignore its error. -/
def prune (io : PruneIo) (enabled : Bool) (files : List LogFile) : Option (List LogFile) :=
  if !enabled then clear io files
  else
    (io.dir files).map fun dir =>
      match sessionLogs dir with
      | .error _ => files
      | .ok logs => pruneLoop io.kept 0 0 logs files

/-- `create_log_file`, when it succeeds. -/
def createLogFile (now : Nat) (files : List LogFile) : List LogFile :=
  if files.any fun file => file.stamp = now then files else files ++ [⟨now, now, []⟩]

/-- A write through the handle of the file with this stamp, which may have been removed. -/
def appendFile (stamp now : Nat) (bytes : Bytes) (files : List LogFile) : List LogFile :=
  files.map fun file =>
    if file.stamp = stamp then { file with modified := now, content := file.content ++ bytes } else file

/-! ## The sink -/

/-- `RollingWriter`: the open file by its stamp. -/
structure RollingWriter where
  file : Nat
  written : Nat
  cap : Nat
  deriving DecidableEq, Repr

/-- Whether a roll can create its file, what its pruning meets, and how much of the buffer `write` takes,
if it works. -/
structure WriteIo where
  created : Bool
  prune : PruneIo
  accepted : Option Nat
  deriving DecidableEq, Repr

namespace RollingWriter

/-- The end of `write`: what is accepted of the buffer. -/
def append (w : RollingWriter) (buf : Bytes) (accepted : Option Nat) (now : Nat)
    (files : List LogFile) : RollingWriter × List LogFile × List Bytes :=
  match accepted with
  | none => (w, files, [])
  | some n =>
    ({ w with written := saturatingAdd64 w.written (buf.take n).length },
      appendFile w.file now (buf.take n) files, [buf.take n])

/-- `write` rolls over before a buffer that passes the cap, unless the file is empty. -/
def write (w : RollingWriter) (buf : Bytes) (io : WriteIo) (now : Nat) (files : List LogFile) :
    Option (RollingWriter × List LogFile × List Bytes) :=
  if w.written > 0 ∧ saturatingAdd64 w.written buf.length > w.cap then
    if !io.created then some (w, files, [])
    else
      (prune io.prune true (createLogFile now files)).map
        ({ w with file := now, written := 0 }.append buf io.accepted now)
  else some (w.append buf io.accepted now files)

end RollingWriter

/-! ## The app -/

/-- The marker file, if there is one, holds the second in which logging was switched on, if it can be
read. -/
abbrev Marker := Option (Option Nat)

def nanosPerSec : Nat := 1000000000

def isExpired (now since : Nat) : Bool := now / nanosPerSec - since > maxEnabledAgeSecs

/-- `is_enabled`, with `enabled_since`. -/
def isEnabled (marker : Marker) (readable : Bool) (now : Nat) : Bool :=
  match marker with
  | none => false
  | some since =>
    match if readable then since else none with
    | none => true
    | some since => !isExpired now since

/-- The marker is written or removed, or not; a write that fails leaves anything. -/
inductive MarkerIo
  | done
  | failed (left : Marker)
  deriving DecidableEq, Repr

structure State where
  marker : Marker
  files : List LogFile
  writer : Option RollingWriter
  deriving DecidableEq, Repr

/-- The app was never launched. -/
def initial : State := ⟨none, [], none⟩

inductive Act
  /-- `set_debug_logging`. -/
  | setDebugLogging (enabled : Bool) (io : MarkerIo) (cleared : PruneIo)
  /-- `clear_debug_logs`. -/
  | clearDebugLogs (io : PruneIo)
  /-- The process ended, however it did, and the app is launched again: `init`. -/
  | launch (readable removed : Bool) (pruned : PruneIo) (created : Bool)
  /-- The worker of the sink writes a buffer. -/
  | write (buf : Bytes) (io : WriteIo)
  deriving DecidableEq, Repr

def setEnabled (marker : Marker) (enabled : Bool) (io : MarkerIo) (now : Nat) : Marker :=
  match enabled, io with
  | true, .done => some (some (now / nanosPerSec))
  | true, .failed left => left
  | false, .done => none
  | false, .failed _ => marker

def init (cap now : Nat) (readable removed : Bool) (pruned : PruneIo) (created : Bool) (s : State) :
    Option State :=
  let enabled := isEnabled s.marker readable now
  let marker := if !enabled && removed then none else s.marker
  (prune pruned enabled s.files).map fun files =>
    if enabled && created then ⟨marker, createLogFile now files, some ⟨now, 0, cap⟩⟩
    else ⟨marker, files, none⟩

/-- A step at the time `now`. -/
def step (cap : Nat) (s : State) (a : Nat × Act) : Option (State × List Bytes) :=
  match a.2 with
  | .setDebugLogging enabled io cleared =>
    let s' := { s with marker := setEnabled s.marker enabled io a.1 }
    if !enabled && io == .done then
      (clear cleared s.files).map fun files => ({ s' with files := files }, [])
    else some (s', [])
  | .clearDebugLogs io => (clear io s.files).map fun files => ({ s with files := files }, [])
  | .launch readable removed pruned created =>
    (init cap a.1 readable removed pruned created s).map fun s' => (s', [])
  | .write buf io =>
    match s.writer with
    | none => none
    | some w =>
      (w.write buf io a.1 s.files).map fun r => ({ s with writer := some r.1, files := r.2.1 }, r.2.2)

/-- The sink of a process that was launched with the cap `cap`; `init` passes `maxFileBytes`. -/
def machine (cap : Nat) : Machine State (Nat × Act) Bytes := ⟨step cap⟩

abbrev LogStep := Entry State (Nat × Act) Bytes

/-! ## Pruning -/

section

variable {now stamp : Nat} {files files' : List LogFile} {file : LogFile} {io : PruneIo}
  {bytes : Bytes}

theorem logName_inj {m n : Nat} (h : logName m = logName n) : m = n := by
  have hdigits := List.append_cancel_left (List.append_cancel_right h)
  rw [← Nat.ofDigitChars_ten_toDigits (n := m), hdigits, Nat.ofDigitChars_ten_toDigits]

theorem isLogFile_name (file : LogFile) : isLogFile file.name = true := by
  show (logPrefix.isPrefixOf (logName file.stamp) && logSuffix.isSuffixOf (logName file.stamp)) = true
  rw [Bool.and_eq_true, List.isPrefixOf_iff_prefix, List.isSuffixOf_iff_suffix]
  refine ⟨⟨Nat.toDigits 10 file.stamp ++ logSuffix, ?_⟩, ⟨logPrefix ++ Nat.toDigits 10 file.stamp, rfl⟩⟩
  rw [logName, List.append_assoc]

/-- The files in the order of their change times, no two of one name. -/
def Dated (files : List LogFile) : Prop :=
  files.Pairwise fun a b => a.modified < b.modified ∧ a.stamp ≠ b.stamp

theorem Dated.nodup_names (h : Dated files) : (files.map LogFile.name).Nodup := by
  rw [List.Nodup, List.pairwise_map]
  apply h.imp
  rintro a b ⟨-, hne⟩ hname
  exact hne (logName_inj (OsStr.text.inj hname))

theorem sessionLogs_entries {order : List LogFile} (h : Dated files) (hperm : order.Perm files) :
    sessionLogs (.entries (order.map fun file => some file.entry)) =
      .ok (files.reverse.map LogFile.log) := by
  have hentries : (order.map fun file => some file.entry).filterMap id = order.map LogFile.entry := by
    rw [List.filterMap_map]
    exact congrFun List.filterMap_eq_map order
  have hlogs : (LogDir.entries (order.map fun file => some file.entry)).logs =
      order.map LogFile.log := by
    rw [LogDir.logs, hentries, List.filterMap_map]
    refine (List.filterMap_congr fun file _ => ?_).trans (congrFun List.filterMap_eq_map order)
    show LogEntry.log file.entry = some file.log
    rw [LogEntry.log, show isLogFile file.entry.name = true from isLogFile_name file]
    rfl
  have hlistable : (LogDir.entries (order.map fun file => some file.entry)).Listable := by
    intro entry hentry _ _
    obtain ⟨file, -, heq⟩ := List.mem_map.mp hentry
    exact ⟨⟨file.len, some file.modified⟩, by rw [← Option.some.inj heq]; rfl⟩
  rw [sessionLogs_ok hlistable, hlogs]
  congr 1
  have htotal : Std.Total fun a b : SessionLog Unit => b.modified ≤ a.modified :=
    ⟨fun a b => le_total b.modified a.modified⟩
  have htrans : IsTrans (SessionLog Unit) fun a b => b.modified ≤ a.modified :=
    ⟨fun a b c hab hbc => le_trans hbc hab⟩
  have hmap : ((order.map LogFile.log).insertionSort fun a b => b.modified ≤ a.modified).Perm
      (files.reverse.map LogFile.log) :=
    (List.perm_insertionSort _ _).trans ((hperm.trans (List.reverse_perm files).symm).map _)
  refine List.Perm.eq_of_pairwise ?_ (List.pairwise_insertionSort _ _) ?_ hmap
  · -- two logs changed at one time are one
    intro a b ha hb hab hba
    obtain ⟨x, hx, rfl⟩ := List.mem_map.mp (hmap.mem_iff.mp ha)
    obtain ⟨y, hy, rfl⟩ := List.mem_map.mp hb
    rw [List.mem_reverse] at hx hy
    have heq : x.modified = y.modified := Int.ofNat_inj.mp (le_antisymm hba hab)
    have hnodup : (files.map LogFile.modified).Nodup := by
      rw [List.Nodup, List.pairwise_map]
      exact h.imp fun hlt => Nat.ne_of_lt hlt.1
    rw [List.inj_on_of_nodup_map hnodup hx hy heq]
  · rw [List.pairwise_map, List.pairwise_reverse]
    exact h.imp fun hlt => Int.ofNat_le.mpr hlt.1.le

theorem dir_of_listed {order : List LogFile} (horder : io.order = some order) {dir : LogDir Unit}
    (h : io.dir files = some dir) :
    order.Perm files ∧ dir = .entries (order.map fun file => some file.entry) := by
  rw [PruneIo.dir, horder] at h
  dsimp only at h
  split at h
  · rename_i hperm
    exact ⟨List.isPerm_iff.mp hperm, (Option.some.inj h).symm⟩
  · cases h

theorem foldl_removeFile (kept : List OsStr) (logs : List (SessionLog Unit)) (files : List LogFile) :
    logs.foldl (fun files log => removeFile kept files log.entry.name) files =
      files.filter fun file => file.name ∈ kept ∨ file.name ∉ logs.map fun log => log.entry.name := by
  induction logs generalizing files with
  | nil => simp
  | cons log rest ih =>
    rw [List.foldl_cons, ih, removeFile]
    by_cases hkept : log.entry.name ∈ kept
    · rw [if_pos hkept]
      apply List.filter_congr
      intro file _
      grind
    · rw [if_neg hkept, List.filter_filter]
      apply List.filter_congr
      intro file _
      grind

theorem pruneLoop_eq (logs : List (SessionLog Unit)) (index total : Nat) (files : List LogFile) :
    pruneLoop [] index total logs files =
      (overflow SessionLog.len maxSessionFiles maxDirBytes (2 ^ 64 - 1) index total logs).foldl
        (fun files log => removeFile [] files log.entry.name) files := by
  induction logs generalizing index total files with
  | nil => rfl
  | cons log rest ih =>
    rw [pruneLoop, overflow, ← saturatingAdd64]
    by_cases hover : maxSessionFiles ≤ index ∨ maxDirBytes < saturatingAdd64 total log.len
    · rw [if_pos hover, if_pos hover, ih, List.foldl_cons]
    · rw [if_neg hover, if_neg hover, ih]

/-- What the files hold together. -/
def dirBytes (files : List LogFile) : Nat := sumOf LogFile.len files

@[simp]
theorem dirBytes_nil : dirBytes [] = 0 := rfl

@[simp]
theorem dirBytes_append (files files' : List LogFile) :
    dirBytes (files ++ files') = dirBytes files + dirBytes files' :=
  Retention.sumOf_append files'

@[simp]
theorem dirBytes_cons (file : LogFile) (files : List LogFile) :
    dirBytes (file :: files) = file.len + dirBytes files :=
  Retention.sumOf_cons

theorem dirBytes_reverse (files : List LogFile) : dirBytes files.reverse = dirBytes files :=
  Retention.sumOf_reverse files

/-- The newest files are kept, up to the count and the budget. -/
structure Pruned (files files' : List LogFile) : Prop where
  suffix : files' <:+ files
  count_le : files'.length ≤ maxSessionFiles
  room : dirBytes files' ≤ maxDirBytes
  keeps : ∀ recent, recent <:+ files → recent.length ≤ maxSessionFiles →
    dirBytes recent ≤ maxDirBytes → recent <:+ files'

theorem sumOf_map_log (files : List LogFile) :
    sumOf SessionLog.len (files.map LogFile.log) = dirBytes files := by
  rw [sumOf, List.map_map]
  rfl

theorem prune_enabled {order : List LogFile} (hdated : Dated files) (horder : io.order = some order)
    (hkept : io.kept = []) (h : prune io true files = some files') : Pruned files files' := by
  rw [prune, if_neg (by decide)] at h
  obtain ⟨dir, hdir, rfl⟩ := Option.map_eq_some_iff.mp h
  obtain ⟨hperm, rfl⟩ := dir_of_listed horder hdir
  obtain ⟨kept, hsplit, hwithin⟩ := Retention.overflow_spec SessionLog.len
    (files.reverse.map LogFile.log) (show maxDirBytes < 2 ^ 64 - 1 by decide)
    (Nat.zero_le maxSessionFiles) (Nat.zero_le maxDirBytes)
  rw [sessionLogs_entries hdated hperm, hkept]
  dsimp only
  rw [pruneLoop_eq, foldl_removeFile]
  obtain ⟨newest, oldest, hreverse, rfl, hover⟩ := List.map_eq_append_iff.mp hsplit
  rw [← hover]
  have hfiles : files = oldest.reverse ++ newest.reverse := by
    rw [← List.reverse_append, ← hreverse, List.reverse_reverse]
  have hfilter : (files.filter fun file => file.name ∈ [] ∨ file.name ∉ (oldest.map LogFile.log).map
      fun log => log.entry.name) = newest.reverse := by
    have hnodup := hdated.nodup_names
    rw [hfiles, List.map_append, List.nodup_append] at hnodup
    have hnames : (oldest.map LogFile.log).map (fun log => log.entry.name) =
        oldest.map LogFile.name := by
      rw [List.map_map]
      rfl
    rw [hnames, hfiles, List.filter_append, List.filter_eq_nil_iff.mpr, List.filter_eq_self.mpr,
      List.nil_append]
    · intro file hfile
      apply decide_eq_true
      refine Or.inr fun hmem => ?_
      refine hnodup.2.2 file.name ?_ file.name (List.mem_map_of_mem hfile) rfl
      rwa [List.map_reverse, List.mem_reverse]
    · intro file hfile
      rw [List.mem_reverse] at hfile
      simpa using ⟨file, hfile, rfl⟩
  rw [hfilter]
  refine ⟨⟨oldest.reverse, hfiles.symm⟩, ?_, ?_, fun recent hrecent hcount hroom => ?_⟩
  · have hcount := hwithin.count_le
    rwa [Nat.zero_add, List.length_map, ← List.length_reverse] at hcount
  · have hsize := hwithin.size_le
    rwa [Nat.zero_add, sumOf_map_log, ← dirBytes_reverse] at hsize
  · have hfront := hwithin.keeps (recent.reverse.map LogFile.log)
      ((List.reverse_prefix.mpr hrecent).map _)
      (by rwa [Nat.zero_add, List.length_map, List.length_reverse])
      (by rwa [Nat.zero_add, sumOf_map_log, dirBytes_reverse])
    have hlength := hfront.length_le
    rw [List.length_map, List.length_map, List.length_reverse, ← @List.length_reverse _ newest]
      at hlength
    exact List.suffix_of_suffix_length_le hrecent ⟨oldest.reverse, hfiles.symm⟩ hlength

theorem clear_listed {order : List LogFile} (hdated : Dated files) (horder : io.order = some order)
    (h : clear io files = some files') : files' = files.filter fun file => file.name ∈ io.kept := by
  rw [clear] at h
  obtain ⟨dir, hdir, rfl⟩ := Option.map_eq_some_iff.mp h
  obtain ⟨hperm, rfl⟩ := dir_of_listed horder hdir
  rw [sessionLogs_entries hdated hperm]
  dsimp only
  rw [foldl_removeFile]
  apply List.filter_congr
  intro file hfile
  have hname : file.name ∈ (files.reverse.map LogFile.log).map fun log => log.entry.name := by
    rw [List.map_map]
    exact List.mem_map_of_mem (f := fun file => file.log.entry.name) (List.mem_reverse.mpr hfile)
  simp only [hname, not_true_eq_false, or_false]

theorem clear_cases (hdated : Dated files) (h : clear io files = some files') :
    files' = files ∨ files' = files.filter fun file => file.name ∈ io.kept := by
  cases horder : io.order with
  | some order => exact Or.inr (clear_listed hdated horder h)
  | none =>
    rw [clear, PruneIo.dir, horder] at h
    exact Or.inl (Option.some.inj h).symm

/-! ## Creating and writing -/

/-- Everything in the directory is older than the step. -/
def Before (now : Nat) (files : List LogFile) : Prop :=
  ∀ file ∈ files, file.modified < now ∧ file.stamp < now

instance (now : Nat) (files : List LogFile) : Decidable (Before now files) := by
  unfold Before
  infer_instance

theorem Before.of_suffix (h : Before now files) (hsuffix : files' <:+ files) : Before now files' :=
  fun file hfile => h file (hsuffix.subset hfile)

theorem createLogFile_eq (h : Before now files) : createLogFile now files = files ++ [⟨now, now, []⟩] := by
  rw [createLogFile, if_neg]
  intro hany
  obtain ⟨file, hfile, hstamp⟩ := List.any_eq_true.mp hany
  have hlt := (h file hfile).2
  rw [of_decide_eq_true hstamp] at hlt
  exact Nat.lt_irrefl now hlt

theorem Dated.create (h : Dated files) (hbefore : Before now files) :
    Dated (files ++ [⟨now, now, []⟩]) := by
  refine List.pairwise_append.mpr ⟨h, List.pairwise_singleton _ _, fun file hfile new hnew => ?_⟩
  obtain rfl := List.mem_singleton.mp hnew
  exact ⟨(hbefore file hfile).1, Nat.ne_of_lt (hbefore file hfile).2⟩

theorem Dated.of_suffix (h : Dated files) (hsuffix : files' <:+ files) : Dated files' :=
  List.Pairwise.sublist hsuffix.sublist h

theorem appendFile_last {init : List LogFile} (h : Dated (init ++ [file])) :
    appendFile file.stamp now bytes (init ++ [file]) =
      init ++ [{ file with modified := now, content := file.content ++ bytes }] := by
  have hothers : ∀ other ∈ init, other.stamp ≠ file.stamp := fun other hother =>
    ((List.pairwise_append.mp h).2.2 other hother file (List.mem_singleton_self file)).2
  rw [appendFile, List.map_append]
  congr 1
  · refine (List.map_congr_left fun other hother => ?_).trans (List.map_id init)
    exact if_neg (hothers other hother)
  · rw [List.map_singleton, if_pos rfl]

theorem Dated.write {init : List LogFile} (h : Dated (init ++ [file]))
    (hbefore : ∀ other ∈ init, other.modified < now) :
    Dated (init ++ [{ file with modified := now, content := file.content ++ bytes }]) := by
  obtain ⟨hinit, -, hlast⟩ := List.pairwise_append.mp h
  refine List.pairwise_append.mpr ⟨hinit, List.pairwise_singleton _ _, fun other hother new hnew => ?_⟩
  obtain rfl := List.mem_singleton.mp hnew
  exact ⟨hbefore other hother, (hlast other hother file (List.mem_singleton_self file)).2⟩

def textOf (files : List LogFile) : Bytes := (files.map LogFile.content).flatten

@[simp]
theorem textOf_nil : textOf [] = [] := rfl

@[simp]
theorem textOf_append (files files' : List LogFile) :
    textOf (files ++ files') = textOf files ++ textOf files' := by
  rw [textOf, List.map_append, List.flatten_append, textOf, textOf]

@[simp]
theorem textOf_singleton (file : LogFile) : textOf [file] = file.content := by
  rw [textOf, List.map_singleton, List.flatten_singleton]

theorem textOf_suffix (h : files' <:+ files) : textOf files' <:+ textOf files := by
  obtain ⟨older, rfl⟩ := h
  rw [textOf_append]
  apply List.suffix_append

theorem length_textOf (files : List LogFile) : (textOf files).length = dirBytes files := by
  rw [textOf, List.length_flatten, List.map_map, dirBytes, sumOf]
  rfl

end

/-! ## Runs -/

def launches (e : LogStep) : Bool :=
  match e.act.2 with
  | .launch _ _ _ _ => true
  | _ => false

/-- The step removes the logs, as far as it can. -/
def Clears (e : LogStep) : Prop :=
  match e.act.2 with
  | .setDebugLogging enabled io _ => enabled = false ∧ io = .done
  | .clearDebugLogs _ => True
  | _ => False

def logged (tr : List LogStep) : Bytes := (tr.map fun e => e.out.flatten).flatten

/-- What it accepted since the last launch. -/
def sessionText (tr : List LogStep) : Bytes := logged (tr.rtakeWhile fun e => !launches e)

/-- The directory can be listed and its files removed. -/
def PruneIo.Works (io : PruneIo) : Prop := io.order ≠ none ∧ io.kept = []

/-- Only the file that is open may resist its removal. -/
def PruneIo.KeepsOpen (io : PruneIo) (s : State) : Prop :=
  ∀ name ∈ io.kept, ∃ w ∈ s.writer, name = .text (logName w.file)

/-- The clock is ahead of every file, pruning works, no buffer is longer than `longest`. -/
def Regular (longest : Nat) (s : State) (a : Nat × Act) : Prop :=
  Before a.1 s.files ∧
    match a.2 with
    | .setDebugLogging _ _ cleared => cleared.KeepsOpen s
    | .clearDebugLogs io => io.KeepsOpen s
    | .launch _ _ pruned _ => pruned.Works
    | .write buf io => io.prune.Works ∧ buf.length ≤ longest

section

variable {cap longest now : Nat} {tr : List LogStep} {e : LogStep} {s s' : State} {a : Nat × Act}
  {out : List Bytes} {w : RollingWriter} {files files' before closed : List LogFile}
  {current file : LogFile} {io : PruneIo}

theorem logged_snoc (tr : List LogStep) (e : LogStep) :
    logged (tr ++ [e]) = logged tr ++ e.out.flatten := by
  rw [logged, List.map_append, List.flatten_append, List.map_singleton, List.flatten_singleton, logged]

theorem sessionText_launch (h : launches e = true) : sessionText (tr ++ [e]) = [] := by
  rw [sessionText, List.rtakeWhile_concat_neg _ _ _ (by simp [h])]
  rfl

theorem sessionText_snoc (h : launches e = false) :
    sessionText (tr ++ [e]) = sessionText tr ++ e.out.flatten := by
  rw [sessionText, List.rtakeWhile_concat_pos _ _ _ (by simp [h]), logged_snoc, sessionText]

theorem sessionText_suffix (tr : List LogStep) : sessionText tr <:+ logged tr := by
  obtain ⟨older, holder⟩ := List.rtakeWhile_suffix (p := fun e => !launches e) (l := tr)
  rw [← holder, sessionText, logged, logged, List.map_append, List.flatten_append, holder]
  apply List.suffix_append

/-- The logs were cleared since the launch. -/
abbrev Cleared (tr : List LogStep) : Prop := Since Clears (fun e => launches e = true) tr

theorem Cleared.snoc (h : Cleared tr) (he : launches e = false) : Cleared (tr ++ [e]) :=
  Since.snoc_keep h (by rw [he]; exact Bool.false_ne_true)

/-- The open file is the last one, after the full ones that this session closed and what came
before. -/
structure Sunk (cap longest : Nat) (tr : List LogStep) (w : RollingWriter)
    (before closed : List LogFile) (current : LogFile) : Prop where
  file : current.stamp = w.file
  written : w.written = min current.len (2 ^ 64 - 1)
  fits : current.len ≤ max cap longest
  count_le : (before ++ closed).length ≤ maxSessionFiles
  room : dirBytes (before ++ closed) ≤ maxDirBytes
  full : ∀ file ∈ closed, cap < file.len + longest ∧ file.len ≤ max cap longest
  session : Cleared tr ∨ sessionText tr <:+ textOf (closed ++ [current]) ∨ 2 ≤ closed.length

/-- What holds while the sink is open. After a clear its file may be gone. -/
structure Open (cap longest : Nat) (tr : List LogStep) (w : RollingWriter) (files : List LogFile) :
    Prop where
  capped : w.cap = cap
  dated : Dated files
  text : textOf files <:+ logged tr
  sunk : (∃ before closed current, files = before ++ closed ++ [current] ∧
    Sunk cap longest tr w before closed current) ∨ (files = [] ∧ Cleared tr)

/-- What holds while the process does not log. -/
structure Shut (tr : List LogStep) (files : List LogFile) : Prop where
  dated : Dated files
  text : textOf files <:+ logged tr
  silent : sessionText tr = []
  count_le : files.length ≤ maxSessionFiles
  room : dirBytes files ≤ maxDirBytes

def Kept (cap longest : Nat) (tr : List LogStep) (s : State) : Prop :=
  match s.writer with
  | none => Shut tr s.files
  | some w => Open cap longest tr w s.files

/-! ### A step that leaves the directory -/

theorem Sunk.quiet (h : Sunk cap longest tr w before closed current) (hout : e.out = [])
    (hlaunch : launches e = false) : Sunk cap longest (tr ++ [e]) w before closed current where
  file := h.file
  written := h.written
  fits := h.fits
  count_le := h.count_le
  room := h.room
  full := h.full
  session := by
    rw [sessionText_snoc hlaunch, hout, List.flatten_nil, List.append_nil]
    exact h.session.imp_left fun hcleared => hcleared.snoc hlaunch

theorem Open.quiet (h : Open cap longest tr w files) (hout : e.out = [])
    (hlaunch : launches e = false) : Open cap longest (tr ++ [e]) w files where
  capped := h.capped
  dated := h.dated
  text := by
    rw [logged_snoc, hout, List.flatten_nil, List.append_nil]
    exact h.text
  sunk := by
    rcases h.sunk with ⟨before, closed, current, heq, hsunk⟩ | ⟨heq, hcleared⟩
    · exact Or.inl ⟨before, closed, current, heq, hsunk.quiet hout hlaunch⟩
    · exact Or.inr ⟨heq, hcleared.snoc hlaunch⟩

theorem Shut.quiet (h : Shut tr files) (hout : e.out = []) (hlaunch : launches e = false) :
    Shut (tr ++ [e]) files where
  dated := h.dated
  text := by
    rw [logged_snoc, hout, List.flatten_nil, List.append_nil]
    exact h.text
  silent := by
    rw [sessionText_snoc hlaunch, hout, List.flatten_nil, List.append_nil]
    exact h.silent
  count_le := h.count_le
  room := h.room

theorem Kept.quiet (h : Kept cap longest tr s) (hfiles : s'.files = s.files)
    (hwriter : s'.writer = s.writer) (hout : e.out = []) (hlaunch : launches e = false) :
    Kept cap longest (tr ++ [e]) s' := by
  rw [Kept] at h ⊢
  rw [hwriter, hfiles]
  cases hw : s.writer with
  | none =>
    rw [hw] at h
    exact Shut.quiet h hout hlaunch
  | some w =>
    rw [hw] at h
    exact Open.quiet h hout hlaunch

/-! ### Clearing -/

theorem Open.clear (h : Open cap longest tr w files) (hout : e.out = []) (hclears : Clears e)
    (hlaunch : launches e = false) (hkept : ∀ name ∈ io.kept, name = .text (logName w.file))
    (hclear : clear io files = some files') : Open cap longest (tr ++ [e]) w files' := by
  rcases clear_cases h.dated hclear with rfl | hfilter
  · exact h.quiet hout hlaunch
  have hcleared : Cleared (tr ++ [e]) := Since.snoc_now hclears
  have hgone : Open cap longest (tr ++ [e]) w [] :=
    ⟨h.capped, List.Pairwise.nil, List.nil_suffix, Or.inr ⟨rfl, hcleared⟩⟩
  rcases h.sunk with ⟨before, closed, current, rfl, hsunk⟩ | ⟨rfl, -⟩
  · have hothers : (before ++ closed).filter (fun file => file.name ∈ io.kept) = [] := by
      apply List.filter_eq_nil_iff.mpr
      intro file hfile hmem
      have hstamp := logName_inj (OsStr.text.inj (hkept _ (of_decide_eq_true hmem)))
      have hne := (List.pairwise_append.mp h.dated).2.2 file hfile current (List.mem_singleton_self _)
      exact hne.2 (hstamp.trans hsunk.file.symm)
    rw [List.filter_append, hothers, List.nil_append, List.filter_singleton] at hfilter
    by_cases hmem : current.name ∈ io.kept
    · -- the open file resists
      have hlast : files' = [current] := by simpa [hmem] using hfilter
      subst hlast
      refine ⟨h.capped, List.pairwise_singleton _ _, ?_, Or.inl ⟨[], [], current, rfl, ?_⟩⟩
      · rw [logged_snoc, hout, List.flatten_nil, List.append_nil]
        exact (textOf_suffix (List.suffix_append _ _)).trans h.text
      · exact ⟨hsunk.file, hsunk.written, hsunk.fits, Nat.zero_le _, Nat.zero_le _,
          fun file hfile => absurd hfile List.not_mem_nil, Or.inl hcleared⟩
    · have hempty : files' = [] := by simpa [hmem] using hfilter
      exact hempty ▸ hgone
  · exact hfilter ▸ hgone

theorem Shut.clear (h : Shut tr files) (hout : e.out = []) (hlaunch : launches e = false)
    (hkept : io.kept = []) (hclear : clear io files = some files') : Shut (tr ++ [e]) files' := by
  rcases clear_cases h.dated hclear with rfl | hfilter
  · exact h.quiet hout hlaunch
  · have hempty : files' = [] := by
      rw [hfilter, hkept]
      exact List.filter_eq_nil_iff.mpr fun file _ => by simp
    subst hempty
    have hquiet := h.quiet hout hlaunch
    exact ⟨List.Pairwise.nil, List.nil_suffix, hquiet.silent, Nat.zero_le _, Nat.zero_le _⟩

theorem Kept.clear (h : Kept cap longest tr s) (hout : e.out = []) (hclears : Clears e)
    (hlaunch : launches e = false) (hkept : io.KeepsOpen s)
    (hclear : RollingLog.clear io s.files = some files') (hfiles : s'.files = files')
    (hwriter : s'.writer = s.writer) : Kept cap longest (tr ++ [e]) s' := by
  rw [Kept] at h ⊢
  rw [hwriter, hfiles]
  cases hw : s.writer with
  | none =>
    rw [hw] at h
    refine Shut.clear h hout hlaunch (List.eq_nil_iff_forall_not_mem.mpr fun name hname => ?_) hclear
    obtain ⟨w, hsome, -⟩ := hkept name hname
    rw [hw] at hsome
    cases hsome
  | some w =>
    rw [hw] at h
    refine Open.clear h hout hclears hlaunch (fun name hname => ?_) hclear
    obtain ⟨w', hsome, hname⟩ := hkept name hname
    rw [hw] at hsome
    obtain rfl := Option.some.inj hsome
    exact hname

/-! ### A launch -/

theorem Kept.dated (h : Kept cap longest tr s) : Dated s.files := by
  rw [Kept] at h
  split at h
  · exact h.dated
  · exact h.dated

theorem Kept.text (h : Kept cap longest tr s) : textOf s.files <:+ logged tr := by
  rw [Kept] at h
  split at h
  · exact h.text
  · exact h.text

/-- What a launch leaves of the directory is an end of it within the bounds. -/
theorem prune_works {enabled : Bool} (hdated : Dated files) (hworks : io.Works)
    (h : prune io enabled files = some files') :
    files' <:+ files ∧ files'.length ≤ maxSessionFiles ∧ dirBytes files' ≤ maxDirBytes := by
  obtain ⟨order, horder⟩ := Option.ne_none_iff_exists'.mp hworks.1
  cases enabled with
  | true =>
    have hpruned := prune_enabled hdated horder hworks.2 h
    exact ⟨hpruned.suffix, hpruned.count_le, hpruned.room⟩
  | false =>
    have hempty : files' = [] := by
      rw [clear_listed hdated horder h, hworks.2]
      exact List.filter_eq_nil_iff.mpr fun file _ => by simp
    subst hempty
    exact ⟨List.nil_suffix, Nat.zero_le _, Nat.zero_le _⟩

theorem Kept.launch {readable removed created : Bool} (h : Kept cap longest tr s)
    (hlaunch : launches e = true) (hout : e.out = []) (hbefore : Before now s.files)
    (hworks : io.Works) (hinit : init cap now readable removed io created s = some s') :
    Kept cap longest (tr ++ [e]) s' := by
  obtain ⟨files, hprune, rfl⟩ := Option.map_eq_some_iff.mp hinit
  obtain ⟨hsuffix, hcount, hroom⟩ := prune_works h.dated hworks hprune
  have hdated := h.dated.of_suffix hsuffix
  have htext : textOf files <:+ logged (tr ++ [e]) := by
    rw [logged_snoc, hout, List.flatten_nil, List.append_nil]
    exact (textOf_suffix hsuffix).trans h.text
  split
  · have hbefore' := hbefore.of_suffix hsuffix
    rw [createLogFile_eq hbefore', Kept]
    refine ⟨rfl, hdated.create hbefore', ?_, Or.inl ⟨files, [], ⟨now, now, []⟩, by simp, ?_⟩⟩
    · rwa [textOf_append, textOf_singleton, List.append_nil]
    · refine ⟨rfl, rfl, Nat.zero_le _, ?_, ?_, fun file hfile => absurd hfile List.not_mem_nil, ?_⟩
      · rwa [List.append_nil]
      · rwa [List.append_nil]
      · rw [sessionText_launch hlaunch]
        exact Or.inr (Or.inl List.nil_suffix)
  · exact ⟨hdated, htext, sessionText_launch hlaunch, hcount, hroom⟩

/-! ### A write -/

/-- Going over to a new file keeps the two newest that this session filled. -/
theorem Open.roll (h : Open cap longest tr w files) (hcap : 2 * max cap longest ≤ maxDirBytes)
    (hbefore : Before now files) (hworks : io.Works)
    (hpassed : ∀ current, w.written = min current (2 ^ 64 - 1) → cap < current + longest)
    (hprune : prune io true (createLogFile now files) = some files') :
    Open cap longest tr { w with file := now, written := 0 } files' ∧
      ∀ file ∈ files', file.stamp = now ∨ file.modified < now := by
  obtain ⟨order, horder⟩ := Option.ne_none_iff_exists'.mp hworks.1
  rw [createLogFile_eq hbefore] at hprune
  have hcreated := h.dated.create hbefore
  have hpruned := prune_enabled hcreated horder hworks.2 hprune
  have hsuffix := hpruned.suffix
  have htext : textOf files' <:+ logged tr := by
    refine (textOf_suffix hsuffix).trans ?_
    rw [textOf_append, textOf_singleton, List.append_nil]
    exact h.text
  have hafter : ∀ file ∈ files', file.stamp = now ∨ file.modified < now := by
    intro file hfile
    rcases List.mem_append.mp (hsuffix.subset hfile) with hold | hnew
    · exact Or.inr (hbefore file hold).1
    · rw [List.mem_singleton] at hnew
      exact Or.inl (hnew ▸ rfl)
  refine ⟨⟨h.capped, hcreated.of_suffix hsuffix, htext, Or.inl ?_⟩, hafter⟩
  -- what is kept, for the files that this session closed
  have hkept : ∀ before closed, files = before ++ closed → closed.length ≤ 2 →
      (∀ file ∈ closed, cap < file.len + longest ∧ file.len ≤ max cap longest) →
      (Cleared tr ∨ sessionText tr <:+ textOf closed ∨ 2 ≤ closed.length) →
      ∃ before' closed' current', files' = before' ++ closed' ++ [current'] ∧
        Sunk cap longest tr { w with file := now, written := 0 } before' closed' current' := by
    intro before closed heq hlength hfull hsession
    have hroom : dirBytes closed ≤ closed.length * max cap longest := by
      rw [dirBytes, sumOf, ← List.length_map (f := LogFile.len)]
      apply List.sum_le_card_nsmul
      intro len hlen
      obtain ⟨file, hfile, rfl⟩ := List.mem_map.mp hlen
      exact (hfull file hfile).2
    have hnewest : closed ++ [⟨now, now, []⟩] <:+ files' := by
      apply hpruned.keeps
      · rw [heq, List.append_assoc]
        apply List.suffix_append
      · rw [List.length_append, List.length_singleton]
        exact Nat.succ_le_succ hlength
      · have htwice := Nat.mul_le_mul_right (max cap longest) hlength
        simp only [dirBytes_append, dirBytes_cons, dirBytes_nil, LogFile.len, List.length_nil]
        omega
    obtain ⟨older, holder⟩ := hnewest
    have hcount := hpruned.count_le
    have hbytes := hpruned.room
    rw [← holder, ← List.append_assoc] at hcount hbytes
    rw [List.length_append, List.length_singleton] at hcount
    rw [dirBytes_append] at hbytes
    refine ⟨older, closed, ⟨now, now, []⟩, ?_, rfl, rfl, Nat.zero_le _, by omega, by omega, hfull, ?_⟩
    · rw [← holder, List.append_assoc]
    · rw [textOf_append, textOf_singleton, List.append_nil]
      exact hsession
  rcases h.sunk with ⟨before, closed, current, rfl, hsunk⟩ | ⟨rfl, hcleared⟩
  · have hcurrent : cap < current.len + longest ∧ current.len ≤ max cap longest :=
      ⟨hpassed current.len hsunk.written, hsunk.fits⟩
    have hfull : ∀ file ∈ closed ++ [current],
        cap < file.len + longest ∧ file.len ≤ max cap longest := by
      intro file hfile
      rcases List.mem_append.mp hfile with hfile | hfile
      · exact hsunk.full file hfile
      · exact List.mem_singleton.mp hfile ▸ hcurrent
    by_cases hlength : (closed ++ [current]).length ≤ 2
    · refine hkept before (closed ++ [current]) (List.append_assoc _ _ _) hlength hfull ?_
      refine hsunk.session.imp_right fun hsession => hsession.imp_right fun htwo => ?_
      rw [List.length_append]
      exact htwo.trans (Nat.le_add_right _ _)
    · -- the last two are kept
      obtain ⟨older, hlast⟩ := Retention.rtake_suffix 2 (closed ++ [current])
      have htwo : ((closed ++ [current]).rtake 2).length = 2 := by
        rw [Retention.length_rtake]
        omega
      refine hkept (before ++ older) ((closed ++ [current]).rtake 2) ?_ htwo.le ?_ (by omega)
      · rw [List.append_assoc, List.append_assoc, hlast]
      · exact fun file hfile => hfull file (hlast ▸ List.mem_append_right older hfile)
  · exact hkept [] [] rfl (by decide) (fun file hfile => absurd hfile List.not_mem_nil)
      (Or.inl hcleared)

theorem Sunk.append {bytes : Bytes} (h : Sunk cap longest tr w before closed current)
    (hout : e.out = [bytes]) (hlaunch : launches e = false)
    (hfits : (current.content ++ bytes).length ≤ max cap longest) :
    Sunk cap longest (tr ++ [e]) { w with written := saturatingAdd64 w.written bytes.length } before
      closed { current with modified := now, content := current.content ++ bytes } where
  file := h.file
  written := by
    have hwritten := h.written
    simp only [LogFile.len, List.length_append, saturatingAdd64] at hwritten ⊢
    omega
  fits := hfits
  count_le := h.count_le
  room := h.room
  full := h.full
  session := by
    rcases h.session with hcleared | hsession | htwo
    · exact Or.inl (hcleared.snoc hlaunch)
    · refine Or.inr (Or.inl ?_)
      obtain ⟨older, holder⟩ := hsession
      refine ⟨older, ?_⟩
      rw [sessionText_snoc hlaunch, hout, List.flatten_singleton, ← List.append_assoc, holder]
      simp
    · exact Or.inr (Or.inr htwo)

theorem Open.append {buf : Bytes} {accepted : Option Nat}
    (h : Open cap longest tr w files) (hafter : ∀ file ∈ files, file.stamp = w.file ∨ file.modified < now)
    (hfits : ∀ current, w.written = min current (2 ^ 64 - 1) → current ≤ max cap longest →
      current + buf.length ≤ max cap longest)
    (hlaunch : launches e = false) (hout : e.out = (w.append buf accepted now files).2.2) :
    Open cap longest (tr ++ [e]) (w.append buf accepted now files).1
      (w.append buf accepted now files).2.1 := by
  cases accepted with
  | none => exact h.quiet hout hlaunch
  | some n =>
    rw [RollingWriter.append] at hout ⊢
    dsimp only at hout ⊢
    rcases h.sunk with ⟨before, closed, current, rfl, hsunk⟩ | ⟨rfl, hcleared⟩
    · have hdated := h.dated
      have hothers : ∀ other ∈ before ++ closed, other.modified < now := by
        intro other hother
        have hne := (List.pairwise_append.mp hdated).2.2 other hother current
          (List.mem_singleton_self _)
        rcases hafter other (List.mem_append_left _ hother) with hstamp | hlt
        · exact absurd (hstamp.trans hsunk.file.symm) hne.2
        · exact hlt
      have hlast : appendFile w.file now (buf.take n) (before ++ closed ++ [current]) = before ++ closed ++
          [{ current with modified := now, content := current.content ++ buf.take n }] := by
        rw [← hsunk.file]
        exact appendFile_last hdated
      rw [hlast]
      refine ⟨h.capped, hdated.write hothers, ?_, Or.inl ⟨before, closed, _, rfl, ?_⟩⟩
      · obtain ⟨older, holder⟩ := h.text
        refine ⟨older, ?_⟩
        rw [logged_snoc, hout, List.flatten_singleton, ← holder]
        simp
      · refine hsunk.append hout hlaunch ?_
        have hle := hfits current.len hsunk.written hsunk.fits
        have htake := List.length_take_le' n buf
        rw [LogFile.len] at hle
        rw [List.length_append]
        omega
    · exact ⟨h.capped, List.Pairwise.nil, List.nil_suffix, Or.inr ⟨rfl, hcleared.snoc hlaunch⟩⟩

theorem Open.write {buf : Bytes} {io : WriteIo} {r : RollingWriter × List LogFile × List Bytes}
    (h : Open cap longest tr w files) (hcap : 2 * max cap longest ≤ maxDirBytes)
    (hbefore : Before now files) (hworks : io.prune.Works) (hbuf : buf.length ≤ longest)
    (hlaunch : launches e = false) (hwrite : w.write buf io now files = some r) (hout : e.out = r.2.2) :
    Open cap longest (tr ++ [e]) r.1 r.2.1 := by
  have hsmall : max cap longest < 2 ^ 64 - 1 := by
    rw [maxDirBytes] at hcap
    omega
  rw [RollingWriter.write] at hwrite
  split at hwrite
  · rename_i hpassed
    split at hwrite
    · -- no new file, the buffer is not written
      rw [← Option.some.inj hwrite] at hout ⊢
      exact h.quiet hout hlaunch
    · obtain ⟨files', hprune, rfl⟩ := Option.map_eq_some_iff.mp hwrite
      obtain ⟨hopen, hafter⟩ := h.roll hcap hbefore hworks (fun current hcurrent => by
        have hcapped := h.capped
        rw [hcapped, saturatingAdd64] at hpassed
        omega) hprune
      refine hopen.append hafter (fun current hcurrent _ => ?_) hlaunch hout
      dsimp only at hcurrent
      omega
  · rename_i hfits
    rw [← Option.some.inj hwrite] at hout ⊢
    refine h.append (fun file hfile => Or.inr (hbefore file hfile).1) (fun current hcurrent hle => ?_)
      hlaunch hout
    have hcapped := h.capped
    rw [hcapped, saturatingAdd64] at hfits
    omega

/-! ### What a run keeps -/

theorem kept_step (hcap : 2 * max cap longest ≤ maxDirBytes) (h : Kept cap longest tr s)
    (hregular : Regular longest s a) (hstep : step cap s a = some (s', out)) :
    Kept cap longest (tr ++ [⟨s, a, s', out⟩]) s' := by
  obtain ⟨now, act⟩ := a
  obtain ⟨hbefore, hio⟩ := hregular
  cases act with
  | setDebugLogging enabled io cleared =>
    rw [step] at hstep
    dsimp only at hstep hio
    split at hstep
    · rename_i hoff
      simp only [Bool.and_eq_true, Bool.not_eq_true', beq_iff_eq] at hoff
      obtain ⟨files, hclear, heq⟩ := Option.map_eq_some_iff.mp hstep
      obtain ⟨rfl, rfl⟩ := Prod.mk.inj heq
      exact h.clear rfl hoff rfl hio hclear rfl rfl
    · obtain ⟨rfl, rfl⟩ := Prod.mk.inj (Option.some.inj hstep)
      exact h.quiet rfl rfl rfl rfl
  | clearDebugLogs io =>
    obtain ⟨files, hclear, heq⟩ := Option.map_eq_some_iff.mp hstep
    obtain ⟨rfl, rfl⟩ := Prod.mk.inj heq
    exact h.clear rfl trivial rfl hio hclear rfl rfl
  | launch readable removed pruned created =>
    obtain ⟨next, hinit, heq⟩ := Option.map_eq_some_iff.mp hstep
    obtain ⟨rfl, rfl⟩ := Prod.mk.inj heq
    exact h.launch rfl rfl hbefore hio hinit
  | write buf io =>
    rw [step] at hstep
    dsimp only at hstep hio
    cases hw : s.writer with
    | none =>
      rw [hw] at hstep
      cases hstep
    | some w =>
      rw [hw] at hstep
      obtain ⟨r, hwrite, heq⟩ := Option.map_eq_some_iff.mp hstep
      obtain ⟨rfl, rfl⟩ := Prod.mk.inj heq
      have hopen : Open cap longest tr w s.files := by
        rw [Kept, hw] at h
        exact h
      exact hopen.write hcap hbefore hio.1 hio.2 rfl hwrite rfl

theorem kept_run (hcap : 2 * max cap longest ≤ maxDirBytes)
    (hrun : Run (machine cap) (Regular longest) initial tr s) : Kept cap longest tr s := by
  refine hrun.invariant (I := Kept cap longest) ?_ (fun hI hok hs => kept_step hcap hI hok hs)
  exact ⟨List.Pairwise.nil, List.nil_suffix, rfl, Nat.zero_le _, Nat.zero_le _⟩

/-- The directory after a run. Its text is in the order in which `read_logs` puts it together. -/
structure Retained (cap longest : Nat) (tr : List LogStep) (s : State) : Prop where
  dated : Dated s.files
  text : textOf s.files <:+ logged tr
  count_le : s.files.length ≤ maxSessionFiles + 1
  room : dirBytes s.files ≤ maxDirBytes + max cap longest
  recent : Cleared tr ∨
    (sessionText tr).rtake (2 * (cap + 1 - longest)) <:+ textOf s.files

theorem Sunk.recent (h : Sunk cap longest tr w before closed current)
    (htext : textOf (before ++ closed ++ [current]) <:+ logged tr) :
    Cleared tr ∨ (sessionText tr).rtake (2 * (cap + 1 - longest)) <:+
      textOf (before ++ closed ++ [current]) := by
  refine h.session.imp_right fun hsession => ?_
  have hlast := Retention.rtake_suffix (2 * (cap + 1 - longest)) (sessionText tr)
  rcases hsession with hsession | htwo
  · refine hlast.trans (hsession.trans ?_)
    rw [List.append_assoc, textOf_append before]
    apply List.suffix_append
  · refine Retention.suffix_of_both hlast (sessionText_suffix tr) htext ?_
    -- two full files hold that much
    have hfull : closed.length * (cap + 1 - longest) ≤ dirBytes closed := by
      rw [dirBytes, sumOf, ← List.length_map (f := LogFile.len)]
      apply List.card_nsmul_le_sum
      intro len hlen
      obtain ⟨file, hfile, rfl⟩ := List.mem_map.mp hlen
      have hlt := (h.full file hfile).1
      omega
    have htwice := Nat.mul_le_mul_right (cap + 1 - longest) htwo
    rw [Retention.length_rtake, length_textOf, dirBytes_append, dirBytes_append]
    omega

/-- In every run whose clock is ahead of the files and whose pruning works, the log directory stays
bounded, holds an end of what was logged without a gap, and keeps the session's last lines. -/
theorem logs_retained (hcap : 2 * max cap longest ≤ maxDirBytes)
    (hrun : Run (machine cap) (Regular longest) initial tr s) : Retained cap longest tr s := by
  have hkept := kept_run hcap hrun
  have hdated := hkept.dated
  have htext := hkept.text
  rw [Kept] at hkept
  split at hkept
  · refine ⟨hdated, htext, hkept.count_le.trans (Nat.le_succ _),
      hkept.room.trans (Nat.le_add_right _ _), Or.inr ?_⟩
    rw [hkept.silent, List.rtake_nil]
    exact List.nil_suffix
  · rcases hkept.sunk with ⟨before, closed, current, heq, hsunk⟩ | ⟨heq, hcleared⟩
    · rw [heq] at htext
      refine ⟨hdated, heq ▸ htext, ?_, ?_, heq ▸ hsunk.recent htext⟩
      · rw [heq, List.length_append, List.length_singleton]
        exact Nat.succ_le_succ hsunk.count_le
      · rw [heq, dirBytes_append, dirBytes_cons, dirBytes_nil]
        exact Nat.add_le_add hsunk.room hsunk.fits
    · refine ⟨hdated, htext, ?_, ?_, Or.inl hcleared⟩
      · rw [heq]
        exact Nat.zero_le _
      · rw [heq]
        exact Nat.zero_le _

end

instance (io : PruneIo) (s : State) : Decidable (io.KeepsOpen s) := by
  unfold PruneIo.KeepsOpen
  infer_instance

instance (io : PruneIo) : Decidable io.Works := by
  unfold PruneIo.Works
  infer_instance

instance (longest : Nat) (s : State) (a : Nat × Act) : Decidable (Regular longest s a) := by
  unfold Regular
  split
  all_goals infer_instance

/-- The log of three letters that was created and written at these times. -/
def demoFile (stamp modified : Nat) (letter : Char) : LogFile :=
  ⟨stamp, modified, List.replicate 3 letter.toUInt8⟩

def demoWrite (letter : Char) (order : List LogFile) : Act :=
  .write (List.replicate 3 letter.toUInt8) ⟨true, ⟨some order, []⟩, some 3⟩

/-- Logging is switched on, and a session with the cap 4 writes five lines of three bytes. -/
def demoSession : List (Nat × Act) :=
  let a := demoFile 2 3 'a'
  let b := demoFile 4 4 'b'
  let c := demoFile 5 5 'c'
  let d := demoFile 6 6 'd'
  [(1, .setDebugLogging true .done ⟨none, []⟩), (2, .launch true true ⟨some [], []⟩ true),
    (3, demoWrite 'a' []), (4, demoWrite 'b' [⟨4, 4, []⟩, a]), (5, demoWrite 'c' [b, ⟨5, 5, []⟩, a]),
    (6, demoWrite 'd' [c, a, b, ⟨6, 6, []⟩]), (7, demoWrite 'e' [d, ⟨7, 7, []⟩, c, b])]

/-- The theorem applies to a session whose last three lines are in three files, and to the cap that
`init` passes, with buffers of up to twice as many bytes. -/
theorem logs_retained_demoSession :
    (∃ tr s, Run (machine 4) (Regular 4) initial tr s ∧
      s.files = [demoFile 5 5 'c', demoFile 6 6 'd', demoFile 7 7 'e'] ∧ Retained 4 4 tr s) ∧
    ∀ tr s, Run (machine maxFileBytes) (Regular (2 * maxFileBytes)) initial tr s →
      Retained maxFileBytes (2 * maxFileBytes) tr s := by
  refine ⟨?_, fun tr s hrun => logs_retained (by decide) hrun⟩
  obtain ⟨tr, s, hrun, htest⟩ := Run.of_check (machine 4) (Regular 4) initial demoSession
    (fun _ s => decide (s.files = [demoFile 5 5 'c', demoFile 6 6 'd', demoFile 7 7 'e']))
    (by decide +kernel)
  exact ⟨tr, s, hrun, of_decide_eq_true htest, logs_retained (by decide) hrun⟩

/-! ## Who switched it on -/

/-- Debug logging was switched on in this second. -/
def SwitchedOn (since : Nat) (e : LogStep) : Prop :=
  match e.act.2 with
  | .setDebugLogging enabled io _ => enabled = true ∧ io = .done ∧ e.act.1 / nanosPerSec = since
  | _ => False

/-- Debug logging was switched on or off. -/
def Switches (e : LogStep) : Prop :=
  match e.act.2 with
  | .setDebugLogging _ io _ => io = .done
  | _ => False

/-- A write of the marker that fails leaves it as it was, and a launch can read it. -/
def MarkerSound (s : State) (a : Nat × Act) : Prop :=
  match a.2 with
  | .setDebugLogging enabled (.failed left) _ => enabled = true → left = s.marker
  | .launch readable _ _ _ => readable = true
  | _ => True

/-- The sink was opened by a launch within a week of debug logging being switched on, and it was not
switched off in between. -/
def OpenedInTime (tr : List LogStep) : Prop :=
  ∃ past e future since, tr = past ++ e :: future ∧ launches e = true ∧
    (∀ later ∈ future, launches later = false) ∧
    e.act.1 / nanosPerSec ≤ since + maxEnabledAgeSecs ∧ Since (SwitchedOn since) Switches past

/-- The marker tells when debug logging was switched on, and the sink is open rightly. -/
structure Attributed (tr : List LogStep) (s : State) : Prop where
  marker : ∀ left ∈ s.marker, ∃ since, left = some since ∧ Since (SwitchedOn since) Switches tr
  writer : s.writer ≠ none → OpenedInTime tr

section

variable {cap : Nat} {tr : List LogStep} {e : LogStep} {s s' : State} {a : Nat × Act}
  {out : List Bytes}

theorem OpenedInTime.snoc (h : OpenedInTime tr) (hlaunch : launches e = false) :
    OpenedInTime (tr ++ [e]) := by
  obtain ⟨past, opened, future, since, rfl, hopened, hfuture, hage, hon⟩ := h
  refine ⟨past, opened, future ++ [e], since, by simp, hopened, fun later hlater => ?_, hage, hon⟩
  rcases List.mem_append.mp hlater with hlater | hlater
  · exact hfuture later hlater
  · rwa [List.mem_singleton.mp hlater]

theorem Attributed.quiet (h : Attributed tr s) (hmarker : s'.marker = s.marker)
    (hwriter : s'.writer ≠ none → s.writer ≠ none) (hswitch : ¬ Switches e)
    (hlaunch : launches e = false) : Attributed (tr ++ [e]) s' where
  marker left hleft := by
    rw [hmarker] at hleft
    obtain ⟨since, rfl, hsince⟩ := h.marker left hleft
    exact ⟨since, rfl, hsince.snoc_keep hswitch⟩
  writer hopen := (h.writer (hwriter hopen)).snoc hlaunch

theorem isEnabled_readable {marker : Marker} {now : Nat} (h : isEnabled marker true now = true) :
    ∃ left, marker = some left ∧ ∀ since, left = some since →
      now / nanosPerSec ≤ since + maxEnabledAgeSecs := by
  cases marker with
  | none => exact absurd h Bool.false_ne_true
  | some left =>
    refine ⟨left, rfl, fun since hsince => ?_⟩
    subst hsince
    have hage : now / nanosPerSec - since ≤ maxEnabledAgeSecs := by
      simpa [isEnabled, isExpired] using h
    omega

theorem attributed_step (h : Attributed tr s) (hsound : MarkerSound s a)
    (hstep : step cap s a = some (s', out)) : Attributed (tr ++ [⟨s, a, s', out⟩]) s' := by
  obtain ⟨now, act⟩ := a
  cases act with
  | setDebugLogging enabled io cleared =>
    have hresult : s'.marker = setEnabled s.marker enabled io now ∧ s'.writer = s.writer := by
      rw [step] at hstep
      dsimp only at hstep
      split at hstep
      · obtain ⟨files, -, heq⟩ := Option.map_eq_some_iff.mp hstep
        obtain ⟨rfl, -⟩ := Prod.mk.inj heq
        exact ⟨rfl, rfl⟩
      · obtain ⟨rfl, -⟩ := Prod.mk.inj (Option.some.inj hstep)
        exact ⟨rfl, rfl⟩
    obtain ⟨hmarker, hwriter⟩ := hresult
    cases io with
    | done =>
      refine ⟨fun left hleft => ?_, fun hopen => (h.writer (hwriter ▸ hopen)).snoc rfl⟩
      rw [hmarker] at hleft
      cases enabled with
      | true =>
        obtain rfl := Option.some.inj hleft
        exact ⟨now / nanosPerSec, rfl, Since.snoc_now ⟨rfl, rfl, rfl⟩⟩
      | false => cases hleft
    | failed left =>
      refine h.quiet ?_ (fun hopen => hwriter ▸ hopen) (fun hswitch => by cases hswitch) rfl
      rw [hmarker]
      cases enabled with
      | true => exact hsound rfl
      | false => rfl
  | clearDebugLogs io =>
    obtain ⟨files, -, heq⟩ := Option.map_eq_some_iff.mp hstep
    obtain ⟨rfl, -⟩ := Prod.mk.inj heq
    exact h.quiet rfl id id rfl
  | launch readable removed pruned created =>
    obtain ⟨next, hinit, heq⟩ := Option.map_eq_some_iff.mp hstep
    obtain ⟨rfl, -⟩ := Prod.mk.inj heq
    obtain ⟨files, -, rfl⟩ := Option.map_eq_some_iff.mp hinit
    obtain rfl : readable = true := hsound
    have hmarker : ∀ left ∈ (if !isEnabled s.marker true now && removed then none else s.marker),
        ∃ since, left = some since ∧ Since (SwitchedOn since) Switches tr := by
      intro left hleft
      split at hleft
      · cases hleft
      · exact h.marker left hleft
    have hkeep : ∀ {since : Nat} {e : LogStep}, ¬ Switches e →
        Since (SwitchedOn since) Switches tr → Since (SwitchedOn since) Switches (tr ++ [e]) :=
      fun hswitch hsince => hsince.snoc_keep hswitch
    split
    · rename_i hcreated
      rw [Bool.and_eq_true] at hcreated
      refine ⟨fun left hleft => ?_, fun _ => ?_⟩
      · obtain ⟨since, rfl, hsince⟩ := hmarker left hleft
        exact ⟨since, rfl, hkeep id hsince⟩
      · obtain ⟨left, hleft, hage⟩ := isEnabled_readable hcreated.1
        obtain ⟨since, rfl, hsince⟩ := h.marker left hleft
        exact ⟨tr, _, [], since, rfl, rfl, fun later hlater => absurd hlater List.not_mem_nil,
          hage since rfl, hsince⟩
    · refine ⟨fun left hleft => ?_, fun hopen => absurd rfl hopen⟩
      obtain ⟨since, rfl, hsince⟩ := hmarker left hleft
      exact ⟨since, rfl, hkeep id hsince⟩
  | write buf io =>
    rw [step] at hstep
    dsimp only at hstep
    cases hw : s.writer with
    | none =>
      rw [hw] at hstep
      cases hstep
    | some w =>
      rw [hw] at hstep
      obtain ⟨r, -, heq⟩ := Option.map_eq_some_iff.mp hstep
      obtain ⟨rfl, -⟩ := Prod.mk.inj heq
      exact h.quiet rfl (fun _ => by rw [hw]; exact Option.some_ne_none w) id rfl

/-- In every run in which the marker is written whole and can be read, a process that logs to disk was
launched within a week of debug logging being switched on, with no switch in between. -/
theorem logging_was_switched_on (hrun : Run (machine cap) MarkerSound initial tr s)
    (hopen : s.writer ≠ none) : OpenedInTime tr := by
  refine Attributed.writer (hrun.invariant (I := Attributed) ?_ fun hI hok hs =>
    attributed_step hI hok hs) hopen
  exact ⟨fun left hleft => absurd hleft (Option.not_mem_none left), fun hopen => absurd rfl hopen⟩

end

instance (s : State) (a : Nat × Act) : Decidable (MarkerSound s a) := by
  unfold MarkerSound
  split
  all_goals infer_instance

/-- The theorem applies to a session that logs. -/
theorem logging_was_switched_on_demoSession :
    ∃ tr s, Run (machine 4) MarkerSound initial tr s ∧ s.writer ≠ none ∧ OpenedInTime tr := by
  obtain ⟨tr, s, hrun, htest⟩ := Run.of_check (machine 4) MarkerSound initial demoSession
    (fun _ s => decide (s.writer ≠ none)) (by decide +kernel)
  have hopen := of_decide_eq_true htest
  exact ⟨tr, s, hrun, hopen, logging_was_switched_on hrun hopen⟩

end DashBeam.Desktop.RollingLog
