import DashBeam.Collection.Import
import DashBeam.Lib.ByteSlice

/-!
# Reading the session logs

`session_logs` and `read_logs` of `src-tauri/src/logging.rs`. The logs are put together, the oldest
first, and cut to a number of bytes from the end. The cut is a byte position, and a slice that does not
begin between two characters panics: `keepTail` has no result there, which is when the byte limit falls
into a character of the logs.

What the file system answers is given with the directory: an entry's metadata may be unreadable, and so
may its content, or not be UTF-8.
-/

namespace DashBeam.Desktop

open Lib
open Collection (OsStr)

/-! ## The code -/

def logPrefix : Text := "dashbeam-".toList

def logSuffix : Text := ".log".toList

/-- The length of a file and when it was last changed, if the platform says so. -/
structure LogMetadata where
  len : Nat
  modified : Option Int
  deriving DecidableEq, Repr

/-- An entry of the log directory. `content` is what `read_to_string` gives. -/
structure LogEntry (Error : Type) where
  name : OsStr
  isFile : Bool
  metadata : Except Error LogMetadata
  content : Option Text

/-- What `read_dir` gives, an entry that could not be read as `none`. -/
inductive LogDir (Error : Type)
  | missing
  | unreadable (error : Error)
  | entries (list : List (Option (LogEntry Error)))

structure SessionLog (Error : Type) where
  entry : LogEntry Error
  len : Nat
  modified : Int

variable {Error : Type}

def isLogFile (name : OsStr) : Bool :=
  match name.toStr with
  | none => false
  | some n => logPrefix.isPrefixOf n && logSuffix.isSuffixOf n

/-- The loop of `session_logs`. -/
def collectLogs : List (LogEntry Error) → Except Error (List (SessionLog Error))
  | [] => .ok []
  | entry :: rest =>
    if !entry.isFile || !isLogFile entry.name then collectLogs rest
    else
      match entry.metadata with
      | .error error => .error error
      | .ok metadata =>
        (collectLogs rest).map (⟨entry, metadata.len, metadata.modified.getD 0⟩ :: ·)

/-- `session_logs`, newest first. The sort is stable. -/
def sessionLogs : LogDir Error → Except Error (List (SessionLog Error))
  | .missing => .ok []
  | .unreadable error => .error error
  | .entries list =>
    (collectLogs (list.filterMap id)).map fun files =>
      files.insertionSort fun a b => b.modified ≤ a.modified

/-- The line that says how much was cut off. -/
def truncatedHeader (cut : Nat) : Text :=
  "[… ".toList ++ (toString cut).toList ++ " earlier bytes truncated …]\n".toList

/-- The end of `read_logs`. It has no result where a slice panics. -/
def keepTail (out : Text) (maxBytes : Nat) : Option Text :=
  if (utf8 out).length > maxBytes then
    let cut := (utf8 out).length - maxBytes
    (sliceFrom out cut).bind fun tail =>
      let start := match findChar '\n' tail with
        | none => cut
        | some i => cut + i + 1
      (sliceFrom out start).map fun rest => truncatedHeader cut ++ rest
  else some out

def contents (files : List (SessionLog Error)) : Text :=
  (files.filterMap fun file => file.entry.content).flatten

def readLogs (dir : LogDir Error) (maxBytes : Nat) : Option (Except Error Text) :=
  match sessionLogs dir with
  | .error error => some (.error error)
  | .ok files => (keepTail (contents files.reverse) maxBytes).map .ok

/-! ## The logs of a directory -/

def LogEntry.log (entry : LogEntry Error) : Option (SessionLog Error) :=
  if !entry.isFile || !isLogFile entry.name then none
  else
    match entry.metadata with
    | .error _ => none
    | .ok metadata => some ⟨entry, metadata.len, metadata.modified.getD 0⟩

def LogDir.logs : LogDir Error → List (SessionLog Error)
  | .entries list => (list.filterMap id).filterMap LogEntry.log
  | _ => []

/-- The directory can be listed, or is missing, and the metadata of its logs can be read. -/
def LogDir.Listable : LogDir Error → Prop
  | .missing => True
  | .unreadable _ => False
  | .entries list => ∀ entry, some entry ∈ list → entry.isFile = true →
      isLogFile entry.name = true → ∃ metadata, entry.metadata = .ok metadata

def LogDir.oldestFirst (dir : LogDir Error) : List (SessionLog Error) :=
  (dir.logs.insertionSort fun a b => b.modified ≤ a.modified).reverse

theorem collectLogs_ok {list : List (LogEntry Error)}
    (h : ∀ entry ∈ list, entry.isFile = true → isLogFile entry.name = true →
      ∃ metadata, entry.metadata = .ok metadata) :
    collectLogs list = .ok (list.filterMap LogEntry.log) := by
  induction list with
  | nil => rfl
  | cons entry rest ih =>
    rw [List.forall_mem_cons] at h
    rw [collectLogs, List.filterMap_cons, LogEntry.log]
    cases hskip : !entry.isFile || !isLogFile entry.name with
    | true => exact ih h.2
    | false =>
      simp only [Bool.or_eq_false_iff, Bool.not_eq_false'] at hskip
      obtain ⟨metadata, hmetadata⟩ := h.1 hskip.1 hskip.2
      rw [hmetadata, ih h.2]
      rfl

theorem sessionLogs_ok {dir : LogDir Error} (h : dir.Listable) :
    sessionLogs dir = .ok (dir.logs.insertionSort fun a b => b.modified ≤ a.modified) := by
  cases dir with
  | missing => rfl
  | unreadable error => exact h.elim
  | entries list =>
    rw [sessionLogs, collectLogs_ok]
    · rfl
    · intro entry hentry
      obtain ⟨entry', hmem, rfl⟩ := List.mem_filterMap.mp hentry
      exact h entry hmem

theorem oldestFirst_perm (dir : LogDir Error) : dir.oldestFirst.Perm dir.logs :=
  (List.reverse_perm _).trans (List.perm_insertionSort _ _)

theorem oldestFirst_pairwise (dir : LogDir Error) :
    dir.oldestFirst.Pairwise fun a b => a.modified ≤ b.modified := by
  rw [LogDir.oldestFirst, List.pairwise_reverse]
  have : Std.Total fun a b : SessionLog Error => b.modified ≤ a.modified :=
    ⟨fun a b => le_total b.modified a.modified⟩
  have : IsTrans (SessionLog Error) fun a b => b.modified ≤ a.modified :=
    ⟨fun a b c hab hbc => le_trans hbc hab⟩
  exact List.pairwise_insertionSort _ dir.logs

theorem readLogs_eq {dir : LogDir Error} (h : dir.Listable) (maxBytes : Nat) :
    readLogs dir maxBytes = (keepTail (contents dir.oldestFirst) maxBytes).map .ok := by
  rw [readLogs, sessionLogs_ok h]
  rfl

/-! ## The tail -/

/-- A line break occurs in the last `n` bytes. -/
def BreaksWithin (out : Text) (n : Nat) : Prop :=
  ∃ front back, out = front ++ '\n' :: back ∧ (utf8 ('\n' :: back)).length ≤ n

/-- All of the text where it fits, and otherwise the header and an end of it that fits, from the start
of a line if there is one. -/
structure TailKept (out : Text) (maxBytes : Nat) (text : Text) : Prop where
  whole : (utf8 out).length ≤ maxBytes → text = out
  tail : maxBytes < (utf8 out).length → ∃ front rest, out = front ++ rest ∧
    text = truncatedHeader ((utf8 out).length - maxBytes) ++ rest ∧
    (utf8 rest).length ≤ maxBytes ∧
    (BreaksWithin out maxBytes → ∃ line, front = line ++ ['\n'])

theorem length_utf8_newline (back : Text) : (utf8 ('\n' :: back)).length = (utf8 back).length + 1 := by
  rw [length_utf8_cons, Nat.add_comm]
  rfl

theorem mem_of_breaksWithin {front tail : Text}
    (h : BreaksWithin (front ++ tail) (utf8 tail).length) : '\n' ∈ tail := by
  obtain ⟨before, after, hsplit, hlength⟩ := h
  have hsuffix : '\n' :: after <:+ tail := by
    refine List.suffix_of_suffix_length_le ⟨before, hsplit.symm⟩ ⟨front, rfl⟩ ?_
    by_contra hlong
    -- then the tail would be a proper end of what follows, and shorter in bytes
    obtain ⟨extra, hextra⟩ := List.suffix_of_suffix_length_le ⟨front, rfl⟩
      ⟨before, hsplit.symm⟩ (Nat.le_of_lt (Nat.not_le.mp hlong))
    have hbytes := congrArg (fun text => (utf8 text).length) hextra
    have hlengths := congrArg List.length hextra
    simp only [length_utf8_append, List.length_append] at hbytes hlengths
    have hpos := length_le_utf8 extra
    omega
  exact hsuffix.subset List.mem_cons_self

theorem keepTail_of_boundary {out : Text} {maxBytes : Nat} (hlong : maxBytes < (utf8 out).length)
    (h : IsBoundary out ((utf8 out).length - maxBytes)) :
    ∃ text, keepTail out maxBytes = some text ∧ TailKept out maxBytes text := by
  obtain ⟨front, tail, rfl, hfront⟩ := h
  have hslice : sliceFrom (front ++ tail) ((utf8 (front ++ tail)).length - maxBytes) = some tail :=
    sliceFrom_eq_some.mpr ⟨front, rfl, hfront⟩
  have htail : (utf8 tail).length = maxBytes := by
    rw [length_utf8_append] at hfront hlong
    omega
  rw [keepTail, if_pos hlong]
  dsimp only
  rw [hslice, Option.bind_some]
  cases hfind : findChar '\n' tail with
  | none =>
    dsimp only
    rw [hslice]
    refine ⟨_, rfl, fun hshort => absurd hlong (Nat.not_lt.mpr hshort), fun _ => ?_⟩
    refine ⟨front, tail, rfl, rfl, Nat.le_of_eq htail, fun hbreak => ?_⟩
    rw [← htail] at hbreak
    exact absurd (mem_of_breaksWithin hbreak) (findChar_eq_none hfind)
  | some i =>
    obtain ⟨before, after, rfl, -, hbefore⟩ := findChar_eq_some hfind
    have hline : front ++ (before ++ '\n' :: after) = (front ++ before ++ ['\n']) ++ after := by
      simp
    have hstart : sliceFrom (front ++ (before ++ '\n' :: after))
        ((utf8 (front ++ (before ++ '\n' :: after))).length - maxBytes + i + 1) = some after := by
      refine sliceFrom_eq_some.mpr ⟨front ++ before ++ ['\n'], hline, ?_⟩
      rw [length_utf8_append, length_utf8_append, hfront, hbefore]
      rfl
    dsimp only
    rw [hstart]
    refine ⟨_, rfl, fun hshort => absurd hlong (Nat.not_lt.mpr hshort), fun _ => ?_⟩
    refine ⟨front ++ before ++ ['\n'], after, hline, rfl, ?_, fun _ => ⟨front ++ before, rfl⟩⟩
    rw [length_utf8_append, length_utf8_newline] at htail
    omega

/-- The text fits, or the cut is between two characters. -/
def Aligned (out : Text) (maxBytes : Nat) : Prop :=
  (utf8 out).length ≤ maxBytes ∨ IsBoundary out ((utf8 out).length - maxBytes)

theorem keepTail_of_aligned {out : Text} {maxBytes : Nat} (h : Aligned out maxBytes) :
    ∃ text, keepTail out maxBytes = some text ∧ TailKept out maxBytes text := by
  by_cases hlong : maxBytes < (utf8 out).length
  · exact keepTail_of_boundary hlong (h.resolve_left (Nat.not_le.mpr hlong))
  · refine ⟨out, if_neg hlong, fun _ => rfl, fun hlong' => absurd hlong' hlong⟩

theorem aligned_of_keepTail {out text : Text} {maxBytes : Nat} (h : keepTail out maxBytes = some text) :
    Aligned out maxBytes := by
  by_cases hlong : maxBytes < (utf8 out).length
  · rw [keepTail, if_pos hlong] at h
    obtain ⟨tail, hslice, -⟩ := Option.bind_eq_some_iff.mp h
    exact Or.inr (sliceFrom_isSome.mp (Option.isSome_of_eq_some hslice))
  · exact Or.inl (Nat.not_lt.mp hlong)

/-- `read_logs` returns the logs, the oldest first, or their tail. -/
def KeepsTail (dir : LogDir Error) (maxBytes : Nat) : Prop :=
  ∃ files text, files.Perm dir.logs ∧ (files.Pairwise fun a b => a.modified ≤ b.modified) ∧
    readLogs dir maxBytes = some (.ok text) ∧ TailKept (contents files) maxBytes text

/-- `read_logs` keeps the tail exactly when the byte limit does not fall into a character. -/
theorem readLogs_keeps_tail_iff (dir : LogDir Error) (maxBytes : Nat) (h : dir.Listable) :
    KeepsTail dir maxBytes ↔ Aligned (contents dir.oldestFirst) maxBytes := by
  constructor
  · rintro ⟨files, text, -, -, hread, -⟩
    rw [readLogs_eq h] at hread
    obtain ⟨text', htext, -⟩ := Option.map_eq_some_iff.mp hread
    exact aligned_of_keepTail htext
  · intro haligned
    obtain ⟨text, htext, hkept⟩ := keepTail_of_aligned haligned
    refine ⟨dir.oldestFirst, text, oldestFirst_perm dir, oldestFirst_pairwise dir, ?_, hkept⟩
    rw [readLogs_eq h, htext]
    rfl

/-- The log file of the session with this digit, the later the higher. -/
def demoLog (digit : Char) (content : Text) : LogEntry Unit :=
  ⟨.text (logPrefix ++ digit :: logSuffix), true,
    .ok ⟨(utf8 content).length, some digit.toNat⟩, some content⟩

theorem demoLogs_listable (logs : List (Char × Text)) :
    (LogDir.entries (logs.map fun log => some (demoLog log.1 log.2))).Listable := by
  intro entry hentry _ _
  obtain ⟨log, -, heq⟩ := List.mem_map.mp hentry
  obtain rfl := Option.some.inj heq
  exact ⟨_, rfl⟩

/-- Two logs cut at the start of a line. -/
theorem readLogs_keeps_last_line :
    KeepsTail (.entries ([('2', "ab\ncd".toList), ('1', "é\n".toList)].map fun log =>
      some (demoLog log.1 log.2))) 4 :=
  (readLogs_keeps_tail_iff _ 4 (demoLogs_listable _)).mpr
    (Or.inr ⟨"é\na".toList, "b\ncd".toList, by decide, by decide⟩)

/-- One log of one character of two bytes, and one byte to keep. -/
theorem readLogs_panics :
    ¬ ∀ (dir : LogDir Unit) (maxBytes : Nat), dir.Listable → KeepsTail dir maxBytes := by
  intro hall
  obtain ⟨files, text, -, -, hread, -⟩ := hall _ 1 (demoLogs_listable [('1', "é".toList)])
  have hpanic : readLogs (.entries ([('1', "é".toList)].map fun log =>
      some (demoLog log.1 log.2))) 1 = none := by
    rfl
  rw [hpanic] at hread
  cases hread

end DashBeam.Desktop
