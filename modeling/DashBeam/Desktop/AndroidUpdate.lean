import Mathlib.Data.List.GetD
import DashBeam.Desktop.HistoryRecordingEmitter
import DashBeam.Lib.PaddedLex
import DashBeam.Lib.Trim
import DashBeam.Lib.Unicode

/-!
# Whether a version is newer

`src-tauri/src/android_update.rs`. `is_newer` compares the numbers of two versions position by position
and lets a release outrank its pre-releases. It is the order of a rank: the numbers, filled up with
zeros, and then whether the version is a release.
-/

namespace DashBeam.Desktop

open Lib
open Recording (parseU64)

/-! ## The code -/

def splitOnce (c : Char) (s : Text) : Option (Text × Text) :=
  if c ∈ s then some (s.takeWhile fun x => x ≠ c, (s.dropWhile fun x => x ≠ c).tail) else none

/-- A version without white space around it, without every `v` in front and without its build
metadata. -/
def withoutBuild (version : Text) : Text :=
  let trimmed := (trimEnds isWhitespace version).dropWhile fun c => c = 'v'
  ((trimmed.splitOn '+').head?).getD []

/-- The numbers of a version. One that does not parse, or is too large, is 0. -/
def coreNumbers (core : Text) : List Nat := (core.splitOn '.').map fun part => (parseU64 part).getD 0

/-- `precedence`: the numbers, and whether it is a pre-release. -/
def precedence (version : Text) : List Nat × Bool :=
  match splitOnce '-' (withoutBuild version) with
  | some (core, pre) => (coreNumbers core, !pre.isEmpty)
  | none => (coreNumbers (withoutBuild version), false)

def isNewer (latest current : Text) : Bool :=
  let (latestNums, latestPre) := precedence latest
  let (currentNums, currentPre) := precedence current
  (firstDifference (latestNums.getD · 0) (currentNums.getD · 0)
    (max latestNums.length currentNums.length)).getD (currentPre && !latestPre)

/-! ## The order -/

/-- The numbers, filled up with zeros, and then whether it is a release. -/
def rank (version : Text) : Lex (Lex (Nat → Nat) × Bool) :=
  toLex (padded 0 (precedence version).1, !(precedence version).2)

theorem isNewer_iff_lt (latest current : Text) :
    isNewer latest current = true ↔ rank current < rank latest := by
  have hbeyond : ∀ i, max (precedence latest).1.length (precedence current).1.length ≤ i →
      (precedence latest).1.getD i 0 = (precedence current).1.getD i 0 := by
    intro i h
    rw [List.getD_eq_default _ _ (le_trans (le_max_left _ _) h),
      List.getD_eq_default _ _ (le_trans (le_max_right _ _) h)]
  have htie : ((precedence current).2 && !(precedence latest).2) = true ↔
      (!(precedence current).2) < !(precedence latest).2 := by
    cases (precedence current).2 <;> cases (precedence latest).2 <;> decide
  rw [isNewer, firstDifference_getD hbeyond, htie, rank, rank, Prod.Lex.toLex_lt_toLex]
  refine or_congr Iff.rfl (and_congr_left fun _ => ?_)
  exact eq_comm

theorem isNewer_eq_false_iff (latest current : Text) :
    isNewer latest current = false ↔ rank latest ≤ rank current := by
  rw [← not_lt, ← isNewer_iff_lt, Bool.not_eq_true]

def Incomparable (a b : Text) : Prop := isNewer a b = false ∧ isNewer b a = false

theorem incomparable_iff (a b : Text) : Incomparable a b ↔ rank a = rank b := by
  rw [Incomparable, isNewer_eq_false_iff, isNewer_eq_false_iff]
  exact le_antisymm_iff.symm

/-- No comparison tells the two apart. -/
def Interchangeable (a b : Text) : Prop :=
  ∀ other, isNewer a other = isNewer b other ∧ isNewer other a = isNewer other b

theorem interchangeable_of_rank {a b : Text} (h : rank a = rank b) : Interchangeable a b := by
  intro other
  constructor
  · rw [Bool.eq_iff_iff, isNewer_iff_lt, isNewer_iff_lt, h]
  · rw [Bool.eq_iff_iff, isNewer_iff_lt, isNewer_iff_lt, h]

/-! ## Ways to write a version -/

theorem rank_of_withoutBuild {a b : Text} (h : withoutBuild a = withoutBuild b) : rank a = rank b := by
  have hprecedence : precedence a = precedence b := by rw [precedence, precedence, h]
  rw [rank, rank, hprecedence]

theorem withoutBuild_eq (version : Text) : withoutBuild version =
    ((trimEnds isWhitespace version).dropWhile fun c => c = 'v').takeWhile
      fun c => c ≠ '+' := by
  rw [withoutBuild, head?_splitOn]
  rfl

theorem withoutBuild_surrounded {front back : Text} (version : Text)
    (hfront : ∀ c ∈ front, isWhitespace c = true)
    (hback : ∀ c ∈ back, isWhitespace c = true) :
    withoutBuild (front ++ version ++ back) = withoutBuild version := by
  rw [withoutBuild, withoutBuild, trimEnds_append_of_all hfront hback]

theorem withoutBuild_leading {version : Text} (h : Trimmed isWhitespace version) :
    withoutBuild ('v' :: version) = withoutBuild version := by
  have hv : Trimmed isWhitespace ('v' :: version) := by
    constructor
    · intro c hc
      obtain rfl := Option.some.inj hc
      decide
    · intro c hc
      cases version with
      | nil =>
        obtain rfl := Option.some.inj hc
        decide
      | cons first rest =>
        rw [List.getLast?_cons_cons] at hc
        exact h.last c hc
  rw [withoutBuild, withoutBuild, trimEnds_of_trimmed hv, trimEnds_of_trimmed h]
  rfl

/-- Without the `v` in front, of a version with another character behind it. -/
theorem dropWhile_v_append {x : Char} (hx : x ≠ 'v') (version rest : Text) :
    (version ++ x :: rest).dropWhile (fun c => decide (c = 'v')) =
      version.dropWhile (fun c => decide (c = 'v')) ++ x :: rest := by
  rw [List.dropWhile_append]
  split
  · rename_i hempty
    rw [List.isEmpty_iff.mp hempty, List.dropWhile_cons]
    simp [hx]
  · rfl

theorem takeWhile_ne_append {separator : Char} {text : Text} (h : separator ∉ text) (rest : Text) :
    (text ++ rest).takeWhile (fun c => decide (c ≠ separator)) =
      text ++ rest.takeWhile fun c => decide (c ≠ separator) := by
  apply List.takeWhile_append_of_pos
  intro c hc
  refine decide_eq_true fun heq => ?_
  exact h (heq ▸ hc)

theorem withoutBuild_build {version : Text} (h : Trimmed isWhitespace version)
    (metadata : Text) : withoutBuild (version ++ '+' :: metadata) = withoutBuild version := by
  rw [withoutBuild_eq, withoutBuild_eq, trimEnds_append_cons (by decide) h, trimEnds_of_trimmed h,
    dropWhile_v_append (by decide)]
  generalize version.dropWhile (fun c => decide (c = 'v')) = text
  induction text with
  | nil => rfl
  | cons c text ih =>
    rw [List.cons_append, List.takeWhile_cons, List.takeWhile_cons, ih]

theorem withoutBuild_append {version : Text} {x : Char} (h : Trimmed isWhitespace version)
    (hplus : '+' ∉ version) (hx : isWhitespace x = false ∧ x ≠ 'v' ∧ x ≠ '+') (rest : Text) :
    withoutBuild (version ++ x :: rest) = withoutBuild version ++
      x :: (rest.rdropWhile isWhitespace).takeWhile fun c => c ≠ '+' := by
  have hnot : '+' ∉ version.dropWhile fun c => decide (c = 'v') :=
    fun hmem => hplus ((List.dropWhile_sublist _).subset hmem)
  have hwhole := takeWhile_ne_append hnot []
  rw [List.append_nil, List.takeWhile_nil, List.append_nil] at hwhole
  rw [withoutBuild_eq, withoutBuild_eq, trimEnds_append_cons hx.1 h, trimEnds_of_trimmed h,
    dropWhile_v_append hx.2.1, takeWhile_ne_append hnot, hwhole, List.takeWhile_cons,
    if_pos (decide_eq_true hx.2.2)]

theorem not_mem_withoutBuild {version : Text} {c : Char} (h : c ∉ version) :
    c ∉ withoutBuild version := by
  rw [withoutBuild_eq]
  intro hmem
  have hdrop := (List.takeWhile_sublist _).subset hmem
  exact h (mem_of_mem_trimEnds ((List.dropWhile_sublist _).subset hdrop))

theorem precedence_release {version : Text} (h : '-' ∉ version) :
    precedence version = (coreNumbers (withoutBuild version), false) := by
  rw [precedence, splitOnce, if_neg (not_mem_withoutBuild h)]

theorem rank_trailing_zero {version : Text} (h : Trimmed isWhitespace version)
    (hminus : '-' ∉ version) (hplus : '+' ∉ version) :
    rank (version ++ ['.', '0']) = rank version := by
  have htext : withoutBuild (version ++ ['.', '0']) = withoutBuild version ++ ['.', '0'] :=
    withoutBuild_append h hplus (by decide) ['0']
  have hminus' : '-' ∉ version ++ ['.', '0'] := by
    rw [List.mem_append]
    rintro (hmem | hmem)
    · exact hminus hmem
    · exact absurd hmem (by decide)
  have hnumbers : coreNumbers (withoutBuild version ++ ['.', '0']) =
      coreNumbers (withoutBuild version) ++ [0] := by
    rw [coreNumbers, List.splitOn_append_cons_self, List.map_append, coreNumbers]
    rfl
  rw [rank, rank, precedence_release hminus, precedence_release hminus', htext, hnumbers,
    padded_append_default]

/-! ## Pre-releases -/

theorem isNewer_same_core {latest current : Text}
    (hcore : (precedence latest).1 = (precedence current).1) (hpre : (precedence latest).2 = true) :
    isNewer latest current = false := by
  rw [isNewer_eq_false_iff, rank, rank, hcore, hpre, Prod.Lex.toLex_le_toLex]
  exact Or.inr ⟨rfl, Bool.false_le _⟩

theorem precedence_prerelease {core : Text} (h : Trimmed isWhitespace core)
    (hminus : '-' ∉ core) (hplus : '+' ∉ core) (pre : Text) :
    (precedence (core ++ '-' :: pre)).1 = (precedence core).1 := by
  have htext := withoutBuild_append h hplus (x := '-') (by decide) pre
  rw [precedence_release hminus, precedence, htext, splitOnce,
    if_pos (List.mem_append_right _ List.mem_cons_self),
    takeWhile_ne_append (not_mem_withoutBuild hminus), List.takeWhile_cons, if_neg (by decide),
    List.append_nil]

theorem isNewer_prerelease {core : Text} (h : Trimmed isWhitespace core)
    (hminus : '-' ∉ core) (hplus : '+' ∉ core) (pre : Text) :
    isNewer (core ++ '-' :: pre) core = false := by
  have hrelease : (precedence core).2 = false := by rw [precedence_release hminus]
  rw [isNewer_eq_false_iff, rank, rank, precedence_prerelease h hminus hplus, hrelease,
    Prod.Lex.toLex_le_toLex]
  exact Or.inr ⟨rfl, Bool.le_true _⟩

/-- `is_newer` is a strict weak order on all strings. White space around a version, a leading `v`,
build metadata and a trailing `.0` make no difference to it, and a pre-release is not newer than a
release with its core. -/
theorem isNewer_order :
    ((∀ a, isNewer a a = false) ∧
      (∀ a b, isNewer a b = true → isNewer b a = false) ∧
      (∀ a b c, isNewer a b = true → isNewer b c = true → isNewer a c = true) ∧
      ∀ a b c, Incomparable a b → Incomparable b c → Incomparable a c) ∧
    (∀ front version back, (∀ c ∈ front, isWhitespace c = true) →
      (∀ c ∈ back, isWhitespace c = true) →
      Interchangeable (front ++ version ++ back) version) ∧
    (∀ version, Trimmed isWhitespace version →
      Interchangeable ('v' :: version) version ∧
      (∀ metadata, Interchangeable (version ++ '+' :: metadata) version) ∧
      ('-' ∉ version → '+' ∉ version → Interchangeable (version ++ ['.', '0']) version)) ∧
    (∀ latest current, (precedence latest).1 = (precedence current).1 →
      (precedence latest).2 = true → isNewer latest current = false) ∧
    ∀ core pre, Trimmed isWhitespace core → '-' ∉ core → '+' ∉ core →
      isNewer (core ++ '-' :: pre) core = false := by
  refine ⟨⟨?_, ?_, ?_, ?_⟩, ?_, ?_, ?_, ?_⟩
  · intro a
    exact (isNewer_eq_false_iff a a).mpr (le_refl _)
  · intro a b hab
    exact (isNewer_eq_false_iff b a).mpr (le_of_lt ((isNewer_iff_lt a b).mp hab))
  · intro a b c hab hbc
    rw [isNewer_iff_lt] at hab hbc ⊢
    exact lt_trans hbc hab
  · intro a b c hab hbc
    rw [incomparable_iff] at hab hbc ⊢
    exact hab.trans hbc
  · intro front version back hfront hback
    exact interchangeable_of_rank (rank_of_withoutBuild (withoutBuild_surrounded version hfront hback))
  · intro version h
    refine ⟨?_, fun metadata => ?_, fun hminus hplus => ?_⟩
    · exact interchangeable_of_rank (rank_of_withoutBuild (withoutBuild_leading h))
    · exact interchangeable_of_rank (rank_of_withoutBuild (withoutBuild_build h metadata))
    · exact interchangeable_of_rank (rank_trailing_zero h hminus hplus)
  · exact fun latest current => isNewer_same_core
  · exact fun core pre h hminus hplus => isNewer_prerelease h hminus hplus pre

/-- Numbers compare as numbers, and a release is newer than its pre-release. -/
example : isNewer "v0.10".toList " 0.9.0-rc.1+b ".toList = true ∧
    isNewer "0.8.0".toList "0.8-rc".toList = true ∧ isNewer "not-a-version".toList [] = false := by
  decide

end DashBeam.Desktop
