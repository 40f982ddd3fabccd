import DashBeam.Lib.Trim
import DashBeam.Lib.Unicode

/-!
# The folder named after a device

A transfer that is accepted automatically goes to a folder named after its sender, by a name the
sender chose. `sanitize_folder_name` makes one path component of it, or gives up for a fallback that
the caller makes of the sender's id.

`SafeFolderName` is what the result has to be. A result has it (`sanitizeFolderName_safe`), and a name
that has it is its own result, so the function is idempotent.
-/

namespace DashBeam.Protocol

open Lib

/-! ## The code -/

def forbiddenFolderChars : List Char := ['/', '\\', ':', '<', '>', '"', '|', '?', '*']

def reservedFolderNames : List Text :=
  ["CON", "PRN", "AUX", "NUL", "COM1", "COM2", "COM3", "COM4", "COM5", "COM6", "COM7", "COM8",
    "COM9", "LPT1", "LPT2", "LPT3", "LPT4", "LPT5", "LPT6", "LPT7", "LPT8", "LPT9"].map String.toList

def maxFolderNameChars : Nat := 64

def isControl (c : Char) : Bool := c.toNat < 0x20 || (0x7F ≤ c.toNat && c.toNat ≤ 0x9F)

/-- `str::eq_ignore_ascii_case`. -/
def charsEqIgnoreAsciiCase (s t : Text) : Bool := s.map Char.toLower == t.map Char.toLower

/-- What `trim_edges` trims. -/
def isEdge (c : Char) : Bool := c == '.' || isWhitespace c

/-- What the filter of `sanitize_folder_name` keeps. -/
def isFolderChar (c : Char) : Bool := !isControl c && !forbiddenFolderChars.contains c

def sanitizeFolderName (name fallback : Text) : Text :=
  let stripped := name.filter isFolderChar
  let truncated := (trimEnds isEdge stripped).take maxFolderNameChars
  let cleaned := trimEnds isEdge truncated
  if cleaned.isEmpty then fallback
  else
    let stem := (cleaned.splitOn '.').head?.getD cleaned
    if reservedFolderNames.any fun reserved => charsEqIgnoreAsciiCase stem reserved then fallback
    else cleaned

/-- The fallback of `receive_file`: the start of the sender's id, if the ticket has one. -/
def folderFallback (endpointId : Option Text) : Text :=
  (endpointId.map fun id => id.take 12).getD "Device".toList

/-! ## Safe names -/

/-- A name that is one path component on every platform. -/
structure SafeFolderName (name : Text) : Prop where
  nonempty : name ≠ []
  length_le : name.length ≤ 64
  noControl : ∀ c ∈ name, isControl c = false
  noForbidden : ∀ c ∈ name, c ∉ ['/', '\\', ':', '<', '>', '"', '|', '?', '*']
  notDot : name ≠ ['.']
  notDotDot : name ≠ ['.', '.']
  begins : ∀ c, name.head? = some c → c ≠ '.' ∧ isWhitespace c = false
  ends : ∀ c, name.getLast? = some c → c ≠ '.' ∧ isWhitespace c = false
  notReserved : ∀ reserved ∈ reservedFolderNames,
    charsEqIgnoreAsciiCase (name.takeWhile (· ≠ '.')) reserved = false

theorem isEdge_eq_false {c : Char} :
    isEdge c = false ↔ c ≠ '.' ∧ isWhitespace c = false := by
  rw [isEdge, Bool.or_eq_false_iff, beq_eq_false_iff_ne]

theorem isFolderChar_iff {c : Char} :
    isFolderChar c = true ↔ isControl c = false ∧ c ∉ forbiddenFolderChars := by
  simp [isFolderChar]

theorem SafeFolderName.trimmed {name : Text} (h : SafeFolderName name) : Trimmed isEdge name :=
  ⟨fun c hc => isEdge_eq_false.mpr (h.begins c hc), fun c hc => isEdge_eq_false.mpr (h.ends c hc)⟩

/-- The name before the checks that can give it up. -/
def cleanedName (name : Text) : Text :=
  trimEnds isEdge ((trimEnds isEdge (name.filter isFolderChar)).take maxFolderNameChars)

theorem sanitizeFolderName_eq (name fallback : Text) :
    sanitizeFolderName name fallback =
      if cleanedName name = [] ∨ ∃ reserved ∈ reservedFolderNames,
        charsEqIgnoreAsciiCase ((cleanedName name).takeWhile (· ≠ '.')) reserved = true
      then fallback else cleanedName name := by
  have hcode : sanitizeFolderName name fallback =
      if (cleanedName name).isEmpty then fallback
      else if reservedFolderNames.any fun reserved => charsEqIgnoreAsciiCase
        (((cleanedName name).splitOn '.').head?.getD (cleanedName name)) reserved then fallback
      else cleanedName name := rfl
  simp only [hcode, head?_splitOn, Option.getD_some, List.isEmpty_iff, List.any_eq_true]
  by_cases hempty : cleanedName name = []
  · rw [if_pos hempty, if_pos (Or.inl hempty)]
  · rw [if_neg hempty]
    simp only [hempty, false_or]

theorem cleanedName_spec (name : Text) :
    (cleanedName name).length ≤ 64 ∧ (∀ c ∈ cleanedName name, isFolderChar c = true) ∧
      Trimmed isEdge (cleanedName name) := by
  refine ⟨?_, ?_, trimmed_trimEnds _ _⟩
  · calc (cleanedName name).length
        ≤ ((trimEnds isEdge (name.filter isFolderChar)).take maxFolderNameChars).length :=
          (trimEnds_isInfix _ _).length_le
      _ ≤ 64 := List.length_take_le _ _
  · intro c hc
    have hstripped := mem_of_mem_trimEnds (List.mem_of_mem_take (mem_of_mem_trimEnds hc))
    exact (List.mem_filter.mp hstripped).2

theorem safe_cleanedName {name : Text} (hne : cleanedName name ≠ [])
    (hreserved : ∀ reserved ∈ reservedFolderNames,
      charsEqIgnoreAsciiCase ((cleanedName name).takeWhile (· ≠ '.')) reserved = false) :
    SafeFolderName (cleanedName name) := by
  obtain ⟨hlength, hchars, htrimmed⟩ := cleanedName_spec name
  have hbegins := fun c hc => isEdge_eq_false.mp (htrimmed.head c hc)
  refine ⟨hne, hlength, fun c hc => (isFolderChar_iff.mp (hchars c hc)).1,
    fun c hc => (isFolderChar_iff.mp (hchars c hc)).2, ?_, ?_, hbegins,
    fun c hc => isEdge_eq_false.mp (htrimmed.last c hc), hreserved⟩
  · intro heq
    exact (hbegins '.' (by rw [heq]; rfl)).1 rfl
  · intro heq
    exact (hbegins '.' (by rw [heq]; rfl)).1 rfl

theorem cleanedName_of_safe {name : Text} (h : SafeFolderName name) : cleanedName name = name := by
  have hfilter : name.filter isFolderChar = name :=
    List.filter_eq_self.mpr fun c hc => isFolderChar_iff.mpr ⟨h.noControl c hc, h.noForbidden c hc⟩
  have htake : name.take maxFolderNameChars = name := List.take_of_length_le h.length_le
  rw [cleanedName, hfilter, trimEnds_of_trimmed h.trimmed, htake, trimEnds_of_trimmed h.trimmed]

theorem sanitizeFolderName_of_safe {name : Text} (h : SafeFolderName name) (fallback : Text) :
    sanitizeFolderName name fallback = name := by
  rw [sanitizeFolderName_eq, cleanedName_of_safe h]
  refine if_neg ?_
  rintro (hempty | ⟨reserved, hmem, heq⟩)
  · exact h.nonempty hempty
  · rw [h.notReserved reserved hmem] at heq
    cases heq

theorem safe_sanitizeFolderName (name : Text) {fallback : Text} (h : SafeFolderName fallback) :
    SafeFolderName (sanitizeFolderName name fallback) := by
  rw [sanitizeFolderName_eq]
  split
  · exact h
  · rename_i hkept
    rw [not_or, not_exists] at hkept
    refine safe_cleanedName hkept.1 ?_
    intro reserved hmem
    rw [← Bool.not_eq_true]
    exact fun heq => hkept.2 reserved ⟨hmem, heq⟩

/-- With a safe fallback the result is a safe name; it is its own result, whatever the fallback, and so
is every safe name. -/
theorem sanitizeFolderName_safe (name fallback : Text) (h : SafeFolderName fallback) :
    SafeFolderName (sanitizeFolderName name fallback) ∧
    (∀ other, sanitizeFolderName (sanitizeFolderName name fallback) other =
      sanitizeFolderName name fallback) ∧
    (SafeFolderName name → sanitizeFolderName name fallback = name) := by
  have hsafe := safe_sanitizeFolderName name h
  exact ⟨hsafe, sanitizeFolderName_of_safe hsafe, fun hname => sanitizeFolderName_of_safe hname _⟩

/-! ## The fallback of the caller -/

theorem safe_device : SafeFolderName "Device".toList where
  nonempty := by decide
  length_le := by decide
  noControl := forall_chars (by decide)
  noForbidden := forall_chars (by decide)
  notDot := by decide
  notDotDot := by decide
  begins := by
    rintro c ⟨⟩
    decide
  ends := by
    rintro c ⟨⟩
    decide
  notReserved := by decide

/-- Names of lower-case hex digits are safe, as no reserved name is made of them. -/
theorem safe_of_hex {name : Text} (hne : name ≠ []) (hlength : name.length ≤ 64)
    (hhex : ∀ c ∈ name, c ∈ "0123456789abcdef".toList) : SafeFolderName name := by
  have hchars : ∀ c ∈ "0123456789abcdef".toList, isControl c = false ∧ c ∉ forbiddenFolderChars ∧
      isEdge c = false ∧ c.toLower = c := forall_chars (by decide)
  have hnames : ∀ reserved ∈ reservedFolderNames,
      (reserved.any fun c => decide (c.toLower ∉ "0123456789abcdef".toList)) = true := by decide
  have hedge : ∀ c ∈ name, c ≠ '.' ∧ isWhitespace c = false :=
    fun c hc => isEdge_eq_false.mp (hchars c (hhex c hc)).2.2.1
  refine ⟨hne, hlength, fun c hc => (hchars c (hhex c hc)).1, fun c hc => (hchars c (hhex c hc)).2.1,
    ?_, ?_, fun c hc => hedge c (List.mem_of_head? hc), fun c hc => hedge c (List.mem_of_getLast? hc),
    ?_⟩
  · rintro rfl
    exact (hedge '.' (by simp)).1 rfl
  · rintro rfl
    exact (hedge '.' (by simp)).1 rfl
  · intro reserved hmem
    obtain ⟨c, hc, houtside⟩ := List.any_eq_true.mp (hnames reserved hmem)
    have hout := of_decide_eq_true houtside
    rw [charsEqIgnoreAsciiCase, beq_eq_false_iff_ne]
    intro heq
    have hlower : c.toLower ∈ (name.takeWhile (· ≠ '.')).map Char.toLower := by
      rw [heq]
      exact List.mem_map_of_mem hc
    obtain ⟨d, hd, hdc⟩ := List.mem_map.mp hlower
    have hdhex := hhex d ((List.takeWhile_sublist _).subset hd)
    rw [(hchars d hdhex).2.2.2] at hdc
    rw [← hdc] at hout
    exact hout hdhex

/-- What `receive_file` falls back to is a safe name. -/
theorem safe_folderFallback {endpointId : Option Text}
    (h : ∀ id ∈ endpointId, id ≠ [] ∧ ∀ c ∈ id, c ∈ "0123456789abcdef".toList) :
    SafeFolderName (folderFallback endpointId) := by
  cases endpointId with
  | none => exact safe_device
  | some id =>
    obtain ⟨hne, hhex⟩ := h id rfl
    have htake : id.take 12 ≠ [] := by
      cases id with
      | nil => exact absurd rfl hne
      | cons c id => exact List.cons_ne_nil _ _
    refine safe_of_hex htake ?_ fun c hc => hhex c (List.mem_of_mem_take hc)
    exact (List.length_take_le _ _).trans (by decide)

/-- A peer that calls itself `CON` has its files in a folder of the fallback's name. -/
theorem sanitizeFolderName_reserved :
    SafeFolderName (sanitizeFolderName "CON".toList "Device".toList) ∧
    (∀ other, sanitizeFolderName (sanitizeFolderName "CON".toList "Device".toList) other =
      sanitizeFolderName "CON".toList "Device".toList) ∧
    (SafeFolderName "CON".toList →
      sanitizeFolderName "CON".toList "Device".toList = "CON".toList) :=
  sanitizeFolderName_safe "CON".toList "Device".toList safe_device

example : sanitizeFolderName "../../etc".toList "fb".toList = "etc".toList := by decide

end DashBeam.Protocol
