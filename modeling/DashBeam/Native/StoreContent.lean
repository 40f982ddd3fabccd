import DashBeam.Native.PairedOperations
import DashBeam.Native.TransferHistory

/-!
# Files that do not parse

`paired-devices.json` and `transfer-history.json` as contents on disk, and what the two stores do with
a content they cannot read. Both read paths turn such a content into an empty list. The history moves
it aside first; the paired devices leave it where it is, and the two operations that write whatever
they read, `remember` and `forget`, then replace it.

A content is anything the file system holds. What is outside the repository is its reading: whether
it is text (`read_to_string`), what `serde_json` makes of the text, and how it writes a file.
-/

namespace DashBeam.Native

open Lib Protocol

/-- Text files that hold a `File`, and what of it is certain to survive being written and read. -/
structure Codec (Content File : Type) (same : File → File → Prop) where
  /-- Whether `read_to_string` takes it for text. -/
  utf8 : Content → Bool
  /-- `serde_json::from_str`. -/
  parse : Content → Option File
  /-- `serde_json::to_string_pretty`. -/
  render : File → Content
  utf8_render : ∀ file, utf8 (render file) = true
  parse_render : ∀ file, ∃ file', parse (render file) = some file' ∧ same file file'

namespace Codec

variable {Content File : Type} {same : File → File → Prop} (codec : Codec Content File same)

def deserialize (content : Content) : Option File :=
  if codec.utf8 content then codec.parse content else none

theorem deserialize_render (file : File) :
    ∃ file', codec.deserialize (codec.render file) = some file' ∧ same file file' := by
  rw [deserialize, if_pos (codec.utf8_render file)]
  exact codec.parse_render file

end Codec

/-- `PairedDeviceList` holds strings, integers and flags, which survive as they are. -/
abbrev PairedCodec (Content : Type) : Type := Codec Content (List PairedDevice) Eq

/-- `TransferHistoryFile`. -/
structure HistoryFile where
  version : Nat
  records : List TransferRecord
  deriving DecidableEq, Repr

def HistoryFile.default : HistoryFile := ⟨1, []⟩

/-- The same rows by their ids. A record also holds an `f64`, which JSON does not keep exactly. -/
def SameRows (a b : HistoryFile) : Prop := a.records.map (·.id) = b.records.map (·.id)

abbrev HistoryCodec (Content : Type) : Type := Codec Content HistoryFile SameRows

/-- How the file operations of one call come out. -/
structure StoreIo where
  read : Bool
  rename : Bool
  write : Bool
  deriving DecidableEq, Repr

/-- The files of the two stores in the data directory. -/
structure DataDir (Content : Type) where
  pairedDevices : Option Content
  transferHistory : Option Content
  corruptHistory : Option Content
  deriving DecidableEq, Repr

variable {Content Id : Type}

/-! ### The paired devices -/

inductive PairedCall
  | list
  | get (endpointId : String)
  | write (op : PairedOp)
  deriving DecidableEq, Repr

/-- `PairedDeviceStore::read_file`. -/
def readPaired (codec : PairedCodec Content) (io : StoreIo) (dir : DataDir Content) :
    Option (List PairedDevice) :=
  match dir.pairedDevices with
  | none => some []
  | some content =>
    if io.read && codec.utf8 content then some ((codec.parse content).getD []) else none

/-- A call of `PairedDeviceStore`. -/
def PairedCall.run (I : Iroh Id) (codec : PairedCodec Content) (io : StoreIo)
    (dir : DataDir Content) : PairedCall → DataDir Content
  | .list => dir
  | .get _ => dir
  | .write op =>
    match readPaired codec io dir with
    | none => dir
    | some devices =>
      match (op.run I devices).2 with
      | none => dir
      | some written =>
        if io.write then { dir with pairedDevices := some (codec.render written) } else dir

/-- The calls that write whatever they read. -/
def PairedCall.rebuilds : PairedCall → Bool
  | .write (.remember _) => true
  | .write (.forget _) => true
  | _ => false

/-! ### The transfer history -/

inductive HistoryCall
  | list
  | write (op : HistoryOp)

/-- `TransferHistoryStore::read_file`: the file, if it could be read, and the directory after it. -/
def readHistory (codec : HistoryCodec Content) (io : StoreIo) (dir : DataDir Content) :
    Option HistoryFile × DataDir Content :=
  match dir.transferHistory with
  | none => (some .default, dir)
  | some content =>
    if io.read && codec.utf8 content then
      match codec.parse content with
      | some file => (some file, dir)
      | none =>
        (some .default,
          if io.rename then { dir with transferHistory := none, corruptHistory := some content }
          else dir)
    else (none, dir)

/-- A call of `TransferHistoryStore`. -/
def HistoryCall.run (codec : HistoryCodec Content) (io : StoreIo) (dir : DataDir Content) :
    HistoryCall → DataDir Content
  | .list => (readHistory codec io dir).2
  | .write op =>
    match readHistory codec io dir with
    | (none, dir) => dir
    | (some file, dir) =>
      match (op.run file.records).2 with
      | none => dir
      | some records =>
        if io.write then
          { dir with transferHistory := some (codec.render { file with records := records }) }
        else dir

/-! ### Both -/

inductive StoreCall
  | paired (call : PairedCall)
  | history (call : HistoryCall)

section Calls

variable (I : Iroh Id) (paired : PairedCodec Content)
  (history : HistoryCodec Content)

def StoreCall.run (io : StoreIo) (dir : DataDir Content) : StoreCall → DataDir Content
  | .paired call => call.run I paired io dir
  | .history call => call.run history io dir

/-- The content of the file a call works on. -/
def StoreCall.content (dir : DataDir Content) : StoreCall → Option Content
  | .paired _ => dir.pairedDevices
  | .history _ => dir.transferHistory

/-- The content cannot be read as the file a call works on. -/
def StoreCall.Unparsed (content : Content) : StoreCall → Prop
  | .paired _ => paired.deserialize content = none
  | .history _ => history.deserialize content = none

/-- The content is still there, under its own name or under the quarantine name of its store. -/
def StoreCall.Kept (dir : DataDir Content) (content : Content) : StoreCall → Prop
  | .paired _ => dir.pairedDevices = some content
  | .history _ => dir.transferHistory = some content ∨ dir.corruptHistory = some content

/-- A `remember` or `forget` that reads the content as text and can write. -/
def StoreCall.Overwrites (io : StoreIo) (content : Content) : StoreCall → Prop
  | .paired call =>
    call.rebuilds = true ∧ io.read = true ∧ paired.utf8 content = true ∧ io.write = true
  | .history _ => False

end Calls

/-! ### The paired devices as the node keeps them -/

/-- What stands at the path of the paired devices, as the node's model has it. -/
def asFile (codec : PairedCodec Content) : Option Content → StoreFile
  | none => .missing
  | some content =>
    match codec.deserialize content with
    | none => .malformed
    | some list => .devices list

/-- Reading works when the file system lets it and the content is text. -/
def asIo (codec : PairedCodec Content) (io : StoreIo) (content : Option Content) : Io :=
  ⟨io.read && content.all codec.utf8, io.write⟩

theorem readFile_asFile (codec : PairedCodec Content) (io : StoreIo)
    (dir : DataDir Content) :
    (asFile codec dir.pairedDevices).readFile (asIo codec io dir.pairedDevices) =
      readPaired codec io dir := by
  unfold readPaired asFile asIo
  cases dir.pairedDevices with
  | none => rfl
  | some content =>
    cases hutf8 : codec.utf8 content with
    | false => simp [Codec.deserialize, hutf8, StoreFile.readFile]
    | true => cases hparse : codec.parse content <;>
        simp [Codec.deserialize, hutf8, hparse, StoreFile.readFile]

/-- An operation on the content is the operation of the node's model on what the content stands
for. -/
theorem asFile_run (I : Iroh Id) (codec : PairedCodec Content) (io : StoreIo)
    (dir : DataDir Content) (op : PairedOp) :
    asFile codec ((PairedCall.write op).run I codec io dir).pairedDevices =
      (asFile codec dir.pairedDevices).run I (asIo codec io dir.pairedDevices) op := by
  rw [StoreFile.run, readFile_asFile, PairedCall.run]
  cases readPaired codec io dir with
  | none => rfl
  | some list =>
    dsimp only
    cases (op.run I list).2 with
    | none => rfl
    | some written =>
      cases hwrite : io.write with
      | false => simp [asIo, hwrite]
      | true =>
        obtain ⟨_, hread, rfl⟩ := codec.deserialize_render written
        simp [asIo, hwrite, asFile, hread]

/-! ### What is left of a content that does not parse -/

theorem run_nil_none (I : Iroh Id) {op : PairedOp} (h : (PairedCall.write op).rebuilds = false) :
    (op.run I []).2 = none := by
  cases op with
  | remember device => cases h
  | forget endpointId => cases h
  | rename endpointId displayName =>
    unfold PairedOp.run
    dsimp only
    cases normalizeDisplayName displayName <;> rfl
  | _ => rfl

theorem run_nil_some (I : Iroh Id) {op : PairedOp} (h : (PairedCall.write op).rebuilds = true) :
    ∃ written, (op.run I []).2 = some written := by
  cases op with
  | remember device => exact ⟨_, rfl⟩
  | forget endpointId => exact ⟨_, rfl⟩
  | _ => cases h

theorem readPaired_unparsed {codec : PairedCodec Content} {io : StoreIo} {dir : DataDir Content}
    {content : Content} (hcontent : dir.pairedDevices = some content)
    (hunparsed : codec.deserialize content = none) :
    readPaired codec io dir = if io.read && codec.utf8 content then some [] else none := by
  rw [readPaired, hcontent]
  dsimp only
  split
  · rename_i htext
    rw [Bool.and_eq_true] at htext
    rw [Codec.deserialize, if_pos htext.2] at hunparsed
    rw [hunparsed]
    rfl
  · rfl

theorem paired_kept_iff (I : Iroh Id) {codec : PairedCodec Content} {io : StoreIo}
    {dir : DataDir Content} {content : Content} (hcontent : dir.pairedDevices = some content)
    (hunparsed : codec.deserialize content = none) (call : PairedCall) :
    (call.run I codec io dir).pairedDevices = some content ↔ ¬ (call.rebuilds = true ∧
      io.read = true ∧ codec.utf8 content = true ∧ io.write = true) := by
  cases call with
  | list => exact iff_of_true hcontent fun h => (nomatch h.1)
  | get endpointId => exact iff_of_true hcontent fun h => (nomatch h.1)
  | write op =>
    rw [PairedCall.run, readPaired_unparsed hcontent hunparsed]
    cases htext : io.read && codec.utf8 content with
    | false =>
      refine iff_of_true hcontent fun h => ?_
      rw [h.2.1, h.2.2.1] at htext
      cases htext
    | true =>
      rw [Bool.and_eq_true] at htext
      rw [if_pos rfl]
      dsimp only
      cases hrebuilds : (PairedCall.write op).rebuilds with
      | false =>
        rw [run_nil_none I hrebuilds]
        exact iff_of_true hcontent fun h => (nomatch h.1)
      | true =>
        obtain ⟨written, hwritten⟩ := run_nil_some I hrebuilds
        rw [hwritten]
        dsimp only
        cases hwrite : io.write with
        | false => exact iff_of_true hcontent fun h => (nomatch h.2.2.2)
        | true =>
          refine iff_of_false (fun hkept => ?_) fun h => h ⟨rfl, htext.1, htext.2, rfl⟩
          -- what was written parses, so it is not the content
          have hsame : codec.render written = content := Option.some.inj hkept
          obtain ⟨file, hread, -⟩ := codec.deserialize_render written
          rw [hsame, hunparsed] at hread
          cases hread

theorem readHistory_unparsed {codec : HistoryCodec Content} {io : StoreIo} {dir : DataDir Content}
    {content : Content} (hrename : io.rename = true) (hcontent : dir.transferHistory = some content)
    (hunparsed : codec.deserialize content = none) :
    ((readHistory codec io dir).1 = none ∧ (readHistory codec io dir).2 = dir) ∨
      (readHistory codec io dir).2.corruptHistory = some content := by
  rw [readHistory, hcontent, hrename]
  dsimp only
  cases htext : io.read && codec.utf8 content with
  | true =>
    rw [Bool.and_eq_true] at htext
    rw [Codec.deserialize, if_pos htext.2] at hunparsed
    rw [hunparsed]
    exact .inr rfl
  | false => exact .inl ⟨rfl, rfl⟩

theorem history_kept {codec : HistoryCodec Content} {io : StoreIo} {dir : DataDir Content}
    {content : Content} (hrename : io.rename = true) (hcontent : dir.transferHistory = some content)
    (hunparsed : codec.deserialize content = none) (call : HistoryCall) :
    (call.run codec io dir).transferHistory = some content ∨
      (call.run codec io dir).corruptHistory = some content := by
  have hread := readHistory_unparsed hrename hcontent hunparsed
  cases call with
  | list =>
    rcases hread with ⟨-, hsame⟩ | haside
    · exact .inl (by rw [HistoryCall.run, hsame, hcontent])
    · exact .inr haside
  | write op =>
    rw [HistoryCall.run]
    rcases hread with ⟨hfailed, hsame⟩ | haside
    · split
      · rename_i dir' heq
        rw [heq] at hsame
        change dir' = dir at hsame
        exact .inl (hsame ▸ hcontent)
      · rename_i file dir' heq
        rw [heq] at hfailed
        cases hfailed
    · refine .inr ?_
      split
      · rename_i dir' heq
        rw [heq] at haside
        exact haside
      · rename_i file dir' heq
        rw [heq] at haside
        split
        · exact haside
        · split
          · exact haside
          · exact haside

/-- A content that does not parse is still on disk after a call, exactly when the call is not a
`remember` or `forget` of the paired devices that reads it as text and can write. -/
theorem unparsed_kept_iff (I : Iroh Id) (paired : PairedCodec Content)
    (history : HistoryCodec Content) (io : StoreIo) (dir : DataDir Content) (call : StoreCall)
    (content : Content) (hrename : io.rename = true) (hcontent : call.content dir = some content)
    (hunparsed : call.Unparsed paired history content) :
    call.Kept (call.run I paired history io dir) content ↔ ¬ call.Overwrites paired io content := by
  cases call with
  | paired call => exact paired_kept_iff I hcontent hunparsed call
  | history call => exact iff_of_true (history_kept hrename hcontent hunparsed call) fun h => h

/-- A content of the concrete runs: some text that is no store file, or what a store wrote. -/
inductive DemoContent
  | text (text : String)
  | devices (list : List PairedDevice)
  | history (file : HistoryFile)
  deriving DecidableEq, Repr

def demoPaired : PairedCodec DemoContent where
  utf8 _ := true
  parse
    | .devices list => some list
    | _ => none
  render := .devices
  utf8_render _ := rfl
  parse_render file := ⟨file, rfl, rfl⟩

def demoHistory : HistoryCodec DemoContent where
  utf8 _ := true
  parse
    | .history file => some file
    | _ => none
  render := .history
  utf8_render _ := rfl
  parse_render file := ⟨file, rfl, rfl⟩

/-- Both files hold text that is not JSON. -/
def brokenDir : DataDir DemoContent := ⟨some (.text "\x7b not json"), some (.text "\x7b not json"), none⟩

/-- Every file operation works. -/
def working : StoreIo := ⟨true, true, true⟩

/-- A row is opened on a broken history, which is kept aside, and a broken list of devices survives
`touch`. -/
theorem unparsed_kept_iff_openAndTouch :
    StoreCall.Kept ((StoreCall.history (.write (.open (.new "a" 0 .send "a.pdf" 10)))).run Key.iroh
        demoPaired demoHistory working brokenDir) (.text "\x7b not json")
      (.history (.write (.open (.new "a" 0 .send "a.pdf" 10)))) ∧
    StoreCall.Kept ((StoreCall.paired (.write (.touch Key.bob.hex 5))).run Key.iroh demoPaired
        demoHistory working brokenDir) (.text "\x7b not json")
      (.paired (.write (.touch Key.bob.hex 5))) :=
  ⟨(unparsed_kept_iff Key.iroh demoPaired demoHistory working brokenDir
      (.history (.write (.open (.new "a" 0 .send "a.pdf" 10)))) (.text "\x7b not json") rfl rfl
      rfl).mpr fun h => h,
    (unparsed_kept_iff Key.iroh demoPaired demoHistory working brokenDir
      (.paired (.write (.touch Key.bob.hex 5))) (.text "\x7b not json") rfl rfl rfl).mpr
      fun h => (nomatch h.1)⟩

/-- `forget` of any device replaces a broken list of devices by an empty one. -/
theorem unparsed_replaced :
    ¬ ∀ call : StoreCall, StoreCall.Unparsed demoPaired demoHistory (.text "\x7b not json") call →
      call.content brokenDir = some (.text "\x7b not json") →
      call.Kept (call.run Key.iroh demoPaired demoHistory working brokenDir)
        (.text "\x7b not json") := by
  intro hkept
  have hcall := hkept (.paired (.write (.forget Key.bob.hex))) rfl rfl
  cases hcall

end DashBeam.Native
