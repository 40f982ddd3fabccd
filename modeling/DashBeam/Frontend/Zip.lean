import DashBeam.Frontend.Crc32
import DashBeam.Lib.Records
import DashBeam.Lib.Unicode

/-!
# The store-only archive writer

`createStoreOnlyZip` writes one local record per file, then the central directory, then the end
record. Headers are buffers of zeros with fields written at fixed offsets, each cut to its width by
`setUint16` and `setUint32`. How long a typed array may be is the engine's: an allocation over
`maxLength` throws.
-/

namespace DashBeam.Frontend

open Lib

structure ZipEntry where
  path : JsString
  bytes : Bytes
  deriving DecidableEq, Repr

/-! ## The code -/

/-- `new Uint8Array(length)`. -/
def newUint8Array (maxLength length : Nat) : Except String Bytes :=
  if length ≤ maxLength then .ok (List.replicate length 0)
  else .error "RangeError: Invalid typed array length"

/-- The two bytes `setUint16` writes. -/
def uint16 (value : Int) : Bytes := toLE 2 (value % 2 ^ 16).toNat

/-- The four bytes `setUint32` writes. -/
def uint32 (value : Int) : Bytes := toLE 4 (value % 2 ^ 32).toNat

def writeUint16LE (view : Bytes) (offset : Nat) (value : Int) : Bytes :=
  setAt view offset (uint16 value)

def writeUint32LE (view : Bytes) (offset : Nat) (value : Int) : Bytes :=
  setAt view offset (uint32 value)

/-- `concatChunks`: the loop writes each chunk after the ones before it. -/
def concatChunks (maxLength : Nat) (chunks : List Bytes) : Except String Bytes := do
  let output ← newUint8Array maxLength (chunks.map List.length).sum
  return (chunks.foldl (fun (state : Bytes × Nat) chunk =>
    (setAt state.1 state.2 chunk, state.2 + chunk.length)) (output, 0)).1

def buildLocalFileHeader (maxLength : Nat) (nameBytes : Bytes) (crc : Int) (size : Nat) :
    Except String Bytes := do
  let header ← newUint8Array maxLength (30 + nameBytes.length)
  let header := writeUint32LE header 0 0x04034b50
  let header := writeUint16LE header 4 20
  let header := writeUint16LE header 6 0
  let header := writeUint16LE header 8 0
  let header := writeUint16LE header 10 0
  let header := writeUint16LE header 12 0
  let header := writeUint32LE header 14 crc
  let header := writeUint32LE header 18 size
  let header := writeUint32LE header 22 size
  let header := writeUint16LE header 26 nameBytes.length
  let header := writeUint16LE header 28 0
  return setAt header 30 nameBytes

def buildCentralDirectoryHeader (maxLength : Nat) (nameBytes : Bytes) (crc : Int)
    (size offset : Nat) : Except String Bytes := do
  let header ← newUint8Array maxLength (46 + nameBytes.length)
  let header := writeUint32LE header 0 0x02014b50
  let header := writeUint16LE header 4 20
  let header := writeUint16LE header 6 20
  let header := writeUint16LE header 8 0
  let header := writeUint16LE header 10 0
  let header := writeUint16LE header 12 0
  let header := writeUint16LE header 14 0
  let header := writeUint32LE header 16 crc
  let header := writeUint32LE header 20 size
  let header := writeUint32LE header 24 size
  let header := writeUint16LE header 28 nameBytes.length
  let header := writeUint16LE header 30 0
  let header := writeUint16LE header 32 0
  let header := writeUint16LE header 34 0
  let header := writeUint16LE header 36 0
  let header := writeUint32LE header 38 0
  let header := writeUint32LE header 42 offset
  return setAt header 46 nameBytes

def buildEndOfCentralDirectory (maxLength entryCount centralSize centralOffset : Nat) :
    Except String Bytes := do
  let header ← newUint8Array maxLength 22
  let header := writeUint32LE header 0 0x06054b50
  let header := writeUint16LE header 4 0
  let header := writeUint16LE header 6 0
  let header := writeUint16LE header 8 entryCount
  let header := writeUint16LE header 10 entryCount
  let header := writeUint32LE header 12 centralSize
  let header := writeUint32LE header 16 centralOffset
  return writeUint16LE header 20 0

/-- `entry.path.replace(/\\/g, '/')`. -/
def normalizedPath (path : JsString) : JsString := path.map fun u => if u = 0x5c then 0x2f else u

/-- `new TextEncoder().encode(normalizedPath)`. -/
def nameBytes (entry : ZipEntry) : Bytes := utf8 (normalizedPath entry.path).scalars

/-- The state of the loop over the entries. -/
structure ZipLoop where
  localChunks : List Bytes
  centralChunks : List Bytes
  offset : Nat

def zipTurn (maxLength : Nat) (loop : ZipLoop) (entry : ZipEntry) : Except String ZipLoop := do
  let nameBytes := nameBytes entry
  let checksum := crc32 entry.bytes
  let size := entry.bytes.length
  let localHeader ← buildLocalFileHeader maxLength nameBytes checksum size
  let centralHeader ← buildCentralDirectoryHeader maxLength nameBytes checksum size loop.offset
  return { localChunks := loop.localChunks ++ [localHeader, entry.bytes]
           centralChunks := loop.centralChunks ++ [centralHeader]
           offset := loop.offset + (localHeader.length + size) }

def createStoreOnlyZip (maxLength : Nat) (entries : List ZipEntry) : Except String Bytes := do
  if entries = [] then .error "ZIP archive requires at least one file"
  else
    let loop ← entries.foldlM (zipTurn maxLength) ⟨[], [], 0⟩
    let centralDirectory ← concatChunks maxLength loop.centralChunks
    let endRecord ←
      buildEndOfCentralDirectory maxLength entries.length centralDirectory.length loop.offset
    concatChunks maxLength (loop.localChunks ++ [centralDirectory, endRecord])

/-! ## The layout of the headers -/

def localFields (nameBytes : Bytes) (crc : Int) (size : Nat) : Fields :=
  [(0, uint32 0x04034b50), (4, uint16 20), (6, uint16 0), (8, uint16 0), (10, uint16 0),
    (12, uint16 0), (14, uint32 crc), (18, uint32 size), (22, uint32 size),
    (26, uint16 nameBytes.length), (28, uint16 0), (30, nameBytes)]

def centralFields (nameBytes : Bytes) (crc : Int) (size offset : Nat) : Fields :=
  [(0, uint32 0x02014b50), (4, uint16 20), (6, uint16 20), (8, uint16 0), (10, uint16 0),
    (12, uint16 0), (14, uint16 0), (16, uint32 crc), (20, uint32 size), (24, uint32 size),
    (28, uint16 nameBytes.length), (30, uint16 0), (32, uint16 0), (34, uint16 0), (36, uint16 0),
    (38, uint32 0), (42, uint32 offset), (46, nameBytes)]

def endFields (entryCount centralSize centralOffset : Nat) : Fields :=
  [(0, uint32 0x06054b50), (4, uint16 0), (6, uint16 0), (8, uint16 entryCount),
    (10, uint16 entryCount), (12, uint32 centralSize), (16, uint32 centralOffset), (20, uint16 0)]

@[simp]
theorem length_uint16 (value : Int) : (uint16 value).length = 2 := length_toLE _ _

@[simp]
theorem length_uint32 (value : Int) : (uint32 value).length = 4 := length_toLE _ _

theorem localFields_consecutive (nameBytes : Bytes) (crc : Int) (size : Nat) :
    Fields.Consecutive 0 (localFields nameBytes crc size) := by
  simp [localFields, Fields.Consecutive]

theorem centralFields_consecutive (nameBytes : Bytes) (crc : Int) (size offset : Nat) :
    Fields.Consecutive 0 (centralFields nameBytes crc size offset) := by
  simp [centralFields, Fields.Consecutive]

theorem endFields_consecutive (entryCount centralSize centralOffset : Nat) :
    Fields.Consecutive 0 (endFields entryCount centralSize centralOffset) := by
  simp [endFields, Fields.Consecutive]

@[simp]
theorem length_localFields (nameBytes : Bytes) (crc : Int) (size : Nat) :
    (localFields nameBytes crc size).bytes.length = 30 + nameBytes.length := by
  simp [localFields, Fields.bytes]
  omega

@[simp]
theorem length_centralFields (nameBytes : Bytes) (crc : Int) (size offset : Nat) :
    (centralFields nameBytes crc size offset).bytes.length = 46 + nameBytes.length := by
  simp only [centralFields, Fields.bytes, List.flatMap_cons, List.flatMap_nil, List.length_append,
    List.length_nil, length_uint16, length_uint32]
  omega

@[simp]
theorem length_endFields (entryCount centralSize centralOffset : Nat) :
    (endFields entryCount centralSize centralOffset).bytes.length = 22 := by
  simp [endFields, Fields.bytes]

theorem newUint8Array_ok {maxLength length : Nat} (h : length ≤ maxLength) :
    newUint8Array maxLength length = .ok (List.replicate length 0) := if_pos h

theorem newUint8Array_error {maxLength length : Nat} (h : maxLength < length) :
    newUint8Array maxLength length = .error "RangeError: Invalid typed array length" :=
  if_neg (Nat.not_le.mpr h)

theorem buildLocalFileHeader_ok {maxLength : Nat} {nameBytes : Bytes}
    (h : 30 + nameBytes.length ≤ maxLength) (crc : Int) (size : Nat) :
    buildLocalFileHeader maxLength nameBytes crc size =
      .ok (localFields nameBytes crc size).bytes := by
  rw [buildLocalFileHeader, newUint8Array_ok h,
    ← Fields.write_record (localFields_consecutive nameBytes crc size) (length_localFields ..)]
  simp only [Fields.write, localFields, List.foldl_cons, List.foldl_nil, writeUint16LE,
    writeUint32LE, bind, Except.bind, pure, Except.pure]

theorem buildCentralDirectoryHeader_ok {maxLength : Nat} {nameBytes : Bytes}
    (h : 46 + nameBytes.length ≤ maxLength) (crc : Int) (size offset : Nat) :
    buildCentralDirectoryHeader maxLength nameBytes crc size offset =
      .ok (centralFields nameBytes crc size offset).bytes := by
  rw [buildCentralDirectoryHeader, newUint8Array_ok h, ← Fields.write_record
    (centralFields_consecutive nameBytes crc size offset) (length_centralFields ..)]
  simp only [Fields.write, centralFields, List.foldl_cons, List.foldl_nil, writeUint16LE,
    writeUint32LE, bind, Except.bind, pure, Except.pure]

theorem buildEndOfCentralDirectory_ok {maxLength : Nat} (h : 22 ≤ maxLength)
    (entryCount centralSize centralOffset : Nat) :
    buildEndOfCentralDirectory maxLength entryCount centralSize centralOffset =
      .ok (endFields entryCount centralSize centralOffset).bytes := by
  rw [buildEndOfCentralDirectory, newUint8Array_ok h, ← Fields.write_record
    (endFields_consecutive entryCount centralSize centralOffset) (length_endFields ..)]
  simp only [Fields.write, endFields, List.foldl_cons, List.foldl_nil, writeUint16LE,
    writeUint32LE, bind, Except.bind, pure, Except.pure]

theorem buildLocalFileHeader_error {maxLength : Nat} {nameBytes : Bytes}
    (h : maxLength < 30 + nameBytes.length) (crc : Int) (size : Nat) :
    buildLocalFileHeader maxLength nameBytes crc size =
      .error "RangeError: Invalid typed array length" := by
  rw [buildLocalFileHeader, newUint8Array_error h]
  rfl

theorem buildCentralDirectoryHeader_error {maxLength : Nat} {nameBytes : Bytes}
    (h : maxLength < 46 + nameBytes.length) (crc : Int) (size offset : Nat) :
    buildCentralDirectoryHeader maxLength nameBytes crc size offset =
      .error "RangeError: Invalid typed array length" := by
  rw [buildCentralDirectoryHeader, newUint8Array_error h]
  rfl

theorem buildEndOfCentralDirectory_error {maxLength : Nat} (h : maxLength < 22)
    (entryCount centralSize centralOffset : Nat) :
    buildEndOfCentralDirectory maxLength entryCount centralSize centralOffset =
      .error "RangeError: Invalid typed array length" := by
  rw [buildEndOfCentralDirectory, newUint8Array_error h]
  rfl

/-! ## The archive as a list of records -/

/-- A file's header and bytes. -/
def localRecord (entry : ZipEntry) : Bytes :=
  (localFields (nameBytes entry) (crc32 entry.bytes) entry.bytes.length).bytes ++ entry.bytes

def centralHeader (entry : ZipEntry) (offset : Nat) : Bytes :=
  (centralFields (nameBytes entry) (crc32 entry.bytes) entry.bytes.length offset).bytes

def localRecords (entries : List ZipEntry) : Bytes := entries.flatMap localRecord

/-- The central headers of entries whose first local record is at `offset`. -/
def centralDirectory (offset : Nat) : List ZipEntry → Bytes
  | [] => []
  | entry :: entries =>
    centralHeader entry offset ++ centralDirectory (offset + (localRecord entry).length) entries

/-- The length of the local records: the headers of 30 bytes, the names and the files. -/
def localsLength (entries : List ZipEntry) : Nat :=
  (entries.map fun entry => 30 + (nameBytes entry).length + entry.bytes.length).sum

/-- The length of the central directory: the headers of 46 bytes and the names. -/
def centralLength (entries : List ZipEntry) : Nat :=
  (entries.map fun entry => 46 + (nameBytes entry).length).sum

def archiveLength (entries : List ZipEntry) : Nat :=
  localsLength entries + centralLength entries + 22

def endRecord (entries : List ZipEntry) : Bytes :=
  (endFields entries.length (centralLength entries) (localsLength entries)).bytes

def archive (entries : List ZipEntry) : Bytes :=
  localRecords entries ++ centralDirectory 0 entries ++ endRecord entries

@[simp]
theorem length_localRecord (entry : ZipEntry) :
    (localRecord entry).length = 30 + (nameBytes entry).length + entry.bytes.length := by
  rw [localRecord, List.length_append, length_localFields]

@[simp]
theorem length_centralHeader (entry : ZipEntry) (offset : Nat) :
    (centralHeader entry offset).length = 46 + (nameBytes entry).length :=
  length_centralFields ..

theorem localsLength_cons (entry : ZipEntry) (entries : List ZipEntry) :
    localsLength (entry :: entries) = (localRecord entry).length + localsLength entries := by
  rw [localsLength, List.map_cons, List.sum_cons, length_localRecord, localsLength]

theorem centralLength_cons (entry : ZipEntry) (entries : List ZipEntry) :
    centralLength (entry :: entries) = 46 + (nameBytes entry).length + centralLength entries := by
  rw [centralLength, List.map_cons, List.sum_cons, centralLength]

theorem localsLength_append (entries rest : List ZipEntry) :
    localsLength (entries ++ rest) = localsLength entries + localsLength rest := by
  rw [localsLength, List.map_append, List.sum_append, localsLength, localsLength]

theorem centralLength_append (entries rest : List ZipEntry) :
    centralLength (entries ++ rest) = centralLength entries + centralLength rest := by
  rw [centralLength, List.map_append, List.sum_append, centralLength, centralLength]

@[simp]
theorem length_localRecords (entries : List ZipEntry) :
    (localRecords entries).length = localsLength entries := by
  induction entries with
  | nil => rfl
  | cons entry entries ih =>
    rw [localRecords, List.flatMap_cons, List.length_append, localsLength_cons, ← ih, localRecords]

@[simp]
theorem length_centralDirectory (offset : Nat) (entries : List ZipEntry) :
    (centralDirectory offset entries).length = centralLength entries := by
  induction entries generalizing offset with
  | nil => rfl
  | cons entry entries ih =>
    rw [centralDirectory, List.length_append, length_centralHeader, ih, centralLength_cons]

theorem length_archive (entries : List ZipEntry) :
    (archive entries).length = archiveLength entries := by
  rw [archive, List.length_append, List.length_append, length_localRecords,
    length_centralDirectory, endRecord, length_endFields, archiveLength]

theorem centralDirectory_append (offset : Nat) (entries rest : List ZipEntry) :
    centralDirectory offset (entries ++ rest) =
      centralDirectory offset entries ++ centralDirectory (offset + localsLength entries) rest := by
  induction entries generalizing offset with
  | nil => rfl
  | cons entry entries ih =>
    rw [List.cons_append, centralDirectory, ih, centralDirectory, localsLength_cons,
      List.append_assoc, Nat.add_assoc]

/-! ## What the code returns -/

theorem concatChunks_ok {maxLength : Nat} {chunks : List Bytes}
    (h : chunks.flatten.length ≤ maxLength) : concatChunks maxLength chunks = .ok chunks.flatten := by
  have hfold : ∀ (chunks : List Bytes) (front : Bytes),
      (chunks.foldl (fun (state : Bytes × Nat) chunk =>
        (setAt state.1 state.2 chunk, state.2 + chunk.length))
        (front ++ List.replicate (chunks.map List.length).sum 0, front.length)).1 =
      front ++ chunks.flatten := by
    intro chunks
    induction chunks with
    | nil => exact fun front => rfl
    | cons chunk chunks ih =>
      intro front
      rw [List.foldl_cons, Fields.setAt_zeros, List.map_cons, List.sum_cons,
        Nat.add_sub_cancel_left, ← List.length_append, ih, List.append_assoc, List.flatten_cons]
  rw [List.length_flatten] at h
  rw [concatChunks, newUint8Array_ok h]
  exact congrArg Except.ok (hfold chunks [])

theorem concatChunks_error {maxLength : Nat} {chunks : List Bytes}
    (h : maxLength < chunks.flatten.length) :
    concatChunks maxLength chunks = .error "RangeError: Invalid typed array length" := by
  rw [List.length_flatten] at h
  rw [concatChunks, newUint8Array_error h]
  rfl

/-- What turns for `entries` add to the loop's state. -/
structure ZipLoop.Extends (loop : ZipLoop) (entries : List ZipEntry) (loop' : ZipLoop) : Prop where
  locals : loop'.localChunks.flatten = loop.localChunks.flatten ++ localRecords entries
  centrals : loop'.centralChunks.flatten =
    loop.centralChunks.flatten ++ centralDirectory loop.offset entries
  offset : loop'.offset = loop.offset + localsLength entries

theorem ZipLoop.Extends.nil (loop : ZipLoop) : loop.Extends [] loop where
  locals := (List.append_nil _).symm
  centrals := (List.append_nil _).symm
  offset := rfl

theorem ZipLoop.Extends.cons {loop loop' loop'' : ZipLoop} {entry : ZipEntry}
    {entries : List ZipEntry} (hfirst : loop.Extends [entry] loop')
    (hrest : loop'.Extends entries loop'') : loop.Extends (entry :: entries) loop'' where
  locals := by
    rw [hrest.locals, hfirst.locals, List.append_assoc]
    simp only [localRecords, List.flatMap_cons, List.flatMap_nil, List.append_nil]
  centrals := by
    have hsplit := centralDirectory_append loop.offset [entry] entries
    rw [hrest.centrals, hfirst.centrals, hfirst.offset, List.append_assoc, ← hsplit]
    rfl
  offset := by
    have hsplit := localsLength_append [entry] entries
    rw [List.singleton_append] at hsplit
    rw [hrest.offset, hfirst.offset, hsplit, Nat.add_assoc]

theorem zipTurn_ok {maxLength : Nat} {entry : ZipEntry}
    (h : 46 + (nameBytes entry).length ≤ maxLength) (loop : ZipLoop) :
    ∃ loop', zipTurn maxLength loop entry = .ok loop' ∧ loop.Extends [entry] loop' := by
  refine ⟨⟨loop.localChunks ++
      [(localFields (nameBytes entry) (crc32 entry.bytes) entry.bytes.length).bytes, entry.bytes],
    loop.centralChunks ++ [centralHeader entry loop.offset],
    loop.offset + (localRecord entry).length⟩, ?_, ?_⟩
  · simp only [zipTurn, buildLocalFileHeader_ok (show 30 + (nameBytes entry).length ≤ maxLength by
      omega), buildCentralDirectoryHeader_ok h, bind, Except.bind, pure, Except.pure,
      length_localFields, length_localRecord, centralHeader]
  · constructor
    · simp [localRecords, localRecord]
    · simp [centralDirectory]
    · simp [localsLength]

theorem zipTurn_error {maxLength : Nat} {entry : ZipEntry}
    (h : maxLength < 46 + (nameBytes entry).length) (loop : ZipLoop) :
    ∃ message, zipTurn maxLength loop entry = .error message := by
  by_cases hlocal : 30 + (nameBytes entry).length ≤ maxLength
  · simp only [zipTurn, buildLocalFileHeader_ok hlocal, buildCentralDirectoryHeader_error h, bind,
      Except.bind]
    exact ⟨_, rfl⟩
  · simp only [zipTurn, buildLocalFileHeader_error (Nat.lt_of_not_le hlocal), bind, Except.bind]
    exact ⟨_, rfl⟩

theorem foldlM_zipTurn (maxLength : Nat) (entries : List ZipEntry) (loop : ZipLoop) :
    (∃ message, entries.foldlM (zipTurn maxLength) loop = .error message) ∨
    ∃ loop', entries.foldlM (zipTurn maxLength) loop = .ok loop' ∧ loop.Extends entries loop' := by
  induction entries generalizing loop with
  | nil => exact Or.inr ⟨loop, rfl, ZipLoop.Extends.nil loop⟩
  | cons entry entries ih =>
    rw [List.foldlM_cons]
    by_cases h : 46 + (nameBytes entry).length ≤ maxLength
    · obtain ⟨loop', hturn, hfirst⟩ := zipTurn_ok h loop
      rw [hturn]
      rcases ih loop' with herror | ⟨loop'', hrun, hrest⟩
      · exact Or.inl herror
      · exact Or.inr ⟨loop'', hrun, hfirst.cons hrest⟩
    · obtain ⟨message, hturn⟩ := zipTurn_error (Nat.lt_of_not_le h) loop
      rw [hturn]
      exact Or.inl ⟨message, rfl⟩

theorem foldlM_zipTurn_ok {maxLength : Nat} {entries : List ZipEntry}
    (h : ∀ entry ∈ entries, 46 + (nameBytes entry).length ≤ maxLength) (loop : ZipLoop) :
    ∃ loop', entries.foldlM (zipTurn maxLength) loop = .ok loop' := by
  induction entries generalizing loop with
  | nil => exact ⟨loop, rfl⟩
  | cons entry entries ih =>
    obtain ⟨loop', hturn, -⟩ := zipTurn_ok (h entry List.mem_cons_self) loop
    rw [List.foldlM_cons, hturn]
    exact ih (fun e he => h e (List.mem_cons_of_mem _ he)) loop'

theorem le_centralLength {entries : List ZipEntry} {entry : ZipEntry} (h : entry ∈ entries) :
    46 + (nameBytes entry).length ≤ centralLength entries := by
  obtain ⟨before, after, rfl⟩ := List.append_of_mem h
  rw [centralLength_append, centralLength_cons]
  omega

theorem archive_eq_flatten {entries : List ZipEntry} {loop : ZipLoop}
    (h : ZipLoop.Extends ⟨[], [], 0⟩ entries loop) :
    (loop.localChunks ++ [loop.centralChunks.flatten,
      (endFields entries.length loop.centralChunks.flatten.length loop.offset).bytes]).flatten =
      archive entries := by
  have hlocals : loop.localChunks.flatten = localRecords entries := h.locals
  have hcentrals : loop.centralChunks.flatten = centralDirectory 0 entries := h.centrals
  have hoffset : loop.offset = localsLength entries := h.offset.trans (Nat.zero_add _)
  rw [List.flatten_append, hlocals, hcentrals, hoffset, length_centralDirectory, archive, endRecord,
    List.append_assoc]
  simp only [List.flatten_cons, List.flatten_nil, List.append_nil]

theorem createStoreOnlyZip_ok {maxLength : Nat} {entries : List ZipEntry} (hne : entries ≠ [])
    (h : archiveLength entries ≤ maxLength) :
    createStoreOnlyZip maxLength entries = .ok (archive entries) := by
  rw [archiveLength] at h
  have hcentral : centralLength entries ≤ maxLength := by omega
  obtain ⟨loop, hrun⟩ := foldlM_zipTurn_ok
    (fun entry he => (le_centralLength he).trans hcentral) ⟨[], [], 0⟩
  rcases foldlM_zipTurn maxLength entries ⟨[], [], 0⟩ with ⟨message, herror⟩ | ⟨loop', hrun', hext⟩
  · rw [hrun] at herror
    cases herror
  · have hflatten := archive_eq_flatten hext
    have hchunks : loop'.centralChunks.flatten.length ≤ maxLength := by
      rw [hext.centrals, List.flatten_nil, List.nil_append, length_centralDirectory]
      exact hcentral
    rw [createStoreOnlyZip, if_neg hne, hrun']
    simp only [bind, Except.bind]
    rw [concatChunks_ok hchunks]
    simp only
    rw [buildEndOfCentralDirectory_ok (by omega)]
    simp only
    rw [concatChunks_ok, hflatten]
    rw [hflatten, length_archive, archiveLength]
    omega

/-- Without files, or where the archive cannot be allocated, the function throws. -/
theorem createStoreOnlyZip_error {maxLength : Nat} {entries : List ZipEntry}
    (h : entries = [] ∨ maxLength < archiveLength entries) :
    ∃ message, createStoreOnlyZip maxLength entries = .error message := by
  by_cases hne : entries = []
  · exact ⟨_, if_pos hne⟩
  · have hlong := h.resolve_left hne
    rw [createStoreOnlyZip, if_neg hne]
    rcases foldlM_zipTurn maxLength entries ⟨[], [], 0⟩ with ⟨message, herror⟩ | ⟨loop, hrun, hext⟩
    · rw [herror]
      exact ⟨message, rfl⟩
    · rw [hrun]
      simp only [bind, Except.bind]
      by_cases hcentral : loop.centralChunks.flatten.length ≤ maxLength
      · rw [concatChunks_ok hcentral]
        by_cases hend : 22 ≤ maxLength
        · simp only
          rw [buildEndOfCentralDirectory_ok hend]
          simp only
          rw [concatChunks_error]
          · exact ⟨_, rfl⟩
          · rw [archive_eq_flatten hext, length_archive]
            exact hlong
        · simp only
          rw [buildEndOfCentralDirectory_error (Nat.lt_of_not_le hend)]
          exact ⟨_, rfl⟩
      · rw [concatChunks_error (by omega)]
        exact ⟨_, rfl⟩

/-! ## Fields of the archive -/

def fieldAt (zip : Bytes) (pos width : Nat) : Nat := ofLE (slice zip pos width)

theorem ofLE_uint16 (n : Nat) : ofLE (uint16 n) = n % 2 ^ 16 := by
  rw [uint16, ofLE_toLE]
  omega

theorem ofLE_uint32 (n : Nat) : ofLE (uint32 n) = n % 2 ^ 32 := by
  rw [uint32, ofLE_toLE]
  omega

theorem archive_split_local (before : List ZipEntry) (entry : ZipEntry) (after : List ZipEntry) :
    ∃ back, archive (before ++ entry :: after) =
      localRecords before ++
        (localFields (nameBytes entry) (crc32 entry.bytes) entry.bytes.length).bytes ++ back := by
  refine ⟨entry.bytes ++ localRecords after ++
    centralDirectory 0 (before ++ entry :: after) ++ endRecord (before ++ entry :: after), ?_⟩
  rw [archive, localRecords, List.flatMap_append, List.flatMap_cons, localRecord]
  simp only [List.append_assoc, localRecords]

theorem archive_split_central (before : List ZipEntry) (entry : ZipEntry) (after : List ZipEntry) :
    ∃ back, archive (before ++ entry :: after) =
      (localRecords (before ++ entry :: after) ++ centralDirectory 0 before) ++
        centralHeader entry (localsLength before) ++ back := by
  refine ⟨centralDirectory (localsLength before + (localRecord entry).length) after ++
    endRecord (before ++ entry :: after), ?_⟩
  rw [archive, centralDirectory_append, Nat.zero_add, centralDirectory]
  simp only [List.append_assoc]

/-- A local header's field holds the bytes that were written. -/
theorem slice_local {entries before after : List ZipEntry} {entry : ZipEntry}
    (h : entries = before ++ entry :: after) {offset width : Nat} {chunk : Bytes}
    (hwidth : chunk.length = width)
    (hfield : (offset, chunk) ∈
      localFields (nameBytes entry) (crc32 entry.bytes) entry.bytes.length) :
    slice (archive entries) (localsLength before + offset) width = chunk := by
  obtain ⟨back, hsplit⟩ := archive_split_local before entry after
  rw [h, hsplit, ← hwidth]
  exact Fields.slice_field (localFields_consecutive ..) (length_localRecords before) hfield

theorem slice_central {entries before after : List ZipEntry} {entry : ZipEntry}
    (h : entries = before ++ entry :: after) {offset width : Nat} {chunk : Bytes}
    (hwidth : chunk.length = width)
    (hfield : (offset, chunk) ∈ centralFields (nameBytes entry) (crc32 entry.bytes)
      entry.bytes.length (localsLength before)) :
    slice (archive entries) (localsLength entries + centralLength before + offset) width =
      chunk := by
  obtain ⟨back, hsplit⟩ := archive_split_central before entry after
  rw [h, hsplit, ← h, ← hwidth]
  refine Fields.slice_field (centralFields_consecutive ..) ?_ hfield
  rw [List.length_append, length_localRecords, length_centralDirectory]
  rfl

theorem slice_end (entries : List ZipEntry) {offset width : Nat} {chunk : Bytes}
    (hwidth : chunk.length = width)
    (hfield : (offset, chunk) ∈
      endFields entries.length (centralLength entries) (localsLength entries)) :
    slice (archive entries) (localsLength entries + centralLength entries + offset) width =
      chunk := by
  have hsplit : archive entries = (localRecords entries ++ centralDirectory 0 entries) ++
      (endFields entries.length (centralLength entries) (localsLength entries)).bytes ++ [] := by
    rw [archive, endRecord, List.append_nil]
  rw [hsplit, ← hwidth]
  refine Fields.slice_field (endFields_consecutive ..) ?_ hfield
  rw [List.length_append, length_localRecords, length_centralDirectory]
  rfl

theorem fieldAt_local {entries before after : List ZipEntry} {entry : ZipEntry}
    (h : entries = before ++ entry :: after) {offset width : Nat} {chunk : Bytes}
    (hwidth : chunk.length = width)
    (hfield : (offset, chunk) ∈
      localFields (nameBytes entry) (crc32 entry.bytes) entry.bytes.length) :
    fieldAt (archive entries) (localsLength before + offset) width = ofLE chunk :=
  congrArg ofLE (slice_local h hwidth hfield)

theorem fieldAt_central {entries before after : List ZipEntry} {entry : ZipEntry}
    (h : entries = before ++ entry :: after) {offset width : Nat} {chunk : Bytes}
    (hwidth : chunk.length = width)
    (hfield : (offset, chunk) ∈ centralFields (nameBytes entry) (crc32 entry.bytes)
      entry.bytes.length (localsLength before)) :
    fieldAt (archive entries) (localsLength entries + centralLength before + offset) width =
      ofLE chunk :=
  congrArg ofLE (slice_central h hwidth hfield)

theorem fieldAt_end (entries : List ZipEntry) {offset width : Nat} {chunk : Bytes}
    (hwidth : chunk.length = width)
    (hfield : (offset, chunk) ∈
      endFields entries.length (centralLength entries) (localsLength entries)) :
    fieldAt (archive entries) (localsLength entries + centralLength entries + offset) width =
      ofLE chunk :=
  congrArg ofLE (slice_end entries hwidth hfield)

/-! ## Truthful headers -/

/-- The header fields of an archive of `entries` hold the true values, at the true places of the
headers, and a name that is not ASCII is declared to be UTF-8 by flag bit 11. -/
structure Truthful (entries : List ZipEntry) (zip : Bytes) : Prop where
  counts : fieldAt zip (localsLength entries + centralLength entries + 8) 2 = entries.length ∧
    fieldAt zip (localsLength entries + centralLength entries + 10) 2 = entries.length
  directory :
    fieldAt zip (localsLength entries + centralLength entries + 12) 4 = centralLength entries ∧
    fieldAt zip (localsLength entries + centralLength entries + 16) 4 = localsLength entries
  localHeader : ∀ before entry after, entries = before ++ entry :: after →
    fieldAt zip (localsLength before + 18) 4 = entry.bytes.length ∧
    fieldAt zip (localsLength before + 22) 4 = entry.bytes.length ∧
    fieldAt zip (localsLength before + 26) 2 = (nameBytes entry).length
  centralHeader : ∀ before entry after, entries = before ++ entry :: after →
    fieldAt zip (localsLength entries + centralLength before + 20) 4 = entry.bytes.length ∧
    fieldAt zip (localsLength entries + centralLength before + 24) 4 = entry.bytes.length ∧
    fieldAt zip (localsLength entries + centralLength before + 28) 2 = (nameBytes entry).length ∧
    fieldAt zip (localsLength entries + centralLength before + 42) 4 = localsLength before
  utf8Flag : ∀ before entry after, entries = before ++ entry :: after →
    (∃ b ∈ nameBytes entry, 128 ≤ b.toNat) →
    (fieldAt zip (localsLength before + 6) 2).testBit 11 = true ∧
    (fieldAt zip (localsLength entries + centralLength before + 8) 2).testBit 11 = true

/-- The values fit their fields, and no name needs the flag. -/
structure FieldsFit (entries : List ZipEntry) : Prop where
  count : entries.length < 2 ^ 16
  names : ∀ entry ∈ entries, (nameBytes entry).length < 2 ^ 16
  ascii : ∀ entry ∈ entries, ∀ b ∈ nameBytes entry, b.toNat < 128
  locals : localsLength entries < 2 ^ 32
  central : centralLength entries < 2 ^ 32

theorem truthful_of_fieldsFit {entries : List ZipEntry} (h : FieldsFit entries) :
    Truthful entries (archive entries) where
  counts := by
    have hcount : ofLE (uint16 entries.length) = entries.length := by
      rw [ofLE_uint16, Nat.mod_eq_of_lt h.count]
    rw [fieldAt_end entries (length_uint16 entries.length) (by simp [endFields]),
      fieldAt_end entries (length_uint16 entries.length) (by simp [endFields])]
    exact ⟨hcount, hcount⟩
  directory := by
    rw [fieldAt_end entries (length_uint32 (centralLength entries)) (by simp [endFields]),
      fieldAt_end entries (length_uint32 (localsLength entries)) (by simp [endFields]),
      ofLE_uint32, ofLE_uint32, Nat.mod_eq_of_lt h.central, Nat.mod_eq_of_lt h.locals]
    exact ⟨rfl, rfl⟩
  localHeader := by
    intro before entry after hsplit
    have hlocals := h.locals
    have hname := h.names entry (by simp [hsplit])
    have hbytes : entry.bytes.length < 2 ^ 32 := by
      rw [hsplit, localsLength_append, localsLength_cons, length_localRecord] at hlocals
      omega
    have hsize : ofLE (uint32 entry.bytes.length) = entry.bytes.length := by
      rw [ofLE_uint32, Nat.mod_eq_of_lt hbytes]
    rw [fieldAt_local hsplit (length_uint32 entry.bytes.length) (by simp [localFields]),
      fieldAt_local hsplit (length_uint32 entry.bytes.length) (by simp [localFields]),
      fieldAt_local hsplit (length_uint16 (nameBytes entry).length) (by simp [localFields]),
      ofLE_uint16, Nat.mod_eq_of_lt hname]
    exact ⟨hsize, hsize, rfl⟩
  centralHeader := by
    intro before entry after hsplit
    have hlocals := h.locals
    have hname := h.names entry (by simp [hsplit])
    rw [hsplit, localsLength_append, localsLength_cons, length_localRecord] at hlocals
    have hsize : ofLE (uint32 entry.bytes.length) = entry.bytes.length := by
      rw [ofLE_uint32, Nat.mod_eq_of_lt (by omega)]
    rw [fieldAt_central hsplit (length_uint32 entry.bytes.length) (by simp [centralFields]),
      fieldAt_central hsplit (length_uint32 entry.bytes.length) (by simp [centralFields]),
      fieldAt_central hsplit (length_uint16 (nameBytes entry).length) (by simp [centralFields]),
      fieldAt_central hsplit (length_uint32 (localsLength before)) (by simp [centralFields]),
      ofLE_uint16, Nat.mod_eq_of_lt hname, ofLE_uint32 (localsLength before),
      Nat.mod_eq_of_lt (show localsLength before < 2 ^ 32 by omega)]
    exact ⟨hsize, hsize, rfl, rfl⟩
  utf8Flag := by
    rintro before entry after hsplit ⟨b, hb, hlarge⟩
    have hsmall := h.ascii entry (by simp [hsplit]) b hb
    omega

/-- A field that was cut does not hold its value. -/
theorem lt_of_mod_eq {n m : Nat} (hm : 0 < m) (h : n % m = n) : n < m := by
  rw [← h]
  exact Nat.mod_lt n hm

theorem fieldsFit_of_truthful {entries : List ZipEntry}
    (h : Truthful entries (archive entries)) : FieldsFit entries where
  count := by
    have hcount := h.counts.1
    rw [fieldAt_end entries (length_uint16 entries.length) (by simp [endFields]),
      ofLE_uint16] at hcount
    exact lt_of_mod_eq (by decide) hcount
  names := by
    intro entry hentry
    obtain ⟨before, after, hsplit⟩ := List.append_of_mem hentry
    have hname := (h.localHeader before entry after hsplit).2.2
    rw [fieldAt_local hsplit (length_uint16 (nameBytes entry).length) (by simp [localFields]),
      ofLE_uint16] at hname
    exact lt_of_mod_eq (by decide) hname
  ascii := by
    intro entry hentry b hb
    obtain ⟨before, after, hsplit⟩ := List.append_of_mem hentry
    by_contra hlarge
    have hflag := (h.utf8Flag before entry after hsplit ⟨b, hb, by omega⟩).1
    -- the flag word is the constant zero
    rw [fieldAt_local hsplit (length_uint16 0) (by simp [localFields])] at hflag
    exact absurd hflag (by decide)
  locals := by
    have hlocals := h.directory.2
    rw [fieldAt_end entries (length_uint32 (localsLength entries)) (by simp [endFields]),
      ofLE_uint32] at hlocals
    exact lt_of_mod_eq (by decide) hlocals
  central := by
    have hcentral := h.directory.1
    rw [fieldAt_end entries (length_uint32 (centralLength entries)) (by simp [endFields]),
      ofLE_uint32] at hcentral
    exact lt_of_mod_eq (by decide) hcentral

/-- Whatever the engine can allocate, the function throws or returns truthful headers exactly when
there is nothing to archive, the archive cannot be allocated, or every value fits its field and every
name is ASCII. -/
theorem createStoreOnlyZip_truthful_iff (maxLength : Nat) (entries : List ZipEntry) :
    (∀ zip, createStoreOnlyZip maxLength entries = .ok zip → Truthful entries zip) ↔
      entries = [] ∨ maxLength < archiveLength entries ∨ FieldsFit entries := by
  constructor
  · intro h
    by_cases hne : entries = []
    · exact Or.inl hne
    · by_cases hlength : archiveLength entries ≤ maxLength
      · exact Or.inr (Or.inr (fieldsFit_of_truthful (h _ (createStoreOnlyZip_ok hne hlength))))
      · exact Or.inr (Or.inl (Nat.lt_of_not_le hlength))
  · intro h zip hzip
    have hthrows : ¬ (entries = [] ∨ maxLength < archiveLength entries) := by
      intro hthrow
      obtain ⟨message, herror⟩ := createStoreOnlyZip_error hthrow
      rw [herror] at hzip
      cases hzip
    rw [not_or, Nat.not_lt] at hthrows
    rw [createStoreOnlyZip_ok hthrows.1 hthrows.2] at hzip
    obtain rfl := Except.ok.inj hzip
    rcases h with hnil | hlong | hfit
    · exact absurd hnil hthrows.1
    · exact absurd hlong (Nat.not_lt.mpr hthrows.2)
    · exact truthful_of_fieldsFit hfit

/-- One empty file called `é`: its name is written in UTF-8 and not declared to be. -/
theorem createStoreOnlyZip_undeclared_name :
    ¬ ∀ entries zip, createStoreOnlyZip (2 ^ 32) entries = .ok zip → Truthful entries zip := by
  intro h
  have hlength : archiveLength [⟨[0xe9], []⟩] ≤ 2 ^ 32 := by decide
  have htruthful := h [⟨[0xe9], []⟩] _ (createStoreOnlyZip_ok (List.cons_ne_nil _ _) hlength)
  have hascii := (fieldsFit_of_truthful htruthful).ascii _ List.mem_cons_self
  exact absurd (hascii 0xc3 (by decide)) (by decide)

end DashBeam.Frontend
