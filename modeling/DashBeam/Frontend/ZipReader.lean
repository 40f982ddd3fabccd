import DashBeam.Frontend.Zip

/-!
# Reading an archive back

A reader that knows only the format: it looks for the end record from the back, walks the central
directory it points to, and follows every offset to a local record. Nothing of the writer is used to
read, only to say what must come out.
-/

namespace DashBeam.Frontend

open Lib

/-! ## The reader -/

/-- `n` bytes at a position, if they are there. -/
def bytesAt (zip : Bytes) (pos n : Nat) : Option Bytes :=
  if (slice zip pos n).length = n then some (slice zip pos n) else none

def numberAt (zip : Bytes) (pos width : Nat) : Option Nat := (bytesAt zip pos width).map ofLE

/-- A file as it is found: its name and bytes, the checksums of its two headers, and the places of
its local record and its central header. -/
structure ReadEntry where
  name : Bytes
  bytes : Bytes
  localCrc : Nat
  centralCrc : Nat
  localSpan : Nat × Nat
  centralSpan : Nat × Nat
  deriving DecidableEq, Repr

/-- The local record at an offset, of a stored file of `size` bytes. -/
def readLocal (zip : Bytes) (offset size : Nat) : Option (Bytes × Bytes × Nat × Nat) := do
  let signature ← numberAt zip offset 4
  guard (signature = 0x04034b50)
  let method ← numberAt zip (offset + 8) 2
  guard (method = 0)
  let crc ← numberAt zip (offset + 14) 4
  let nameLength ← numberAt zip (offset + 26) 2
  let extraLength ← numberAt zip (offset + 28) 2
  let name ← bytesAt zip (offset + 30) nameLength
  let start := offset + 30 + nameLength + extraLength
  let bytes ← bytesAt zip start size
  return (name, bytes, crc, start + size)

/-- The central header at a position, and the local record it points to. -/
def readEntry (zip : Bytes) (pos : Nat) : Option ReadEntry := do
  let signature ← numberAt zip pos 4
  guard (signature = 0x02014b50)
  let crc ← numberAt zip (pos + 16) 4
  let compressedSize ← numberAt zip (pos + 20) 4
  let size ← numberAt zip (pos + 24) 4
  guard (compressedSize = size)
  let nameLength ← numberAt zip (pos + 28) 2
  let extraLength ← numberAt zip (pos + 30) 2
  let commentLength ← numberAt zip (pos + 32) 2
  let offset ← numberAt zip (pos + 42) 4
  let name ← bytesAt zip (pos + 46) nameLength
  let (localName, bytes, localCrc, localEnd) ← readLocal zip offset size
  guard (localName = name)
  return { name, bytes, localCrc, centralCrc := crc
           localSpan := (offset, localEnd)
           centralSpan := (pos, pos + 46 + nameLength + extraLength + commentLength) }

/-- The entries of `count` central headers in a row. -/
def readDirectory (zip : Bytes) : Nat → Nat → Option (List ReadEntry)
  | 0, _ => some []
  | count + 1, pos => do
    let entry ← readEntry zip pos
    let entries ← readDirectory zip count entry.centralSpan.2
    return entry :: entries

/-- The last place at or before `pos` where an end record begins. -/
def findEndFrom (zip : Bytes) (pos : Nat) : Option Nat :=
  if numberAt zip pos 4 = some 0x06054b50 then some pos
  else match pos with
    | 0 => none
    | pos + 1 => findEndFrom zip pos

/-- What is in an archive, and the place of its end record. -/
structure ReadZip where
  entries : List ReadEntry
  endSpan : Nat × Nat
  deriving DecidableEq, Repr

/-- Reads an archive: the search for the end record starts where one without a comment would be. -/
def readZip (zip : Bytes) : Option ReadZip := do
  let pos ← findEndFrom zip (zip.length - 22)
  let count ← numberAt zip (pos + 10) 2
  let size ← numberAt zip (pos + 12) 4
  let offset ← numberAt zip (pos + 16) 4
  let commentLength ← numberAt zip (pos + 20) 2
  let entries ← readDirectory zip count offset
  guard ((entries.map fun entry => entry.centralSpan.2 - entry.centralSpan.1).sum = size)
  return { entries, endSpan := (pos, pos + 22 + commentLength) }

/-- Spans that cover what lies between two places, in order and without gap or overlap. -/
def Tiles (start : Nat) : List (Nat × Nat) → Nat → Prop
  | [], stop => start = stop
  | span :: spans, stop => span.1 = start ∧ span.1 ≤ span.2 ∧ Tiles span.2 spans stop

/-! ## Reading what was written -/

theorem bytesAt_of_slice {zip chunk : Bytes} {pos n : Nat} (h : slice zip pos n = chunk)
    (hlength : chunk.length = n) : bytesAt zip pos n = some chunk := by
  rw [bytesAt, h, if_pos hlength]

/-- A field of two bytes whose value was not cut. -/
theorem numberAt_uint16 {zip : Bytes} {pos n : Nat} (h : slice zip pos 2 = uint16 n)
    (hn : n < 2 ^ 16) : numberAt zip pos 2 = some n := by
  rw [numberAt, bytesAt_of_slice h (length_uint16 n), Option.map_some, ofLE_uint16,
    Nat.mod_eq_of_lt hn]

theorem numberAt_uint32 {zip : Bytes} {pos n : Nat} (h : slice zip pos 4 = uint32 n)
    (hn : n < 2 ^ 32) : numberAt zip pos 4 = some n := by
  rw [numberAt, bytesAt_of_slice h (length_uint32 n), Option.map_some, ofLE_uint32,
    Nat.mod_eq_of_lt hn]

/-- The number that both headers hold as checksum. -/
theorem crc32_field (bytes : Bytes) :
    crc32 bytes = ((crcBits bytes).toNat : Int) ∧ (crcBits bytes).toNat < 2 ^ 32 :=
  ⟨crc32_eq_crcBits bytes, (crcBits bytes).isLt⟩

/-- The values of the headers fit their fields; names may be any UTF-8. -/
structure ValuesFit (entries : List ZipEntry) : Prop where
  count : entries.length < 2 ^ 16
  names : ∀ entry ∈ entries, (nameBytes entry).length < 2 ^ 16
  archive : archiveLength entries < 2 ^ 32

/-- What a reader should find of an entry between the others. -/
def foundEntry (entries before : List ZipEntry) (entry : ZipEntry) : ReadEntry where
  name := nameBytes entry
  bytes := entry.bytes
  localCrc := (crcBits entry.bytes).toNat
  centralCrc := (crcBits entry.bytes).toNat
  localSpan := (localsLength before, localsLength before + (localRecord entry).length)
  centralSpan := (localsLength entries + centralLength before,
    localsLength entries + centralLength before + 46 + (nameBytes entry).length)

theorem ValuesFit.locals_lt {entries : List ZipEntry} (h : ValuesFit entries) :
    localsLength entries < 2 ^ 32 := by
  have harchive := h.archive
  rw [archiveLength] at harchive
  omega

theorem ValuesFit.size_lt {entries before after : List ZipEntry} {entry : ZipEntry}
    (h : ValuesFit entries) (hsplit : entries = before ++ entry :: after) :
    localsLength before < 2 ^ 32 ∧ entry.bytes.length < 2 ^ 32 := by
  have hlocals := h.locals_lt
  rw [hsplit, localsLength_append, localsLength_cons, length_localRecord] at hlocals
  omega

/-- A file's bytes stand after its header. -/
theorem slice_bytes {entries before after : List ZipEntry} {entry : ZipEntry}
    (h : entries = before ++ entry :: after) :
    slice (archive entries) (localsLength before + 30 + (nameBytes entry).length)
      entry.bytes.length = entry.bytes := by
  have harchive : ∃ back, archive entries = (localRecords before ++
      (localFields (nameBytes entry) (crc32 entry.bytes) entry.bytes.length).bytes) ++
        (entry.bytes ++ back) := by
    refine ⟨localRecords after ++ centralDirectory 0 entries ++ endRecord entries, ?_⟩
    rw [archive, h, localRecords, List.flatMap_append, List.flatMap_cons, localRecord]
    simp only [List.append_assoc, localRecords]
  obtain ⟨back, hsplit⟩ := harchive
  have hlength : localsLength before + 30 + (nameBytes entry).length = (localRecords before ++
      (localFields (nameBytes entry) (crc32 entry.bytes) entry.bytes.length).bytes).length := by
    rw [List.length_append, length_localRecords, length_localFields]
    omega
  rw [hsplit, hlength, slice, List.drop_left, List.take_left]

theorem readLocal_eq {entries before after : List ZipEntry} {entry : ZipEntry}
    (hfit : ValuesFit entries) (h : entries = before ++ entry :: after) :
    readLocal (archive entries) (localsLength before) entry.bytes.length =
      some (nameBytes entry, entry.bytes, (crcBits entry.bytes).toNat,
        localsLength before + (localRecord entry).length) := by
  have hname := hfit.names entry (by simp [h])
  obtain ⟨hcrc, hcrcLt⟩ := crc32_field entry.bytes
  have hsignature : numberAt (archive entries) (localsLength before + 0) 4 = some 0x04034b50 :=
    numberAt_uint32 (slice_local h (length_uint32 0x04034b50) (by simp [localFields])) (by decide)
  have hmethod : numberAt (archive entries) (localsLength before + 8) 2 = some 0 :=
    numberAt_uint16 (slice_local h (length_uint16 0) (by simp [localFields])) (by decide)
  have hchecksum : numberAt (archive entries) (localsLength before + 14) 4 =
      some (crcBits entry.bytes).toNat :=
    numberAt_uint32 (slice_local h (length_uint32 _) (by simp [localFields, hcrc])) hcrcLt
  have hnameLength : numberAt (archive entries) (localsLength before + 26) 2 =
      some (nameBytes entry).length :=
    numberAt_uint16 (slice_local h (length_uint16 _) (by simp [localFields])) hname
  have hextra : numberAt (archive entries) (localsLength before + 28) 2 = some 0 :=
    numberAt_uint16 (slice_local h (length_uint16 0) (by simp [localFields])) (by decide)
  have hnameBytes : bytesAt (archive entries) (localsLength before + 30)
      (nameBytes entry).length = some (nameBytes entry) :=
    bytesAt_of_slice (slice_local h rfl (by simp [localFields])) rfl
  have hbytes : bytesAt (archive entries)
      (localsLength before + 30 + (nameBytes entry).length + 0) entry.bytes.length =
        some entry.bytes :=
    bytesAt_of_slice (slice_bytes h) rfl
  have hend : localsLength before + 30 + (nameBytes entry).length + 0 + entry.bytes.length =
      localsLength before + (localRecord entry).length := by
    rw [length_localRecord]
    omega
  rw [Nat.add_zero] at hsignature
  simp only [readLocal, hsignature, hmethod, hchecksum, hnameLength, hextra, hnameBytes, hbytes,
    hend, Option.bind_eq_bind, Option.bind_some, guard, if_true, Option.pure_def]

theorem readEntry_eq {entries before after : List ZipEntry} {entry : ZipEntry}
    (hfit : ValuesFit entries) (h : entries = before ++ entry :: after) :
    readEntry (archive entries) (localsLength entries + centralLength before) =
      some (foundEntry entries before entry) := by
  have hname := hfit.names entry (by simp [h])
  obtain ⟨hoffsetLt, hsizeLt⟩ := hfit.size_lt h
  obtain ⟨hcrc, hcrcLt⟩ := crc32_field entry.bytes
  generalize hpos : localsLength entries + centralLength before = pos
  have hsignature : numberAt (archive entries) (pos + 0) 4 = some 0x02014b50 := by
    rw [← hpos]
    exact numberAt_uint32 (slice_central h (length_uint32 0x02014b50) (by simp [centralFields]))
      (by decide)
  have hchecksum : numberAt (archive entries) (pos + 16) 4 =
      some (crcBits entry.bytes).toNat := by
    rw [← hpos]
    exact numberAt_uint32 (slice_central h (length_uint32 _) (by simp [centralFields, hcrc]))
      hcrcLt
  have hcompressed : numberAt (archive entries) (pos + 20) 4 = some entry.bytes.length := by
    rw [← hpos]
    exact numberAt_uint32 (slice_central h (length_uint32 _) (by simp [centralFields])) hsizeLt
  have hsize : numberAt (archive entries) (pos + 24) 4 = some entry.bytes.length := by
    rw [← hpos]
    exact numberAt_uint32 (slice_central h (length_uint32 _) (by simp [centralFields])) hsizeLt
  have hnameLength : numberAt (archive entries) (pos + 28) 2 =
      some (nameBytes entry).length := by
    rw [← hpos]
    exact numberAt_uint16 (slice_central h (length_uint16 _) (by simp [centralFields])) hname
  have hextra : numberAt (archive entries) (pos + 30) 2 = some 0 := by
    rw [← hpos]
    exact numberAt_uint16 (slice_central h (length_uint16 0) (by simp [centralFields]))
      (by decide)
  have hcomment : numberAt (archive entries) (pos + 32) 2 = some 0 := by
    rw [← hpos]
    exact numberAt_uint16 (slice_central h (length_uint16 0) (by simp [centralFields]))
      (by decide)
  have hoffset : numberAt (archive entries) (pos + 42) 4 = some (localsLength before) := by
    rw [← hpos]
    exact numberAt_uint32 (slice_central h (length_uint32 _) (by simp [centralFields])) hoffsetLt
  have hnameBytes : bytesAt (archive entries) (pos + 46) (nameBytes entry).length =
      some (nameBytes entry) := by
    rw [← hpos]
    exact bytesAt_of_slice (slice_central h rfl (by simp [centralFields])) rfl
  have hlocal := readLocal_eq hfit h
  rw [Nat.add_zero] at hsignature
  simp only [readEntry, hsignature, hchecksum, hcompressed, hsize, hnameLength, hextra, hcomment,
    hoffset, hnameBytes, hlocal, Option.bind_eq_bind, Option.bind_some, guard, if_true,
    Option.pure_def, foundEntry, hpos, Nat.add_zero]

/-- What a reader should find of the entries after `before`. -/
def foundEntries (entries : List ZipEntry) : List ZipEntry → List ZipEntry → List ReadEntry
  | _, [] => []
  | before, entry :: after =>
    foundEntry entries before entry :: foundEntries entries (before ++ [entry]) after

theorem readDirectory_eq {entries before after : List ZipEntry} (hfit : ValuesFit entries)
    (h : entries = before ++ after) :
    readDirectory (archive entries) after.length
      (localsLength entries + centralLength before) = some (foundEntries entries before after) := by
  induction after generalizing before with
  | nil => rfl
  | cons entry after ih =>
    have hnext : localsLength entries + centralLength (before ++ [entry]) =
        (foundEntry entries before entry).centralSpan.2 := by
      rw [centralLength_append, centralLength_cons]
      simp only [foundEntry, centralLength, List.map_nil, List.sum_nil]
      omega
    have hsplit : entries = (before ++ [entry]) ++ after := by
      rw [h, List.append_assoc]
      rfl
    have hrest := ih hsplit
    rw [List.length_cons, readDirectory, readEntry_eq hfit h]
    simp only [Option.bind_eq_bind, Option.bind_some, ← hnext, hrest]
    rfl

theorem findEndFrom_eq (entries : List ZipEntry) :
    findEndFrom (archive entries) ((archive entries).length - 22) =
      some (localsLength entries + centralLength entries) := by
  have hpos : (archive entries).length - 22 = localsLength entries + centralLength entries := by
    rw [length_archive, archiveLength]
    omega
  have hsignature :
      numberAt (archive entries) (localsLength entries + centralLength entries + 0) 4 =
        some 0x06054b50 :=
    numberAt_uint32 (slice_end entries (length_uint32 0x06054b50) (by simp [endFields]))
      (by decide)
  rw [Nat.add_zero] at hsignature
  rw [hpos, findEndFrom.eq_def, if_pos hsignature]

theorem sum_centralSpans (entries before after : List ZipEntry) :
    ((foundEntries entries before after).map fun e => e.centralSpan.2 - e.centralSpan.1).sum =
      centralLength after := by
  induction after generalizing before with
  | nil => rfl
  | cons entry after ih =>
    rw [foundEntries, List.map_cons, List.sum_cons, ih, centralLength_cons]
    simp only [foundEntry]
    omega

theorem readZip_archive {entries : List ZipEntry} (hfit : ValuesFit entries) :
    readZip (archive entries) =
      some ⟨foundEntries entries [] entries,
        (localsLength entries + centralLength entries, archiveLength entries)⟩ := by
  have harchive := hfit.archive
  rw [archiveLength] at harchive
  have hcount : numberAt (archive entries)
      (localsLength entries + centralLength entries + 10) 2 = some entries.length :=
    numberAt_uint16 (slice_end entries (length_uint16 _) (by simp [endFields])) hfit.count
  have hsize : numberAt (archive entries)
      (localsLength entries + centralLength entries + 12) 4 = some (centralLength entries) :=
    numberAt_uint32 (slice_end entries (length_uint32 _) (by simp [endFields])) (by omega)
  have hoffset : numberAt (archive entries)
      (localsLength entries + centralLength entries + 16) 4 = some (localsLength entries) :=
    numberAt_uint32 (slice_end entries (length_uint32 _) (by simp [endFields])) (by omega)
  have hcomment : numberAt (archive entries)
      (localsLength entries + centralLength entries + 20) 2 = some 0 :=
    numberAt_uint16 (slice_end entries (length_uint16 0) (by simp [endFields])) (by decide)
  have hdirectory : readDirectory (archive entries) entries.length (localsLength entries) =
      some (foundEntries entries [] entries) :=
    readDirectory_eq hfit (List.nil_append entries).symm
  simp only [readZip, findEndFrom_eq, hcount, hsize, hoffset, hcomment, hdirectory,
    sum_centralSpans, Option.bind_eq_bind, Option.bind_some, guard, if_true, Option.pure_def,
    Nat.add_zero, archiveLength]

/-! ## The records tile the archive -/

theorem tiles_append {start middle stop : Nat} {spans spans' : List (Nat × Nat)}
    (h : Tiles start spans middle) (h' : Tiles middle spans' stop) :
    Tiles start (spans ++ spans') stop := by
  induction spans generalizing start with
  | nil =>
    obtain rfl : start = middle := h
    exact h'
  | cons span spans ih => exact ⟨h.1, h.2.1, ih h.2.2⟩

theorem tiles_localSpans (entries before after : List ZipEntry) :
    Tiles (localsLength before) ((foundEntries entries before after).map ReadEntry.localSpan)
      (localsLength (before ++ after)) := by
  induction after generalizing before with
  | nil => rw [List.append_nil]; rfl
  | cons entry after ih =>
    have hstep := ih (before ++ [entry])
    rw [localsLength_append before [entry], localsLength_cons, List.append_assoc] at hstep
    exact ⟨rfl, Nat.le_add_right _ _, hstep⟩

theorem tiles_centralSpans (entries before after : List ZipEntry) :
    Tiles (localsLength entries + centralLength before)
      ((foundEntries entries before after).map ReadEntry.centralSpan)
      (localsLength entries + centralLength (before ++ after)) := by
  induction after generalizing before with
  | nil => rw [List.append_nil]; rfl
  | cons entry after ih =>
    have hstep := ih (before ++ [entry])
    have hlength : localsLength entries + centralLength (before ++ [entry]) =
        localsLength entries + centralLength before + 46 + (nameBytes entry).length := by
      rw [centralLength_append, centralLength_cons]
      simp only [centralLength, List.map_nil, List.sum_nil]
      omega
    rw [hlength, List.append_assoc] at hstep
    refine ⟨rfl, ?_, hstep⟩
    simp only [foundEntry]
    omega

theorem foundEntries_content (entries before after : List ZipEntry) :
    (foundEntries entries before after).map (fun e => (e.name, e.bytes, e.localCrc, e.centralCrc)) =
      after.map fun entry => (nameBytes entry, entry.bytes, (crcBits entry.bytes).toNat,
        (crcBits entry.bytes).toNat) := by
  induction after generalizing before with
  | nil => rfl
  | cons entry after ih =>
    rw [foundEntries, List.map_cons, ih, List.map_cons]
    rfl

/-- A reader of the archive recovers the entries in order, with the UTF-8 of their normalized paths,
their bytes and the CRC-32 of these in both headers, and the records tile the archive. The archive is
written wherever the engine can allocate it. -/
theorem createStoreOnlyZip_round_trip (maxLength : Nat) (entries : List ZipEntry)
    (hne : entries ≠ []) (hcount : entries.length ≤ 65535)
    (hnames : ∀ entry ∈ entries, (nameBytes entry).length ≤ 65535)
    (harchive : archiveLength entries < 2 ^ 32) (hmax : archiveLength entries ≤ maxLength) :
    ∃ zip found, createStoreOnlyZip maxLength entries = .ok zip ∧
      zip.length = archiveLength entries ∧ readZip zip = some found ∧
      found.entries.map (fun e => (e.name, e.bytes, e.localCrc, e.centralCrc)) =
        entries.map (fun entry => (utf8 (normalizedPath entry.path).scalars, entry.bytes,
          (crcBits entry.bytes).toNat, (crcBits entry.bytes).toNat)) ∧
      Tiles 0 (found.entries.map ReadEntry.localSpan ++
        found.entries.map ReadEntry.centralSpan ++ [found.endSpan]) zip.length := by
  have hfit : ValuesFit entries :=
    ⟨by omega, fun entry he => Nat.lt_succ_of_le (hnames entry he), harchive⟩
  refine ⟨archive entries, _, createStoreOnlyZip_ok hne hmax, length_archive entries,
    readZip_archive hfit, foundEntries_content entries [] entries, ?_⟩
  rw [length_archive]
  have hend : Tiles (localsLength entries + centralLength entries)
      [(localsLength entries + centralLength entries, archiveLength entries)]
      (archiveLength entries) := by
    refine ⟨rfl, ?_, rfl⟩
    rw [archiveLength]
    omega
  exact tiles_append
    (tiles_append (tiles_localSpans entries [] entries) (tiles_centralSpans entries [] entries)) hend

/-- `é\a` and `b`, with three and two bytes. -/
theorem createStoreOnlyZip_round_trip_two :
    ∃ zip found, createStoreOnlyZip (2 ^ 32) [⟨[0xe9, 0x5c, 0x61], [1, 2, 3]⟩, ⟨[0x62], [4, 5]⟩] =
        .ok zip ∧ readZip zip = some found ∧
      found.entries.map (fun e => (e.name, e.bytes)) =
        [([0xc3, 0xa9, 0x2f, 0x61], [1, 2, 3]), ([0x62], [4, 5])] := by
  obtain ⟨zip, found, hzip, -, hread, hcontent, -⟩ := createStoreOnlyZip_round_trip (2 ^ 32)
    [⟨[0xe9, 0x5c, 0x61], [1, 2, 3]⟩, ⟨[0x62], [4, 5]⟩] (List.cons_ne_nil _ _) (by decide)
    (by decide) (by decide) (by decide)
  refine ⟨zip, found, hzip, hread, ?_⟩
  have hpairs := congrArg (List.map fun t => (t.1, t.2.1)) hcontent
  rw [List.map_map, List.map_map] at hpairs
  exact hpairs

end DashBeam.Frontend
