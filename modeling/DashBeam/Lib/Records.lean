import DashBeam.Lib.Bytes

/-!
# Records written field by field

A record is built in a buffer of zeros by writing chunks at offsets. When each chunk starts where the
one before it ended, the buffer ends up as the chunks in a row, and a reader finds each chunk at its
offset from the start of the record, wherever the record stands.
-/

namespace Lib

def setAt (buffer : Bytes) (offset : Nat) (chunk : Bytes) : Bytes :=
  buffer.take offset ++ chunk ++ buffer.drop (offset + chunk.length)

/-- `n` bytes at a position, fewer at the end. -/
def slice (bytes : Bytes) (pos n : Nat) : Bytes := (bytes.drop pos).take n

abbrev Fields : Type := List (Nat × Bytes)

namespace Fields

/-- The buffer after all chunks are written. -/
def write (buffer : Bytes) (fields : Fields) : Bytes :=
  fields.foldl (fun buffer field => setAt buffer field.1 field.2) buffer

def bytes (fields : Fields) : Bytes := fields.flatMap Prod.snd

/-- Each chunk starts where the one before it ended, the first at `start`. -/
def Consecutive (start : Nat) : Fields → Prop
  | [] => True
  | field :: fields => field.1 = start ∧ Consecutive (start + field.2.length) fields

theorem setAt_zeros {front chunk : Bytes} {n : Nat} :
    setAt (front ++ List.replicate n 0) front.length chunk =
      (front ++ chunk) ++ List.replicate (n - chunk.length) 0 := by
  rw [setAt, List.take_left, List.drop_append, List.drop_eq_nil_of_le (by omega), List.nil_append,
    List.drop_replicate, Nat.add_sub_cancel_left]

theorem write_zeros {fields : Fields} {front : Bytes} {n : Nat}
    (hconsecutive : Consecutive front.length fields) (hlength : (bytes fields).length = n) :
    write (front ++ List.replicate n 0) fields = front ++ bytes fields := by
  induction fields generalizing front n with
  | nil =>
    obtain rfl : 0 = n := hlength
    rfl
  | cons field fields ih =>
    obtain ⟨hoffset, hrest⟩ := hconsecutive
    rw [bytes, List.flatMap_cons, List.length_append] at hlength
    rw [← List.length_append] at hrest
    have hstep := ih hrest (n := n - field.2.length) (by rw [bytes]; omega)
    rw [write, List.foldl_cons, hoffset, setAt_zeros]
    rw [write] at hstep
    rw [hstep, bytes, bytes, List.flatMap_cons, List.append_assoc]

theorem write_record {fields : Fields} {n : Nat} (hconsecutive : Consecutive 0 fields)
    (hlength : (bytes fields).length = n) : write (List.replicate n 0) fields = bytes fields :=
  write_zeros (show Consecutive ([] : Bytes).length fields from hconsecutive) hlength

/-- A chunk is read at its offset from the start of the record. -/
theorem slice_field {fields : Fields} {front back : Bytes} {start base : Nat} {field : Nat × Bytes}
    (hconsecutive : Consecutive start fields) (hfront : front.length = base + start)
    (hmem : field ∈ fields) :
    slice (front ++ bytes fields ++ back) (base + field.1) field.2.length = field.2 := by
  induction fields generalizing front start with
  | nil => cases hmem
  | cons first fields ih =>
    obtain ⟨hoffset, hrest⟩ := hconsecutive
    rcases List.mem_cons.mp hmem with rfl | hmem
    · rw [hoffset, ← hfront, bytes, List.flatMap_cons, slice, List.append_assoc, List.append_assoc,
        List.drop_left, List.take_left]
    · have hlength : (front ++ first.2).length = base + (start + first.2.length) := by
        rw [List.length_append]
        omega
      have hstep := ih hrest hlength hmem
      rw [bytes] at hstep
      rw [bytes, List.flatMap_cons, ← List.append_assoc front]
      exact hstep

end Fields

end Lib
