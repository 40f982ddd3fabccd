import DashBeam.Lib.Bytes
import Mathlib.Data.BitVec

/-!
# The checksum of the archive writer

JavaScript's bit operators work on 32-bit patterns and give signed numbers, except `>>>`, which gives
an unsigned one. `CRC_TABLE` and `crc32` are written with these operators on numbers; `crcBits` is
the checksum they compute, bit by bit, with the reflected polynomial.
-/

namespace DashBeam.Frontend

open Lib

/-! ## Numbers under bit operators -/

namespace JsNumber

/-- The 32-bit pattern of a number. -/
def bits (x : Int) : BitVec 32 := BitVec.ofInt 32 x

/-- `a ^ b`, a signed number. -/
def xor (a b : Int) : Int := (bits a ^^^ bits b).toInt

/-- `a & b`, a signed number. -/
def and (a b : Int) : Int := (bits a &&& bits b).toInt

/-- `a >>> n`, an unsigned number. -/
def shiftRight (a : Int) (n : Nat) : Int := ((bits a >>> (n % 32)).toNat : Int)

theorem bits_toInt (v : BitVec 32) : bits v.toInt = v := BitVec.ofInt_toInt

theorem bits_toNat (v : BitVec 32) : bits (v.toNat : Int) = v := by
  rw [bits, BitVec.ofInt_natCast, BitVec.ofNat_toNat, BitVec.setWidth_eq]

@[simp]
theorem bits_xor (a b : Int) : bits (xor a b) = bits a ^^^ bits b := bits_toInt _

@[simp]
theorem bits_shiftRight (a : Int) (n : Nat) : bits (shiftRight a n) = bits a >>> (n % 32) :=
  bits_toNat _

/-- An unsigned number is given by its pattern. -/
theorem shiftRight_zero (a : Int) : shiftRight a 0 = ((bits a).toNat : Int) := by
  rw [shiftRight, Nat.zero_mod, BitVec.ushiftRight_zero]

end JsNumber

/-! ## The code -/

/-- One step of the inner loop over `bit`. -/
def crcStep (value : Int) : Int :=
  if JsNumber.and value 1 ≠ 0 then JsNumber.xor 0xedb88320 (JsNumber.shiftRight value 1)
  else JsNumber.shiftRight value 1

/-- The entry of `CRC_TABLE` at an index. -/
def crcEntry (index : Nat) : Int := JsNumber.shiftRight (crcStep^[8] index) 0

def crcTable : List Int := (List.range 256).map crcEntry

/-- One step of the loop over the bytes. -/
def crcByte (crc : Int) (byte : UInt8) : Int :=
  JsNumber.shiftRight
    (JsNumber.xor (crcTable.getD (JsNumber.and (JsNumber.xor crc byte.toNat) 0xff).toNat 0)
      (JsNumber.shiftRight crc 8)) 0

def crc32 (bytes : Bytes) : Int :=
  JsNumber.shiftRight (JsNumber.xor (bytes.foldl crcByte 0xffffffff) 0xffffffff) 0

/-! ## The checksum bit by bit -/

/-- One bit: the register is shifted, and the polynomial is added when a one falls out. -/
def crcBit (register : BitVec 32) : BitVec 32 :=
  if register.getLsbD 0 then 0xedb88320#32 ^^^ (register >>> 1) else register >>> 1

/-- Eight bits, after the byte is added to the register. -/
def crcBitsByte (register : BitVec 32) (byte : UInt8) : BitVec 32 :=
  crcBit^[8] (register ^^^ BitVec.ofNat 32 byte.toNat)

/-- CRC-32 with the reflected polynomial 0xEDB88320, initial value and final xor all ones. -/
def crcBits (bytes : Bytes) : BitVec 32 :=
  bytes.foldl crcBitsByte 0xffffffff#32 ^^^ 0xffffffff#32

/-! ## Steps commute with taking the pattern -/

theorem and_one_ne_zero (value : Int) :
    JsNumber.and value 1 ≠ 0 ↔ (JsNumber.bits value).getLsbD 0 = true := by
  have hone : JsNumber.bits 1 = 1#32 := rfl
  rw [JsNumber.and, hone, BitVec.and_one_eq_setWidth_ofBool_getLsbD]
  cases (JsNumber.bits value).getLsbD 0 <;> decide

theorem bits_crcStep (value : Int) :
    JsNumber.bits (crcStep value) = crcBit (JsNumber.bits value) := by
  rw [crcStep, crcBit]
  by_cases h : (JsNumber.bits value).getLsbD 0 = true
  · rw [if_pos ((and_one_ne_zero value).mpr h), if_pos h, JsNumber.bits_xor,
      JsNumber.bits_shiftRight]
    rfl
  · rw [if_neg (fun hne => h ((and_one_ne_zero value).mp hne)), if_neg h,
      JsNumber.bits_shiftRight]

theorem bits_crcStep_iterate (n : Nat) (value : Int) :
    JsNumber.bits (crcStep^[n] value) = crcBit^[n] (JsNumber.bits value) := by
  induction n generalizing value with
  | zero => rfl
  | succ n ih => rw [Function.iterate_succ_apply, ih, bits_crcStep, Function.iterate_succ_apply]

theorem bits_crcEntry (index : Nat) :
    JsNumber.bits (crcEntry index) = crcBit^[8] (BitVec.ofNat 32 index) := by
  rw [crcEntry, JsNumber.shiftRight_zero, JsNumber.bits_toNat, bits_crcStep_iterate, JsNumber.bits,
    BitVec.ofInt_natCast]

/-! ## A table entry does eight bits at once -/

theorem crcBit_xor (x y : BitVec 32) : crcBit (x ^^^ y) = crcBit x ^^^ crcBit y := by
  rw [crcBit, crcBit, crcBit, BitVec.getLsbD_xor, BitVec.ushiftRight_xor_distrib]
  apply BitVec.eq_of_getLsbD_eq
  intro i _
  cases x.getLsbD 0 <;> cases y.getLsbD 0 <;>
    simp only [Bool.xor_false, Bool.xor_true, Bool.not_false, Bool.not_true, if_true,
      Bool.false_eq_true, if_false, BitVec.getLsbD_xor] <;>
    cases (0xedb88320#32).getLsbD i <;> cases (x >>> 1).getLsbD i <;>
    cases (y >>> 1).getLsbD i <;> rfl

theorem crcBit_iterate_xor (n : Nat) (x y : BitVec 32) :
    crcBit^[n] (x ^^^ y) = crcBit^[n] x ^^^ crcBit^[n] y := by
  induction n generalizing x y with
  | zero => rfl
  | succ n ih => rw [Function.iterate_succ_apply, crcBit_xor, ih, ← Function.iterate_succ_apply,
      ← Function.iterate_succ_apply]

/-- A zero that falls out leaves a plain shift. -/
theorem crcBit_shiftLeft_one {x : BitVec 32} (h : x.getLsbD 31 = false) : crcBit (x <<< 1) = x := by
  have hlow : (x <<< 1).getLsbD 0 = false := by simp
  rw [crcBit, hlow, if_neg Bool.false_ne_true]
  apply BitVec.eq_of_getLsbD_eq
  intro i hi
  rw [BitVec.getLsbD_ushiftRight, BitVec.getLsbD_shiftLeft]
  by_cases hlast : i = 31
  · subst hlast
    rw [h]
    rfl
  · simp only [show 1 + i < 32 by omega, decide_true, Bool.true_and, show ¬ 1 + i < 1 by omega,
      decide_false, Bool.not_false, Nat.add_sub_cancel_left]

/-- The bits above the lowest byte come down in eight steps. -/
theorem crcBit_iterate_high (x : BitVec 32) {n : Nat} (hn : n ≤ 8) :
    crcBit^[n] ((x >>> 8) <<< n) = x >>> 8 := by
  induction n with
  | zero => rw [Function.iterate_zero_apply, BitVec.shiftLeft_zero]
  | succ n ih =>
    have htop : ((x >>> 8) <<< n).getLsbD 31 = false := by
      rw [BitVec.getLsbD_shiftLeft, BitVec.getLsbD_ushiftRight,
        BitVec.getLsbD_of_ge x _ (by omega), Bool.and_false]
    rw [Function.iterate_succ_apply, BitVec.shiftLeft_add, crcBit_shiftLeft_one htop]
    exact ih (by omega)

/-- A register is its lowest byte and the bits above it. -/
theorem low_xor_high (x : BitVec 32) : (x &&& 0xff#32) ^^^ ((x >>> 8) <<< 8) = x := by
  apply BitVec.eq_of_getLsbD_eq
  intro i hi
  have hmask : (0xff#32).getLsbD i = decide (i < 8) := by
    rw [BitVec.getLsbD_ofNat, show (255 : Nat) = 2 ^ 8 - 1 from rfl, Nat.testBit_two_pow_sub_one]
    simp [hi]
  rw [BitVec.getLsbD_xor, BitVec.getLsbD_and, hmask, BitVec.getLsbD_shiftLeft,
    BitVec.getLsbD_ushiftRight]
  by_cases hlow : i < 8
  · simp [hlow]
  · have hback : 8 + (i - 8) = i := by omega
    simp [hlow, hi, hback]

theorem crcBit_iterate_byte (x : BitVec 32) :
    crcBit^[8] x = crcBit^[8] (x &&& 0xff#32) ^^^ (x >>> 8) := by
  have hsplit := crcBit_iterate_xor 8 (x &&& 0xff#32) ((x >>> 8) <<< 8)
  rw [low_xor_high, crcBit_iterate_high x (le_refl 8)] at hsplit
  exact hsplit

theorem toNat_and_byte (value : Int) :
    (JsNumber.and value 0xff).toNat = (JsNumber.bits value &&& 0xff#32).toNat ∧
      (JsNumber.bits value &&& 0xff#32).toNat < 256 := by
  have hlt : (JsNumber.bits value &&& 0xff#32).toNat < 256 := by
    rw [BitVec.toNat_and]
    exact Nat.and_lt_two_pow _ (by decide : (0xff#32).toNat < 2 ^ 8)
  refine ⟨?_, hlt⟩
  have hbits : JsNumber.bits 0xff = 0xff#32 := rfl
  rw [JsNumber.and, hbits, BitVec.toInt_eq_toNat_of_lt (by omega)]
  rfl

theorem crcTable_getD {index : Nat} (h : index < 256) : crcTable.getD index 0 = crcEntry index := by
  rw [crcTable, List.getD_eq_getElem?_getD, List.getElem?_map, List.getElem?_range h]
  rfl

/-- A byte's step of the loop is eight bits of the register. -/
theorem bits_crcByte (crc : Int) (byte : UInt8) :
    JsNumber.bits (crcByte crc byte) = crcBitsByte (JsNumber.bits crc) byte := by
  have hbyte : JsNumber.bits (byte.toNat : Int) = BitVec.ofNat 32 byte.toNat :=
    BitVec.ofInt_natCast 32 byte.toNat
  obtain ⟨hindex, hlt⟩ := toNat_and_byte (JsNumber.xor crc byte.toNat)
  have hshift : JsNumber.bits crc >>> 8 =
      (JsNumber.bits crc ^^^ BitVec.ofNat 32 byte.toNat) >>> 8 := by
    have hzero : BitVec.ofNat 32 byte.toNat >>> 8 = 0#32 := by
      apply BitVec.eq_of_toNat_eq
      have hsmall : byte.toNat < 256 := byte.toNat_lt
      rw [BitVec.toNat_ushiftRight, BitVec.toNat_ofNat, Nat.shiftRight_eq_div_pow,
        Nat.mod_eq_of_lt (by omega)]
      exact Nat.div_eq_of_lt hsmall
    rw [BitVec.ushiftRight_xor_distrib, hzero, BitVec.xor_zero]
  rw [crcByte, JsNumber.shiftRight_zero, JsNumber.bits_toNat, JsNumber.bits_xor, hindex,
    crcTable_getD hlt, bits_crcEntry, BitVec.ofNat_toNat, BitVec.setWidth_eq,
    JsNumber.bits_shiftRight, JsNumber.bits_xor, hbyte, crcBitsByte, show 8 % 32 = 8 from rfl,
    hshift]
  exact (crcBit_iterate_byte _).symm

/-- The table-driven checksum is the bitwise one, as an unsigned number. -/
theorem crc32_eq_crcBits (bytes : Bytes) : crc32 bytes = ((crcBits bytes).toNat : Int) := by
  have hfold : ∀ crc : Int, JsNumber.bits (bytes.foldl crcByte crc) =
      bytes.foldl crcBitsByte (JsNumber.bits crc) := by
    induction bytes with
    | nil => exact fun crc => rfl
    | cons byte bytes ih =>
      intro crc
      rw [List.foldl_cons, List.foldl_cons, ih, bits_crcByte]
  rw [crc32, JsNumber.shiftRight_zero, JsNumber.bits_xor, hfold]
  rfl

/-! ## Nothing is signed where it is kept -/

/-- A number of 32 bits without a sign. -/
def IsUint32 (x : Int) : Prop := 0 ≤ x ∧ x < 2 ^ 32

theorem isUint32_shiftRight (a : Int) (n : Nat) : IsUint32 (JsNumber.shiftRight a n) := by
  have hlt := (JsNumber.bits a >>> (n % 32)).isLt
  rw [JsNumber.shiftRight]
  constructor <;> omega

theorem isUint32_crcTable {entry : Int} (h : entry ∈ crcTable) : IsUint32 entry := by
  obtain ⟨index, -, rfl⟩ := List.mem_map.mp h
  exact isUint32_shiftRight _ 0

theorem isUint32_register (bytes : Bytes) : IsUint32 (bytes.foldl crcByte 0xffffffff) := by
  cases bytes using List.reverseRecOn with
  | nil => exact ⟨by decide, by decide⟩
  | append_singleton bytes byte =>
    rw [List.foldl_append, List.foldl_cons, List.foldl_nil, crcByte]
    exact isUint32_shiftRight _ 0

/-- The table-driven checksum is CRC-32, and the table, the register and the result stay in the
unsigned range. -/
theorem crc32_bitwise (bytes : Bytes) :
    crc32 bytes = ((crcBits bytes).toNat : Int) ∧
    (crcTable.length = 256 ∧ ∀ entry ∈ crcTable, IsUint32 entry) ∧
    (∀ read, read <+: bytes → IsUint32 (read.foldl crcByte 0xffffffff)) ∧
    IsUint32 (crc32 bytes) := by
  refine ⟨crc32_eq_crcBits bytes, ⟨?_, fun entry => isUint32_crcTable⟩, ?_, ?_⟩
  · rw [crcTable, List.length_map, List.length_range]
  · exact fun read _ => isUint32_register read
  · exact isUint32_shiftRight _ 0

/-- The usual check value, the checksum of the nine digits. -/
example : crcBits [0x31, 0x32, 0x33, 0x34, 0x35, 0x36, 0x37, 0x38, 0x39] = 0xcbf43926#32 := by
  decide +kernel

end DashBeam.Frontend
