import Mathlib.Algebra.Order.Ring.Nat
import Mathlib.Data.List.Basic
import Mathlib.Data.Vector.Basic
import Mathlib.Tactic.Common

/-!
# Reading records at offsets

A byte string is read at computed offsets, a fixed number of bytes at a time;
what is not there in full cannot be read.  What was laid out is read back, whatever
stands before and behind it (`slice_layout`).  Two-byte numbers are big-endian.
-/

namespace Bytes

variable {α : Type*}

/-- The `n` elements from offset `off` on, if that many are there. -/
def slice (n : Nat) (bytes : List α) (off : Nat) : Option (Vector α n) :=
  if h : off + n ≤ bytes.length then
    some (Vector.ofFn fun i : Fin n => bytes.get ⟨off + i, by omega⟩)
  else none

/-- A read of bytes that are laid out at this offset. -/
theorem slice_layout {n : Nat} (pre : List α) (v : Vector α n) (post : List α) :
    slice n (pre ++ (v.toList ++ post)) pre.length = some v := by
  have hlen : pre.length + n ≤ (pre ++ (v.toList ++ post)).length := by
    simp only [List.length_append, Vector.length_toList]
    omega
  rw [slice, dif_pos hlen, Option.some.injEq]
  ext i hi
  rw [Vector.getElem_ofFn, List.get_eq_getElem, List.getElem_append_right (by simp)]
  simp only [Nat.add_sub_cancel_left]
  rw [List.getElem_append_left (by simpa using hi), Vector.getElem_toList]

/-! ### Two-byte numbers -/

/-- `u16::from_be` of two bytes in the order they are in memory. -/
def be16 (hi lo : UInt8) : UInt16 := ⟨hi.toBitVec ++ lo.toBitVec⟩

/-- The first byte in network order. -/
def hi16 (x : UInt16) : UInt8 := ⟨x.toBitVec.extractLsb' 8 8⟩

/-- The second byte in network order. -/
def lo16 (x : UInt16) : UInt8 := ⟨x.toBitVec.extractLsb' 0 8⟩

/-- A number is read back from its two bytes. -/
@[simp] theorem be16_hi_lo (x : UInt16) : be16 (hi16 x) (lo16 x) = x := by
  apply UInt16.toBitVec_inj.mp
  show x.toBitVec.extractLsb' 8 8 ++ x.toBitVec.extractLsb' 0 8 = x.toBitVec
  ext i hi
  rw [BitVec.getElem_append]
  split
  · simp [BitVec.getLsbD_eq_getElem hi]
  · rename_i h
    simp only [BitVec.getElem_extractLsb']
    rw [show 8 + (i - 8) = i by omega]
    simp [BitVec.getLsbD_eq_getElem hi]

/-- The low half of the bits of an appended vector, as a mask keeps it. -/
theorem append_and_low {a b : Nat} (x : BitVec a) (y : BitVec b) :
    (x ++ y) &&& (BitVec.setWidth (a + b) (BitVec.allOnes b)) = BitVec.setWidth (a + b) y := by
  ext i hi
  simp only [BitVec.getElem_and, BitVec.getElem_append, BitVec.getElem_setWidth]
  by_cases h : i < b
  · simp [h, BitVec.getLsbD_eq_getElem]
  · simp [h, BitVec.getLsbD_of_ge y i (by omega)]

/-! ### Little-endian numbers -/

/-- The low `n` bytes of a number, the lowest first. -/
def leBytes : Nat → Nat → List UInt8
  | 0, _ => []
  | n + 1, x => UInt8.ofNat x :: leBytes n (x / 256)

/-- The number with these bytes, the lowest first. -/
def ofLeBytes : List UInt8 → Nat
  | [] => 0
  | b :: bytes => b.toNat + 256 * ofLeBytes bytes

@[simp] theorem length_leBytes (n x : Nat) : (leBytes n x).length = n := by
  induction n generalizing x with
  | zero => rfl
  | succ n ih => exact congrArg (· + 1) (ih _)

/-- Bytes of numbers that agree that far. -/
theorem ofLeBytes_leBytes (n x : Nat) : ofLeBytes (leBytes n x) = x % 256 ^ n := by
  induction n generalizing x with
  | zero => simp [leBytes, ofLeBytes, Nat.mod_one]
  | succ n ih =>
    have hbyte : (UInt8.ofNat x).toNat = x % 256 := UInt8.toNat_ofNat'
    rw [leBytes, ofLeBytes, ih, hbyte, Nat.pow_succ, Nat.mul_comm (256 ^ n), Nat.mod_mul]

/-- The `n` bytes from offset `off` on. -/
def field (off n : Nat) (bytes : List α) : List α := (bytes.drop off).take n

/-- A field behind the first part. -/
theorem field_append {pre rest : List α} {off n : Nat} (h : pre.length ≤ off) :
    field off n (pre ++ rest) = field (off - pre.length) n rest := by
  rw [field, field, List.drop_append, List.drop_eq_nil_of_le h, List.nil_append]

/-- A field that is the first part. -/
theorem field_zero_append {mid rest : List α} {n : Nat} (h : mid.length = n) :
    field 0 n (mid ++ rest) = mid := by
  rw [field, List.drop_zero, ← h, List.take_left]

end Bytes
