import Mathlib.Data.List.Basic
import Mathlib.Data.Vector.Basic
import Mathlib.Tactic.Common

/-!
# Prefixes of bit strings

A byte string is a bit string, the most significant bit of its first byte first.  A
machine word read from it in big-endian order holds a run of its bits (`Holds`), and
comparing two words under a mask of leading ones compares as many of them
(`and_mask_eq_iff`).
-/

namespace Bits

/-- Bit `i` of the byte string; zero behind its end. -/
def bit (bytes : List UInt8) (i : Nat) : Bool :=
  (bytes[i / 8]?.getD 0).toBitVec.getMsbD (i % 8)

/-- The byte strings agree on their first `n` bits. -/
def SamePrefix (n : Nat) (bytes bytes' : List UInt8) : Prop := ∀ i < n, bit bytes i = bit bytes' i

section SamePrefix
variable {n : Nat} {a b c : List UInt8}

theorem SamePrefix.symm (h : SamePrefix n a b) : SamePrefix n b a := fun i hi => (h i hi).symm

theorem SamePrefix.trans (hab : SamePrefix n a b) (hbc : SamePrefix n b c) : SamePrefix n a c :=
  fun i hi => (hab i hi).trans (hbc i hi)

theorem SamePrefix.mono {m : Nat} (hmn : m ≤ n) (h : SamePrefix n a b) : SamePrefix m a b :=
  fun i hi => h i (by omega)

/-- Which of two strings with the same first bits is compared does not matter. -/
theorem samePrefix_congr {a' b' : List UInt8} (ha : SamePrefix n a a') (hb : SamePrefix n b b') :
    SamePrefix n a b ↔ SamePrefix n a' b' :=
  ⟨fun h => (ha.symm.trans h).trans hb, fun h => (ha.trans h).trans hb.symm⟩

end SamePrefix

/-- Prefixes of whole bytes. -/
theorem samePrefix_bytes_iff {bytes bytes' : List UInt8} {n : Nat} :
    SamePrefix (8 * n) bytes bytes' ↔ ∀ k < n, bytes[k]?.getD 0 = bytes'[k]?.getD 0 := by
  constructor
  · intro h k hk
    apply UInt8.toBitVec_inj.mp
    apply BitVec.eq_of_getMsbD_eq
    intro j hj
    have hbit := h (8 * k + j) (by omega)
    rwa [bit, bit, show (8 * k + j) / 8 = k by omega, show (8 * k + j) % 8 = j by omega] at hbit
  · intro h i hi
    rw [bit, bit, h (i / 8) (by omega)]

/-- Zeros at the end do not show. -/
theorem bit_append_zeros (bytes : List UInt8) (n i : Nat) :
    bit (bytes ++ List.replicate n 0) i = bit bytes i := by
  unfold bit
  congr 2
  rcases Nat.lt_or_ge (i / 8) bytes.length with hlt | hge
  · rw [List.getElem?_append_left hlt]
  · rw [List.getElem?_append_right hge, List.getElem?_eq_none hge, List.getElem?_replicate]
    split <;> rfl

variable {v w : Nat}

/-! ### Words -/

/-- The vectors agree on their first `n` bits. -/
def Agree (n : Nat) (x y : BitVec w) : Prop := ∀ i < n, x.getMsbD i = y.getMsbD i

/-- A mask of leading ones compares that many bits. -/
theorem and_mask_eq_iff {n : Nat} (hn : n ≤ w) (x y : BitVec w) :
    x &&& (BitVec.allOnes w <<< (w - n)) = y &&& (BitVec.allOnes w <<< (w - n)) ↔
      Agree n x y := by
  have hbit : ∀ (z : BitVec w) i,
      (z &&& (BitVec.allOnes w <<< (w - n))).getMsbD i = (z.getMsbD i && decide (i < n)) := by
    intro z i
    rw [BitVec.getMsbD_and, BitVec.getMsbD_shiftLeft, BitVec.getMsbD_allOnes,
      decide_eq_decide.mpr (show i + (w - n) < w ↔ i < n by omega)]
  constructor
  · intro h i hi
    have hx := hbit x i
    rw [h, hbit y i] at hx
    simpa [hi] using hx.symm
  · intro h
    apply BitVec.eq_of_getMsbD_eq
    intro i _
    rw [hbit x i, hbit y i]
    by_cases hin : i < n
    · rw [h i hin]
    · simp [hin]

theorem agree_width_iff {x y : BitVec w} : Agree w x y ↔ x = y :=
  ⟨BitVec.eq_of_getMsbD_eq, fun h _ _ => by rw [h]⟩

/-- A shift leaves zero if the bits it keeps are zero. -/
theorem ushiftRight_eq_zero_iff {n : Nat} (hn : n ≤ w) (x : BitVec w) :
    x >>> (w - n) = 0#w ↔ Agree n x 0#w := by
  constructor
  · intro h i hi
    have hbit := BitVec.getMsbD_ushiftRight (x := x) (i := i + (w - n)) (n := w - n)
    rw [h, decide_eq_true (show i + (w - n) < w by omega),
      decide_eq_false (show ¬ i + (w - n) < w - n by omega), Nat.add_sub_cancel] at hbit
    simpa using hbit.symm
  · intro h
    apply BitVec.eq_of_getMsbD_eq
    intro i hi
    rw [BitVec.getMsbD_ushiftRight]
    by_cases hlow : i < w - n
    · simp [hlow]
    · simpa [hlow, hi] using h (i - (w - n)) (by omega)

/-! ### Words read from bytes -/

/-- The word holds the bits from byte `off` on. -/
def Holds (bytes : List UInt8) (off : Nat) (x : BitVec w) : Prop :=
  ∀ i < w, x.getMsbD i = bit bytes (8 * off + i)

theorem holds_byte {bytes : List UInt8} {off : Nat} {b : UInt8} (h : bytes[off]? = some b) :
    Holds bytes off b.toBitVec := by
  intro i hi
  rw [bit, show (8 * off + i) / 8 = off by omega, show (8 * off + i) % 8 = i by omega, h]
  rfl

/-- A word of `n` bytes followed by what comes behind them. -/
theorem Holds.append {bytes : List UInt8} {off n : Nat} {x : BitVec w} {y : BitVec v}
    (hx : Holds bytes off x) (hw : w = 8 * n) (hy : Holds bytes (off + n) y) :
    Holds bytes off (x ++ y) := by
  intro i hi
  rw [BitVec.getMsbD_append]
  split
  · rw [hy (i - w) (by omega)]
    congr 1
    omega
  · exact hx i (by omega)

/-- Words agree on their prefixes as the bytes do. -/
theorem Holds.agree_iff {bytes bytes' : List UInt8} {off n : Nat} {x x' : BitVec w}
    (hx : Holds bytes off x) (hx' : Holds bytes' off x') (hn : n ≤ w) :
    Agree n x x' ↔ ∀ i < n, bit bytes (8 * off + i) = bit bytes' (8 * off + i) := by
  refine forall_congr' fun i => imp_congr_right fun hi => ?_
  rw [hx i (by omega), hx' i (by omega)]

/-- A prefix that reaches past byte `off`. -/
theorem samePrefix_add_iff {bytes bytes' : List UInt8} {off n : Nat} :
    SamePrefix (8 * off + n) bytes bytes' ↔ SamePrefix (8 * off) bytes bytes' ∧
      ∀ i < n, bit bytes (8 * off + i) = bit bytes' (8 * off + i) := by
  constructor
  · exact fun h => ⟨fun i hi => h i (by omega), fun i hi => h (8 * off + i) (by omega)⟩
  · rintro ⟨hfront, hback⟩ i hi
    rcases Nat.lt_or_ge i (8 * off) with hlt | hge
    · exact hfront i hlt
    · have := hback (i - 8 * off) (by omega)
      rwa [Nat.add_sub_cancel' hge] at this

end Bits
