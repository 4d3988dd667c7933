import Moatd.Bits
import Moatd.RuleWalk
import Moatd.Wire

/-!
# What an address match compares

`cidr_contains` compares machine words under masks.  With the prefix length in range it
compares the leading bits of the two addresses, as many as the prefix length says, for
either family.
-/

namespace Moatd

open Bits

/-! ### The words of an address -/

theorem holds_addr (a : Addr) (i : Nat) (h : i < 16) : Holds a.toList i a[i].toBitVec :=
  holds_byte (by simp [h])

theorem holds_be32 (a : Addr) : Holds a.toList 0 (be32 a).toBitVec :=
  (((holds_addr a 0 (by omega)).append (n := 1) rfl (holds_addr a 1 (by omega))).append (n := 2) rfl
    (holds_addr a 2 (by omega))).append (n := 3) rfl (holds_addr a 3 (by omega))

/-- Eight bytes from `off` on. -/
theorem holds_be64 (a : Addr) (off : Nat) (h : off + 8 ≤ 16) :
    Holds a.toList off (a[off].toBitVec ++ a[off + 1].toBitVec ++ a[off + 2].toBitVec ++
      a[off + 3].toBitVec ++ a[off + 4].toBitVec ++ a[off + 5].toBitVec ++ a[off + 6].toBitVec ++
      a[off + 7].toBitVec) :=
  (((((((holds_addr a off (by omega)).append (n := 1) rfl
    (holds_addr a (off + 1) (by omega))).append (n := 2) rfl
    (holds_addr a (off + 2) (by omega))).append (n := 3) rfl
    (holds_addr a (off + 3) (by omega))).append (n := 4) rfl
    (holds_addr a (off + 4) (by omega))).append (n := 5) rfl
    (holds_addr a (off + 5) (by omega))).append (n := 6) rfl
    (holds_addr a (off + 6) (by omega))).append (n := 7) rfl
    (holds_addr a (off + 7) (by omega))

theorem holds_be64Hi (a : Addr) : Holds a.toList 0 (be64Hi a).toBitVec :=
  holds_be64 a 0 (by omega)

theorem holds_be64Lo (a : Addr) : Holds a.toList 8 (be64Lo a).toBitVec :=
  holds_be64 a 8 (by omega)

/-! ### Prefix lengths and masks -/

theorem prefixLen_toUInt32 : ∀ n ≤ 32, n ≠ 0 →
    (UInt8.ofNat n).toUInt32 ≠ 0 ∧ ¬ 32 < (UInt8.ofNat n).toUInt32 := by
  decide

theorem mask32_eq : ∀ n ≤ 32, n ≠ 0 →
    (if 32 ≤ (UInt8.ofNat n).toUInt32 then u32Max
      else u32Max <<< (32 - (UInt8.ofNat n).toUInt32)).toBitVec =
      BitVec.allOnes 32 <<< (32 - n) := by
  decide

/-- Up to 64 the upper half is compared under a mask. -/
theorem prefixLen_toUInt64_hi : ∀ n ≤ 64, n ≠ 0 →
    (UInt8.ofNat n).toUInt64 ≠ 0 ∧ ¬ 128 < (UInt8.ofNat n).toUInt64 ∧
      (UInt8.ofNat n).toUInt64 ≤ 64 := by
  decide

theorem mask64Hi_eq : ∀ n ≤ 64, n ≠ 0 →
    (if (UInt8.ofNat n).toUInt64 = 64 then u64Max
      else u64Max <<< (64 - (UInt8.ofNat n).toUInt64)).toBitVec =
      BitVec.allOnes 64 <<< (64 - n) := by
  decide

/-- Beyond, the lower half. -/
theorem prefixLen_toUInt64_lo : ∀ n ≤ 64, n ≠ 0 →
    (UInt8.ofNat (64 + n)).toUInt64 ≠ 0 ∧ ¬ 128 < (UInt8.ofNat (64 + n)).toUInt64 ∧
      ¬ (UInt8.ofNat (64 + n)).toUInt64 ≤ 64 := by
  decide

theorem mask64Lo_eq : ∀ n ≤ 64, n ≠ 0 →
    (if 64 ≤ (UInt8.ofNat (64 + n)).toUInt64 - 64 then u64Max
      else u64Max <<< (64 - ((UInt8.ofNat (64 + n)).toUInt64 - 64))).toBitVec =
      BitVec.allOnes 64 <<< (64 - n) := by
  decide

/-! ### The comparison -/

section Contains
variable (family : UInt8) (a b : Addr)

theorem cidrContainsV4_iff {n : Nat} (hn : n ≤ 32) :
    cidrContainsV4 ⟨family, UInt8.ofNat n, a⟩ b = true ↔ SamePrefix n a.toList b.toList := by
  rcases Nat.eq_zero_or_pos n with rfl | hpos
  · exact iff_of_true rfl fun i hi => absurd hi (Nat.not_lt_zero i)
  · obtain ⟨hzero, hbound⟩ := prefixLen_toUInt32 n hn (by omega)
    have hbits := (holds_be32 a).agree_iff (holds_be32 b) hn
    simp only [Nat.mul_zero, Nat.zero_add] at hbits
    rw [cidrContainsV4]
    simp only [if_neg hzero, if_neg hbound]
    rw [beq_iff_eq, ← UInt32.toBitVec_inj, UInt32.toBitVec_and, UInt32.toBitVec_and,
      mask32_eq n hn (by omega), and_mask_eq_iff hn, hbits]
    rfl

theorem cidrContainsV6_iff {n : Nat} (hn : n ≤ 128) :
    cidrContainsV6 ⟨family, UInt8.ofNat n, a⟩ b = true ↔ SamePrefix n a.toList b.toList := by
  rcases Nat.eq_zero_or_pos n with rfl | hpos
  · exact iff_of_true rfl fun i hi => absurd hi (Nat.not_lt_zero i)
  · have hhi : ∀ k ≤ 64, Agree k (be64Hi a).toBitVec (be64Hi b).toBitVec ↔
        SamePrefix k a.toList b.toList := by
      intro k hk
      have hbits := (holds_be64Hi a).agree_iff (holds_be64Hi b) hk
      simp only [Nat.mul_zero, Nat.zero_add] at hbits
      exact hbits
    rw [cidrContainsV6]
    rcases Nat.lt_or_ge 64 n with hlong | hshort
    · obtain ⟨k, rfl⟩ := Nat.exists_eq_add_of_lt hlong
      have hk : k + 1 ≤ 64 := by omega
      rw [Nat.add_assoc]
      obtain ⟨hzero, hbound, hhalf⟩ := prefixLen_toUInt64_lo (k + 1) hk (by omega)
      -- the upper halves are equal, and the lower ones agree on the rest
      have hlo := (holds_be64Lo a).agree_iff (holds_be64Lo b) hk
      have hupper : be64Hi a = be64Hi b ↔ SamePrefix 64 a.toList b.toList := by
        rw [← hhi 64 (Nat.le_refl 64), agree_width_iff, UInt64.toBitVec_inj]
      simp only [if_neg hzero, if_neg hbound, if_neg hhalf]
      have hsplit : SamePrefix (8 * 8 + (k + 1)) a.toList b.toList ↔
          SamePrefix (8 * 8) a.toList b.toList ∧
            ∀ i < k + 1, bit a.toList (8 * 8 + i) = bit b.toList (8 * 8 + i) :=
        samePrefix_add_iff
      rw [show 64 + (k + 1) = 8 * 8 + (k + 1) from rfl, hsplit, ← hlo,
        show 8 * 8 = 64 from rfl, ← hupper]
      by_cases hequal : be64Hi a = be64Hi b
      · rw [if_neg (not_not_intro hequal), beq_iff_eq, ← UInt64.toBitVec_inj, UInt64.toBitVec_and,
          UInt64.toBitVec_and, mask64Lo_eq (k + 1) hk (by omega), and_mask_eq_iff hk]
        exact (and_iff_right hequal).symm
      · rw [if_pos hequal]
        simp [hequal]
    · obtain ⟨hzero, hbound, hhalf⟩ := prefixLen_toUInt64_hi n hshort (by omega)
      simp only [if_neg hzero, if_neg hbound, if_pos hhalf]
      rw [beq_iff_eq, ← UInt64.toBitVec_inj, UInt64.toBitVec_and, UInt64.toBitVec_and,
        mask64Hi_eq n hshort (by omega), and_mask_eq_iff hshort, hhi n hshort]

end Contains

/-- A prefix length beyond the width of an address matches nothing. -/
theorem cidrContainsV4_of_wide {cidr : IpCidr} (h : 32 < cidr.prefixLen.toNat) (addr : Addr) :
    cidrContainsV4 cidr addr = false := by
  have hzero : cidr.prefixLen.toUInt32 ≠ 0 := by
    rw [ne_eq, ← UInt32.toNat_inj, UInt8.toNat_toUInt32]
    exact Nat.ne_of_gt (Nat.zero_lt_of_lt h)
  have hwide : 32 < cidr.prefixLen.toUInt32 := by
    rw [UInt32.lt_iff_toNat_lt, UInt8.toNat_toUInt32]
    exact h
  rw [cidrContainsV4]
  simp only [if_neg hzero, if_pos hwide]

theorem cidrContainsV6_of_wide {cidr : IpCidr} (h : 128 < cidr.prefixLen.toNat) (addr : Addr) :
    cidrContainsV6 cidr addr = false := by
  have hzero : cidr.prefixLen.toUInt64 ≠ 0 := by
    rw [ne_eq, ← UInt64.toNat_inj, UInt8.toNat_toUInt64]
    exact Nat.ne_of_gt (Nat.zero_lt_of_lt h)
  have hwide : 128 < cidr.prefixLen.toUInt64 := by
    rw [UInt64.lt_iff_toNat_lt, UInt8.toNat_toUInt64]
    exact h
  rw [cidrContainsV6]
  simp only [if_neg hzero, if_pos hwide]

/-- The bits of an address of the family. -/
def addrWidth (family : UInt8) : Nat := if family = familyV4 then 32 else 128

/-- **What a match compares**, whatever the bytes of the block are: nothing under prefix
length 0; otherwise the family and the leading bits, as long as the address has so many. -/
theorem cidrContains_iff_width (cidr : IpCidr) (addr : Addr) (family : UInt8) :
    cidrContains cidr addr family = true ↔
      cidr.prefixLen = 0 ∨ (cidr.family = family ∧ cidr.prefixLen.toNat ≤ addrWidth family ∧
        SamePrefix cidr.prefixLen.toNat cidr.addr.toList addr.toList) := by
  obtain ⟨cidrFamily, prefixLen, octets⟩ := cidr
  have hofNat : UInt8.ofNat prefixLen.toNat = prefixLen := UInt8.ofNat_toNat
  rw [cidrContains]
  simp only
  by_cases hzero : prefixLen = 0
  · simp [hzero]
  rw [if_neg hzero, or_iff_right hzero]
  by_cases hfamily : cidrFamily = family
  · subst hfamily
    rw [if_neg (not_not_intro rfl), and_iff_right rfl]
    by_cases hv4 : cidrFamily = familyV4
    · rw [if_pos hv4, addrWidth, if_pos hv4]
      by_cases hlen : prefixLen.toNat ≤ 32
      · rw [and_iff_right hlen, ← cidrContainsV4_iff cidrFamily octets addr hlen, hofNat]
      · rw [cidrContainsV4_of_wide (Nat.lt_of_not_le hlen)]
        simp [hlen]
    · rw [if_neg hv4, addrWidth, if_neg hv4]
      by_cases hlen : prefixLen.toNat ≤ 128
      · rw [and_iff_right hlen, ← cidrContainsV6_iff cidrFamily octets addr hlen, hofNat]
      · rw [cidrContainsV6_of_wide (Nat.lt_of_not_le hlen)]
        simp [hlen]
  · rw [if_pos hfamily]
    simp [hfamily]

/-- The prefix length is one of the family. -/
def IpCidr.InRange (cidr : IpCidr) : Prop :=
  (cidr.family = familyV4 ∧ cidr.prefixLen.toNat ≤ 32) ∨
    (cidr.family = familyV6 ∧ cidr.prefixLen.toNat ≤ 128)

theorem IpCidr.InRange.le_addrWidth {cidr : IpCidr} (h : cidr.InRange) :
    cidr.prefixLen.toNat ≤ addrWidth cidr.family := by
  rcases h with ⟨hfamily, hlen⟩ | ⟨hfamily, hlen⟩
  · rw [hfamily]
    exact hlen
  · rw [hfamily]
    exact hlen

/-- What a match compares, for a block whose prefix length is one of its family. -/
theorem cidrContains_iff {cidr : IpCidr} (h : cidr.InRange) (addr : Addr) (family : UInt8) :
    cidrContains cidr addr family = true ↔
      cidr.prefixLen = 0 ∨ (cidr.family = family ∧
        SamePrefix cidr.prefixLen.toNat cidr.addr.toList addr.toList) := by
  rw [cidrContains_iff_width]
  refine or_congr_right (and_congr_right fun hfamily => and_iff_right ?_)
  rw [← hfamily]
  exact h.le_addrWidth

/-! ### Word masks and bit prefixes -/

/-- Blocks and addresses that agree on the bits of the prefix match alike. -/
theorem cidrContains_congr {cidr cidr' : IpCidr} {addr addr' : Addr} {family : UInt8}
    (hfamily : cidr'.family = cidr.family) (hlen : cidr'.prefixLen = cidr.prefixLen)
    (hcidr : SamePrefix cidr.prefixLen.toNat cidr.addr.toList cidr'.addr.toList)
    (haddr : SamePrefix cidr.prefixLen.toNat addr.toList addr'.toList) :
    cidrContains cidr addr family = cidrContains cidr' addr' family := by
  rw [Bool.eq_iff_iff, cidrContains_iff_width, cidrContains_iff_width, hfamily, hlen,
    samePrefix_congr hcidr haddr]

/-- A shorter prefix of the same address matches whatever the longer one does. -/
theorem cidrContains_of_longer {cidr : IpCidr} {prefixLen : UInt8} {addr : Addr} {family : UInt8}
    (hlen : cidr.prefixLen ≤ prefixLen)
    (h : cidrContains { cidr with prefixLen } addr family = true) :
    cidrContains cidr addr family = true := by
  have hle : cidr.prefixLen.toNat ≤ prefixLen.toNat := UInt8.le_iff_toNat_le.mp hlen
  rw [cidrContains_iff_width] at h ⊢
  rcases h with hzero | ⟨hfamily, hwidth, hsame⟩
  · left
    have hnone : prefixLen = 0 := hzero
    rw [← UInt8.toNat_inj]
    rw [hnone] at hle
    exact Nat.le_zero.mp hle
  · right
    exact ⟨hfamily, Nat.le_trans hle hwidth, hsame.mono hle⟩

/-- **Matching a block under word masks is comparing bit prefixes**: for either family of a
packet, every block and every address.  So bits beyond the prefix do not matter, and a longer
prefix of an address does not match more. -/
theorem cidrContains_eq_bitPrefix (family : UInt8)
    (hfamily : family = familyV4 ∨ family = familyV6) :
    (∀ cidr addr, cidrContains cidr addr family = true ↔
      cidr.prefixLen = 0 ∨ (cidr.family = family ∧
        ((family = familyV4 ∧ cidr.prefixLen.toNat ≤ 32) ∨
          (family = familyV6 ∧ cidr.prefixLen.toNat ≤ 128)) ∧
        SamePrefix cidr.prefixLen.toNat cidr.addr.toList addr.toList)) ∧
    (∀ cidr cidr' addr addr', cidr'.family = cidr.family → cidr'.prefixLen = cidr.prefixLen →
      SamePrefix cidr.prefixLen.toNat cidr.addr.toList cidr'.addr.toList →
      SamePrefix cidr.prefixLen.toNat addr.toList addr'.toList →
      cidrContains cidr addr family = cidrContains cidr' addr' family) ∧
    (∀ cidr prefixLen addr, cidr.prefixLen ≤ prefixLen →
      cidrContains { cidr with prefixLen } addr family = true →
      cidrContains cidr addr family = true) := by
  refine ⟨fun cidr addr => ?_, fun _ _ _ _ => cidrContains_congr,
    fun _ _ _ => cidrContains_of_longer⟩
  rw [cidrContains_iff_width]
  refine or_congr_right (and_congr_right fun _ => and_congr_left fun _ => ?_)
  rcases hfamily with rfl | rfl
  · simp [addrWidth, familyV4, familyV6]
  · simp [addrWidth, familyV4, familyV6]

/-- `192.0.2.0/24` holds `192.0.2.7`, and no address lies in a block of prefix length 33. -/
theorem cidrContains_eq_bitPrefix_v4 :
    cidrContains ⟨familyV4, 24, Addr.ofList [192, 0, 2]⟩ (Addr.ofList [192, 0, 2, 7]) familyV4 =
        true ∧
      ¬ cidrContains ⟨familyV4, 33, Addr.zero⟩ Addr.zero familyV4 = true := by
  obtain ⟨hiff, -, -⟩ := cidrContains_eq_bitPrefix familyV4 (.inl rfl)
  constructor
  · refine (hiff _ _).mpr (.inr ⟨rfl, .inl ⟨rfl, by decide⟩, ?_⟩)
    unfold SamePrefix
    decide
  · intro h
    rcases (hiff _ _).mp h with hzero | ⟨-, ⟨-, hlen⟩ | ⟨hfamily, -⟩, -⟩
    · exact absurd hzero (by decide)
    · exact absurd hlen (by decide)
    · exact absurd hfamily (by decide)

end Moatd
