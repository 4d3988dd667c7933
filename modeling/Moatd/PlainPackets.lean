import Moatd.Conntrack
import Moatd.PortFields

/-!
# Packets without options

The simplest packet over either version of IP, with its addresses and its upper layer: no
L2 header, no IPv4 options, no extension headers.
-/

namespace Moatd

/-- Its first four bytes. -/
def V4Addr.ofAddr (addr : Addr) : V4Addr :=
  ⟨addr[0]?.getD 0, addr[1]?.getD 0, addr[2]?.getD 0, addr[3]?.getD 0⟩

theorem noExts_count : ([] : List Ext).length ≤ 3 := Nat.zero_le 3

theorem noExts_length : (([] : List Ext).map Ext.length).sum ≤ 64 := Nat.zero_le 64

/-- A packet whose upper layer has `len` bytes. -/
def plainPacket : (isV6 : Bool) → (src dst : Addr) → (len : UInt16) → Upper isV6 → Network
  | true, src, dst, len, upper =>
    .v6 { classHigh := 0, classFlow := Vector.replicate 3 0, payloadLen := len, hopLimit := 64,
          src := src, dst := dst } ⟨[], noExts_count, noExts_length⟩ upper
  | false, src, dst, len, upper =>
    .v4 { synHeader with totalLen := 20 + len, src := V4Addr.ofAddr src, dst := V4Addr.ofAddr dst }
      (.initial upper)

section Plain
variable (isV6 : Bool) (src dst : Addr) (len : UInt16) (upper : Upper isV6)

theorem plainPacket_ip (trailing : List UInt8) :
    IpAt ((plainPacket isV6 src dst len upper).bytes ++ trailing) 0 isV6 0 := by
  obtain ⟨first, second, rest, heq, hversion⟩ :=
    (plainPacket isV6 src dst len upper).beginsWith trailing
  rw [heq]
  refine .raw rfl (hversion.trans ?_)
  cases isV6 <;> rfl

/-- Its payload is that of the upper layer. -/
theorem plainPacket_payload (trailing : List UInt8) :
    ∃ off, PayloadAt ((plainPacket isV6 src dst len upper).bytes ++ trailing) 0 isV6
      upper.number off := by
  rcases isV6 with _ | _
  · have hoffset : ∀ flags : BitVec 3, (⟨flags ++ 0#13⟩ : UInt16) &&& 0x1fff = 0 := by decide
    refine ⟨_, .v4 rfl ⟨_, _, rfl, rfl, rfl⟩ ?_ rfl⟩
    rw [Bytes.be16_hi_lo]
    exact hoffset synHeader.flags
  · obtain ⟨htlv, hfragment⟩ := upper.number_ends
    refine ⟨_, .v6 ?_ (.upper hfragment fun kind hkind => ?_)⟩
    · simp only [plainPacket, Network.bytes, List.append_assoc]
      rw [Nat.zero_add, List.getElem?_append_left (by rw [Vector.length_toList]; decide),
        Vector.getElem?_toList, V6Header.fixed_next]
      rfl
    · rw [isTlv_iff.mpr ⟨kind, hkind⟩] at htlv
      cases htlv

/-- The parser reads it. -/
theorem plainPacket_parse (trailing : List UInt8) :
    parsePacket ((plainPacket isV6 src dst len upper).bytes ++ trailing) 0 =
      .ok (some (plainPacket isV6 src dst len upper).parsed) :=
  parsePacket_layout .raw _ trailing rfl

end Plain

end Moatd
