import Moatd.ExtWalk
import Moatd.RuleMeaning

/-!
# Packets of every kind

An IP packet is one whose upper layer is in sight, or a later fragment.  Those of IPv6
carry a fragment header, perhaps behind other extension headers, and the number of what
was cut up.  `parse_packet` reads all of them.
-/

namespace Moatd

open Bytes

/-- The fragment header of a later fragment. -/
structure LaterFragment where
  next : UInt8
  reserved : UInt8
  offset : BitVec 13
  hoffset : offset ≠ 0
  flags : BitVec 3
  identHigh : UInt16
  identLow : UInt16

/-- The field with the offset and the flags. -/
def LaterFragment.field (f : LaterFragment) : UInt16 := ⟨f.offset ++ f.flags⟩

/-- The bytes of the fragment header. -/
def LaterFragment.header (f : LaterFragment) : Vector UInt8 8 :=
  #v[f.next, f.reserved, hi16 f.field, lo16 f.field, hi16 f.identHigh, lo16 f.identHigh,
    hi16 f.identLow, lo16 f.identLow]

/-- An IP packet: whole or a first fragment, or a later fragment of IPv6. -/
inductive IpPacket
  | plain (network : Network)
  | v6Later (header : V6Header) (chain : ExtChain) (fragment : LaterFragment)

/-- The packet is of IPv6. -/
def IpPacket.isV6 : IpPacket → Bool
  | .plain network => network.isV6
  | .v6Later .. => true

/-- The bytes of the packet. -/
def IpPacket.bytes : IpPacket → List UInt8
  | .plain network => network.bytes
  | .v6Later header chain fragment =>
    (header.fixed (firstNumber chain.exts nhFragment)).toList ++
      (extBytes chain.exts nhFragment ++ fragment.header.toList)

/-- What the data path should make of it. -/
def IpPacket.parsed : IpPacket → Parsed
  | .plain network => network.parsed
  | .v6Later header _ fragment =>
    ⟨familyV6, keptProto true fragment.next, 0, header.src, header.dst, 0, 0⟩

/-- A packet as an interface hands it over. -/
structure Frame where
  l2 : L2Form
  packet : IpPacket
  trailing : List UInt8

/-- The bytes of the frame. -/
def Frame.bytes (f : Frame) : List UInt8 :=
  f.l2.bytes (ipEthertype f.packet.isV6) ++ (f.packet.bytes ++ f.trailing)

/-! ### Parsing -/

/-- The offset is what the walk looks at. -/
theorem LaterFragment.field_mask (f : LaterFragment) : f.field &&& 0xfff8 ≠ 0 := by
  rw [ne_eq, fragOff_mask_iff]
  intro hzero
  apply f.hoffset
  ext i hi
  have hbit := congrArg (fun x : UInt16 => x.toBitVec.getLsbD i) hzero
  have hfield : (f.field >>> 3).toBitVec = (f.offset ++ f.flags) >>> 3 := rfl
  simp only [hfield, BitVec.getLsbD_ushiftRight, BitVec.getLsbD_append] at hbit
  simpa [hi, BitVec.getLsbD_eq_getElem] using hbit

/-- A later fragment ends the walk behind its fragment header. -/
theorem walkV6ExtLoop_later (f : LaterFragment) (pre post : List UInt8) (start fuel : Nat)
    (hspace : pre.length ≤ start + maxV6ExtBytes) :
    walkV6ExtLoop (pre ++ (f.header.toList ++ post)) start (fuel + 1) nhFragment pre.length =
      .ok (f.next, pre.length + 8, true) := by
  have hread : ptrAtData 8 (pre ++ (f.header.toList ++ post)) pre.length = .ok f.header :=
    ptrAtData_layout pre _ post rfl rfl
  have hfield : be16 f.header[2] f.header[3] = f.field := be16_hi_lo _
  rw [walkV6ExtLoop, if_neg (Nat.not_lt.mpr hspace), show isTlv nhFragment = false from rfl,
    if_neg Bool.false_ne_true, if_pos rfl, hread]
  simp only [bind, Except.bind, hfield, if_pos f.field_mask]
  rfl

theorem parseV6_later (header : V6Header) (chain : ExtChain) (fragment : LaterFragment)
    (pre post : List UInt8) :
    parseV6 (pre ++ ((IpPacket.v6Later header chain fragment).bytes ++ post)) pre.length =
      .ok (some (IpPacket.v6Later header chain fragment).parsed) := by
  have hstart : (pre ++ (header.fixed (firstNumber chain.exts nhFragment)).toList).length =
      pre.length + ipv6HdrLen := by
    simp [ipv6HdrLen]
  have hend : (pre ++ ((header.fixed (firstNumber chain.exts nhFragment)).toList ++
      extBytes chain.exts nhFragment)).length =
      pre.length + ipv6HdrLen + (chain.exts.map Ext.length).sum := by
    rw [← List.append_assoc, List.length_append, hstart, length_extBytes]
  obtain ⟨fuel, hwalk⟩ := walkV6Ext_chain chain nhFragment
    (pre ++ (header.fixed (firstNumber chain.exts nhFragment)).toList)
    (fragment.header.toList ++ post)
  have hlater := walkV6ExtLoop_later fragment
    (pre ++ ((header.fixed (firstNumber chain.exts nhFragment)).toList ++
      extBytes chain.exts nhFragment)) post (pre.length + ipv6HdrLen) fuel
    (by rw [hend]; exact Nat.add_le_add_left chain.hlength _)
  rw [hstart] at hwalk
  rw [hend] at hlater
  simp only [List.append_assoc] at hwalk hlater
  simp only [IpPacket.bytes, List.append_assoc]
  refine parseV6_of_walk header pre _ rfl (hwalk.trans hlater) ?_
  rw [if_pos rfl, normalizeProto_eq_keptProto]

theorem IpPacket.beginsWith (packet : IpPacket) (trailing : List UInt8) :
    BeginsWith packet.isV6 (packet.bytes ++ trailing) := by
  cases packet with
  | plain network => exact network.beginsWith trailing
  | v6Later header chain fragment =>
    rw [IpPacket.bytes, List.append_assoc]
    exact header.beginsWith _ _

/-- **Every packet is read**, under every L2 form. -/
theorem Frame.parsePacket_eq (f : Frame) {l2Off : Nat} (hl2 : f.l2.At l2Off) :
    parsePacket f.bytes l2Off = .ok (some f.packet.parsed) := by
  rw [Frame.bytes, parsePacket_l2 f.l2 (fun _ => f.packet.beginsWith f.trailing) hl2]
  obtain ⟨l2, packet, trailing⟩ := f
  cases packet with
  | plain network =>
    cases network with
    | v4 header content => exact parseV4_layout header content _ trailing
    | v6 header chain upper => exact parseV6_layout header chain upper _ trailing
  | v6Later header chain fragment => exact parseV6_later header chain fragment _ trailing

/-! ### Addresses -/

/-- The family byte of the packet. -/
def IpPacket.family : IpPacket → UInt8
  | .plain network => network.family
  | .v6Later .. => familyV6

/-- The octets of its source address. -/
def IpPacket.srcOctets : IpPacket → List UInt8
  | .plain network => network.srcOctets
  | .v6Later header .. => header.src.toList

/-- The octets of its destination address. -/
def IpPacket.dstOctets : IpPacket → List UInt8
  | .plain network => network.dstOctets
  | .v6Later header .. => header.dst.toList

section Packets
variable (packet : IpPacket)

theorem IpPacket.parsed_family : packet.parsed.family = packet.family := by
  cases packet with
  | plain network => exact network.parsed_family
  | v6Later => rfl

theorem IpPacket.bit_srcAddr (i : Nat) :
    Bits.bit packet.parsed.srcAddr.toList i = Bits.bit packet.srcOctets i := by
  cases packet with
  | plain network => exact network.bit_srcAddr i
  | v6Later => rfl

theorem IpPacket.bit_dstAddr (i : Nat) :
    Bits.bit packet.parsed.dstAddr.toList i = Bits.bit packet.dstOctets i := by
  cases packet with
  | plain network => exact network.bit_dstAddr i
  | v6Later => rfl

end Packets

end Moatd
