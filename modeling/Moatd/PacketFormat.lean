import Moatd.Packet
import Mathlib.Algebra.GroupWithZero.Nat

/-!
# Packets by description

What a packet on the wire is, layer by layer, and the bytes it has: an L2 form, an
IPv4 header with options or an IPv6 header with extension headers, and the fields
of the upper layer.  The parts the parser does not look at are there too, with
arbitrary values.  `PacketDesc.parsed` is what should be read from such a packet.
-/

namespace Moatd

open Bytes

/-! ### Link layer -/

/-- An 802.1Q or 802.1ad tag. -/
structure VlanTag where
  is8021ad : Bool
  tci : UInt16

/-- The ethertype that announces the tag. -/
def VlanTag.ethertype (tag : VlanTag) : UInt16 :=
  if tag.is8021ad then ethP8021ad else ethP8021q

/-- No L2 header at all, or an Ethernet header with at most two tags. -/
inductive L2Form
  | raw
  | ethernet (macs : Vector UInt8 12) (tags : List VlanTag) (htags : tags.length ≤ 2)

/-- The tags, and the EtherType of what follows them. -/
def tagBytes : List VlanTag → UInt16 → List UInt8
  | [], ethertype => [hi16 ethertype, lo16 ethertype]
  | tag :: tags, ethertype =>
    [hi16 tag.ethertype, lo16 tag.ethertype, hi16 tag.tci, lo16 tag.tci] ++ tagBytes tags ethertype

/-- The bytes in front of the IP header. -/
def L2Form.bytes : L2Form → UInt16 → List UInt8
  | .raw, _ => []
  | .ethernet macs tags _, ethertype => macs.toList ++ tagBytes tags ethertype

/-- The offset the loader keeps for an interface whose packets have this form. -/
def L2Form.At : L2Form → Nat → Prop
  | .raw, l2Off => l2Off = 0
  | .ethernet .., l2Off => l2Off ≠ 0

/-! ### Upper layer -/

/-- The IPv6 extension headers that say their own length. -/
inductive ExtKind
  | hopopt
  | routing
  | dstopts
  | mobility

/-- The next header value that announces the header. -/
def ExtKind.number : ExtKind → UInt8
  | .hopopt => nhHopopt
  | .routing => nhRouting
  | .dstopts => nhDstopts
  | .mobility => nhMobility

/-- The number of ICMP over this version of IP. -/
def icmpNumber (isV6 : Bool) : UInt8 := if isV6 then protoIcmpv6 else protoIcmp

/-- A protocol keeps its number if rules can name it. -/
def keptProto (isV6 : Bool) (proto : UInt8) : UInt8 :=
  if proto = protoTcp ∨ proto = protoUdp ∨ proto = icmpNumber isV6 then proto else protoAny

/-- Neither TCP, UDP nor the ICMP of this version, and no extension header. -/
structure IsOther (isV6 : Bool) (proto : UInt8) : Prop where
  tcp : proto ≠ protoTcp
  udp : proto ≠ protoUdp
  icmp : proto ≠ icmpNumber isV6
  ext : isV6 = true → proto ≠ nhFragment ∧ ∀ kind : ExtKind, proto ≠ kind.number

/-- What follows the headers, as far as a packet's ports or ICMP type. -/
inductive Upper (isV6 : Bool)
  | tcp (srcPort dstPort : UInt16)
  | udp (srcPort dstPort : UInt16)
  | icmp (icmpType code : UInt8) (checksum id seq : UInt16)
  | other (proto : UInt8) (hother : IsOther isV6 proto)

section Upper
variable {isV6 : Bool}

/-- Its protocol number. -/
def Upper.number : Upper isV6 → UInt8
  | .tcp .. => protoTcp
  | .udp .. => protoUdp
  | .icmp .. => icmpNumber isV6
  | .other proto _ => proto

/-- The fields that are read; what follows them is part of the trailing bytes. -/
def Upper.bytes : Upper isV6 → List UInt8
  | .tcp srcPort dstPort | .udp srcPort dstPort =>
    [hi16 srcPort, lo16 srcPort, hi16 dstPort, lo16 dstPort]
  | .icmp icmpType code checksum id seq =>
    [icmpType, code, hi16 checksum, lo16 checksum, hi16 id, lo16 id, hi16 seq, lo16 seq]
  | .other .. => []

/-- The protocol a rule sees. -/
def Upper.protoByte : Upper isV6 → UInt8
  | .tcp .. => protoTcp
  | .udp .. => protoUdp
  | .icmp .. => icmpNumber isV6
  | .other .. => protoAny

/-- Its ICMP type, 0 for other protocols. -/
def Upper.icmpType : Upper isV6 → UInt8
  | .icmp icmpType .. => icmpType
  | _ => 0

/-- The source port; of an ICMP message, its id. -/
def Upper.srcPort : Upper isV6 → UInt16
  | .tcp srcPort _ | .udp srcPort _ => srcPort
  | .icmp _ _ _ id _ => id
  | .other .. => 0

/-- What the data path takes for its destination port. -/
def Upper.dstPort : Upper isV6 → UInt16
  | .tcp _ dstPort | .udp _ dstPort => dstPort
  | .icmp _ _ _ id _ => id
  | .other .. => 0

end Upper

/-! ### IPv4 -/

/-- An IPv4 address. -/
structure V4Addr where
  a : UInt8
  b : UInt8
  c : UInt8
  d : UInt8

/-- As the rules and `CONNTRACK` have it. -/
def V4Addr.padded (addr : V4Addr) : Addr := addrV4 addr.a addr.b addr.c addr.d

/-- The fields of an IPv4 header but for its protocol and its fragment offset. -/
structure V4Header where
  tos : UInt8
  totalLen : UInt16
  ident : UInt16
  flags : BitVec 3
  ttl : UInt8
  checksum : UInt16
  src : V4Addr
  dst : V4Addr
  /-- Options, in words of four bytes. -/
  optionWords : Nat
  options : List UInt8
  hwords : optionWords ≤ 10
  hoptions : options.length = 4 * optionWords

/-- A packet whose upper layer begins here (a whole datagram or its first
fragment), or a later fragment, whose bytes are arbitrary. -/
inductive V4Content
  | initial (upper : Upper false)
  | later (offset : BitVec 13) (hoffset : offset ≠ 0) (proto : UInt8)

/-- The fragment offset in the header. -/
def V4Content.offset : V4Content → BitVec 13
  | .initial _ => 0
  | .later offset .. => offset

/-- The protocol number in the header. -/
def V4Content.proto : V4Content → UInt8
  | .initial upper => upper.number
  | .later _ _ proto => proto

/-- The bytes behind the header. -/
def V4Content.bytes : V4Content → List UInt8
  | .initial upper => upper.bytes
  | .later .. => []

/-- Version 4 and the header length in words. -/
def V4Header.versionIhl (h : V4Header) : UInt8 := ⟨4#4 ++ BitVec.ofNat 4 (5 + h.optionWords)⟩

/-- Flags and fragment offset. -/
def V4Header.fragField (h : V4Header) (content : V4Content) : UInt16 :=
  ⟨h.flags ++ content.offset⟩

/-- The twenty bytes before the options. -/
def V4Header.fixed (h : V4Header) (content : V4Content) : Vector UInt8 20 :=
  #v[h.versionIhl, h.tos, hi16 h.totalLen, lo16 h.totalLen, hi16 h.ident, lo16 h.ident,
    hi16 (h.fragField content), lo16 (h.fragField content), h.ttl, content.proto,
    hi16 h.checksum, lo16 h.checksum,
    h.src.a, h.src.b, h.src.c, h.src.d, h.dst.a, h.dst.b, h.dst.c, h.dst.d]

/-! ### IPv6 -/

/-- An extension header: one that says its own length, in words of eight bytes after
the first, or the fragment header of a first fragment. -/
inductive Ext
  | tlv (kind : ExtKind) (words : UInt8) (body : List UInt8)
      (hbody : body.length = 6 + words.toNat * 8)
  | fragment (reserved : UInt8) (flags : BitVec 3) (identHigh identLow : UInt16)

/-- The next header value that announces the header. -/
def Ext.number : Ext → UInt8
  | .tlv kind .. => kind.number
  | .fragment .. => nhFragment

/-- Length in bytes. -/
def Ext.length : Ext → Nat
  | .tlv _ words .. => (words.toNat + 1) * 8
  | .fragment .. => 8

/-- The fragment offset is zero. -/
def fragFlags (flags : BitVec 3) : UInt16 := ⟨0#13 ++ flags⟩

/-- The header, followed by one with this number. -/
def Ext.bytes (next : UInt8) : Ext → List UInt8
  | .tlv _ words body _ => next :: words :: body
  | .fragment reserved flags identHigh identLow =>
    [next, reserved, hi16 (fragFlags flags), lo16 (fragFlags flags), hi16 identHigh,
      lo16 identHigh, hi16 identLow, lo16 identLow]

/-- The number the header before the chain carries. -/
def firstNumber (exts : List Ext) (number : UInt8) : UInt8 :=
  match exts with
  | [] => number
  | ext :: _ => ext.number

/-- The chain in front of an upper layer with this number. -/
def extBytes : List Ext → UInt8 → List UInt8
  | [], _ => []
  | ext :: exts, number => ext.bytes (firstNumber exts number) ++ extBytes exts number

/-- At most three headers of at most 64 bytes. -/
structure ExtChain where
  exts : List Ext
  hcount : exts.length ≤ 3
  hlength : (exts.map Ext.length).sum ≤ 64

/-- The fields of an IPv6 header but for its next header.  The first four bytes hold
the version, the traffic class and the flow label. -/
structure V6Header where
  classHigh : BitVec 4
  classFlow : Vector UInt8 3
  payloadLen : UInt16
  hopLimit : UInt8
  src : Vector UInt8 16
  dst : Vector UInt8 16

/-- The first eight bytes of the fixed header. -/
def V6Header.start (h : V6Header) (nextHdr : UInt8) : Vector UInt8 8 :=
  #v[⟨6#4 ++ h.classHigh⟩, h.classFlow[0], h.classFlow[1], h.classFlow[2], hi16 h.payloadLen,
    lo16 h.payloadLen, nextHdr, h.hopLimit]

/-- The fixed header. -/
def V6Header.fixed (h : V6Header) (nextHdr : UInt8) : Vector UInt8 40 :=
  (h.start nextHdr ++ h.src) ++ h.dst

/-! ### The packet -/

/-- An IP packet without its trailing bytes. -/
inductive Network
  | v4 (header : V4Header) (content : V4Content)
  | v6 (header : V6Header) (chain : ExtChain) (upper : Upper true)

/-- The ethertype that announces the packet. -/
def Network.ethertype : Network → UInt16
  | .v4 .. => ethPIp
  | .v6 .. => ethPIpv6

/-- The bytes of the packet. -/
def Network.bytes : Network → List UInt8
  | .v4 header content =>
    (header.fixed content).toList ++ (header.options ++ content.bytes)
  | .v6 header chain upper =>
    (header.fixed (firstNumber chain.exts upper.number)).toList ++
      (extBytes chain.exts upper.number ++ upper.bytes)

/-- A packet on its link, and whatever follows it. -/
structure PacketDesc where
  l2 : L2Form
  network : Network
  trailing : List UInt8

/-- The bytes of the packet on its link. -/
def PacketDesc.bytes (d : PacketDesc) : List UInt8 :=
  d.l2.bytes d.network.ethertype ++ (d.network.bytes ++ d.trailing)

/-- What the data path should make of the network layer and what is above it. -/
def Network.parsed : Network → Parsed
  | .v4 header (.initial upper) =>
    ⟨familyV4, upper.protoByte, upper.icmpType, header.src.padded, header.dst.padded,
      upper.srcPort, upper.dstPort⟩
  | .v4 header (.later _ _ proto) =>
    ⟨familyV4, keptProto false proto, 0, header.src.padded, header.dst.padded, 0, 0⟩
  | .v6 header _ upper =>
    ⟨familyV6, upper.protoByte, upper.icmpType, header.src, header.dst, upper.srcPort,
      upper.dstPort⟩

/-- What the data path should read from it. -/
def PacketDesc.parsed (d : PacketDesc) : Parsed := d.network.parsed

end Moatd
