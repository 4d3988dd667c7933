import Moatd.Bytes
import Moatd.RuleWalk

/-!
# Parsing packets

`parse_packet` and what it calls.  A packet is the bytes from `data` to `data_end`,
and offsets count from `data`.  The header types read here are images of the headers
on the wire, so their sizes and field offsets are those of the headers; a field is
read by the number of its byte.  `Err(())` is `Except.error ()`.
-/

namespace Moatd

open Bytes

/-! ### Constants -/

/-- Ethertype of IPv4. -/
def ethPIp : UInt16 := 0x0800

/-- Ethertype of IPv6. -/
def ethPIpv6 : UInt16 := 0x86dd

/-- Ethertype of a VLAN tag. -/
def ethP8021q : UInt16 := 0x8100

/-- Ethertype of an outer VLAN tag. -/
def ethP8021ad : UInt16 := 0x88a8

/-- ICMPv6 type of a router solicitation. -/
def icmpv6Rs : UInt8 := 133

/-- ICMPv6 type of a router advertisement. -/
def icmpv6Ra : UInt8 := 134

/-- ICMPv6 type of a neighbour solicitation. -/
def icmpv6Ns : UInt8 := 135

/-- ICMPv6 type of a neighbour advertisement. -/
def icmpv6Na : UInt8 := 136

/-- ICMPv6 type of a redirect. -/
def icmpv6Redirect : UInt8 := 137

/-- Next header: hop-by-hop options. -/
def nhHopopt : UInt8 := 0

/-- Next header: routing. -/
def nhRouting : UInt8 := 43

/-- Next header: fragment. -/
def nhFragment : UInt8 := 44

/-- Next header: destination options. -/
def nhDstopts : UInt8 := 60

/-- Next header: mobility. -/
def nhMobility : UInt8 := 135

/-- Rounds of the loop in `walk_v6_ext`, the last one for the protocol behind the headers. -/
def maxV6ExtHdrs : Nat := 4

/-- How far behind the first extension header another may begin. -/
def maxV6ExtBytes : Nat := 64

/-- `EthHdr::LEN`. -/
def ethHdrLen : Nat := 14

/-- Bytes of the fixed IPv6 header. -/
def ipv6HdrLen : Nat := 40

/-! ### Reading -/

/-- `ptr_at_data` for a type of this size, and the bytes behind the pointer. -/
def ptrAtData (size : Nat) (packet : List UInt8) (offset : Nat) :
    Except Unit (Vector UInt8 size) :=
  match slice size packet offset with
  | some bytes => .ok bytes
  | none => .error ()

/-- `ethertype_at`: the two bytes at an offset, in network order. -/
def ethertypeAt (packet : List UInt8) (off : Nat) : Except Unit UInt16 := do
  let p ← ptrAtData 2 packet off
  return be16 p[0] p[1]

/-! ### The upper layer -/

/-- `normalize_proto`: the protocol byte that rules and connection keys go by. -/
def normalizeProto (proto : UInt8) (isV6 : Bool) : UInt8 :=
  if proto = protoTcp then protoTcp
  else if proto = protoUdp then protoUdp
  else if proto = protoIcmp ∧ isV6 = false then protoIcmp
  else if proto = protoIcmpv6 ∧ isV6 = true then protoIcmpv6
  else protoAny

/-- `L4Ports`: source, then destination. -/
def readPorts (packet : List UInt8) (l4Off : Nat) : Except Unit (UInt16 × UInt16) := do
  let p ← ptrAtData 4 packet l4Off
  return (be16 p[0] p[1], be16 p[2] p[3])

/-- `IcmpHead`: type, code, checksum, id, sequence number.  The id goes into both
port slots, so that swapping them changes nothing. -/
def parseIcmp (packet : List UInt8) (l4Off : Nat) (proto : UInt8) :
    Except Unit (UInt16 × UInt16 × UInt8 × UInt8) := do
  let head ← ptrAtData 8 packet l4Off
  let id := be16 head[4] head[5]
  return (id, id, proto, head[0])

/-- Source port, destination port, protocol byte and ICMP type. -/
def parseL4 (packet : List UInt8) (l4Off : Nat) (proto : UInt8) (isV6 : Bool) :
    Except Unit (UInt16 × UInt16 × UInt8 × UInt8) :=
  if proto = protoTcp then do
    let (s, d) ← readPorts packet l4Off
    return (s, d, protoTcp, 0)
  else if proto = protoUdp then do
    let (s, d) ← readPorts packet l4Off
    return (s, d, protoUdp, 0)
  else if proto = protoIcmp ∧ isV6 = false then parseIcmp packet l4Off protoIcmp
  else if proto = protoIcmpv6 ∧ isV6 = true then parseIcmp packet l4Off protoIcmpv6
  else .ok (0, 0, protoAny, 0)

/-! ### The network layer -/

/-- `src_addr[..4].copy_from_slice(..)`: four bytes, the rest zero. -/
def addrV4 (a b c d : UInt8) : Addr := #v[a, b, c, d, 0, 0, 0, 0, 0, 0, 0, 0, 0, 0, 0, 0]

/-- Sixteen bytes of an IPv6 header. -/
def addrV6 (ipv6 : Vector UInt8 40) (first : Nat) (h : first + 16 ≤ 40) : Addr :=
  Vector.ofFn fun i : Fin 16 => ipv6.get ⟨first + i, by omega⟩

/-- `Ipv4Hdr`: version and IHL in byte 0, `frag_off` in 6 and 7, `proto` in 9, the
addresses from 12 and 16 on. -/
def parseV4 (packet : List UInt8) (ipOff : Nat) : Except Unit (Option Parsed) := do
  let ipv4 ← ptrAtData 20 packet ipOff
  let srcAddr := addrV4 ipv4[12] ipv4[13] ipv4[14] ipv4[15]
  let dstAddr := addrV4 ipv4[16] ipv4[17] ipv4[18] ipv4[19]
  let ipProto := ipv4[9]
  let fragOff := be16 ipv4[6] ipv4[7]
  let ihl := (ipv4[0] &&& 0x0f).toNat
  if ihl < 5 ∨ 15 < ihl then throw ()
  let l4Off := ipOff + ihl * 4
  let noninitialFragment := fragOff &&& 0x1fff ≠ 0
  let (srcPort, dstPort, protoByte, icmpType) ←
    if noninitialFragment then pure (0, 0, normalizeProto ipProto false, 0)
    else parseL4 packet l4Off ipProto false
  return some ⟨familyV4, protoByte, icmpType, srcAddr, dstAddr, srcPort, dstPort⟩

/-- The headers that say their own length: `ExtTlv`. -/
def isTlv (nextHdr : UInt8) : Bool :=
  decide (nextHdr = nhHopopt) || decide (nextHdr = nhRouting) || decide (nextHdr = nhDstopts) ||
    decide (nextHdr = nhMobility)

/-- The loop of `walk_v6_ext` with `fuel` iterations left: the upper protocol, its
offset, and whether a non-initial fragment ended the walk. -/
def walkV6ExtLoop (packet : List UInt8) (start : Nat) :
    Nat → UInt8 → Nat → Except Unit (UInt8 × Nat × Bool)
  | 0, _, _ => .error ()
  | fuel + 1, nextHdr, off =>
    if off > start + maxV6ExtBytes then .error ()
    else if isTlv nextHdr then do
      let eh ← ptrAtData 2 packet off
      let extLen := eh[1].toNat
      walkV6ExtLoop packet start fuel eh[0] (off + (extLen + 1) * 8)
    else if nextHdr = nhFragment then do
      let fh ← ptrAtData 8 packet off
      let fragOff := be16 fh[2] fh[3]
      if fragOff &&& 0xfff8 ≠ 0 then return (fh[0], off + 8, true)
      walkV6ExtLoop packet start fuel fh[0] (off + 8)
    else .ok (nextHdr, off, false)

/-- `walk_v6_ext`: the protocol behind the extension headers, where it starts, and whether a
fragment header says that this is a later fragment. -/
def walkV6Ext (packet : List UInt8) (nextHdr : UInt8) (start : Nat) :
    Except Unit (UInt8 × Nat × Bool) :=
  walkV6ExtLoop packet start maxV6ExtHdrs nextHdr start

/-- `Ipv6Hdr`: `next_hdr` in byte 6, the addresses from 8 and 24 on. -/
def parseV6 (packet : List UInt8) (ipOff : Nat) : Except Unit (Option Parsed) := do
  let ipv6 ← ptrAtData 40 packet ipOff
  let nextHdr := ipv6[6]
  let srcAddr := addrV6 ipv6 8 (by decide)
  let dstAddr := addrV6 ipv6 24 (by decide)
  let (proto, l4Off, noninitialFragment) ← walkV6Ext packet nextHdr (ipOff + ipv6HdrLen)
  let (srcPort, dstPort, protoByte, icmpType) ←
    if noninitialFragment then pure (0, 0, normalizeProto proto true, 0)
    else parseL4 packet l4Off proto true
  return some ⟨familyV6, protoByte, icmpType, srcAddr, dstAddr, srcPort, dstPort⟩

/-! ### The packet -/

/-- The ethertype announces a VLAN tag. -/
def isVlan (ethertype : UInt16) : Bool :=
  decide (ethertype = ethP8021q) || decide (ethertype = ethP8021ad)

/-- `parse_packet`: `none` for packets without an IP header, and an error where the packet ends
too early. -/
def parsePacket (packet : List UInt8) (l2Off : Nat) : Except Unit (Option Parsed) :=
  if l2Off = 0 then do
    let head ← ptrAtData 2 packet 0
    let version := head[0] >>> 4
    if version = 4 then parseV4 packet 0
    else if version = 6 then parseV6 packet 0
    else return none
  else do
    let outer ← ethertypeAt packet 12
    if outer = ethPIp then parseV4 packet ethHdrLen
    else if outer = ethPIpv6 then parseV6 packet ethHdrLen
    else if isVlan outer then do
      let inner ← ethertypeAt packet 16
      if inner = ethPIp then parseV4 packet 18
      else if inner = ethPIpv6 then parseV6 packet 18
      else if isVlan inner then do
        let innermost ← ethertypeAt packet 20
        if innermost = ethPIp then parseV4 packet 22
        else if innermost = ethPIpv6 then parseV6 packet 22
        else return none
      else return none
    else return none

/-- `is_ndp`: the packet belongs to neighbour discovery, which no rule may stop. -/
def isNdp (p : Parsed) : Bool :=
  decide (p.family = familyV6) && decide (p.protoByte = protoIcmpv6) &&
    (decide (p.icmpType = icmpv6Rs) || decide (p.icmpType = icmpv6Ra) ||
      decide (p.icmpType = icmpv6Ns) || decide (p.icmpType = icmpv6Na) ||
      decide (p.icmpType = icmpv6Redirect))

end Moatd
