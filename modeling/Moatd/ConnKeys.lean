import Moatd.PlainPackets

/-!
# Whom a connection key belongs to

A key of `CONNTRACK` has the protocol as the parser keeps it.  Of TCP, UDP and the ICMP of
the IP version that is the protocol, and the keys of an outbound and an inbound packet meet
only if the packets mirror each other.  The protocol of every other packet is kept as
`PROTO_ANY`: all of them between two hosts have one key.
-/

namespace Moatd

open Runs

/-- What a whole packet or a first fragment says of the two ends of its flow.  Ports are
those of TCP and UDP. -/
structure Endpoints where
  isV6 : Bool
  proto : UInt8
  src : Addr
  dst : Addr
  ports : Option (UInt16 × UInt16)
  deriving DecidableEq, Repr

/-- The same flow, seen from the other end. -/
def Endpoints.mirror (ends : Endpoints) : Endpoints :=
  { ends with src := ends.dst, dst := ends.src, ports := ends.ports.map Prod.swap }

/-- The ports of a packet, if its protocol has any, are at this offset. -/
def PortsAt (packet : List UInt8) (off : Nat) (proto : UInt8)
    (ports : Option (UInt16 × UInt16)) : Prop :=
  if proto = protoTcp ∨ proto = protoUdp then
    ∃ srcPort dstPort, ports = some (srcPort, dstPort) ∧ Be16At packet off srcPort ∧
      Be16At packet (off + 2) dstPort
  else ports = none

/-- The bytes are a packet with these endpoints, and not a later fragment. -/
def HasEndpoints (packet : List UInt8) (l2Off : Nat) (ends : Endpoints) : Prop :=
  ∃ ipOff off, IpAt packet l2Off ends.isV6 ipOff ∧
    PayloadAt packet ipOff ends.isV6 ends.proto off ∧
    ends.src = srcAddrAt packet ipOff ends.isV6 ∧ ends.dst = dstAddrAt packet ipOff ends.isV6 ∧
    PortsAt packet off ends.proto ends.ports

/-- The protocols that a key can tell apart. -/
def IsKept (isV6 : Bool) (proto : UInt8) : Prop :=
  proto = protoTcp ∨ proto = protoUdp ∨ proto = icmpNumber isV6

/-! ### What the parser keeps -/

theorem keptProto_of_isKept {isV6 : Bool} {proto : UInt8} (h : IsKept isV6 proto) :
    keptProto isV6 proto = proto :=
  if_pos h

theorem keptProto_of_not_isKept {isV6 : Bool} {proto : UInt8} (h : ¬ IsKept isV6 proto) :
    keptProto isV6 proto = protoAny :=
  if_neg h

theorem IsKept.ne_any {isV6 : Bool} {proto : UInt8} (h : IsKept isV6 proto) :
    proto ≠ protoAny := by
  rcases h with rfl | rfl | rfl
  · decide
  · decide
  · cases isV6 <;> decide

theorem eq_of_keptProto_eq {isV6 : Bool} {proto proto' : UInt8} (h : IsKept isV6 proto)
    (hkept : keptProto isV6 proto' = proto) : proto' = proto := by
  by_cases h' : IsKept isV6 proto'
  · rwa [keptProto_of_isKept h'] at hkept
  · rw [keptProto_of_not_isKept h'] at hkept
    exact absurd hkept.symm h.ne_any

theorem ipFamily_inj {isV6 isV6' : Bool} (h : ipFamily isV6 = ipFamily isV6') :
    isV6 = isV6' := by
  revert isV6 isV6'
  decide

/-- What `parse_l4` returns of a payload. -/
theorem parseL4_fields {packet : List UInt8} {off : Nat} {proto : UInt8} {isV6 : Bool}
    {fields : UInt16 × UInt16 × UInt8 × UInt8} (h : parseL4 packet off proto isV6 = .ok fields) :
    fields.2.2.1 = keptProto isV6 proto ∧
      (¬ IsKept isV6 proto → fields.1 = 0 ∧ fields.2.1 = 0) := by
  rw [← normalizeProto_eq_keptProto]
  unfold parseL4 at h
  unfold normalizeProto
  split_ifs at h ⊢ with htcp hudp hicmp hicmpv6
  · obtain ⟨ports, -, h⟩ := Fallible.bind_eq_ok_iff.mp h
    cases h
    exact ⟨rfl, fun hother => absurd (Or.inl htcp) hother⟩
  · obtain ⟨ports, -, h⟩ := Fallible.bind_eq_ok_iff.mp h
    cases h
    exact ⟨rfl, fun hother => absurd (Or.inr (Or.inl hudp)) hother⟩
  · obtain ⟨rfl, rfl⟩ := hicmp
    exact ⟨(parseIcmp_ok h).2, fun hother => absurd (Or.inr (Or.inr rfl)) hother⟩
  · obtain ⟨rfl, rfl⟩ := hicmpv6
    exact ⟨(parseIcmp_ok h).2, fun hother => absurd (Or.inr (Or.inr rfl)) hother⟩
  · cases h
    exact ⟨rfl, fun _ => ⟨rfl, rfl⟩⟩

/-- The ports of a payload are the ones `parse_l4` finds. -/
theorem PortsAt.eq_of_parseL4 {packet : List UInt8} {off : Nat} {proto : UInt8} {isV6 : Bool}
    {fields : UInt16 × UInt16 × UInt8 × UInt8} {ports : Option (UInt16 × UInt16)}
    (hports : PortsAt packet off proto ports) (h : parseL4 packet off proto isV6 = .ok fields) :
    ports = if proto = protoTcp ∨ proto = protoUdp then some (fields.1, fields.2.1) else none := by
  unfold PortsAt at hports
  by_cases htransport : proto = protoTcp ∨ proto = protoUdp
  · rw [if_pos htransport] at hports ⊢
    obtain ⟨srcPort, dstPort, rfl, hsrc, hdst⟩ := hports
    have hread : Be16At packet off fields.1 ∧ Be16At packet (off + 2) fields.2.1 := by
      unfold parseL4 at h
      rcases htransport with rfl | rfl
      · rw [if_pos rfl] at h
        obtain ⟨read, hread, h⟩ := Fallible.bind_eq_ok_iff.mp h
        cases h
        exact readPorts_ok hread
      · rw [if_neg (by decide), if_pos rfl] at h
        obtain ⟨read, hread, h⟩ := Fallible.bind_eq_ok_iff.mp h
        cases h
        exact readPorts_ok hread
    rw [hsrc.unique hread.1, hdst.unique hread.2]
  · rwa [if_neg htransport] at hports ⊢

/-- **What is read of a packet with these endpoints.** -/
structure ParsedFrom (ends : Endpoints) (p : Parsed) : Prop where
  family : p.family = ipFamily ends.isV6
  proto : p.protoByte = keptProto ends.isV6 ends.proto
  src : p.srcAddr = ends.src
  dst : p.dstAddr = ends.dst
  ports : ends.ports =
    if ends.proto = protoTcp ∨ ends.proto = protoUdp then some (p.srcPort, p.dstPort) else none
  noPorts : ¬ IsKept ends.isV6 ends.proto → p.srcPort = 0 ∧ p.dstPort = 0

theorem HasEndpoints.parsedFrom {packet : List UInt8} {l2Off : Nat} {ends : Endpoints} {p : Parsed}
    (h : HasEndpoints packet l2Off ends) (hparse : parsePacket packet l2Off = .ok (some p)) :
    ParsedFrom ends p := by
  obtain ⟨ipOff, off, hip, hpayload, hsrc, hdst, hports⟩ := h
  obtain ⟨isV6, ipOff', hip', hparse⟩ := parsePacket_ok hparse
  obtain ⟨rfl, rfl⟩ := hip'.unique hip
  obtain ⟨hfamily, hsrcAddr, hdstAddr, ⟨proto, hlater, -⟩ | ⟨proto, l4Off, hpayload', hl4⟩⟩ :=
    parseIp_fields hparse
  · exact absurd hlater hpayload.not_later
  · obtain ⟨rfl, rfl⟩ := hpayload'.unique hpayload
    obtain ⟨hproto, hnone⟩ := parseL4_fields hl4
    exact ⟨hfamily, hproto, hsrcAddr.trans hsrc.symm, hdstAddr.trans hdst.symm,
      hports.eq_of_parseL4 hl4, hnone⟩

/-! ### Keys that meet -/

/-- Keys of a kept protocol meet in mirrored packets only. -/
theorem ParsedFrom.mirror_of_keys {ends ends' : Endpoints} {p p' : Parsed}
    (h : ParsedFrom ends p) (h' : ParsedFrom ends' p') (hkept : IsKept ends.isV6 ends.proto)
    (hkey : forwardKey p = reverseKey p') : ends' = ends.mirror := by
  rw [forwardKey, reverseKey, ConnKey.mk.injEq] at hkey
  obtain ⟨hproto, hfamily, hsrc, hdst, hsrcPort, hdstPort⟩ := hkey
  obtain ⟨isV6, proto, src, dst, ports⟩ := ends
  obtain ⟨isV6', proto', src', dst', ports'⟩ := ends'
  obtain rfl : isV6' = isV6 :=
    ipFamily_inj (h'.family.symm.trans (hfamily.symm.trans h.family))
  obtain rfl : proto' = proto := by
    refine eq_of_keptProto_eq hkept ?_
    exact h'.proto.symm.trans (hproto.symm.trans (h.proto.trans (keptProto_of_isKept hkept)))
  obtain rfl : src' = dst := h'.src.symm.trans (hdst.symm.trans h.dst)
  obtain rfl : dst' = src := h'.dst.symm.trans (hsrc.symm.trans h.src)
  have hports : ports' = ports.map Prod.swap := by
    rw [show ports = _ from h.ports, show ports' = _ from h'.ports, hsrcPort, hdstPort]
    split <;> rfl
  rw [hports]
  rfl

/-- Four bytes are all there is of an IPv4 address. -/
theorem padded_ofAddr_addressAt (packet : List UInt8) (off : Nat) :
    (V4Addr.ofAddr (addressAt packet off 4)).padded = addressAt packet off 4 := by
  have hget : ∀ k < 4, (addressAt packet off 4)[k]?.getD 0 = packet[off + k]?.getD 0 := by
    intro k hk
    rw [Vector.getElem?_eq_getElem (by omega), addressAt, Vector.getElem_ofFn, if_pos hk]
    rfl
  have hbytes : (V4Addr.ofAddr (addressAt packet off 4)).padded =
      addressAt [packet[off]?.getD 0, packet[off + 1]?.getD 0, packet[off + 2]?.getD 0,
        packet[off + 3]?.getD 0] 0 4 := by
    rw [V4Addr.ofAddr, hget 0 (by decide), hget 1 (by decide), hget 2 (by decide),
      hget 3 (by decide)]
    exact addrV4_eq rfl rfl rfl rfl
  rw [hbytes, addressAt, addressAt]
  congr 1
  funext i
  by_cases hfour : i.val < 4
  · have hcases : i.val = 0 ∨ i.val = 1 ∨ i.val = 2 ∨ i.val = 3 := by omega
    rw [if_pos hfour, if_pos hfour]
    rcases hcases with h | h | h | h <;> rw [h] <;> rfl
  · rw [if_neg hfour, if_neg hfour]

/-! ### Packets that the keys confuse -/

/-- A number that is neither this one nor of a protocol the parser knows: ESP, or GRE for
ESP itself. -/
def anotherProto (proto : UInt8) : UInt8 := if proto = 50 then 47 else 50

theorem anotherProto_ne (proto : UInt8) : anotherProto proto ≠ proto := by
  unfold anotherProto
  split
  · rename_i h
    rw [h]
    decide
  · rename_i h
    exact fun heq => h heq.symm

theorem anotherProto_isOther (proto : UInt8) (isV6 : Bool) : IsOther isV6 (anotherProto proto) := by
  have hother : ∀ n : UInt8, n = 47 ∨ n = 50 → IsOther isV6 n := by
    rintro n (rfl | rfl)
    · refine ⟨by decide, by decide, by cases isV6 <;> decide, fun _ => ⟨by decide, ?_⟩⟩
      intro kind
      cases kind <;> decide
    · refine ⟨by decide, by decide, by cases isV6 <;> decide, fun _ => ⟨by decide, ?_⟩⟩
      intro kind
      cases kind <;> decide
  apply hother
  unfold anotherProto
  split
  · exact Or.inl rfl
  · exact Or.inr rfl

theorem IsOther.not_isKept {isV6 : Bool} {proto : UInt8} (h : IsOther isV6 proto) :
    ¬ IsKept isV6 proto := by
  rintro (htcp | hudp | hicmp)
  · exact h.tcp htcp
  · exact h.udp hudp
  · exact h.icmp hicmp

/-- The protocol a rule sees is the one the parser keeps. -/
theorem Upper.protoByte_eq {isV6 : Bool} (upper : Upper isV6) :
    upper.protoByte = keptProto isV6 upper.number := by
  rcases upper with _ | _ | _ | ⟨proto, hother⟩
  · exact (keptProto_of_isKept (Or.inl rfl)).symm
  · exact (keptProto_of_isKept (Or.inr (Or.inl rfl))).symm
  · exact (keptProto_of_isKept (Or.inr (Or.inr rfl))).symm
  · exact (keptProto_of_not_isKept hother.not_isKept).symm

/-- What another host may send to the sender of a packet. -/
def strayReply (ends : Endpoints) : Network :=
  plainPacket ends.isV6 ends.dst ends.src 0 (.other (anotherProto ends.proto)
    (anotherProto_isOther ends.proto ends.isV6))

theorem strayReply_addresses {packet : List UInt8} {l2Off : Nat} {ends : Endpoints}
    (h : HasEndpoints packet l2Off ends) :
    (strayReply ends).parsed = ⟨ipFamily ends.isV6, protoAny, 0, ends.dst, ends.src, 0, 0⟩ := by
  obtain ⟨isV6, proto, src, dst, ports⟩ := ends
  obtain ⟨ipOff, off, -, -, hsrc, hdst, -⟩ := h
  rcases isV6 with _ | _
  · obtain rfl : src = addressAt packet (ipOff + 12) 4 := hsrc
    obtain rfl : dst = addressAt packet (ipOff + 16) 4 := hdst
    have hstray : (strayReply ⟨false, proto, addressAt packet (ipOff + 12) 4,
        addressAt packet (ipOff + 16) 4, ports⟩).parsed =
        ⟨familyV4, protoAny, 0, (V4Addr.ofAddr (addressAt packet (ipOff + 16) 4)).padded,
          (V4Addr.ofAddr (addressAt packet (ipOff + 12) 4)).padded, 0, 0⟩ := rfl
    rw [hstray, padded_ofAddr_addressAt, padded_ofAddr_addressAt]
    rfl
  · rfl

theorem strayReply_hasEndpoints (ends : Endpoints) :
    HasEndpoints ((strayReply ends).bytes ++ []) 0
      ⟨ends.isV6, anotherProto ends.proto, srcAddrAt ((strayReply ends).bytes ++ []) 0 ends.isV6,
        dstAddrAt ((strayReply ends).bytes ++ []) 0 ends.isV6, none⟩ := by
  have hother := anotherProto_isOther ends.proto ends.isV6
  obtain ⟨off, hpayload⟩ := plainPacket_payload ends.isV6 ends.dst ends.src 0 (.other _ hother) []
  refine ⟨0, off, plainPacket_ip .., hpayload, rfl, rfl, ?_⟩
  rw [PortsAt, if_neg (not_or.mpr ⟨hother.tcp, hother.udp⟩)]

/-- **Which keys belong to one flow.**  The key of an outbound packet is met only by inbound
packets of the same protocol, with mirrored addresses and ports, if and only if its
protocol is TCP, UDP or the ICMP of its version of IP. -/
theorem keys_mirror_iff {packet : List UInt8} {l2Off : Nat} {p : Parsed} {ends : Endpoints}
    (hparse : parsePacket packet l2Off = .ok (some p)) (hends : HasEndpoints packet l2Off ends) :
    (∀ packet' l2Off' p' ends', parsePacket packet' l2Off' = .ok (some p') →
      HasEndpoints packet' l2Off' ends' → forwardKey p = reverseKey p' → ends' = ends.mirror) ↔
    IsKept ends.isV6 ends.proto := by
  have hfrom := hends.parsedFrom hparse
  constructor
  · intro hmirror
    by_contra hother
    -- a packet of another protocol, the other way round, has the same key
    have hkey : forwardKey p = reverseKey (strayReply ends).parsed := by
      obtain ⟨hsrcPort, hdstPort⟩ := hfrom.noPorts hother
      rw [strayReply_addresses hends, forwardKey, reverseKey, hfrom.family, hfrom.proto,
        keptProto_of_not_isKept hother, hfrom.src, hfrom.dst, hsrcPort, hdstPort]
    have hsame := hmirror _ 0 _ _ (plainPacket_parse ..) (strayReply_hasEndpoints ends) hkey
    exact anotherProto_ne ends.proto (congrArg Endpoints.proto hsame)
  · intro hkept packet' l2Off' p' ends' hparse' hends' hkey
    exact hfrom.mirror_of_keys (hends'.parsedFrom hparse') hkept hkey

/-! ### A connection and two tunnels -/

/-- The host at `10.0.0.2` and the port it connects to. -/
def synEnds : Endpoints :=
  ⟨false, protoTcp, synHeader.src.padded, synHeader.dst.padded, some (40000, 22)⟩

/-- The end points of `synAck`. -/
def synAckEnds : Endpoints :=
  ⟨false, protoTcp, synHeader.dst.padded, synHeader.src.padded, some (22, 40000)⟩

theorem syn_hasEndpoints : HasEndpoints syn.bytes 14 synEnds :=
  ⟨_, _, .ethernet 0 (by decide) (by decide) (by simp) ⟨_, _, rfl, rfl, rfl⟩,
    .v4 rfl ⟨_, _, rfl, rfl, rfl⟩ (by decide) rfl, rfl, rfl,
    40000, 22, rfl, ⟨_, _, rfl, rfl, rfl⟩, ⟨_, _, rfl, rfl, rfl⟩⟩

theorem synAck_hasEndpoints : HasEndpoints synAck.bytes 14 synAckEnds :=
  ⟨_, _, .ethernet 0 (by decide) (by decide) (by simp) ⟨_, _, rfl, rfl, rfl⟩,
    .v4 rfl ⟨_, _, rfl, rfl, rfl⟩ (by decide) rfl, rfl, rfl,
    22, 40000, rfl, ⟨_, _, rfl, rfl, rfl⟩, ⟨_, _, rfl, rfl, rfl⟩⟩

/-- What meets the key of a connection mirrors it. -/
theorem synAck_mirrors_syn : synAckEnds = synEnds.mirror :=
  (keys_mirror_iff (parsePacket_bytes syn (show (14 : Nat) ≠ 0 by decide)) syn_hasEndpoints).mpr
    (Or.inl rfl) synAck.bytes 14 synAck.parsed synAckEnds
    (parsePacket_bytes synAck (show (14 : Nat) ≠ 0 by decide)) synAck_hasEndpoints rfl

theorem gre_isOther : IsOther false 47 := anotherProto_isOther 50 false

theorem esp_isOther : IsOther false 50 := anotherProto_isOther 47 false

/-- A GRE packet on its way out. -/
def gre : PacketDesc := { syn with network := .v4 synHeader (.initial (.other 47 gre_isOther)) }

/-- An ESP packet from the other host. -/
def esp : PacketDesc :=
  { syn with
    network := .v4 { synHeader with src := synHeader.dst, dst := synHeader.src }
      (.initial (.other 50 esp_isOther)) }

/-- The end points of `gre`. -/
def greEnds : Endpoints := ⟨false, 47, synHeader.src.padded, synHeader.dst.padded, none⟩

/-- The end points of `esp`. -/
def espEnds : Endpoints := ⟨false, 50, synHeader.dst.padded, synHeader.src.padded, none⟩

/-- A GRE packet and an ESP packet have one key, and the one that has gone out lets the other
in. -/
theorem gre_admits_esp :
    (HasEndpoints gre.bytes 14 greEnds ∧ parsePacket gre.bytes 14 = .ok (some gre.parsed) ∧
      HasEndpoints esp.bytes 14 espEnds ∧ parsePacket esp.bytes 14 = .ok (some esp.parsed) ∧
      forwardKey gre.parsed = reverseKey esp.parsed ∧ espEnds ≠ greEnds.mirror) ∧
    tryIngress (after (World.step (sampleToml sampleLists)) freshWorld denyIncoming).path 200 2
      esp.bytes = .ok .drop ∧
    tryIngress (after (World.step (sampleToml sampleLists)) freshWorld
      (denyIncoming ++ [.egress 100 2 gre.bytes true])).path 200 2 esp.bytes = .ok .pass := by
  have hparse : parsePacket esp.bytes 14 = .ok (some esp.parsed) :=
    parsePacket_bytes esp (show (14 : Nat) ≠ 0 by decide)
  have hpass : (after (World.step (sampleToml sampleLists)) freshWorld
      (denyIncoming ++ [.egress 100 2 gre.bytes true])).path.PassesReply 200 2 esp.bytes
      (forwardKey gre.parsed) := ⟨esp.parsed, hparse, rfl, rfl, rfl⟩
  refine ⟨⟨?_, parsePacket_bytes gre (show (14 : Nat) ≠ 0 by decide), ?_, hparse, rfl,
    by decide⟩, rfl, tryIngress_of_passesReply hpass⟩
  · exact ⟨_, _, .ethernet 0 (by decide) (by decide) (by simp) ⟨_, _, rfl, rfl, rfl⟩,
      .v4 rfl ⟨_, _, rfl, rfl, rfl⟩ (by decide) rfl, rfl, rfl, rfl⟩
  · exact ⟨_, _, .ethernet 0 (by decide) (by decide) (by simp) ⟨_, _, rfl, rfl, rfl⟩,
      .v4 rfl ⟨_, _, rfl, rfl, rfl⟩ (by decide) rfl, rfl, rfl, rfl⟩

end Moatd
