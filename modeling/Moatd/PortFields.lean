import Moatd.ExtWalk

/-!
# Where the port fields come from

`parse_packet` takes any bytes.  What it returns has the ports of a TCP or UDP header in its
port fields (`CarriesPorts`), or the id of an ICMP message twice, or nothing.
-/

namespace Moatd

open Bytes Fallible

/-! ### Finding a transport header -/

/-- Where the IP packet begins, and its version: at once if there is no L2 header, and else
behind an Ethernet header with at most two VLAN tags. -/
inductive IpAt (packet : List UInt8) : Nat → Bool → Nat → Prop
  | raw {isV6 : Bool} {first : UInt8} (hfirst : packet[0]? = some first)
      (hversion : first >>> 4 = if isV6 then 6 else 4) : IpAt packet 0 isV6 0
  | ethernet {l2Off : Nat} {isV6 : Bool} (tags : Nat) (hl2 : l2Off ≠ 0) (htags : tags ≤ 2)
      (hvlan : ∀ k < tags, ∃ ethertype, isVlan ethertype = true ∧
        Be16At packet (12 + 4 * k) ethertype)
      (hip : Be16At packet (12 + 4 * tags) (ipEthertype isV6)) :
    IpAt packet l2Off isV6 (ethHdrLen + 4 * tags)

/-- The payload of an IP packet that is whole or a first fragment: its protocol, and where
it begins. -/
inductive PayloadAt (packet : List UInt8) (ipOff : Nat) : Bool → UInt8 → Nat → Prop
  | v4 {versionIhl proto : UInt8} {field : UInt16} (hihl : packet[ipOff]? = some versionIhl)
      (hfield : Be16At packet (ipOff + 6) field) (hfirst : field &&& 0x1fff = 0)
      (hproto : packet[ipOff + 9]? = some proto) :
    PayloadAt packet ipOff false proto (ipOff + (versionIhl &&& 0x0f).toNat * 4)
  | v6 {nextHdr proto : UInt8} {steps : List Nat} {off : Nat}
      (hnext : packet[ipOff + 6]? = some nextHdr)
      (hwalk : ExtWalk packet nextHdr (ipOff + ipv6HdrLen) steps (proto, off, false)) :
    PayloadAt packet ipOff true proto off

/-- A later fragment, and the protocol that the header in front of its bytes names. -/
inductive LaterAt (packet : List UInt8) (ipOff : Nat) : Bool → UInt8 → Prop
  | v4 {proto : UInt8} {field : UInt16} (hfield : Be16At packet (ipOff + 6) field)
      (hlater : field &&& 0x1fff ≠ 0) (hproto : packet[ipOff + 9]? = some proto) :
    LaterAt packet ipOff false proto
  | v6 {nextHdr proto : UInt8} {steps : List Nat} {off : Nat}
      (hnext : packet[ipOff + 6]? = some nextHdr)
      (hwalk : ExtWalk packet nextHdr (ipOff + ipv6HdrLen) steps (proto, off, true)) :
    LaterAt packet ipOff true proto

/-- An address of so many bytes, from this offset on. -/
def addressAt (packet : List UInt8) (off width : Nat) : Addr :=
  Vector.ofFn fun i : Fin 16 => if i.val < width then packet[off + i.val]?.getD 0 else 0

/-- The source address of the IP packet. -/
def srcAddrAt (packet : List UInt8) (ipOff : Nat) (isV6 : Bool) : Addr :=
  if isV6 then addressAt packet (ipOff + 8) 16 else addressAt packet (ipOff + 12) 4

/-- The destination address in the header at this offset. -/
def dstAddrAt (packet : List UInt8) (ipOff : Nat) (isV6 : Bool) : Addr :=
  if isV6 then addressAt packet (ipOff + 24) 16 else addressAt packet (ipOff + 16) 4

/-- The family byte of an IP version. -/
def ipFamily (isV6 : Bool) : UInt8 := if isV6 then familyV6 else familyV4

/-- A TCP or UDP packet with these ports, and not a later fragment. -/
structure CarriesPorts (packet : List UInt8) (l2Off : Nat) (proto : Protocol)
    (srcPort dstPort : UInt16) : Prop where
  transport : proto = .tcp ∨ proto = .udp
  header : ∃ isV6 ipOff off, IpAt packet l2Off isV6 ipOff ∧
    PayloadAt packet ipOff isV6 (protoByte (some proto)) off ∧
    Be16At packet off srcPort ∧ Be16At packet (off + 2) dstPort

/-! ### There is one at most -/

theorem ipEthertype_not_vlan (isV6 : Bool) : isVlan (ipEthertype isV6) = false := by
  cases isV6 <;> decide

theorem ipEthertype_inj {isV6 isV6' : Bool} (h : ipEthertype isV6 = ipEthertype isV6') :
    isV6 = isV6' := by
  revert isV6 isV6'
  decide

theorem IpAt.unique {packet : List UInt8} {l2Off : Nat} {isV6 isV6' : Bool} {ipOff ipOff' : Nat}
    (h : IpAt packet l2Off isV6 ipOff) (h' : IpAt packet l2Off isV6' ipOff') :
    isV6 = isV6' ∧ ipOff = ipOff' := by
  -- the EtherType of a version of IP is not that of a further tag
  have hle : ∀ {isV6 tags tags'}, Be16At packet (12 + 4 * tags) (ipEthertype isV6) →
      (∀ k < tags', ∃ ethertype, isVlan ethertype = true ∧
        Be16At packet (12 + 4 * k) ethertype) → tags' ≤ tags := by
    intro isV6 tags tags' hip hvlan
    by_contra hlt
    obtain ⟨ethertype, hisVlan, hat⟩ := hvlan tags (by omega)
    rw [← hip.unique hat, ipEthertype_not_vlan] at hisVlan
    cases hisVlan
  cases h with
  | raw hfirst hversion =>
    cases h' with
    | raw hfirst' hversion' =>
      cases hfirst.symm.trans hfirst'
      have hnibble : ∀ b b' : Bool,
          (if b then (6 : UInt8) else 4) = (if b' then 6 else 4) → b = b' := by decide
      exact ⟨hnibble _ _ (hversion.symm.trans hversion'), rfl⟩
    | ethernet _ hl2 => exact absurd rfl hl2
  | ethernet tags hl2 _ hvlan hip =>
    cases h' with
    | raw => exact absurd rfl hl2
    | ethernet tags' _ _ hvlan' hip' =>
      obtain rfl := Nat.le_antisymm (hle hip' hvlan) (hle hip hvlan')
      exact ⟨ipEthertype_inj (hip.unique hip'), rfl⟩

theorem PayloadAt.unique {packet : List UInt8} {ipOff : Nat} {isV6 : Bool} {proto proto' : UInt8}
    {off off' : Nat} (h : PayloadAt packet ipOff isV6 proto off)
    (h' : PayloadAt packet ipOff isV6 proto' off') : proto = proto' ∧ off = off' := by
  cases h with
  | v4 hihl _ _ hproto =>
    cases h' with
    | v4 hihl' _ _ hproto' =>
      cases hihl.symm.trans hihl'
      cases hproto.symm.trans hproto'
      exact ⟨rfl, rfl⟩
  | v6 hnext hwalk =>
    cases h' with
    | v6 hnext' hwalk' =>
      cases hnext.symm.trans hnext'
      cases (hwalk.unique hwalk').2
      exact ⟨rfl, rfl⟩

/-- A packet is not both a later fragment and something with a payload in sight. -/
theorem PayloadAt.not_later {packet : List UInt8} {ipOff : Nat} {isV6 : Bool}
    {proto proto' : UInt8} {off : Nat} (h : PayloadAt packet ipOff isV6 proto off) :
    ¬ LaterAt packet ipOff isV6 proto' := by
  intro h'
  rcases h with ⟨_, hfield, hfirst, _⟩ | ⟨hnext, hwalk⟩
  · rcases h' with ⟨hfield', hlater, _⟩
    rw [← hfield.unique hfield'] at hlater
    exact hlater hfirst
  · rcases h' with _ | ⟨hnext', hwalk'⟩
    cases hnext.symm.trans hnext'
    cases (hwalk.unique hwalk').2

/-- A packet has one pair of ports. -/
theorem CarriesPorts.unique {packet : List UInt8} {l2Off : Nat} {proto proto' : Protocol}
    {srcPort srcPort' dstPort dstPort' : UInt16}
    (h : CarriesPorts packet l2Off proto srcPort dstPort)
    (h' : CarriesPorts packet l2Off proto' srcPort' dstPort') :
    proto = proto' ∧ srcPort = srcPort' ∧ dstPort = dstPort' := by
  obtain ⟨htransport, isV6, ipOff, off, hip, hpayload, hsrc, hdst⟩ := h
  obtain ⟨htransport', isV6', ipOff', off', hip', hpayload', hsrc', hdst'⟩ := h'
  obtain ⟨rfl, rfl⟩ := hip.unique hip'
  obtain ⟨hproto, rfl⟩ := hpayload.unique hpayload'
  refine ⟨?_, hsrc.unique hsrc', hdst.unique hdst'⟩
  rcases htransport with rfl | rfl <;> rcases htransport' with rfl | rfl
  · rfl
  · cases hproto
  · cases hproto
  · rfl

/-! ### The upper layer -/

section Read
variable {packet : List UInt8} {off : Nat}

theorem readPorts_ok {ports : UInt16 × UInt16} (h : readPorts packet off = .ok ports) :
    Be16At packet off ports.1 ∧ Be16At packet (off + 2) ports.2 := by
  obtain ⟨p, hread, h⟩ := bind_eq_ok_iff.mp h
  cases h
  exact ⟨be16At_of_ptrAtData (k := 0) hread rfl rfl, be16At_of_ptrAtData (k := 2) hread rfl rfl⟩

theorem parseIcmp_ok {proto : UInt8} {fields : UInt16 × UInt16 × UInt8 × UInt8}
    (h : parseIcmp packet off proto = .ok fields) :
    fields.1 = fields.2.1 ∧ fields.2.2.1 = proto := by
  obtain ⟨head, -, h⟩ := bind_eq_ok_iff.mp h
  cases h
  exact ⟨rfl, rfl⟩

/-- What `parse_l4` puts into the port fields. -/
theorem parseL4_ports {proto : UInt8} {isV6 : Bool} {fields : UInt16 × UInt16 × UInt8 × UInt8}
    (h : parseL4 packet off proto isV6 = .ok fields) :
    (∃ protocol, (protocol = .tcp ∨ protocol = .udp) ∧ proto = protoByte (some protocol) ∧
      Be16At packet off fields.1 ∧ Be16At packet (off + 2) fields.2.1) ∨
    (fields.1 = 0 ∧ fields.2.1 = 0) ∨
    (fields.2.2.1 ≠ protoTcp ∧ fields.2.2.1 ≠ protoUdp ∧ fields.1 = fields.2.1) := by
  unfold parseL4 at h
  split_ifs at h with htcp hudp hicmp hicmpv6
  · obtain ⟨ports, hread, h⟩ := bind_eq_ok_iff.mp h
    cases h
    obtain ⟨hsrc, hdst⟩ := readPorts_ok hread
    exact Or.inl ⟨.tcp, Or.inl rfl, htcp, hsrc, hdst⟩
  · obtain ⟨ports, hread, h⟩ := bind_eq_ok_iff.mp h
    cases h
    obtain ⟨hsrc, hdst⟩ := readPorts_ok hread
    exact Or.inl ⟨.udp, Or.inr rfl, hudp, hsrc, hdst⟩
  · obtain ⟨hid, hnumber⟩ := parseIcmp_ok h
    obtain ⟨hnotTcp, hnotUdp⟩ := icmpNumber_ne false
    exact Or.inr (Or.inr ⟨hnumber ▸ hnotTcp, hnumber ▸ hnotUdp, hid⟩)
  · obtain ⟨hid, hnumber⟩ := parseIcmp_ok h
    obtain ⟨hnotTcp, hnotUdp⟩ := icmpNumber_ne true
    exact Or.inr (Or.inr ⟨hnumber ▸ hnotTcp, hnumber ▸ hnotUdp, hid⟩)
  · cases h
    exact Or.inr (Or.inl ⟨rfl, rfl⟩)

/-! ### The network layer -/

theorem addrV4_eq {a b c d : UInt8} (ha : packet[off]? = some a) (hb : packet[off + 1]? = some b)
    (hc : packet[off + 2]? = some c) (hd : packet[off + 3]? = some d) :
    addrV4 a b c d = addressAt packet off 4 := by
  have htoList : (addrV4 a b c d).toList = [a, b, c, d] ++ List.replicate 12 0 := rfl
  ext i hi
  rw [addressAt, Vector.getElem_ofFn,
    ← Vector.getElem_toList (show i < (addrV4 a b c d).toList.length by simpa using hi)]
  simp only [htoList]
  by_cases hfour : i < 4
  · rw [if_pos hfour]
    have hcases : i = 0 ∨ i = 1 ∨ i = 2 ∨ i = 3 := by omega
    rcases hcases with rfl | rfl | rfl | rfl
    · simp [ha]
    · simp [hb]
    · simp [hc]
    · simp [hd]
  · rw [if_neg hfour, List.getElem_append_right (by simpa using hfour), List.getElem_replicate]

theorem addrV6_eq {ipv6 : Vector UInt8 40} (hbyte : ∀ i < 40, packet[off + i]? = ipv6[i]?)
    (first : Nat) (hfirst : first + 16 ≤ 40) :
    addrV6 ipv6 first hfirst = addressAt packet (off + first) 16 := by
  ext i hi
  rw [addrV6, addressAt, Vector.getElem_ofFn, Vector.getElem_ofFn, if_pos hi, Nat.add_assoc,
    hbyte (first + i) (by omega), Vector.getElem?_eq_getElem (by omega)]
  rfl

/-- **Every field of what `parse_packet` returns**, by the bytes it comes from.  Of a later
fragment there is the protocol its header names; of another packet, what `parse_l4` reads
of its payload. -/
theorem parseIp_fields {isV6 : Bool} {p : Parsed} (h : parseIp isV6 packet off = .ok (some p)) :
    p.family = ipFamily isV6 ∧ p.srcAddr = srcAddrAt packet off isV6 ∧
    p.dstAddr = dstAddrAt packet off isV6 ∧
    ((∃ proto, LaterAt packet off isV6 proto ∧
        (p.srcPort, p.dstPort, p.protoByte, p.icmpType) = (0, 0, keptProto isV6 proto, 0)) ∨
      ∃ proto l4Off, PayloadAt packet off isV6 proto l4Off ∧
        parseL4 packet l4Off proto isV6 =
          .ok (p.srcPort, p.dstPort, p.protoByte, p.icmpType)) := by
  rcases isV6 with _ | _
  · obtain ⟨ipv4, hread, h⟩ := bind_eq_ok_iff.mp (show parseV4 packet off = .ok (some p) from h)
    obtain ⟨-, hbyte⟩ := ptrAtData_ok hread
    have hfield := be16At_of_ptrAtData (k := 6) hread rfl rfl
    have hsrc : addrV4 ipv4[12] ipv4[13] ipv4[14] ipv4[15] = addressAt packet (off + 12) 4 :=
      addrV4_eq (hbyte 12 (by decide)) (hbyte 13 (by decide)) (hbyte 14 (by decide))
        (hbyte 15 (by decide))
    have hdst : addrV4 ipv4[16] ipv4[17] ipv4[18] ipv4[19] = addressAt packet (off + 16) 4 :=
      addrV4_eq (hbyte 16 (by decide)) (hbyte 17 (by decide)) (hbyte 18 (by decide))
        (hbyte 19 (by decide))
    dsimp only at h
    split at h
    · cases h
    split at h
    · rename_i hlater
      cases h
      refine ⟨rfl, hsrc, hdst, Or.inl ⟨_, .v4 hfield hlater (hbyte 9 (by decide)), ?_⟩⟩
      rw [← normalizeProto_eq_keptProto]
    · rename_i hfirst
      obtain ⟨fields, hl4, h⟩ := bind_eq_ok_iff.mp h
      cases h
      exact ⟨rfl, hsrc, hdst, Or.inr ⟨_, _, .v4 (hbyte 0 (by decide)) hfield (not_not.mp hfirst)
        (hbyte 9 (by decide)), hl4⟩⟩
  · obtain ⟨ipv6, hread, h⟩ := bind_eq_ok_iff.mp (show parseV6 packet off = .ok (some p) from h)
    obtain ⟨⟨proto, l4Off, noninitialFragment⟩, hwalk, h⟩ := bind_eq_ok_iff.mp h
    obtain ⟨-, hbyte⟩ := ptrAtData_ok hread
    obtain ⟨steps, hsteps, -⟩ := walkV6Ext_eq_ok_iff.mp hwalk
    have hsrc := addrV6_eq hbyte 8 (by decide)
    have hdst := addrV6_eq hbyte 24 (by decide)
    rcases noninitialFragment with _ | _
    · obtain ⟨fields, hl4, h⟩ := bind_eq_ok_iff.mp h
      cases h
      exact ⟨rfl, hsrc, hdst, Or.inr ⟨proto, l4Off, .v6 (hbyte 6 (by decide)) hsteps, hl4⟩⟩
    · cases h
      refine ⟨rfl, hsrc, hdst, Or.inl ⟨proto, .v6 (hbyte 6 (by decide)) hsteps, ?_⟩⟩
      rw [← normalizeProto_eq_keptProto]

/-- An IP packet is not passed over. -/
theorem parseIp_ne_none {isV6 : Bool} : parseIp isV6 packet off ≠ .ok none := by
  intro h
  rcases isV6 with _ | _
  · obtain ⟨ipv4, -, h⟩ := bind_eq_ok_iff.mp (show parseV4 packet off = .ok none from h)
    dsimp only at h
    split at h
    · cases h
    split at h
    · cases h
    · obtain ⟨fields, -, h⟩ := bind_eq_ok_iff.mp h
      cases h
  · obtain ⟨ipv6, -, h⟩ := bind_eq_ok_iff.mp (show parseV6 packet off = .ok none from h)
    obtain ⟨⟨proto, l4Off, later⟩, -, h⟩ := bind_eq_ok_iff.mp h
    rcases later with _ | _
    · obtain ⟨fields, -, h⟩ := bind_eq_ok_iff.mp h
      cases h
    · cases h

/-- A packet without ports in sight, or one with a payload that `parse_l4` has read. -/
theorem parseIp_ok {isV6 : Bool} {p : Parsed} (h : parseIp isV6 packet off = .ok (some p)) :
    (p.srcPort = 0 ∧ p.dstPort = 0) ∨
    ∃ proto l4Off, PayloadAt packet off isV6 proto l4Off ∧
      parseL4 packet l4Off proto isV6 = .ok (p.srcPort, p.dstPort, p.protoByte, p.icmpType) := by
  obtain ⟨-, -, -, ⟨proto, -, hfields⟩ | hpayload⟩ := parseIp_fields h
  · rw [Prod.mk.injEq, Prod.mk.injEq] at hfields
    exact Or.inl ⟨hfields.1, hfields.2.1⟩
  · exact Or.inr hpayload

end Read

/-! ### The packet -/

theorem ethertypeAt_ok {packet : List UInt8} {off : Nat} {ethertype : UInt16}
    (h : ethertypeAt packet off = .ok ethertype) : Be16At packet off ethertype := by
  obtain ⟨p, hread, h⟩ := bind_eq_ok_iff.mp h
  cases h
  exact be16At_of_ptrAtData (k := 0) hread rfl rfl

/-- One EtherType: it names a version of IP, or there is more to read. -/
theorem parseIp_of_ethertype_ok {packet : List UInt8} {off : Nat} {ethertype : UInt16}
    {otherwise : Except Unit (Option Parsed)} {p : Parsed}
    (h : (if ethertype = ethPIp then parseV4 packet off
      else if ethertype = ethPIpv6 then parseV6 packet off else otherwise) = .ok (some p)) :
    (∃ isV6, ethertype = ipEthertype isV6 ∧ parseIp isV6 packet off = .ok (some p)) ∨
      otherwise = .ok (some p) := by
  split_ifs at h with hip hip6
  · exact Or.inl ⟨false, hip, h⟩
  · exact Or.inl ⟨true, hip6, h⟩
  · exact Or.inr h

/-- Where `parse_packet` returns something, it has found an IP packet. -/
theorem parsePacket_ok {packet : List UInt8} {l2Off : Nat} {p : Parsed}
    (h : parsePacket packet l2Off = .ok (some p)) :
    ∃ isV6 ipOff, IpAt packet l2Off isV6 ipOff ∧ parseIp isV6 packet ipOff = .ok (some p) := by
  unfold parsePacket at h
  by_cases hraw : l2Off = 0
  · subst hraw
    rw [if_pos rfl] at h
    obtain ⟨head, hread, h⟩ := bind_eq_ok_iff.mp h
    obtain ⟨-, hbyte⟩ := ptrAtData_ok hread
    have hfirst : packet[0]? = some head[0] := hbyte 0 (by decide)
    dsimp only at h
    split_ifs at h with hv4 hv6
    · exact ⟨false, 0, .raw hfirst hv4, h⟩
    · exact ⟨true, 0, .raw hfirst hv6, h⟩
    · cases h
  · rw [if_neg hraw] at h
    obtain ⟨outer, houter, h⟩ := bind_eq_ok_iff.mp h
    -- no tag; below, one tag and two
    rcases parseIp_of_ethertype_ok h with ⟨isV6, rfl, hip⟩ | h
    · exact ⟨isV6, _, .ethernet 0 hraw (by decide) (fun k hk => absurd hk (Nat.not_lt_zero k))
        (ethertypeAt_ok houter), hip⟩
    split_ifs at h with hvlan
    · obtain ⟨inner, hinner, h⟩ := bind_eq_ok_iff.mp h
      rcases parseIp_of_ethertype_ok h with ⟨isV6, rfl, hip⟩ | h
      · refine ⟨isV6, _, .ethernet 1 hraw (by decide) (fun k hk => ?_)
          (ethertypeAt_ok hinner), hip⟩
        obtain rfl := Nat.lt_one_iff.mp hk
        exact ⟨outer, hvlan, ethertypeAt_ok houter⟩
      split_ifs at h with hvlan'
      · obtain ⟨innermost, hinnermost, h⟩ := bind_eq_ok_iff.mp h
        rcases parseIp_of_ethertype_ok h with ⟨isV6, rfl, hip⟩ | h
        · refine ⟨isV6, _, .ethernet 2 hraw (by decide) (fun k hk => ?_)
            (ethertypeAt_ok hinnermost), hip⟩
          have hcases : k = 0 ∨ k = 1 := by omega
          rcases hcases with rfl | rfl
          · exact ⟨outer, hvlan, ethertypeAt_ok houter⟩
          · exact ⟨inner, hvlan', ethertypeAt_ok hinner⟩
        · cases h
      · cases h
    · cases h

/-- **What the port fields hold**, of any bytes: ports, nothing, or the id of an ICMP
message twice. -/
theorem portFields_cases {packet : List UInt8} {l2Off : Nat} {p : Parsed}
    (h : parsePacket packet l2Off = .ok (some p)) :
    (∃ proto, CarriesPorts packet l2Off proto p.srcPort p.dstPort) ∨
    (p.srcPort = 0 ∧ p.dstPort = 0) ∨
    (p.protoByte ≠ protoTcp ∧ p.protoByte ≠ protoUdp ∧ p.srcPort = p.dstPort) := by
  obtain ⟨isV6, ipOff, hip, hparse⟩ := parsePacket_ok h
  rcases parseIp_ok hparse with hzero | ⟨proto, l4Off, hpayload, hl4⟩
  · exact Or.inr (Or.inl hzero)
  · rcases parseL4_ports hl4 with ⟨protocol, htransport, rfl, hsrc, hdst⟩ | hother
    · exact Or.inl ⟨protocol, htransport, isV6, ipOff, l4Off, hip, hpayload, hsrc, hdst⟩
    · exact Or.inr hother

end Moatd
