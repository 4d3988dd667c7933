import Moatd.PortRules

/-!
# Rules and the two families

A rule with addresses is for the family of these addresses (`family_locked`), short of
prefix length 0, which leaves an address text without effect.  A rule without addresses
matches in both families, except that a rule for ICMP carries the number that ICMP has in
IPv4 (`icmpRule_matches_iff`).
-/

namespace Moatd

/-! ### Addresses -/

/-- The text of one of its two addresses. -/
def UserRule.Gives (user : UserRule) (t : String) : Prop := user.src = some t ∨ user.dst = some t

section Rule
variable {user : UserRule} {i : UInt32} {rule : Rule}

/-- All address texts of a rule are of one family. -/
theorem exists_givenFamily (hbuild : buildWireRule user i = .ok rule) :
    ∃ family, ∀ t addr n, user.Gives t → CidrText t addr n → addr.family = family := by
  obtain ⟨src, dst, family, -, -, hsrc, hdst, hfamily, -⟩ := buildWireRule_ok hbuild
  obtain ⟨hgiven, -⟩ := ruleFamily_ok hfamily
  have hside : ∀ {text parsed}, parseCidrOpt text = .ok parsed →
      (∀ c, parsed = some c → c.family = family) →
      ∀ t addr n, text = some t → CidrText t addr n → addr.family = family := by
    intro text parsed hparsed hc t addr n ht htext
    obtain ⟨cidr, rfl, hcidr⟩ := parseCidrOpt_some hparsed ht
    obtain ⟨addr', n', htext', rfl, -, -⟩ := parseCidr_cidr hcidr
    obtain ⟨rfl, rfl⟩ := htext.unique htext'
    exact hc _ rfl
  refine ⟨family, ?_⟩
  rintro t addr n (ht | ht) htext
  · exact hside hsrc (fun c hc => hgiven c (Or.inl hc)) t addr n ht htext
  · exact hside hdst (fun c hc => hgiven c (Or.inr hc)) t addr n ht htext

/-- A match is in the family of each address of the rule that has a prefix. -/
theorem family_of_matches (hbuild : buildWireRule user i = .ok rule) {direction : UInt8}
    {ifindex : UInt32} {p : Parsed} (hmatches : rule.matches direction ifindex p = true)
    {t : String} (ht : user.Gives t) {addr : IpAddr} {n : Nat} (htext : CidrText t addr n)
    (hn : 1 ≤ n) : p.family = addr.family := by
  obtain ⟨-, -, -, -, -, hsrc, hdst⟩ :=
    (matches_iff_of_buildWireRule hbuild direction ifindex p).mp hmatches
  have hadmits : ∃ octets, AddressAdmits t p.family octets := by
    rcases ht with ht | ht
    · exact ⟨_, hsrc t ht⟩
    · exact ⟨_, hdst t ht⟩
  obtain ⟨octets, addr', n', htext', hor⟩ := hadmits
  obtain ⟨rfl, rfl⟩ := htext.unique htext'
  rcases hor with hzero | ⟨hfamily, -⟩
  · omega
  · exact hfamily.symm

/-- Under prefix lengths of 0 only the other fields of the rule count. -/
theorem matches_of_wildcards (hbuild : buildWireRule user i = .ok rule)
    (hzero : ∀ t addr n, user.Gives t → CidrText t addr n → n = 0) {direction : UInt8}
    {ifindex : UInt32} {p p' : Parsed} (hproto : p.protoByte = p'.protoByte)
    (hsrcPort : p.srcPort = p'.srcPort) (hdstPort : p.dstPort = p'.dstPort)
    (hmatches : rule.matches direction ifindex p = true) :
    rule.matches direction ifindex p' = true := by
  rw [matches_iff_of_buildWireRule hbuild] at hmatches ⊢
  rw [← hproto, ← hsrcPort, ← hdstPort]
  obtain ⟨hdirection, hiface, hp, hsp, hdp, hsrc, hdst⟩ := hmatches
  refine ⟨hdirection, hiface, hp, hsp, hdp, fun t ht => ?_, fun t ht => ?_⟩
  · obtain ⟨addr, n, htext, -⟩ := hsrc t ht
    exact ⟨addr, n, htext, Or.inl (hzero t addr n (Or.inl ht) htext)⟩
  · obtain ⟨addr, n, htext, -⟩ := hdst t ht
    exact ⟨addr, n, htext, Or.inl (hzero t addr n (Or.inr ht) htext)⟩

/-- **An address with a prefix locks the rule to its family.**  If one of the rule's
address texts has a prefix length of at least 1, all matches are in the family of its
addresses.  If all of them have prefix length 0, neither the family nor the addresses of a
packet play a part. -/
theorem family_locked (hbuild : buildWireRule user i = .ok rule) :
    (∀ t addr n, user.Gives t → CidrText t addr n → 1 ≤ n →
      ∀ direction ifindex p, rule.matches direction ifindex p = true →
        ∀ t' addr' n', user.Gives t' → CidrText t' addr' n' → p.family = addr'.family) ∧
    ((∀ t addr n, user.Gives t → CidrText t addr n → n = 0) →
      ∀ direction ifindex p p', p.protoByte = p'.protoByte → p.srcPort = p'.srcPort →
        p.dstPort = p'.dstPort →
        rule.matches direction ifindex p = rule.matches direction ifindex p') := by
  constructor
  · intro t addr n ht htext hn direction ifindex p hmatches t' addr' n' ht' htext'
    obtain ⟨family, hfamily⟩ := exists_givenFamily hbuild
    rw [family_of_matches hbuild hmatches ht htext hn, hfamily t addr n ht htext,
      hfamily t' addr' n' ht' htext']
  · intro hzero direction ifindex p p' hproto hsrcPort hdstPort
    rw [Bool.eq_iff_iff]
    constructor
    · exact matches_of_wildcards hbuild hzero hproto hsrcPort hdstPort
    · exact matches_of_wildcards hbuild hzero hproto.symm hsrcPort.symm hdstPort.symm

end Rule

theorem privateSsh_locked :
    ∃ rule, buildWireRule privateSsh ifaceAny = .ok rule ∧
      ∀ p, rule.matches dirIn 1 p = true → p.family = familyV4 := by
  have hcompiles : privateSsh.compiles = true := by decide
  obtain ⟨rule, hbuild⟩ := (UserRule.compiles_iff ifaceAny).mp hcompiles
  have htext := privateSsh_text
  exact ⟨rule, hbuild, fun p hp => (family_locked hbuild).1 _ _ _ (Or.inl rfl) htext (by decide)
    dirIn 1 p hp _ _ _ (Or.inl rfl) htext⟩

/-- `moatd allow from 0.0.0.0/0 to any`. -/
def anyV4Rule : UserRule := { direction := .inbound, action := .allow, src := some "0.0.0.0/0" }

/-- A ping over IPv6. -/
def ping6 : Frame where
  l2 := .raw
  packet := .plain (echoRequest true (Addr.ofList [0xfe, 0x80]) (Addr.ofList [0xfe, 0x81]) 7)
  trailing := []

/-- It matches an IPv6 packet. -/
theorem anyV4Rule_matches_ping6 :
    ∃ rule addr, buildWireRule anyV4Rule ifaceAny = .ok rule ∧ CidrText "0.0.0.0/0" addr 0 ∧
      parsePacket ping6.bytes 0 = .ok (some ping6.packet.parsed) ∧
      rule.matches dirIn 1 ping6.packet.parsed = true ∧
      ping6.packet.parsed.family ≠ addr.family := by
  have htext : CidrText "0.0.0.0/0" ⟨familyV4, [0, 0, 0, 0]⟩ (0 : UInt8).toNat :=
    .net (show "0.0.0.0/0".toList = "0.0.0.0".toList ++ '/' :: ['0'] by decide) (by decide) (by rfl)
      (by rfl) (by decide)
  exact ⟨_, _, rfl, htext, ping6.parsePacket_eq rfl, by decide, by decide⟩

/-! ### ICMP -/

/-- An ICMP message over IPv4 or an ICMPv6 message over IPv6, or a later fragment of
one. -/
inductive IpPacket.IsIcmp : IpPacket → Prop
  | v4 (header : V4Header) (icmpType code : UInt8) (checksum id seq : UInt16) :
    IsIcmp (.plain (.v4 header (.initial (.icmp icmpType code checksum id seq))))
  | v4Later (header : V4Header) (offset : BitVec 13) (hoffset : offset ≠ 0) :
    IsIcmp (.plain (.v4 header (.later offset hoffset protoIcmp)))
  | v6 (header : V6Header) (chain : ExtChain) (icmpType code : UInt8) (checksum id seq : UInt16) :
    IsIcmp (.plain (.v6 header chain (.icmp icmpType code checksum id seq)))
  | v6Later (header : V6Header) (chain : ExtChain) (fragment : LaterFragment)
      (hnext : fragment.next = protoIcmpv6) : IsIcmp (.v6Later header chain fragment)

/-- A packet that arrives in this direction on interface `ifindex` is what the rule says,
protocol and ports aside. -/
structure UserRule.Reaches (user : UserRule) (resolved : UInt32) (direction : Direction)
    (ifindex : UInt32) (packet : IpPacket) : Prop where
  direction : user.direction = direction
  iface : user.iface = none ∨ ifindex = resolved
  src : ∀ t, user.src = some t → AddressCovers t packet.family packet.srcOctets
  dst : ∀ t, user.dst = some t → AddressCovers t packet.family packet.dstOctets

/-- ICMP has a number for each family. -/
theorem IpPacket.IsIcmp.protoByte_iff {packet : IpPacket} (h : packet.IsIcmp) :
    protoByte (some .icmp) = packet.parsed.protoByte ↔ packet.family = familyV4 := by
  have hproto : protoIcmp ≠ protoIcmpv6 := by decide
  have hfamily : familyV6 ≠ familyV4 := by decide
  cases h with
  | v4 => exact iff_of_true rfl rfl
  | v4Later => exact iff_of_true rfl rfl
  | v6 => exact iff_of_false hproto hfamily
  | v6Later header chain fragment hnext =>
    refine iff_of_false ?_ hfamily
    change protoIcmp ≠ keptProto true fragment.next
    rw [hnext]
    exact hproto

/-- What reaches the rule passes its address and interface tests. -/
theorem UserRule.Reaches.admits {user : UserRule} {resolved : UInt32} {direction : Direction}
    {ifindex : UInt32} {packet : IpPacket} (h : user.Reaches resolved direction ifindex packet) :
    (∀ t, user.src = some t →
      AddressAdmits t packet.parsed.family packet.parsed.srcAddr.toList) ∧
    ∀ t, user.dst = some t →
      AddressAdmits t packet.parsed.family packet.parsed.dstAddr.toList := by
  rw [packet.parsed_family]
  constructor
  · intro t ht
    rw [addressAdmits_congr packet.bit_srcAddr]
    exact (h.src t ht).admits
  · intro t ht
    rw [addressAdmits_congr packet.bit_dstAddr]
    exact (h.dst t ht).admits

/-- **ICMP rules cover IPv4 only.**  Of the messages that reach a rule for ICMP it
matches those of IPv4. -/
theorem icmpRule_matches_iff {net : SysNet} {user : UserRule} {rule : Rule}
    (hbuild : buildWireRule user (resolveIface net user.iface) = .ok rule)
    (hicmp : user.proto = some .icmp) (f : Frame) {l2Off : Nat} (hl2 : f.l2.At l2Off)
    (hpacket : f.packet.IsIcmp) {direction : Direction} {ifindex : UInt32}
    (hreaches : user.Reaches (resolveIface net user.iface) direction ifindex f.packet) :
    ∃ p, parsePacket f.bytes l2Off = .ok (some p) ∧
      (rule.matches (directionByte direction) ifindex p = true ↔
        f.packet.family = familyV4) := by
  refine ⟨f.packet.parsed, f.parsePacket_eq hl2, ?_⟩
  obtain ⟨-, -, -, srcPorts, dstPorts, -, -, -, -, -, hports, -⟩ := buildWireRule_ok hbuild
  obtain ⟨hsrc, hdst⟩ := hreaches.admits
  have hsrcPort : user.srcPort = none := by
    by_contra h
    exact hports ⟨hicmp, Or.inl (Option.isSome_iff_ne_none.mpr h)⟩
  have hdstPort : user.dstPort = none := by
    by_contra h
    exact hports ⟨hicmp, Or.inr (Option.isSome_iff_ne_none.mpr h)⟩
  have hiface : resolveIface net user.iface = ifaceAny ∨
      resolveIface net user.iface = ifindex := by
    rcases hreaches.iface with hnone | heq
    · rw [hnone]
      exact Or.inl rfl
    · exact Or.inr heq.symm
  rw [matches_iff_of_buildWireRule hbuild, hicmp, ← hpacket.protoByte_iff]
  constructor
  · rintro ⟨-, -, hany | hproto, -⟩
    · cases hany
    · exact hproto
  · intro hproto
    refine ⟨congrArg directionByte hreaches.direction, hiface, Or.inr hproto, ?_, ?_, hsrc, hdst⟩
    · rw [hsrcPort]
      exact fun t ht => by cases ht
    · rw [hdstPort]
      exact fun t ht => by cases ht

/-- `moatd allow proto icmp`. -/
def pingRule : UserRule := { direction := .inbound, action := .allow, proto := some .icmp }

theorem pingRule_reaches (packet : IpPacket) : pingRule.Reaches ifaceAny .inbound 1 packet where
  direction := rfl
  iface := Or.inl rfl
  src t ht := by cases ht
  dst t ht := by cases ht

theorem pingRule_matches_ping :
    ∃ rule p, buildWireRule pingRule ifaceAny = .ok rule ∧
      parsePacket ping22.bytes 0 = .ok (some p) ∧ rule.matches dirIn 1 p = true := by
  have hcompiles : pingRule.compiles = true := by decide
  obtain ⟨rule, hbuild⟩ := (UserRule.compiles_iff (resolveIface [] pingRule.iface)).mp hcompiles
  obtain ⟨p, hparse, hiff⟩ := icmpRule_matches_iff hbuild rfl ping22 rfl
    (.v4 _ 8 0 0 22 0) (pingRule_reaches _)
  exact ⟨rule, p, hbuild, hparse, hiff.mpr rfl⟩

/-- The rule does not let IPv6 pings in. -/
theorem pingRule_misses_ping6 :
    ∃ rule, buildWireRule pingRule (resolveIface [] pingRule.iface) = .ok rule ∧
      ping6.packet.IsIcmp ∧
      pingRule.Reaches (resolveIface [] pingRule.iface) .inbound 1 ping6.packet ∧
      parsePacket ping6.bytes 0 = .ok (some ping6.packet.parsed) ∧
      rule.matches dirIn 1 ping6.packet.parsed = false :=
  ⟨_, rfl, .v6 _ _ 128 0 0 7 0, pingRule_reaches _, ping6.parsePacket_eq rfl, by decide⟩

end Moatd
