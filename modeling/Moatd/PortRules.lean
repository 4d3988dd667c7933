import Moatd.IpPacket
import Moatd.PlainPackets

/-!
# Rules with ports

A rule with a port is about TCP and UDP (`PortsOnly`).  But the parser leaves the id of an
ICMP message where ports would be, and a rule that names no protocol compares the id with
its ports.  So a rule with a port is about ports only if it names TCP or UDP, or gives two
ranges that have no number in common.
-/

namespace Moatd

open Bits

/-- The ports lie in the ranges of the rule. -/
def UserRule.PortsCover (user : UserRule) (srcPort dstPort : UInt16) : Prop :=
  (∀ t, user.srcPort = some t → PortCovers t srcPort) ∧
    ∀ t, user.dstPort = some t → PortCovers t dstPort

/-- Of all packets, the compiled rule matches only such as have ports, and these lie in
the ranges of the rule. -/
def PortsOnly (user : UserRule) (rule : Rule) : Prop :=
  ∀ packet l2Off p, parsePacket packet l2Off = .ok (some p) →
    ∀ direction ifindex, rule.matches direction ifindex p = true →
      ∃ proto srcPort dstPort, CarriesPorts packet l2Off proto srcPort dstPort ∧
        user.PortsCover srcPort dstPort

/-- The rule tells ports from ids: it names a protocol that has ports, or its two ranges
have no number in common. -/
def UserRule.TellsPorts (user : UserRule) : Prop :=
  user.proto = some .tcp ∨ user.proto = some .udp ∨
    ∃ s t, user.srcPort = some s ∧ user.dstPort = some t ∧
      ∀ port, ¬ (PortCovers s port ∧ PortCovers t port)

/-! ### Rules that tell ports -/

/-- A range that is accepted has its low end in it, and no port 0. -/
theorem portCovers_of_parse {text : String} {ports : UInt16 × UInt16}
    (h : parsePortRange text = .ok ports) : PortCovers text ports.1 ∧ ¬ PortCovers text 0 := by
  obtain ⟨htext, hlo, -, hle⟩ := parsePortRange_ok h
  refine ⟨⟨ports.1, ports.2, htext, UInt16.le_refl _, hle⟩, ?_⟩
  rintro ⟨lo, hi, htext', hzero, -⟩
  obtain ⟨rfl, -⟩ := htext.unique htext'
  exact hlo (UInt16.le_antisymm hzero UInt16.zero_le)

theorem portCovers_of_opt {text : Option String} {ports : UInt16 × UInt16}
    (h : parsePortsOpt text = .ok ports) {t : String} (ht : text = some t) :
    (∃ port, PortCovers t port) ∧ ¬ PortCovers t 0 := by
  subst ht
  obtain ⟨hlow, hzero⟩ := portCovers_of_parse (show parsePortRange t = .ok ports from h)
  exact ⟨⟨_, hlow⟩, hzero⟩

section Rule
variable {user : UserRule} {i : UInt32} {rule : Rule}

theorem portsOnly_of_tellsPorts (hbuild : buildWireRule user i = .ok rule)
    (hport : user.srcPort.isSome ∨ user.dstPort.isSome) (htells : user.TellsPorts) :
    PortsOnly user rule := by
  obtain ⟨-, -, -, srcPorts, dstPorts, -, -, -, hsrcPorts, hdstPorts, -, -⟩ :=
    buildWireRule_ok hbuild
  intro packet l2Off p hparse direction ifindex hmatches
  obtain ⟨-, -, hproto, hsrc, hdst, -, -⟩ :=
    (matches_iff_of_buildWireRule hbuild direction ifindex _).mp hmatches
  rcases portFields_cases hparse with ⟨proto, hcarries⟩ | ⟨hsrcZero, hdstZero⟩ | ⟨htcp, hudp, hid⟩
  · exact ⟨proto, _, _, hcarries, hsrc, hdst⟩
  · -- a rule with a port does not match port 0
    rcases hport with hsome | hsome
    · obtain ⟨t, ht⟩ := Option.isSome_iff_exists.mp hsome
      exact absurd (hsrcZero ▸ hsrc t ht) (portCovers_of_opt hsrcPorts ht).2
    · obtain ⟨t, ht⟩ := Option.isSome_iff_exists.mp hsome
      exact absurd (hdstZero ▸ hdst t ht) (portCovers_of_opt hdstPorts ht).2
  · rcases htells with htells | htells | ⟨s, t, hs, ht, hdisjoint⟩
    · rw [htells] at hproto
      rcases hproto with hany | hproto
      · cases hany
      · exact absurd hproto.symm htcp
    · rw [htells] at hproto
      rcases hproto with hany | hproto
      · cases hany
      · exact absurd hproto.symm hudp
    · exact absurd ⟨hid ▸ hsrc s hs, hdst t ht⟩ (hdisjoint _)

/-! ### Rules that do not -/

/-- A number that both ports of the rule may have. -/
theorem exists_common_port (hbuild : buildWireRule user i = .ok rule)
    (hport : user.srcPort.isSome ∨ user.dstPort.isSome) (htells : ¬ user.TellsPorts) :
    ∃ id, user.PortsCover id id := by
  obtain ⟨-, -, -, srcPorts, dstPorts, -, -, -, hsrcPorts, hdstPorts, -, -⟩ :=
    buildWireRule_ok hbuild
  unfold UserRule.PortsCover
  cases hsrc : user.srcPort with
  | none =>
    cases hdst : user.dstPort with
    | none => simp [hsrc, hdst] at hport
    | some t =>
      obtain ⟨id, hid⟩ := (portCovers_of_opt hdstPorts hdst).1
      exact ⟨id, by simp, by simpa using hid⟩
  | some s =>
    cases hdst : user.dstPort with
    | none =>
      obtain ⟨id, hid⟩ := (portCovers_of_opt hsrcPorts hsrc).1
      exact ⟨id, by simpa using hid, by simp⟩
    | some t =>
      by_contra hnone
      refine htells (Or.inr (Or.inr ⟨s, t, hsrc, hdst, fun id hid => hnone ⟨id, ?_⟩⟩))
      exact ⟨by simpa using hid.1, by simpa using hid.2⟩

/-- It names no protocol: one of those without ports may not have any. -/
theorem protoByte_any (hbuild : buildWireRule user i = .ok rule)
    (hport : user.srcPort.isSome ∨ user.dstPort.isSome) (htells : ¬ user.TellsPorts) :
    protoByte user.proto = protoAny := by
  obtain ⟨-, -, -, -, -, -, -, -, -, -, hicmp, -⟩ := buildWireRule_ok hbuild
  rcases hproto : user.proto with _ | proto
  · rfl
  · cases proto with
    | any => rfl
    | tcp => exact absurd (Or.inl hproto) htells
    | udp => exact absurd (Or.inr (Or.inl hproto)) htells
    | icmp => exact absurd ⟨hproto, hport⟩ hicmp

/-! ### The message they take for port traffic -/

theorem V4Addr.bit_ofAddr (addr : Addr) {k : Nat} (hk : k < 32) :
    bit (V4Addr.ofAddr addr).padded.toList k = bit addr.toList k := by
  have hbyte : k / 8 = 0 ∨ k / 8 = 1 ∨ k / 8 = 2 ∨ k / 8 = 3 := by omega
  unfold bit
  rcases hbyte with hbyte | hbyte | hbyte | hbyte <;>
    simp [hbyte, V4Addr.ofAddr, V4Addr.padded, addrV4]

/-- An echo request over this version of IP, with its addresses and its id. -/
def echoRequest (isV6 : Bool) (src dst : Addr) (id : UInt16) : Network :=
  if isV6 then
    .v6 { classHigh := 0, classFlow := Vector.replicate 3 0, payloadLen := 8, hopLimit := 64,
          src := src, dst := dst }
      ⟨[], Nat.zero_le _, Nat.zero_le _⟩ (.icmp 128 0 0 id 0)
  else
    .v4 { synHeader with totalLen := 28, src := V4Addr.ofAddr src, dst := V4Addr.ofAddr dst }
      (.initial (.icmp 8 0 0 id 0))

section Echo
variable (isV6 : Bool) (src dst : Addr) (id : UInt16)

theorem echoRequest_eq : echoRequest isV6 src dst id =
    plainPacket isV6 src dst 8 (.icmp (if isV6 then 128 else 8) 0 0 id 0) := by
  cases isV6 <;> rfl

/-- It begins with an IP header, behind which the payload is ICMP. -/
theorem echoRequest_payload (trailing : List UInt8) :
    IpAt ((echoRequest isV6 src dst id).bytes ++ trailing) 0 isV6 0 ∧
      ∃ off, PayloadAt ((echoRequest isV6 src dst id).bytes ++ trailing) 0 isV6
        (icmpNumber isV6) off := by
  rw [echoRequest_eq]
  exact ⟨plainPacket_ip .., plainPacket_payload ..⟩

theorem echoRequest_not_carriesPorts (trailing : List UInt8) {proto : Protocol}
    {srcPort dstPort : UInt16} :
    ¬ CarriesPorts ((echoRequest isV6 src dst id).bytes ++ trailing) 0 proto srcPort dstPort := by
  rintro ⟨htransport, isV6', ipOff, off, hip, hpayload, -, -⟩
  obtain ⟨hecho, off', hicmp⟩ := echoRequest_payload isV6 src dst id trailing
  obtain ⟨rfl, rfl⟩ := hip.unique hecho
  obtain ⟨hproto, -⟩ := hpayload.unique hicmp
  obtain ⟨htcp, hudp⟩ := icmpNumber_ne isV6'
  rcases htransport with rfl | rfl
  · exact htcp hproto.symm
  · exact hudp hproto.symm

theorem echoRequest_parsed :
    (echoRequest isV6 src dst id).parsed.srcPort = id ∧
      (echoRequest isV6 src dst id).parsed.dstPort = id ∧
      (echoRequest isV6 src dst id).parsed.family = if isV6 then familyV6 else familyV4 := by
  cases isV6 <;> exact ⟨rfl, rfl, rfl⟩

/-- The addresses show, as far as a prefix of the family may reach. -/
theorem echoRequest_addresses {k : Nat} (hk : isV6 = false → k < 32) :
    bit (echoRequest isV6 src dst id).parsed.srcAddr.toList k = bit src.toList k ∧
      bit (echoRequest isV6 src dst id).parsed.dstAddr.toList k = bit dst.toList k := by
  cases isV6 with
  | false => exact ⟨V4Addr.bit_ofAddr src (hk rfl), V4Addr.bit_ofAddr dst (hk rfl)⟩
  | true => exact ⟨rfl, rfl⟩

end Echo

/-- A text admits the address it is for. -/
theorem admits_of_bits {text : Option String} {parsed : Option IpCidr}
    (h : parseCidrOpt text = .ok parsed) {isV6 : Bool}
    (hfamily : ∀ c, parsed = some c → c.family = if isV6 then familyV6 else familyV4) {addr : Addr}
    (hbits : ∀ k, (isV6 = false → k < 32) →
      bit addr.toList k = bit (parsed.getD IpCidr.anyV4).addr.toList k) :
    ∀ t, text = some t →
      AddressAdmits t (if isV6 then familyV6 else familyV4) addr.toList := by
  intro t ht
  obtain ⟨cidr, rfl, hcidr⟩ := parseCidrOpt_some h ht
  obtain ⟨-, -, -, -, hrange, -⟩ := parseCidr_cidr hcidr
  have hcidrFamily := hfamily cidr rfl
  rw [← cidrContains_iff_admits hcidr, cidrContains_iff hrange]
  refine Or.inr ⟨hcidrFamily, fun k hk => (hbits k ?_).symm⟩
  rintro rfl
  rcases hrange with ⟨-, hlen⟩ | ⟨hv6, -⟩
  · omega
  · cases hcidrFamily.symm.trans hv6

/-- An echo request between addresses of the rule. -/
theorem exists_echoRequest (hbuild : buildWireRule user i = .ok rule) (id : UInt16) :
    ∃ isV6 src dst,
      (∀ t, user.src = some t →
        AddressAdmits t (echoRequest isV6 src dst id).parsed.family
          (echoRequest isV6 src dst id).parsed.srcAddr.toList) ∧
      ∀ t, user.dst = some t →
        AddressAdmits t (echoRequest isV6 src dst id).parsed.family
          (echoRequest isV6 src dst id).parsed.dstAddr.toList := by
  obtain ⟨src, dst, family, -, -, hsrc, hdst, hruleFamily, -⟩ := buildWireRule_ok hbuild
  obtain ⟨hgiven, hnone⟩ := ruleFamily_ok hruleFamily
  have hfamily : ∃ isV6 : Bool, family = if isV6 then familyV6 else familyV4 := by
    have hcidr : ∀ {text parsed c}, parseCidrOpt text = .ok parsed → parsed = some c →
        c.family = family → ∃ isV6 : Bool, family = if isV6 then familyV6 else familyV4 := by
      intro text parsed c htext hparsed hc
      cases text with
      | none =>
        cases htext
        cases hparsed
      | some t =>
        obtain ⟨cidr, hcidr, hparse⟩ := parseCidrOpt_some htext rfl
        cases hparsed.symm.trans hcidr
        obtain ⟨-, -, -, -, ⟨hv4, -⟩ | ⟨hv6, -⟩, -⟩ := parseCidr_cidr hparse
        · exact ⟨false, hc.symm.trans hv4⟩
        · exact ⟨true, hc.symm.trans hv6⟩
    cases hs : src with
    | some c => exact hcidr hsrc hs (hgiven c (Or.inl hs))
    | none =>
      cases hd : dst with
      | some c => exact hcidr hdst hd (hgiven c (Or.inr hd))
      | none => exact ⟨false, hnone hs hd⟩
  obtain ⟨isV6, rfl⟩ := hfamily
  refine ⟨isV6, (src.getD IpCidr.anyV4).addr, (dst.getD IpCidr.anyV4).addr, ?_⟩
  rw [(echoRequest_parsed isV6 _ _ id).2.2]
  exact ⟨admits_of_bits hsrc (fun c hc => hgiven c (Or.inl hc))
      fun k hk => (echoRequest_addresses isV6 _ _ id hk).1,
    admits_of_bits hdst (fun c hc => hgiven c (Or.inr hc))
      fun k hk => (echoRequest_addresses isV6 _ _ id hk).2⟩

theorem not_portsOnly (hbuild : buildWireRule user i = .ok rule)
    (hport : user.srcPort.isSome ∨ user.dstPort.isSome) (htells : ¬ user.TellsPorts) :
    ¬ PortsOnly user rule := by
  intro honly
  obtain ⟨id, hid⟩ := exists_common_port hbuild hport htells
  obtain ⟨isV6, src, dst, hsrc, hdst⟩ := exists_echoRequest hbuild id
  obtain ⟨hsrcPort, hdstPort, -⟩ := echoRequest_parsed isV6 src dst id
  have hmatches : rule.matches (directionByte user.direction) i
      (echoRequest isV6 src dst id).parsed = true := by
    rw [matches_iff_of_buildWireRule hbuild, hsrcPort, hdstPort]
    exact ⟨rfl, Or.inr rfl, Or.inl (protoByte_any hbuild hport htells), hid.1, hid.2, hsrc, hdst⟩
  let f : Frame := ⟨.raw, .plain (echoRequest isV6 src dst id), []⟩
  obtain ⟨proto, srcPort, dstPort, hcarries, -⟩ := honly f.bytes 0 _ (f.parsePacket_eq rfl) _ _
    hmatches
  exact echoRequest_not_carriesPorts isV6 src dst id [] hcarries

/-- **When a rule with a port is about ports**: exactly if it tells ports from ids. -/
theorem portsOnly_iff (hbuild : buildWireRule user i = .ok rule)
    (hport : user.srcPort.isSome ∨ user.dstPort.isSome) :
    PortsOnly user rule ↔ user.TellsPorts := by
  constructor
  · intro honly
    by_contra htells
    exact not_portsOnly hbuild hport htells honly
  · exact portsOnly_of_tellsPorts hbuild hport

end Rule

theorem sshRule_portsOnly :
    ∃ rule, buildWireRule sshRule ifaceAny = .ok rule ∧ PortsOnly sshRule rule := by
  obtain ⟨rule, hbuild⟩ := (UserRule.compiles_iff ifaceAny).mp sshRule_compiles
  exact ⟨rule, hbuild, (portsOnly_iff hbuild (Or.inr rfl)).mpr (Or.inl rfl)⟩

/-- `moatd allow 22`. -/
def port22Rule : UserRule := { direction := .inbound, action := .allow, dstPort := some "22" }

/-- A ping whose id is 22. -/
def ping22 : Frame where
  l2 := .raw
  packet := .plain (echoRequest false (Addr.ofList [10, 0, 0, 1]) (Addr.ofList [10, 0, 0, 2]) 22)
  trailing := []

/-- The port rule lets the ping in. -/
theorem port22Rule_matches_ping :
    ∃ rule, buildWireRule port22Rule ifaceAny = .ok rule ∧
      parsePacket ping22.bytes 0 = .ok (some ping22.packet.parsed) ∧
      rule.matches dirIn 1 ping22.packet.parsed = true ∧
      ∀ proto srcPort dstPort, ¬ CarriesPorts ping22.bytes 0 proto srcPort dstPort :=
  ⟨_, rfl, ping22.parsePacket_eq rfl, by decide, fun _ _ _ =>
    echoRequest_not_carriesPorts false _ _ 22 []⟩

end Moatd
