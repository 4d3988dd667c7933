import Moatd.PacketParse
import Moatd.RuleText
import Moatd.Samples
import Moatd.Sysfs

/-!
# What a rule means

A user's rule says which packets it is about in words: a direction, an interface, a
protocol, address texts and port texts (`UserRule.Covers`).  Its compiled form says it in
numbers, some of which stand for "none given".  For TCP and UDP packets the two agree.
What they differ in is an address text of prefix length 0: it compiles to the number for
"none given", so the family it names is lost.
-/

namespace Moatd

open Bits

/-! ### Texts and packets -/

/-- The address text covers this address: its family, and as many bits as its prefix
length says. -/
def AddressCovers (text : String) (family : UInt8) (octets : List UInt8) : Prop :=
  ∃ addr n, CidrText text addr n ∧ addr.family = family ∧ SamePrefix n addr.octets octets

/-- What the wire format keeps of that: under prefix length 0 nothing. -/
def AddressAdmits (text : String) (family : UInt8) (octets : List UInt8) : Prop :=
  ∃ addr n, CidrText text addr n ∧
    (n = 0 ∨ (addr.family = family ∧ SamePrefix n addr.octets octets))

/-- The port is in the range that the text denotes. -/
def PortCovers (text : String) (port : UInt16) : Prop :=
  ∃ lo hi, PortText text lo hi ∧ lo ≤ port ∧ port ≤ hi

theorem AddressCovers.admits {text : String} {family : UInt8} {octets : List UInt8}
    (h : AddressCovers text family octets) : AddressAdmits text family octets := by
  obtain ⟨addr, n, htext, hcovers⟩ := h
  exact ⟨addr, n, htext, Or.inr hcovers⟩

/-- With a prefix length of at least 1 nothing is lost. -/
theorem addressAdmits_iff_covers {text : String} {family : UInt8} {octets : List UInt8}
    (hplen : ∀ addr n, CidrText text addr n → 1 ≤ n) :
    AddressAdmits text family octets ↔ AddressCovers text family octets := by
  refine ⟨?_, AddressCovers.admits⟩
  rintro ⟨addr, n, htext, rfl | hcovers⟩
  · exact absurd (hplen addr 0 htext) (by decide)
  · exact ⟨addr, n, htext, hcovers⟩

/-! ### The compiled fields -/

theorem bit_ofList (octets : List UInt8) {i : Nat} (hi : i < 128) :
    bit (Addr.ofList octets).toList i = bit octets i := by
  have hbyte : (Addr.ofList octets).toList[i / 8]? = some (octets[i / 8]?.getD 0) := by
    have hlt : i / 8 < 16 := by omega
    simp [Addr.ofList, hlt]
  rw [bit, bit, hbyte]
  rfl

theorem IpAddr.cidr_inRange {s : List Char} {addr : IpAddr} (h : ipAddrFromStr s = some addr)
    {n : Nat} (hn : n ≤ addr.width) :
    (addr.cidr n).InRange ∧ (addr.cidr n).prefixLen.toNat = n := by
  have hwidth := addr.width_le
  have hlen : (addr.cidr n).prefixLen.toNat = n := by
    change (UInt8.ofNat n).toNat = n
    rw [UInt8.toNat_ofNat']
    omega
  refine ⟨?_, hlen⟩
  unfold IpCidr.InRange
  rw [hlen]
  rcases ipAddrFromStr_family h with hfamily | hfamily
  · left
    refine ⟨hfamily, ?_⟩
    rwa [IpAddr.width, hfamily] at hn
  · right
    refine ⟨hfamily, ?_⟩
    rwa [IpAddr.width, hfamily] at hn

/-- What an address text compiles to. -/
theorem parseCidr_cidr {text : String} {cidr : IpCidr} (h : parseCidr text = .ok cidr) :
    ∃ addr n, CidrText text addr n ∧ cidr = addr.cidr n ∧ cidr.InRange ∧
      cidr.prefixLen.toNat = n := by
  obtain ⟨addr, n, htext, hn, rfl⟩ := parseCidr_ok h
  have hfrom : ∃ s, ipAddrFromStr s = some addr := by
    cases htext with
    | host _ haddr => exact ⟨_, haddr⟩
    | net _ _ haddr => exact ⟨_, haddr⟩
  obtain ⟨s, hs⟩ := hfrom
  obtain ⟨hrange, hlen⟩ := IpAddr.cidr_inRange hs hn
  exact ⟨addr, n, htext, rfl, hrange, hlen⟩

/-- **What a compiled address compares with is what its text covers**, short of prefix
length 0. -/
theorem cidrContains_iff_admits {text : String} {cidr : IpCidr} (h : parseCidr text = .ok cidr)
    (addr : Addr) (family : UInt8) :
    cidrContains cidr addr family = true ↔ AddressAdmits text family addr.toList := by
  obtain ⟨ip, n, htext, rfl, hrange, hlen⟩ := parseCidr_cidr h
  have hwidth : n ≤ 128 := by
    rcases hrange with ⟨-, hn⟩ | ⟨-, hn⟩ <;> omega
  have hzero : (ip.cidr n).prefixLen = 0 ↔ n = 0 := by
    rw [← UInt8.toNat_inj, hlen]
    rfl
  have hsame : SamePrefix n (ip.cidr n).addr.toList addr.toList ↔
      SamePrefix n ip.octets addr.toList := by
    refine forall_congr' fun i => imp_congr_right fun hi => ?_
    rw [← bit_ofList ip.octets (show i < 128 by omega)]
    rfl
  rw [cidrContains_iff hrange, hzero, hlen, hsame]
  constructor
  · exact fun h => ⟨ip, n, htext, h⟩
  · rintro ⟨ip', n', htext', h⟩
    obtain ⟨rfl, rfl⟩ := htext.unique htext'
    exact h

/-- A port matches where its text covers it. -/
theorem portMatches_iff_covers {text : String} {ports : UInt16 × UInt16}
    (h : parsePortRange text = .ok ports) (port : UInt16) :
    portMatches ports.1 ports.2 port ↔ PortCovers text port := by
  obtain ⟨htext, -, hmax, -⟩ := parsePortRange_ok h
  rw [portMatches, or_iff_right hmax]
  constructor
  · exact fun hport => ⟨ports.1, ports.2, htext, hport⟩
  · rintro ⟨lo, hi, htext', hport⟩
    obtain ⟨rfl, rfl⟩ := htext.unique htext'
    exact hport

theorem directionByte_inj {d d' : Direction} : directionByte d = directionByte d' ↔ d = d' := by
  cases d <;> cases d' <;> decide

theorem parseCidrOpt_some {text : Option String} {parsed : Option IpCidr}
    (h : parseCidrOpt text = .ok parsed) {t : String} (ht : text = some t) :
    ∃ cidr, parsed = some cidr ∧ parseCidr t = .ok cidr := by
  subst ht
  obtain ⟨cidr, hcidr, rfl⟩ := Fallible.map_eq_ok_iff.mp h
  exact ⟨cidr, rfl, hcidr⟩

/-- One side of the addresses: without a text it matches everything. -/
theorem cidrContains_getD_iff {text : Option String} {parsed : Option IpCidr}
    (h : parseCidrOpt text = .ok parsed) (ruleFamily : UInt8) (addr : Addr) (family : UInt8) :
    cidrContains (parsed.getD (anyCidr ruleFamily)) addr family = true ↔
      ∀ t, text = some t → AddressAdmits t family addr.toList := by
  cases text with
  | none =>
    cases h
    refine iff_of_true ?_ fun t ht => by cases ht
    rw [Option.getD_none, anyCidr]
    split <;> rfl
  | some t =>
    obtain ⟨cidr, rfl, hcidr⟩ := parseCidrOpt_some h rfl
    rw [Option.getD_some, cidrContains_iff_admits hcidr]
    simp

/-- The addresses that are given have one family. -/
theorem ruleFamily_ok {src dst : Option IpCidr} {family : UInt8}
    (h : ruleFamily src dst = .ok family) :
    (∀ c, src = some c ∨ dst = some c → c.family = family) ∧
      (src = none → dst = none → family = familyV4) := by
  cases src with
  | none =>
    cases dst with
    | none =>
      cases h
      exact ⟨by simp, fun _ _ => rfl⟩
    | some b =>
      cases h
      exact ⟨by simp, by simp⟩
  | some a =>
    cases dst with
    | none =>
      cases h
      exact ⟨by simp, by simp⟩
    | some b =>
      rw [ruleFamily] at h
      split at h
      · cases h
      · rename_i hsame
        cases h
        refine ⟨?_, by simp⟩
        rintro c (hc | hc)
        · cases hc
          rfl
        · cases hc
          exact (not_not.mp hsame).symm

theorem portMatches_opt_iff {text : Option String} {ports : UInt16 × UInt16}
    (h : parsePortsOpt text = .ok ports) (port : UInt16) :
    portMatches ports.1 ports.2 port ↔ ∀ t, text = some t → PortCovers t port := by
  cases text with
  | none =>
    cases h
    exact iff_of_true (Or.inl rfl) fun t ht => by cases ht
  | some t =>
    rw [portMatches_iff_covers (show parsePortRange t = .ok ports from h)]
    simp

/-- **What a compiled rule matches**, in the words of the user's rule. -/
theorem matches_iff_of_buildWireRule {user : UserRule} {i : UInt32} {rule : Rule}
    (h : buildWireRule user i = .ok rule) (direction : UInt8) (ifindex : UInt32) (p : Parsed) :
    rule.matches direction ifindex p = true ↔
      directionByte user.direction = direction ∧ (i = ifaceAny ∨ i = ifindex) ∧
      (protoByte user.proto = protoAny ∨ protoByte user.proto = p.protoByte) ∧
      (∀ t, user.srcPort = some t → PortCovers t p.srcPort) ∧
      (∀ t, user.dstPort = some t → PortCovers t p.dstPort) ∧
      (∀ t, user.src = some t → AddressAdmits t p.family p.srcAddr.toList) ∧
      (∀ t, user.dst = some t → AddressAdmits t p.family p.dstAddr.toList) := by
  obtain ⟨src, dst, family, srcPorts, dstPorts, hsrc, hdst, -, hsrcPorts, hdstPorts, -, rfl⟩ :=
    buildWireRule_ok h
  rw [Rule.matches_iff]
  simp only [portMatches_opt_iff hsrcPorts, portMatches_opt_iff hdstPorts,
    cidrContains_getD_iff hsrc, cidrContains_getD_iff hdst]

/-! ### Port traffic -/

/-- The family byte of the packet. -/
def Network.family : Network → UInt8
  | .v4 .. => familyV4
  | .v6 .. => familyV6

/-- The octets of the address. -/
def V4Addr.octets (addr : V4Addr) : List UInt8 := [addr.a, addr.b, addr.c, addr.d]

/-- The octets of the source address. -/
def Network.srcOctets : Network → List UInt8
  | .v4 header _ => header.src.octets
  | .v6 header .. => header.src.toList

/-- The octets of the destination address. -/
def Network.dstOctets : Network → List UInt8
  | .v4 header _ => header.dst.octets
  | .v6 header .. => header.dst.toList

/-- A TCP segment or UDP datagram with these ports, whole or in its first fragment. -/
inductive Network.Carries : Network → Protocol → UInt16 → UInt16 → Prop
  | v4Tcp (header : V4Header) (srcPort dstPort : UInt16) :
    Carries (.v4 header (.initial (.tcp srcPort dstPort))) .tcp srcPort dstPort
  | v4Udp (header : V4Header) (srcPort dstPort : UInt16) :
    Carries (.v4 header (.initial (.udp srcPort dstPort))) .udp srcPort dstPort
  | v6Tcp (header : V6Header) (chain : ExtChain) (srcPort dstPort : UInt16) :
    Carries (.v6 header chain (.tcp srcPort dstPort)) .tcp srcPort dstPort
  | v6Udp (header : V6Header) (chain : ExtChain) (srcPort dstPort : UInt16) :
    Carries (.v6 header chain (.udp srcPort dstPort)) .udp srcPort dstPort

/-- The rule is about these packets: TCP or UDP packets that arrive in this direction on
interface `ifindex`, while the rule's own interface has the number `resolved`. -/
structure UserRule.Covers (user : UserRule) (resolved : UInt32) (direction : Direction)
    (ifindex : UInt32) (network : Network) (proto : Protocol) (srcPort dstPort : UInt16) :
    Prop where
  direction : user.direction = direction
  iface : user.iface = none ∨ ifindex = resolved
  proto : user.proto = none ∨ user.proto = some .any ∨ user.proto = some proto
  src : ∀ t, user.src = some t → AddressCovers t network.family network.srcOctets
  dst : ∀ t, user.dst = some t → AddressCovers t network.family network.dstOctets
  srcPort : ∀ t, user.srcPort = some t → PortCovers t srcPort
  dstPort : ∀ t, user.dstPort = some t → PortCovers t dstPort

/-- No interface has the number 0, which the kernel keeps for "none". -/
def SysNet.Numbered (net : SysNet) : Prop :=
  ∀ name dir, net.lookup name = some dir → dir.index ≠ some 0

section Packets
variable (network : Network)

theorem Network.parsed_family : network.parsed.family = network.family := by
  cases network with
  | v4 header content => cases content <;> rfl
  | v6 => rfl

theorem V4Addr.bit_padded (addr : V4Addr) (i : Nat) :
    bit addr.padded.toList i = bit addr.octets i :=
  bit_append_zeros addr.octets 12 i

theorem Network.bit_srcAddr (i : Nat) :
    bit network.parsed.srcAddr.toList i = bit network.srcOctets i := by
  cases network with
  | v4 header content => cases content <;> exact header.src.bit_padded i
  | v6 => rfl

theorem Network.bit_dstAddr (i : Nat) :
    bit network.parsed.dstAddr.toList i = bit network.dstOctets i := by
  cases network with
  | v4 header content => cases content <;> exact header.dst.bit_padded i
  | v6 => rfl

end Packets

theorem addressAdmits_congr {octets octets' : List UInt8} (h : ∀ i, bit octets i = bit octets' i)
    (text : String) (family : UInt8) :
    AddressAdmits text family octets ↔ AddressAdmits text family octets' := by
  unfold AddressAdmits SamePrefix
  simp only [h]

theorem Network.Carries.parsed_ports {network : Network} {proto : Protocol}
    {srcPort dstPort : UInt16} (h : network.Carries proto srcPort dstPort) :
    network.parsed.protoByte = protoByte (some proto) ∧ network.parsed.srcPort = srcPort ∧
      network.parsed.dstPort = dstPort ∧ (proto = .tcp ∨ proto = .udp) := by
  cases h with
  | v4Tcp | v6Tcp => exact ⟨rfl, rfl, rfl, Or.inl rfl⟩
  | v4Udp | v6Udp => exact ⟨rfl, rfl, rfl, Or.inr rfl⟩

theorem protoByte_matches_iff (ruleProto : Option Protocol) {proto : Protocol}
    (h : proto = .tcp ∨ proto = .udp) :
    (protoByte ruleProto = protoAny ∨ protoByte ruleProto = protoByte (some proto)) ↔
      (ruleProto = none ∨ ruleProto = some .any ∨ ruleProto = some proto) := by
  rcases h with rfl | rfl <;> rcases ruleProto with _ | ruleProto
  · decide
  · cases ruleProto <;> decide
  · decide
  · cases ruleProto <;> decide

theorem resolveIface_matches_iff {net : SysNet} (hnet : net.Numbered) (iface : Option String)
    (ifindex : UInt32) :
    (resolveIface net iface = ifaceAny ∨ resolveIface net iface = ifindex) ↔
      (iface = none ∨ ifindex = resolveIface net iface) := by
  cases iface with
  | none => simp [resolveIface]
  | some name =>
    have hsome : resolveIface net (some name) ≠ ifaceAny := by
      have habsent : ifaceAbsent ≠ ifaceAny := by decide
      rw [resolveIface]
      cases hdir : net.lookup name with
      | none => exact habsent
      | some dir =>
        dsimp only
        split
        · cases hidx : dir.index with
          | none => exact habsent
          | some idx =>
            have hnumbered := hnet name dir hdir
            rw [hidx] at hnumbered
            exact fun h => hnumbered (congrArg some h)
        · exact habsent
    rw [or_iff_right hsome]
    simp [eq_comm]

/-- **Compilation preserves what a rule means for port traffic.**  The compiled rule
matches a TCP or UDP packet, under any encapsulation, exactly if the user's rule is about
it. -/
theorem matches_iff_covers {net : SysNet} (hnet : net.Numbered) {user : UserRule} {rule : Rule}
    (hbuild : buildWireRule user (resolveIface net user.iface) = .ok rule)
    (hplen : ∀ t, user.src = some t ∨ user.dst = some t → ∀ addr n, CidrText t addr n → 1 ≤ n)
    (d : PacketDesc) {l2Off : Nat} (hl2 : d.l2.At l2Off) {proto : Protocol}
    {srcPort dstPort : UInt16} (hcarries : d.network.Carries proto srcPort dstPort)
    (direction : Direction) (ifindex : UInt32) :
    ∃ p, parsePacket d.bytes l2Off = .ok (some p) ∧
      (rule.matches (directionByte direction) ifindex p = true ↔
        user.Covers (resolveIface net user.iface) direction ifindex d.network proto srcPort
          dstPort) := by
  refine ⟨d.network.parsed, parsePacket_layout d.l2 d.network d.trailing hl2, ?_⟩
  obtain ⟨hproto, hsrcPort, hdstPort, htransport⟩ := hcarries.parsed_ports
  have hsrc : ∀ t, user.src = some t →
      (AddressAdmits t d.network.parsed.family d.network.parsed.srcAddr.toList ↔
        AddressCovers t d.network.family d.network.srcOctets) := by
    intro t ht
    rw [addressAdmits_congr d.network.bit_srcAddr, d.network.parsed_family]
    exact addressAdmits_iff_covers (hplen t (Or.inl ht))
  have hdst : ∀ t, user.dst = some t →
      (AddressAdmits t d.network.parsed.family d.network.parsed.dstAddr.toList ↔
        AddressCovers t d.network.family d.network.dstOctets) := by
    intro t ht
    rw [addressAdmits_congr d.network.bit_dstAddr, d.network.parsed_family]
    exact addressAdmits_iff_covers (hplen t (Or.inr ht))
  rw [matches_iff_of_buildWireRule hbuild, directionByte_inj, resolveIface_matches_iff hnet, hproto,
    protoByte_matches_iff user.proto htransport, hsrcPort, hdstPort]
  constructor
  · rintro ⟨hdirection, hiface, hp, hsp, hdp, hs, hd⟩
    exact ⟨hdirection, hiface, hp, fun t ht => (hsrc t ht).mp (hs t ht),
      fun t ht => (hdst t ht).mp (hd t ht), hsp, hdp⟩
  · rintro ⟨hdirection, hiface, hp, hs, hd, hsp, hdp⟩
    exact ⟨hdirection, hiface, hp, hsp, hdp, fun t ht => (hsrc t ht).mpr (hs t ht),
      fun t ht => (hdst t ht).mpr (hd t ht)⟩

/-- `moatd allow from 10.0.0.0/8 to any port 22/tcp`. -/
def privateSsh : UserRule := { sshRule with src := some "10.0.0.0/8" }

theorem privateSsh_text : CidrText "10.0.0.0/8" ⟨familyV4, [10, 0, 0, 0]⟩ (8 : UInt8).toNat :=
  .net (show "10.0.0.0/8".toList = "10.0.0.0".toList ++ '/' :: ['8'] by decide) (by decide)
    (by rfl) (by rfl) (by decide)

theorem privateSsh_matches :
    ∃ rule p, buildWireRule privateSsh (resolveIface [] privateSsh.iface) = .ok rule ∧
      parsePacket taggedSsh.bytes 14 = .ok (some p) ∧
      (rule.matches dirIn 3 p = true ↔
        privateSsh.Covers (resolveIface [] privateSsh.iface) .inbound 3 taggedSsh.network .tcp
          40000 22) := by
  have hcompiles : privateSsh.compiles = true := by decide
  obtain ⟨rule, hbuild⟩ := (UserRule.compiles_iff (resolveIface [] privateSsh.iface)).mp hcompiles
  have hnumbered : SysNet.Numbered [] := fun name dir h => by cases h
  have hplen : ∀ t, privateSsh.src = some t ∨ privateSsh.dst = some t →
      ∀ addr n, CidrText t addr n → 1 ≤ n := by
    rintro t (ht | ht) addr n htext
    · cases ht
      obtain ⟨-, rfl⟩ := htext.unique privateSsh_text
      decide
    · cases ht
  obtain ⟨p, hparse, hiff⟩ := matches_iff_covers hnumbered hbuild hplen taggedSsh
    (show (14 : Nat) ≠ 0 by decide) (Network.Carries.v4Tcp _ 40000 22) .inbound 3
  exact ⟨rule, p, hbuild, hparse, hiff⟩

end Moatd
