import Moatd.AddressText
import Moatd.ControlFrames
import Moatd.PortFields
import Moatd.RuleGrammar
import Moatd.RuleMeaning

/-!
# Blocking a source by its line in the log

The address that a line of the block log shows is one that the rule spec grammar reads.  A
rule from it matches the packets with that source address, and no others: not one that
shares a prefix of it, and not one of the other family.
-/

namespace Moatd

open Bits

/-! ### Addresses as parsed -/

/-- Behind an IPv4 address there are zeros. -/
structure Padded (family : UInt8) (addr : Addr) : Prop where
  known : family = familyV4 ∨ family = familyV6
  zeros : family = familyV4 → ∀ k, 4 ≤ k → addr.toList[k]?.getD 0 = 0

theorem addressAt_zeros (packet : List UInt8) (off : Nat) {k : Nat} (hk : 4 ≤ k) :
    (addressAt packet off 4).toList[k]?.getD 0 = 0 := by
  by_cases hlt : k < 16
  · simp [addressAt, hlt, Nat.not_lt.mpr hk]
  · rw [List.getElem?_eq_none (by simpa using hlt)]
    rfl

theorem padded_srcAddr {packet : List UInt8} {l2Off : Nat} {p : Parsed}
    (h : parsePacket packet l2Off = .ok (some p)) : Padded p.family p.srcAddr := by
  obtain ⟨isV6, ipOff, -, hparse⟩ := parsePacket_ok h
  obtain ⟨hfamily, hsrc, -⟩ := parseIp_fields hparse
  rw [hfamily, hsrc]
  cases isV6 with
  | false => exact ⟨Or.inl rfl, fun _ k hk => addressAt_zeros packet (ipOff + 12) hk⟩
  | true => exact ⟨Or.inr rfl, fun hv4 => absurd hv4 (by decide)⟩

/-- Addresses that agree byte by byte. -/
theorem Addr.eq_of_getD {addr addr' : Addr}
    (h : ∀ k < 16, addr.toList[k]?.getD 0 = addr'.toList[k]?.getD 0) : addr = addr' := by
  apply Vector.ext
  intro k hk
  simpa [hk] using h k hk

/-- **The printed address admits one address.** -/
theorem addressAdmits_formatAddr {family family' : UInt8} {addr addr' : Addr}
    (h : Padded family addr) (h' : Padded family' addr') :
    AddressAdmits (formatAddr family addr) family' addr'.toList ↔
      family' = family ∧ addr' = addr := by
  have htext := cidrText_formatAddr family addr
  have hadmits : AddressAdmits (formatAddr family addr) family' addr'.toList ↔
      (printedAddr family addr).family = family' ∧
        SamePrefix (printedAddr family addr).width (printedAddr family addr).octets
          addr'.toList := by
    constructor
    · rintro ⟨ip, n, htext', hcovers⟩
      obtain ⟨rfl, rfl⟩ := htext'.unique htext
      refine hcovers.resolve_left ?_
      unfold IpAddr.width
      split <;> decide
    · exact fun hcovers => ⟨_, _, htext, Or.inr hcovers⟩
  rw [hadmits]
  rcases h.known with rfl | rfl
  · rw [printedAddr, if_pos rfl]
    have hbegins : SamePrefix (8 * 4) (addr.toList.take 4) addr'.toList ↔
        ∀ k < 4, (addr.toList.take 4)[k]?.getD 0 = addr'.toList[k]?.getD 0 :=
      samePrefix_bytes_iff
    have hfour : SamePrefix (IpAddr.width ⟨familyV4, addr.toList.take 4⟩) (addr.toList.take 4)
        addr'.toList ↔ ∀ k < 4, addr.toList[k]?.getD 0 = addr'.toList[k]?.getD 0 := by
      refine hbegins.trans (forall_congr' fun k => imp_congr_right fun hk => ?_)
      rw [List.getElem?_take, if_pos hk]
    rw [hfour, eq_comm]
    refine and_congr_right ?_
    rintro rfl
    constructor
    · intro hbytes
      apply Addr.eq_of_getD
      intro k _
      by_cases hk : k < 4
      · exact (hbytes k hk).symm
      · rw [h.zeros rfl k (Nat.not_lt.mp hk), h'.zeros rfl k (Nat.not_lt.mp hk)]
    · rintro rfl k _
      rfl
  · have hv6 : familyV6 ≠ familyV4 := by decide
    rw [printedAddr, if_neg hv6]
    have hbegins : SamePrefix (8 * 16) addr.toList addr'.toList ↔
        ∀ k < 16, addr.toList[k]?.getD 0 = addr'.toList[k]?.getD 0 :=
      samePrefix_bytes_iff
    have hsixteen : SamePrefix (IpAddr.width ⟨familyV6, addr.toList⟩) addr.toList addr'.toList ↔
        ∀ k < 16, addr.toList[k]?.getD 0 = addr'.toList[k]?.getD 0 := hbegins
    rw [hsixteen, eq_comm]
    refine and_congr_right fun _ => ?_
    constructor
    · exact fun hbytes => (Addr.eq_of_getD hbytes).symm
    · rintro rfl k _
      rfl

/-! ### The rule -/

/-- What `moatd deny in from <address>` adds, or `allow`, or `out`. -/
def sourceRule (action : Action) (direction : Direction) (text : String) : UserRule where
  direction
  action
  src := some text

theorem parseRuleSpec_sourceRule (load : String → Except String (Option AppProfile))
    (action : Action) (direction : Direction) {text : String} (htext : text ≠ "any") :
    parseRuleSpec load action [direction.name, "from", text] =
      .ok [sourceRule action direction text] := by
  have hsrc : addrText text none = some text := if_pos htext
  have hread : parseFullGrammar action [direction.name, "from", text] =
      .ok { direction, action, src := addrText text none } := by
    cases direction <;> rfl
  rw [parseRuleSpec_of_two load action (by simp), hread, hsrc]
  rfl

theorem formatAddr_ne_any (family : UInt8) (addr : Addr) : formatAddr family addr ≠ "any" := by
  intro h
  have hread := ipAddrFromStr_formatAddr family addr
  rw [h] at hread
  cases hread

/-- An address alone is read with the prefix length of its family. -/
theorem parseCidr_host {text : String} {addr : IpAddr} (hslash : '/' ∉ text.toList)
    (haddr : ipAddrFromStr text.toList = some addr) : ∃ cidr, parseCidr text = .ok cidr := by
  rw [parseCidr_eq, rsplitOnce_eq_none_iff.mpr hslash]
  unfold ipAddrFromStr at haddr
  dsimp only
  cases hv4 : ipv4FromStr text.toList with
  | some octets => exact ⟨_, rfl⟩
  | none =>
    rw [hv4] at haddr
    obtain ⟨octets, hv6, -⟩ := Option.map_eq_some_iff.mp haddr
    rw [hv6]
    exact ⟨_, rfl⟩

/-- The rule compiles, whichever address it is. -/
theorem sourceRule_builds (action : Action) (direction : Direction) (family : UInt8) (addr : Addr)
    (i : UInt32) :
    ∃ rule, buildWireRule (sourceRule action direction (formatAddr family addr)) i = .ok rule := by
  obtain ⟨cidr, hcidr⟩ := parseCidr_host (slash_not_mem_formatAddr family addr)
    (ipAddrFromStr_formatAddr family addr)
  have hsrc : parseCidrOpt (some (formatAddr family addr)) = .ok (some cidr) := by
    rw [parseCidrOpt, hcidr]
    rfl
  unfold buildWireRule sourceRule
  rw [hsrc]
  exact ⟨_, rfl⟩

/-- **A logged source can be blocked as it is printed.**  The address of the packet, as the
block log prints it, is read behind `from`.  The rule compiles, and what it matches are
the packets of its direction with the same source address. -/
theorem block_source (load : String → Except String (Option AppProfile)) (action : Action)
    (direction : Direction) {packet : List UInt8} {l2Off : Nat} {p : Parsed}
    (hparse : parsePacket packet l2Off = .ok (some p)) :
    ∃ user, parseRuleSpec load action
          [direction.name, "from", formatAddr p.family p.srcAddr] = .ok [user] ∧
      user.action = action ∧
      ∀ net : SysNet, ∃ rule, buildWireRule user (resolveIface net user.iface) = .ok rule ∧
        ∀ (direction' : Direction) (ifindex : UInt32) (packet' : List UInt8) (l2Off' : Nat)
          (p' : Parsed), parsePacket packet' l2Off' = .ok (some p') →
          (rule.matches (directionByte direction') ifindex p' = true ↔
            direction' = direction ∧ p'.family = p.family ∧ p'.srcAddr = p.srcAddr) := by
  refine ⟨_, parseRuleSpec_sourceRule load action direction (formatAddr_ne_any _ _), rfl, ?_⟩
  intro net
  obtain ⟨rule, hbuild⟩ := sourceRule_builds action direction p.family p.srcAddr
    (resolveIface net none)
  refine ⟨rule, hbuild, fun direction' ifindex packet' l2Off' p' hparse' => ?_⟩
  rw [matches_iff_of_buildWireRule hbuild, directionByte_inj]
  have hadmits := addressAdmits_formatAddr (padded_srcAddr hparse) (padded_srcAddr hparse')
  constructor
  · rintro ⟨hdirection, -, -, -, -, hsrc, -⟩
    exact ⟨hdirection.symm, hadmits.mp (hsrc _ rfl)⟩
  · rintro ⟨rfl, hsrc⟩
    refine ⟨rfl, Or.inl rfl, Or.inl rfl, nofun, nofun, ?_, nofun⟩
    rintro t ht
    cases ht
    exact hadmits.mpr hsrc

theorem taggedSsh_srcAddr_blocked :
    formatAddr taggedSsh.parsed.family taggedSsh.parsed.srcAddr = "10.0.0.1" ∧
      ∃ user, parseRuleSpec noProfiles .deny
          ["in", "from", formatAddr taggedSsh.parsed.family taggedSsh.parsed.srcAddr] =
            .ok [user] ∧
        user.action = .deny ∧
        ∀ net : SysNet, ∃ rule, buildWireRule user (resolveIface net user.iface) = .ok rule ∧
          ∀ (direction : Direction) (ifindex : UInt32) (packet : List UInt8) (l2Off : Nat)
            (p : Parsed), parsePacket packet l2Off = .ok (some p) →
            (rule.matches (directionByte direction) ifindex p = true ↔
              direction = .inbound ∧ p.family = taggedSsh.parsed.family ∧
                p.srcAddr = taggedSsh.parsed.srcAddr) := by
  have hparse : parsePacket taggedSsh.bytes 14 = .ok (some taggedSsh.parsed) :=
    parsePacket_layout taggedSsh.l2 taggedSsh.network taggedSsh.trailing
      (show (14 : Nat) ≠ 0 by decide)
  exact ⟨by decide +kernel, block_source noProfiles .deny .inbound hparse⟩

end Moatd
