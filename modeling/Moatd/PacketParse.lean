import Moatd.PacketFormat

/-!
# Parsing what was laid out

`parse_packet` reads back every packet of the format, whatever surrounds its fields.
Each parser is treated once, at the end of an arbitrary prefix of the packet, so that
the layers compose.
-/

namespace Moatd

open Bytes

/-! ### Reading one record -/

/-- The record of this size that lies behind `pre`. -/
theorem ptrAtData_layout {size : Nat} (pre : List UInt8) (record : Vector UInt8 size)
    (post : List UInt8) {packet : List UInt8} {offset : Nat}
    (hpacket : packet = pre ++ (record.toList ++ post)) (hoffset : offset = pre.length) :
    ptrAtData size packet offset = .ok record := by
  rw [ptrAtData, hpacket, hoffset, slice_layout]

theorem ethertypeAt_layout (pre : List UInt8) (ethertype : UInt16) (post : List UInt8)
    {packet : List UInt8} {off : Nat}
    (hpacket : packet = pre ++ (hi16 ethertype :: lo16 ethertype :: post))
    (hoff : off = pre.length) : ethertypeAt packet off = .ok ethertype := by
  have hread := ptrAtData_layout pre #v[hi16 ethertype, lo16 ethertype] post
    (by simpa using hpacket) hoff
  simp only [ethertypeAt, hread, bind, Except.bind, pure, Except.pure]
  simp

/-! ### The upper layer -/

theorem icmpNumber_ne (isV6 : Bool) : icmpNumber isV6 ≠ protoTcp ∧ icmpNumber isV6 ≠ protoUdp := by
  cases isV6 <;> decide

theorem normalizeProto_eq_keptProto (proto : UInt8) (isV6 : Bool) :
    normalizeProto proto isV6 = keptProto isV6 proto := by
  unfold normalizeProto keptProto icmpNumber
  cases isV6 <;> simp only [Bool.false_eq_true, if_false, if_true, and_true, and_false,
    reduceCtorEq] <;> split_ifs <;> simp_all

theorem readPorts_layout (pre : List UInt8) (srcPort dstPort : UInt16) (post : List UInt8) :
    readPorts (pre ++ ([hi16 srcPort, lo16 srcPort, hi16 dstPort, lo16 dstPort] ++ post))
      pre.length = .ok (srcPort, dstPort) := by
  have hread := ptrAtData_layout pre
    #v[hi16 srcPort, lo16 srcPort, hi16 dstPort, lo16 dstPort] post rfl rfl
  rw [show (#v[hi16 srcPort, lo16 srcPort, hi16 dstPort, lo16 dstPort]).toList =
    [hi16 srcPort, lo16 srcPort, hi16 dstPort, lo16 dstPort] from rfl] at hread
  simp only [readPorts, hread, bind, Except.bind, pure, Except.pure]
  simp

theorem parseIcmp_layout (pre : List UInt8) (icmpType code : UInt8) (checksum id seq : UInt16)
    (post : List UInt8) (proto : UInt8) :
    parseIcmp (pre ++ ([icmpType, code, hi16 checksum, lo16 checksum, hi16 id, lo16 id, hi16 seq,
      lo16 seq] ++ post)) pre.length proto = .ok (id, id, proto, icmpType) := by
  have hread := ptrAtData_layout pre
    #v[icmpType, code, hi16 checksum, lo16 checksum, hi16 id, lo16 id, hi16 seq, lo16 seq] post
    rfl rfl
  rw [show (#v[icmpType, code, hi16 checksum, lo16 checksum, hi16 id, lo16 id, hi16 seq,
    lo16 seq]).toList = [icmpType, code, hi16 checksum, lo16 checksum, hi16 id, lo16 id,
    hi16 seq, lo16 seq] from rfl] at hread
  simp only [parseIcmp, hread, bind, Except.bind, pure, Except.pure]
  simp

/-- Of a protocol without fields nothing is read. -/
theorem parseL4_other {proto : UInt8} {isV6 : Bool} (htcp : proto ≠ protoTcp)
    (hudp : proto ≠ protoUdp) (hicmp : proto ≠ icmpNumber isV6) (packet : List UInt8)
    (l4Off : Nat) : parseL4 packet l4Off proto isV6 = .ok (0, 0, protoAny, 0) := by
  rw [parseL4, if_neg htcp, if_neg hudp]
  cases isV6 with
  | false => rw [if_neg (fun h => hicmp h.1), if_neg (fun h => by cases h.2)]
  | true => rw [if_neg (fun h => by cases h.2), if_neg (fun h => hicmp h.1)]

/-- **The upper layer is read back**, wherever it begins. -/
theorem parseL4_layout {isV6 : Bool} (upper : Upper isV6) (pre post : List UInt8) :
    parseL4 (pre ++ (upper.bytes ++ post)) pre.length upper.number isV6 =
      .ok (upper.srcPort, upper.dstPort, upper.protoByte, upper.icmpType) := by
  obtain ⟨hnotTcp, hnotUdp⟩ := icmpNumber_ne isV6
  cases upper with
  | tcp srcPort dstPort =>
    have hread := readPorts_layout pre srcPort dstPort post
    simp only [parseL4, Upper.number, Upper.bytes, hread]
    rfl
  | udp srcPort dstPort =>
    have hread := readPorts_layout pre srcPort dstPort post
    simp only [parseL4, Upper.number, Upper.bytes, hread]
    rfl
  | icmp icmpType code checksum id seq =>
    have hread := fun proto => parseIcmp_layout pre icmpType code checksum id seq post proto
    simp only [parseL4, Upper.number, Upper.bytes, hnotTcp, hnotUdp, if_false, hread]
    cases isV6 <;> rfl
  | other proto hother =>
    exact parseL4_other hother.tcp hother.udp hother.icmp _ _

/-! ### IPv4 -/

section V4
variable (header : V4Header) (content : V4Content)

theorem V4Header.ihl_eq : (header.versionIhl &&& 0x0f).toNat = 5 + header.optionWords := by
  have hall : ∀ w ≤ 10, ((⟨4#4 ++ BitVec.ofNat 4 (5 + w)⟩ : UInt8) &&& 0x0f).toNat = 5 + w := by
    decide
  exact hall header.optionWords header.hwords

theorem V4Header.version_eq : header.versionIhl >>> 4 = 4 := by
  have hall : ∀ w ≤ 10, (⟨4#4 ++ BitVec.ofNat 4 (5 + w)⟩ : UInt8) >>> 4 = 4 := by decide
  exact hall header.optionWords header.hwords

/-- The mask keeps the fragment offset and drops the flags. -/
theorem V4Header.fragField_mask :
    header.fragField content &&& 0x1fff ≠ 0 ↔ content.offset ≠ 0 := by
  have hmask : (header.fragField content &&& 0x1fff).toBitVec =
      BitVec.setWidth 16 content.offset := append_and_low header.flags content.offset
  refine not_congr ?_
  rw [← UInt16.toBitVec_inj, hmask]
  constructor
  · intro hzero
    have hback := congrArg (BitVec.setWidth 13) hzero
    rwa [BitVec.setWidth_setWidth_of_le _ (by decide), BitVec.setWidth_eq] at hback
  · rintro hzero
    rw [hzero]
    rfl

/-- The options end where the upper layer begins. -/
theorem V4Header.l4Off_eq (pre : List UInt8) :
    pre.length + (5 + header.optionWords) * 4 =
      (pre ++ ((header.fixed content).toList ++ header.options)).length := by
  simp only [List.length_append, Vector.length_toList, header.hoptions]
  omega

/-- **An IPv4 packet is read back**, wherever it begins. -/
theorem parseV4_layout (pre post : List UInt8) :
    parseV4 (pre ++ ((Network.v4 header content).bytes ++ post)) pre.length =
      .ok (some (Network.v4 header content).parsed) := by
  have hread : ptrAtData 20 (pre ++ ((Network.v4 header content).bytes ++ post)) pre.length =
      .ok (header.fixed content) :=
    ptrAtData_layout pre _ (header.options ++ content.bytes ++ post)
      (by simp [Network.bytes, List.append_assoc]) rfl
  have hihl : ((header.fixed content)[0] &&& 0x0f).toNat = 5 + header.optionWords :=
    header.ihl_eq
  have hrange : ¬ (5 + header.optionWords < 5 ∨ 15 < 5 + header.optionWords) := by
    have := header.hwords
    omega
  have hfrag : be16 (header.fixed content)[6] (header.fixed content)[7] =
      header.fragField content := be16_hi_lo _
  simp only [parseV4, hread, bind, Except.bind, pure, Except.pure, hihl, hfrag, hrange, if_false]
  -- the parser looks at the offset alone, whatever the flags are
  cases content with
  | initial upper =>
    have hinitial : ¬ header.fragField (.initial upper) &&& 0x1fff ≠ 0 := by
      rw [header.fragField_mask]
      exact fun h => h rfl
    have hl4 := parseL4_layout upper
      (pre ++ ((header.fixed (.initial upper)).toList ++ header.options)) post
    rw [← header.l4Off_eq] at hl4
    simp only [Network.bytes, V4Content.bytes, List.append_assoc] at hl4 ⊢
    have hproto : (header.fixed (.initial upper))[9] = upper.number := rfl
    rw [if_neg hinitial, hproto, hl4]
    rfl
  | later offset hoffset proto =>
    have hlater : header.fragField (.later offset hoffset proto) &&& 0x1fff ≠ 0 :=
      (header.fragField_mask _).mpr hoffset
    have hproto : (header.fixed (.later offset hoffset proto))[9] = proto := rfl
    rw [if_pos hlater, hproto, normalizeProto_eq_keptProto]
    rfl

end V4

/-! ### IPv6 -/

theorem isTlv_number (kind : ExtKind) : isTlv kind.number = true := by
  cases kind <;> rfl

theorem isTlv_eq_false {proto : UInt8} (h : ∀ kind : ExtKind, proto ≠ kind.number) :
    isTlv proto = false := by
  have hhopopt : proto ≠ nhHopopt := h .hopopt
  have hrouting : proto ≠ nhRouting := h .routing
  have hdstopts : proto ≠ nhDstopts := h .dstopts
  have hmobility : proto ≠ nhMobility := h .mobility
  simp [isTlv, hhopopt, hrouting, hdstopts, hmobility]

/-- An upper protocol ends the walk. -/
theorem Upper.number_ends (upper : Upper true) :
    isTlv upper.number = false ∧ upper.number ≠ nhFragment := by
  cases upper with
  | tcp => exact ⟨rfl, show protoTcp ≠ nhFragment by decide⟩
  | udp => exact ⟨rfl, show protoUdp ≠ nhFragment by decide⟩
  | icmp => exact ⟨rfl, show icmpNumber true ≠ nhFragment by decide⟩
  | other proto hother =>
    obtain ⟨hfragment, hkinds⟩ := hother.ext rfl
    exact ⟨isTlv_eq_false hkinds, hfragment⟩

theorem fragFlags_mask (flags : BitVec 3) : fragFlags flags &&& 0xfff8 = 0 := by
  revert flags
  decide

theorem Ext.length_bytes (next : UInt8) (ext : Ext) : (ext.bytes next).length = ext.length := by
  cases ext with
  | tlv kind words body hbody =>
    simp only [Ext.bytes, Ext.length, List.length_cons, hbody]
    omega
  | fragment => simp [Ext.bytes, Ext.length]

theorem length_extBytes (exts : List Ext) (number : UInt8) :
    (extBytes exts number).length = (exts.map Ext.length).sum := by
  induction exts with
  | nil => rfl
  | cons ext exts ih => simp [extBytes, Ext.length_bytes, ih]

/-- One iteration passes over one header. -/
theorem walkV6ExtLoop_step (ext : Ext) (next : UInt8) {start : Nat} (fuel : Nat)
    (pre post : List UInt8) (hspace : pre.length ≤ start + maxV6ExtBytes) :
    walkV6ExtLoop (pre ++ (ext.bytes next ++ post)) start (fuel + 1) ext.number pre.length =
      walkV6ExtLoop (pre ++ (ext.bytes next ++ post)) start fuel next
        (pre.length + ext.length) := by
  rw [walkV6ExtLoop, if_neg (Nat.not_lt.mpr hspace)]
  cases ext with
  | tlv kind words body hbody =>
    have hread : ptrAtData 2 (pre ++ ((Ext.tlv kind words body hbody).bytes next ++ post))
        pre.length = .ok #v[next, words] := ptrAtData_layout pre _ (body ++ post) rfl rfl
    rw [Ext.number, isTlv_number, if_pos rfl, hread]
    rfl
  | fragment reserved flags identHigh identLow =>
    have hread : ptrAtData 8
        (pre ++ ((Ext.fragment reserved flags identHigh identLow).bytes next ++ post)) pre.length =
        .ok #v[next, reserved, hi16 (fragFlags flags), lo16 (fragFlags flags), hi16 identHigh,
          lo16 identHigh, hi16 identLow, lo16 identLow] := ptrAtData_layout pre _ post rfl rfl
    have hinitial : ¬ be16 (hi16 (fragFlags flags)) (lo16 (fragFlags flags)) &&& 0xfff8 ≠ 0 := by
      rw [be16_hi_lo, fragFlags_mask]
      exact fun h => h rfl
    rw [Ext.number, show isTlv nhFragment = false from rfl, if_neg Bool.false_ne_true, if_pos rfl,
      hread]
    exact if_neg hinitial

/-- **The walk passes over a chain of headers**: from where one begins, it comes to
where the last one ends. -/
theorem walkV6ExtLoop_chain (number : UInt8) {exts : List Ext} {start : Nat} (fuel : Nat)
    (pre post : List UInt8)
    (hspace : pre.length + (exts.map Ext.length).sum ≤ start + maxV6ExtBytes) :
    walkV6ExtLoop (pre ++ (extBytes exts number ++ post)) start (exts.length + fuel)
        (firstNumber exts number) pre.length =
      walkV6ExtLoop (pre ++ (extBytes exts number ++ post)) start fuel number
        (pre.length + (exts.map Ext.length).sum) := by
  induction exts generalizing pre with
  | nil => rw [List.length_nil, Nat.zero_add, firstNumber, List.map_nil, List.sum_nil, Nat.add_zero]
  | cons ext exts ih =>
    simp only [List.map_cons, List.sum_cons] at hspace
    -- the rest of the chain begins where this header ends
    have hstep := walkV6ExtLoop_step ext (firstNumber exts number) (exts.length + fuel) pre
      (extBytes exts number ++ post) (show pre.length ≤ start + maxV6ExtBytes by omega)
    have hlen : (pre ++ ext.bytes (firstNumber exts number)).length = pre.length + ext.length := by
      rw [List.length_append, Ext.length_bytes]
    have hrest := ih (pre ++ ext.bytes (firstNumber exts number)) (by rw [hlen]; omega)
    rw [hlen, List.append_assoc] at hrest
    rw [extBytes, List.append_assoc, firstNumber, List.length_cons, Nat.add_right_comm, hstep,
      hrest, List.map_cons, List.sum_cons, Nat.add_assoc]

/-- Within its bounds the walk gets behind every chain, with a step left at least. -/
theorem walkV6Ext_chain (chain : ExtChain) (number : UInt8) (pre post : List UInt8) :
    ∃ fuel, walkV6Ext (pre ++ (extBytes chain.exts number ++ post))
        (firstNumber chain.exts number) pre.length =
      walkV6ExtLoop (pre ++ (extBytes chain.exts number ++ post)) pre.length (fuel + 1) number
        (pre.length + (chain.exts.map Ext.length).sum) := by
  have hcount := chain.hcount
  refine ⟨3 - chain.exts.length, ?_⟩
  rw [walkV6Ext, show maxV6ExtHdrs = chain.exts.length + (3 - chain.exts.length + 1) by
    unfold maxV6ExtHdrs; omega]
  exact walkV6ExtLoop_chain number _ pre post (Nat.add_le_add_left chain.hlength _)

/-- An upper protocol ends the walk where it is found. -/
theorem walkV6ExtLoop_ends {number : UInt8} (hends : isTlv number = false ∧ number ≠ nhFragment)
    (packet : List UInt8) {start off : Nat} (fuel : Nat) (hspace : off ≤ start + maxV6ExtBytes) :
    walkV6ExtLoop packet start (fuel + 1) number off = .ok (number, off, false) := by
  rw [walkV6ExtLoop, if_neg (Nat.not_lt.mpr hspace), hends.1, if_neg Bool.false_ne_true,
    if_neg hends.2]

section Fixed
variable (header : V6Header) (nextHdr : UInt8)

theorem V6Header.fixed_toList : (header.fixed nextHdr).toList =
    (header.start nextHdr).toList ++ (header.src.toList ++ header.dst.toList) := by
  change ((header.start nextHdr ++ header.src) ++ header.dst).toList = _
  rw [Vector.toList_append, Vector.toList_append, List.append_assoc]

theorem V6Header.fixed_next : (header.fixed nextHdr)[6]? = some nextHdr := by
  unfold V6Header.fixed
  rw [Vector.getElem?_append_left (by omega), Vector.getElem?_append_left (by omega)]
  rfl

theorem V6Header.fixed_src : addrV6 (header.fixed nextHdr) 8 (by decide) = header.src := by
  apply Vector.ext
  intro i hi
  unfold addrV6 V6Header.fixed
  rw [Vector.getElem_ofFn]
  change ((header.start nextHdr ++ header.src) ++ header.dst)[8 + i] = _
  rw [Vector.getElem_append_left (by omega), Vector.getElem_append_right (by omega) (by omega)]
  simp

theorem V6Header.fixed_dst : addrV6 (header.fixed nextHdr) 24 (by decide) = header.dst := by
  apply Vector.ext
  intro i hi
  unfold addrV6 V6Header.fixed
  rw [Vector.getElem_ofFn]
  change ((header.start nextHdr ++ header.src) ++ header.dst)[24 + i] = _
  rw [Vector.getElem_append_right (by omega) (by omega)]
  simp

end Fixed

/-- Behind the fixed header it matters where the walk ends. -/
theorem parseV6_of_walk (header : V6Header) {nextHdr : UInt8} (pre rest : List UInt8)
    {packet : List UInt8} (hpacket : packet = pre ++ ((header.fixed nextHdr).toList ++ rest))
    {number : UInt8} {l4Off : Nat} {later : Bool}
    (hwalk : walkV6Ext packet nextHdr (pre.length + ipv6HdrLen) = .ok (number, l4Off, later))
    {srcPort dstPort : UInt16} {proto icmpType : UInt8}
    (hupper : (if later then .ok (0, 0, normalizeProto number true, 0)
      else parseL4 packet l4Off number true) = .ok (srcPort, dstPort, proto, icmpType)) :
    parseV6 packet pre.length =
      .ok (some ⟨familyV6, proto, icmpType, header.src, header.dst, srcPort, dstPort⟩) := by
  have hread : ptrAtData 40 packet pre.length = .ok (header.fixed nextHdr) :=
    ptrAtData_layout pre _ rest hpacket rfl
  have hnext : (header.fixed nextHdr)[6] = nextHdr :=
    Option.some.inj ((Vector.getElem?_eq_getElem (by decide)).symm.trans (header.fixed_next _))
  simp only [parseV6, hread, hnext, hwalk, bind, Except.bind, pure, Except.pure,
    header.fixed_src, header.fixed_dst]
  cases later with
  | true =>
    cases hupper
    rfl
  | false =>
    rw [if_neg Bool.false_ne_true] at hupper ⊢
    rw [hupper]

/-- **An IPv6 packet is read back**, wherever it begins. -/
theorem parseV6_layout (header : V6Header) (chain : ExtChain) (upper : Upper true)
    (pre post : List UInt8) :
    parseV6 (pre ++ ((Network.v6 header chain upper).bytes ++ post)) pre.length =
      .ok (some (Network.v6 header chain upper).parsed) := by
  have hstart : (pre ++ (header.fixed (firstNumber chain.exts upper.number)).toList).length =
      pre.length + ipv6HdrLen := by
    simp [ipv6HdrLen]
  have hend : (pre ++ ((header.fixed (firstNumber chain.exts upper.number)).toList ++
      extBytes chain.exts upper.number)).length =
      pre.length + ipv6HdrLen + (chain.exts.map Ext.length).sum := by
    rw [← List.append_assoc, List.length_append, hstart, length_extBytes]
  obtain ⟨fuel, hwalk⟩ := walkV6Ext_chain chain upper.number
    (pre ++ (header.fixed (firstNumber chain.exts upper.number)).toList) (upper.bytes ++ post)
  have hl4 := parseL4_layout upper
    (pre ++ ((header.fixed (firstNumber chain.exts upper.number)).toList ++
      extBytes chain.exts upper.number)) post
  rw [hstart, walkV6ExtLoop_ends upper.number_ends _ fuel
    (Nat.add_le_add_left chain.hlength _)] at hwalk
  rw [hend] at hl4
  simp only [List.append_assoc] at hwalk hl4
  simp only [Network.bytes, List.append_assoc]
  exact parseV6_of_walk header pre _ rfl hwalk (by rw [if_neg Bool.false_ne_true, hl4])

/-! ### The packet -/

theorem VlanTag.ethertype_spec (tag : VlanTag) :
    tag.ethertype ≠ ethPIp ∧ tag.ethertype ≠ ethPIpv6 ∧ isVlan tag.ethertype = true := by
  have hboth : ∀ b : Bool, (if b then ethP8021ad else ethP8021q) ≠ ethPIp ∧
      (if b then ethP8021ad else ethP8021q) ≠ ethPIpv6 ∧
      isVlan (if b then ethP8021ad else ethP8021q) = true := by decide
  exact hboth tag.is8021ad

/-- The EtherType of this version of IP. -/
def ipEthertype (isV6 : Bool) : UInt16 := if isV6 then ethPIpv6 else ethPIp

/-- The parser of this version of IP. -/
def parseIp (isV6 : Bool) : List UInt8 → Nat → Except Unit (Option Parsed) :=
  if isV6 then parseV6 else parseV4

/-- The choice of `parse_packet` at an EtherType. -/
theorem parseIp_of_ethertype (isV6 : Bool) (packet : List UInt8) (off : Nat)
    (otherwise : Except Unit (Option Parsed)) :
    (if ipEthertype isV6 = ethPIp then parseV4 packet off
      else if ipEthertype isV6 = ethPIpv6 then parseV6 packet off else otherwise) =
      parseIp isV6 packet off := by
  cases isV6 <;> rfl

/-- Without an L2 header the version nibble names the network layer. -/
theorem parsePacket_raw {isV6 : Bool} {first : UInt8}
    (hfirst : first >>> 4 = if isV6 then 6 else 4) (second : UInt8) (rest : List UInt8) :
    parsePacket (first :: second :: rest) 0 = parseIp isV6 (first :: second :: rest) 0 := by
  have hread : ptrAtData 2 (first :: second :: rest) 0 = .ok #v[first, second] :=
    ptrAtData_layout [] _ rest rfl rfl
  have hversion : (#v[first, second])[0] >>> 4 = if isV6 then 6 else 4 := hfirst
  simp only [parsePacket, if_true, hread, bind, Except.bind, hversion]
  cases isV6 <;> rfl

/-- Behind an Ethernet header the EtherType does, with the tags passed over. -/
theorem parsePacket_ethernet (isV6 : Bool) (macs : Vector UInt8 12) {tags : List VlanTag}
    (htags : tags.length ≤ 2) (body : List UInt8) {l2Off : Nat} (hoff : l2Off ≠ 0) :
    parsePacket (macs.toList ++ (tagBytes tags (ipEthertype isV6) ++ body)) l2Off =
      parseIp isV6 (macs.toList ++ (tagBytes tags (ipEthertype isV6) ++ body))
        (macs.toList ++ tagBytes tags (ipEthertype isV6)).length := by
  rw [parsePacket, if_neg hoff]
  -- one read for each tag and one for the EtherType behind them
  match tags, htags with
  | [], _ =>
    have houter : ethertypeAt (macs.toList ++ (tagBytes [] (ipEthertype isV6) ++ body)) 12 =
        .ok (ipEthertype isV6) := ethertypeAt_layout macs.toList _ body rfl (by simp)
    have hlen : ethHdrLen = (macs.toList ++ tagBytes [] (ipEthertype isV6)).length := by
      simp [tagBytes, ethHdrLen]
    simp only [houter, bind, Except.bind, parseIp_of_ethertype, hlen]
  | [tag], _ =>
    obtain ⟨hip, hip6, hvlan⟩ := tag.ethertype_spec
    have houter : ethertypeAt (macs.toList ++ (tagBytes [tag] (ipEthertype isV6) ++ body)) 12 =
        .ok tag.ethertype := ethertypeAt_layout macs.toList _ _ rfl (by simp)
    have hinner : ethertypeAt (macs.toList ++ (tagBytes [tag] (ipEthertype isV6) ++ body)) 16 =
        .ok (ipEthertype isV6) :=
      ethertypeAt_layout
        (macs.toList ++ [hi16 tag.ethertype, lo16 tag.ethertype, hi16 tag.tci, lo16 tag.tci]) _
        body (by simp [tagBytes]) (by simp)
    have hlen : 18 = (macs.toList ++ tagBytes [tag] (ipEthertype isV6)).length := by
      simp [tagBytes]
    simp only [houter, hinner, bind, Except.bind, hip, hip6, hvlan, if_false, if_true,
      parseIp_of_ethertype, ← hlen]
  | [tag, tag'], _ =>
    obtain ⟨hip, hip6, hvlan⟩ := tag.ethertype_spec
    obtain ⟨hip', hip6', hvlan'⟩ := tag'.ethertype_spec
    have houter : ethertypeAt (macs.toList ++ (tagBytes [tag, tag'] (ipEthertype isV6) ++ body))
        12 = .ok tag.ethertype := ethertypeAt_layout macs.toList _ _ rfl (by simp)
    have hinner : ethertypeAt (macs.toList ++ (tagBytes [tag, tag'] (ipEthertype isV6) ++ body))
        16 = .ok tag'.ethertype :=
      ethertypeAt_layout
        (macs.toList ++ [hi16 tag.ethertype, lo16 tag.ethertype, hi16 tag.tci, lo16 tag.tci]) _ _
        (by simp [tagBytes]; rfl) (by simp)
    have hinnermost : ethertypeAt
        (macs.toList ++ (tagBytes [tag, tag'] (ipEthertype isV6) ++ body)) 20 =
        .ok (ipEthertype isV6) :=
      ethertypeAt_layout
        (macs.toList ++ [hi16 tag.ethertype, lo16 tag.ethertype, hi16 tag.tci, lo16 tag.tci,
          hi16 tag'.ethertype, lo16 tag'.ethertype, hi16 tag'.tci, lo16 tag'.tci]) _
        body (by simp [tagBytes]) (by simp)
    have hlen : 22 = (macs.toList ++ tagBytes [tag, tag'] (ipEthertype isV6)).length := by
      simp [tagBytes]
    simp only [houter, hinner, hinnermost, bind, Except.bind, hip, hip6, hvlan, hip', hip6',
      hvlan', if_false, if_true, parseIp_of_ethertype, ← hlen]

/-- These bytes begin with the version of IP, as packets without an L2 header do. -/
def BeginsWith (isV6 : Bool) (body : List UInt8) : Prop :=
  ∃ first second rest, body = first :: second :: rest ∧ first >>> 4 = if isV6 then 6 else 4

/-- **The network layer is found behind every L2 form**, whatever it is. -/
theorem parsePacket_l2 (l2 : L2Form) {isV6 : Bool} {body : List UInt8}
    (hbody : l2 = .raw → BeginsWith isV6 body) {l2Off : Nat} (hl2 : l2.At l2Off) :
    parsePacket (l2.bytes (ipEthertype isV6) ++ body) l2Off =
      parseIp isV6 (l2.bytes (ipEthertype isV6) ++ body) (l2.bytes (ipEthertype isV6)).length := by
  cases l2 with
  | raw =>
    obtain rfl : l2Off = 0 := hl2
    obtain ⟨first, second, rest, rfl, hfirst⟩ := hbody rfl
    exact parsePacket_raw hfirst second rest
  | ethernet macs tags htags =>
    rw [L2Form.bytes, List.append_assoc]
    exact parsePacket_ethernet isV6 macs htags body hl2

/-- The packet is of IPv6. -/
def Network.isV6 : Network → Bool
  | .v4 .. => false
  | .v6 .. => true

theorem Network.ethertype_eq (network : Network) :
    network.ethertype = ipEthertype network.isV6 := by
  cases network <;> rfl

theorem V6Header.beginsWith (header : V6Header) (nextHdr : UInt8) (rest : List UInt8) :
    BeginsWith true ((header.fixed nextHdr).toList ++ rest) := by
  have hversion : ∀ nibble : BitVec 4, (⟨6#4 ++ nibble⟩ : UInt8) >>> 4 = 6 := by decide
  refine ⟨⟨6#4 ++ header.classHigh⟩, header.classFlow[0],
    (header.start nextHdr).toList.drop 2 ++ (header.src.toList ++ (header.dst.toList ++ rest)),
    ?_, hversion header.classHigh⟩
  simp only [header.fixed_toList, List.append_assoc]
  rfl

theorem Network.beginsWith (network : Network) (trailing : List UInt8) :
    BeginsWith network.isV6 (network.bytes ++ trailing) := by
  cases network with
  | v4 header content =>
    exact ⟨header.versionIhl, header.tos, (header.fixed content).toList.drop 2 ++
      (header.options ++ content.bytes) ++ trailing, rfl, header.version_eq⟩
  | v6 header chain upper =>
    rw [Network.bytes, List.append_assoc]
    exact header.beginsWith _ _

/-- The network layer is read back under every L2 form. -/
theorem parsePacket_layout (l2 : L2Form) (network : Network) (trailing : List UInt8)
    {l2Off : Nat} (hl2 : l2.At l2Off) :
    parsePacket (l2.bytes network.ethertype ++ (network.bytes ++ trailing)) l2Off =
      .ok (some network.parsed) := by
  rw [network.ethertype_eq, parsePacket_l2 l2 (fun _ => network.beginsWith trailing) hl2]
  cases network with
  | v4 header content => exact parseV4_layout header content _ trailing
  | v6 header chain upper => exact parseV6_layout header chain upper _ trailing

/-- **Parsing reads back every packet of the format**, under every encapsulation. -/
theorem parsePacket_bytes (d : PacketDesc) {l2Off : Nat} (hl2 : d.l2.At l2Off) :
    parsePacket d.bytes l2Off = .ok (some d.parsed) :=
  parsePacket_layout d.l2 d.network d.trailing hl2

/-- A TCP segment to port 22 behind a VLAN tag, an option word and a padding byte. -/
def taggedSsh : PacketDesc where
  l2 := .ethernet (Vector.replicate 12 0) [⟨false, 5⟩] (by decide)
  network := .v4
    { tos := 0, totalLen := 44, ident := 7, flags := 2, ttl := 64, checksum := 0,
      src := ⟨10, 0, 0, 1⟩, dst := ⟨10, 0, 0, 2⟩, optionWords := 1, options := [1, 1, 1, 1],
      hwords := by decide, hoptions := rfl }
    (.initial (.tcp 40000 22))
  trailing := [0]

theorem taggedSsh_parsePacket :
    parsePacket taggedSsh.bytes 14 = .ok (some taggedSsh.parsed) ∧ taggedSsh.parsed.dstPort = 22 :=
  ⟨parsePacket_bytes taggedSsh (show (14 : Nat) ≠ 0 by decide), rfl⟩

end Moatd
