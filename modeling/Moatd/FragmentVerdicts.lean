import Moatd.Fragments
import Moatd.StatelessIngress

/-!
# What becomes of fragments

Fragments behind the first have no ports in sight, and over IPv6 the number in their
fragment header may be that of an extension header.  The data path takes the ports for 0
and the number for the protocol.  So a rule on the protocol may tell the fragments of a
datagram apart, and those of a reply are looked up under a key that no flow has.
-/

namespace Moatd

namespace Datagram

variable {d : Datagram} {fragments : List d.Fragment}

/-! ### The fragments of a datagram -/

theorem Split.cases (h : d.Split fragments) :
    ∃ first later rest, fragments = first :: later ∧ first.piece.offset = 0 ∧
      d.payload = first.piece.payload ++ rest ∧ (first.piece.more = false → rest = []) ∧
      ∀ f ∈ later, f.piece.offset ≠ 0 := by
  obtain ⟨piece, pieces, rest, hpieces, hoffset, hpayload, hlast, hlater⟩ := Cut.cases h
  rcases fragments with _ | ⟨first, later⟩
  · cases hpieces
  · rw [List.map_cons, List.cons.injEq] at hpieces
    obtain ⟨rfl, rfl⟩ := hpieces
    exact ⟨first, later, rest, rfl, hoffset, hpayload, hlast,
      fun f hf => hlater _ (List.mem_map_of_mem hf)⟩

/-- A fragment that is not the first is one of the later ones. -/
theorem mem_of_getElem?_pos {α : Type*} {first x : α} {later : List α} {k : Nat} (hk : 0 < k)
    (h : (first :: later)[k]? = some x) : x ∈ later := by
  obtain ⟨j, rfl⟩ := Nat.exists_eq_add_of_lt hk
  exact List.mem_of_getElem? (show later[0 + j]? = some x from h)

/-! ### The protocol -/

theorem keptProto_ext (ext : Ext) : keptProto true ext.number = protoAny := by
  rcases ext with ⟨kind, words, body, hbody⟩ | _
  · cases kind <;> rfl
  · rfl

/-- The number in the fragment header is taken for that of the upper layer. -/
theorem keptProto_next_iff (d : Datagram) :
    keptProto d.isV6 d.next = keptProto d.isV6 d.proto ↔
      d.inner = [] ∨ ¬ IsKept d.isV6 d.proto := by
  rcases d with _ | ⟨src, dst, identHigh, identLow, outer, inner, upper, rest⟩
  · exact iff_of_true rfl (Or.inl rfl)
  · rcases inner with _ | ⟨ext, inner⟩
    · exact iff_of_true rfl (Or.inl rfl)
    · show keptProto true ext.number = keptProto true upper.number ↔
        ext :: inner = [] ∨ ¬ IsKept true upper.number
      rw [keptProto_ext, or_iff_right (List.cons_ne_nil _ _)]
      constructor
      · intro hany hkept
        rw [keptProto_of_isKept hkept] at hany
        exact hkept.ne_any hany.symm
      · exact fun hother => (keptProto_of_not_isKept hother).symm

end Datagram

open Datagram Runs

/-- **When the fragments of a datagram are classified under one protocol**: over IPv4
always; over IPv6 where no extension header is cut up with the upper layer, or where the
upper layer is one that the parser does not know. -/
theorem fragments_protoByte_iff {d : Datagram} {fragments : List d.Fragment}
    (hsplit : d.Split fragments) {l2Off : Nat → Nat}
    (hl2 : ∀ (k : Nat) f, fragments[k]? = some f → f.l2.At (l2Off k)) {first : d.Fragment}
    (hfirst : fragments[0]? = some first) {p : Parsed}
    (hparse : parsePacket first.bytes (l2Off 0) = .ok (some p)) :
    (∀ (k : Nat) f, 0 < k → fragments[k]? = some f →
      ∃ q, parsePacket f.bytes (l2Off k) = .ok (some q) ∧ q.protoByte = p.protoByte) ↔
    fragments.length = 1 ∨ d.inner = [] ∨ ¬ IsKept d.isV6 d.proto := by
  obtain ⟨first, later, rest, rfl, hoffset, hpayload, hlast, hlater⟩ := hsplit.cases
  cases hfirst
  obtain ⟨hfits, hproto⟩ :=
    first.of_parse_first hoffset hpayload hlast (hl2 0 first rfl) hparse
  rw [← keptProto_next_iff, hproto]
  constructor
  · intro hsame
    rcases later with _ | ⟨second, later⟩
    · exact Or.inl rfl
    · right
      obtain ⟨q, hread, hq⟩ := hsame 1 second (by decide) rfl
      have hlaterRead := second.parse_later hfits (hlater second List.mem_cons_self)
        (hl2 1 second rfl)
      cases hlaterRead.symm.trans hread
      exact hq
  · intro hcond k f hk hf
    have hmem := mem_of_getElem?_pos hk hf
    refine ⟨_, f.parse_later hfits (hlater f hmem) (hl2 k f hf), ?_⟩
    rcases hcond with hone | hkept
    · rw [List.length_cons, Nat.add_eq_right, List.length_eq_zero_iff] at hone
      rw [hone] at hmem
      exact absurd hmem List.not_mem_nil
    · exact hkept

/-! ### Replies -/

/-- The table has an unexpired entry under this key. -/
def DataPath.Live (s : DataPath) (key : ConnKey) (now : Nat) : Prop :=
  ∃ v, s.conntrack key = some v ∧ now - v.lastSeenNs < conntrackTtlNs

theorem DataPath.admitsReply_iff {s : DataPath} {now : Nat} {p : Parsed} :
    s.admitsReply now p = true ↔
      s.maps.conntrackEnabled = true ∧ s.Live (reverseKey p) now := by
  unfold DataPath.admitsReply DataPath.Live
  rw [Bool.and_eq_true]
  refine and_congr_right fun _ => ?_
  cases s.conntrack (reverseKey p) <;> simp

namespace Datagram

/-- A TCP or UDP datagram. -/
def HasPorts (d : Datagram) : Prop := d.proto = protoTcp ∨ d.proto = protoUdp

/-- The key of the outbound flow that the datagram answers: its addresses and ports are the
flow's, the other way around. -/
def flowKey : Datagram → ConnKey
  | v4 src dst _ upper _ =>
    ⟨upper.number, familyV4, dst.padded, src.padded, upper.dstPort, upper.srcPort⟩
  | v6 src dst _ _ _ _ upper _ =>
    ⟨upper.number, familyV6, dst, src, upper.dstPort, upper.srcPort⟩

/-- The key its later fragments are looked up under. -/
def portlessKey (d : Datagram) : ConnKey :=
  { d.flowKey with proto := keptProto d.isV6 d.next, srcPort := 0, dstPort := 0 }

variable {d : Datagram}

theorem HasPorts.protoByte (h : d.HasPorts) : d.parsed.protoByte = d.proto := by
  have hkept : keptProto d.isV6 d.proto = d.proto := keptProto_of_isKept (h.imp_right Or.inl)
  rcases d with ⟨_, _, _, upper, _⟩ | ⟨_, _, _, _, _, _, upper, _⟩
  · exact upper.protoByte_eq.trans hkept
  · exact upper.protoByte_eq.trans hkept

theorem HasPorts.reverseKey (h : d.HasPorts) : reverseKey d.parsed = d.flowKey := by
  have hproto := h.protoByte
  rcases d with _ | _
  · exact congrArg (ConnKey.mk · _ _ _ _ _) hproto
  · exact congrArg (ConnKey.mk · _ _ _ _ _) hproto

theorem HasPorts.not_ndp (h : d.HasPorts) : isNdp d.parsed = false := by
  have hicmp : d.proto ≠ protoIcmpv6 := by
    intro hicmp
    rcases h with h | h
    · exact absurd (h.symm.trans hicmp) (by decide)
    · exact absurd (h.symm.trans hicmp) (by decide)
  rw [isNdp, h.protoByte, decide_eq_false hicmp, Bool.and_false, Bool.false_and]

theorem laterParsed_not_ndp (d : Datagram) : isNdp d.laterParsed = false := by
  rw [isNdp, Bool.and_eq_false_iff]
  exact Or.inr rfl

theorem reverseKey_laterParsed (d : Datagram) : Moatd.reverseKey d.laterParsed = d.portlessKey := by
  cases d <;> rfl

end Datagram

/-- A packet that is neither a reply nor neighbour discovery goes by the rules. -/
theorem tryIngress_pass_iff {s : DataPath} {now : Nat} {ifindex : UInt32} {packet : List UInt8}
    {p : Parsed} (hparse : parsePacket packet (s.l2OffFor ifindex) = .ok (some p))
    (hndp : isNdp p = false) :
    tryIngress s now ifindex packet = .ok .pass ↔
      s.admitsReply now p = true ∨ (walkRules s.maps dirIn ifindex p).1 = actAllow := by
  simp only [tryIngress, hparse, hndp, Bool.false_eq_true, if_false]
  split_ifs with hreply hallow
  · simp [hreply]
  · simp [hallow]
  · simp [hreply, hallow]

/-- `moatd default deny incoming` on an empty list, synced at startup. -/
def incomingDenied : DaemonState :=
  (syncAll { net := noNet } (boot [] noFile { defaultIn := .deny })).2

theorem incomingDenied_synced : Synced { defaultIn := .deny } incomingDenied := by
  have hsync : syncAll { net := noNet } (boot [] noFile { defaultIn := .deny }) =
      (.ok (), incomingDenied) := rfl
  exact .all rfl hsync

theorem incomingDenied_walk (ifindex : UInt32) (p : Parsed) :
    (walkRules incomingDenied.maps dirIn ifindex p).1 ≠ actAllow := by
  have hempty : incomingDenied.maps.liveRules = [] := rfl
  have hdefault : incomingDenied.maps.defaultPolicy (policySlot dirIn) = actDeny := rfl
  rw [walkRules_fst, hempty, hdefault]
  exact show actDeny ≠ actAllow by decide

namespace Datagram

variable {d : Datagram} (s : DataPath)

theorem payload_eq (d : Datagram) : ∃ rest, d.payload = d.heads ++ rest := by
  rcases d with ⟨_, _, _, _, rest⟩ | ⟨_, _, _, _, _, _, _, rest⟩
  · exact ⟨rest, rfl⟩
  · exact ⟨rest, rfl⟩

/-- A first fragment of so many bytes holds the headers of the upper layer. -/
theorem Fragment.holds_heads (f : d.Fragment) {rest : List UInt8}
    (hpayload : d.payload = f.piece.payload ++ rest)
    (hlength : d.heads.length ≤ f.piece.payload.length) :
    ∃ more, f.piece.payload = d.heads ++ more := by
  obtain ⟨drest, hdrest⟩ := d.payload_eq
  have hheads : d.heads <+: d.payload := ⟨drest, hdrest.symm⟩
  have hpiece : f.piece.payload <+: d.payload := ⟨rest, hpayload.symm⟩
  obtain ⟨more, hmore⟩ := List.prefix_of_prefix_length_le hheads hpiece hlength
  exact ⟨more, hmore.symm⟩

/-- A first fragment that passes has been read. -/
theorem Fragment.fits_of_pass (f : d.Fragment) (hfirst : f.piece.offset = 0) {rest : List UInt8}
    (hpayload : d.payload = f.piece.payload ++ rest) (hlast : f.piece.more = false → rest = [])
    {now : Nat} {ifindex : UInt32} (hl2 : f.l2.At (s.l2OffFor ifindex))
    (hpass : tryIngress s now ifindex f.bytes = .ok .pass) : d.Fits := by
  rw [tryIngress] at hpass
  cases hparse : parsePacket f.bytes (s.l2OffFor ifindex) with
  | error e =>
    rw [hparse] at hpass
    cases hpass
  | ok parsed =>
    rcases parsed with _ | p
    · rw [f.parsePacket_eq hl2] at hparse
      exact absurd hparse parseIp_ne_none
    · exact (f.of_parse_first hfirst hpayload hlast hl2 hparse).1

/-- A later fragment is looked up without ports, and then goes by the rules. -/
theorem Fragment.later_pass_iff (f : d.Fragment) (hfits : d.Fits) (hlater : f.piece.offset ≠ 0)
    {now : Nat} {ifindex : UInt32} (hl2 : f.l2.At (s.l2OffFor ifindex))
    (hon : s.maps.conntrackEnabled = true) :
    tryIngress s now ifindex f.bytes = .ok .pass ↔
      s.Live d.portlessKey now ∨ (walkRules s.maps dirIn ifindex d.laterParsed).1 = actAllow := by
  rw [tryIngress_pass_iff (f.parse_later hfits hlater hl2) d.laterParsed_not_ndp,
    DataPath.admitsReply_iff, reverseKey_laterParsed, and_iff_right hon]

end Datagram

/-- **When the fragments of a reply pass**, whatever the rules for inbound traffic are: the
first one does if its chain fits.  Each later one needs an entry of its own, for the same
hosts with no ports. -/
theorem fragments_pass_iff {d : Datagram} (hports : d.HasPorts) {fragments : List d.Fragment}
    (hsplit : d.Split fragments)
    (hholds : ∀ first, fragments[0]? = some first → d.heads.length ≤ first.piece.payload.length)
    (s : DataPath) {now : Nat → Nat} {ifindex : Nat → UInt32}
    (hl2 : ∀ (k : Nat) f, fragments[k]? = some f → f.l2.At (s.l2OffFor (ifindex k)))
    (hlive : ∀ k < fragments.length, s.Live d.flowKey (now k)) :
    (∀ list t, Synced list t → t.maps.conntrackEnabled = true →
      ∀ (k : Nat) f, fragments[k]? = some f →
        tryIngress { s with maps := t.maps } (now k) (ifindex k) f.bytes = .ok .pass) ↔
    d.Fits ∧ ∀ k < fragments.length, 0 < k → s.Live d.portlessKey (now k) := by
  obtain ⟨first, later, rest, rfl, hoffset, hpayload, hlast, hlater⟩ := hsplit.cases
  constructor
  · intro hpass
    have hdenied := hpass _ _ incomingDenied_synced rfl
    have hfits : d.Fits := first.fits_of_pass { s with maps := incomingDenied.maps } hoffset
      hpayload hlast (hl2 0 first rfl) (hdenied 0 first rfl)
    refine ⟨hfits, fun k hk hpos => ?_⟩
    have hf := List.getElem?_eq_getElem hk
    have hoffset' := hlater _ (mem_of_getElem?_pos hpos hf)
    -- nothing but an entry lets it past a default that denies
    refine ((Fragment.later_pass_iff { s with maps := incomingDenied.maps } _ hfits hoffset'
      (hl2 k _ hf) rfl).mp (hdenied k _ hf)).resolve_right ?_
    exact incomingDenied_walk _ _
  · rintro ⟨hfits, hportless⟩ list t hsynced hon k f hf
    have hk := (List.getElem?_eq_some_iff.mp hf).1
    rcases Nat.eq_zero_or_pos k with rfl | hpos
    · -- the first fragment has the ports, so its reply is looked up
      cases hf
      obtain ⟨more, hholds⟩ := first.holds_heads hpayload (hholds first rfl)
      refine (tryIngress_pass_iff (s := { s with maps := t.maps })
        (first.parse_first hfits hoffset hholds (hl2 0 first rfl)) hports.not_ndp).mpr (Or.inl ?_)
      rw [DataPath.admitsReply_iff, hports.reverseKey]
      exact ⟨hon, hlive 0 hk⟩
    · -- a later one is looked up without them
      have hoffset' := hlater f (mem_of_getElem?_pos hpos hf)
      exact (f.later_pass_iff { s with maps := t.maps } hfits hoffset' (hl2 k f hf) hon).mpr
        (Or.inl (hportless k hk hpos))

/-! ### Datagrams in two fragments -/

/-- What the peer of `syn` answers, with more bytes than fit into one packet. -/
def longAnswer : Datagram :=
  .v4 synHeader.dst synHeader.src synHeader.ident (.tcp 22 40000) (List.replicate 12 0)

/-- The first fragment of the answer: eight bytes. -/
def longAnswerFirst : longAnswer.Fragment :=
  ⟨syn.l2, ⟨0, true, longAnswer.payload.take 8⟩, _,
    @Carries.v4 (.tcp 22 40000) (List.replicate 12 0) [] _
      { synHeader with src := synHeader.dst, dst := synHeader.src, flags := 1 } rfl⟩

/-- The other fragment of the answer. -/
def longAnswerSecond : longAnswer.Fragment :=
  ⟨syn.l2, ⟨1, false, longAnswer.payload.drop 8⟩, _,
    @Carries.v4 (.tcp 22 40000) (List.replicate 12 0) [] _
      { synHeader with src := synHeader.dst, dst := synHeader.src, flags := 0 } rfl⟩

theorem longAnswer_split : longAnswer.Split [longAnswerFirst, longAnswerSecond] :=
  Cut.two Nat.one_pos (by decide) (by decide)

theorem longAnswer_l2 (k : Nat) (f : longAnswer.Fragment)
    (hf : [longAnswerFirst, longAnswerSecond][k]? = some f) : f.l2.At 14 := by
  rcases List.mem_pair.mp (List.mem_of_getElem? hf) with rfl | rfl
  · exact show (14 : Nat) ≠ 0 by decide
  · exact show (14 : Nat) ≠ 0 by decide

theorem longAnswerFirst_parse :
    parsePacket longAnswerFirst.bytes 14 = .ok (some longAnswer.parsed) :=
  longAnswerFirst.parse_first trivial rfl
    (show longAnswerFirst.piece.payload = longAnswer.heads ++ List.replicate 4 0 from rfl)
    (longAnswer_l2 0 _ rfl)

/-- The second fragment is TCP as well. -/
theorem longAnswerSecond_protoByte :
    ∃ q, parsePacket longAnswerSecond.bytes 14 = .ok (some q) ∧ q.protoByte = protoTcp :=
  (fragments_protoByte_iff longAnswer_split longAnswer_l2 rfl longAnswerFirst_parse).mpr
    (Or.inr (Or.inl rfl)) 1 longAnswerSecond Nat.one_pos rfl

/-- A UDP datagram with an extension header that is cut up with it. -/
def optionsAnswer : Datagram :=
  .v6 (Vector.replicate 16 1) (Vector.replicate 16 2) 0 7 []
    [.tlv .dstopts 0 (List.replicate 6 0) rfl] (.udp 53 40000) (List.replicate 20 0)

/-- An IPv6 header. -/
def optionsHeader : V6Header where
  classHigh := 0
  classFlow := Vector.replicate 3 0
  payloadLen := 24
  hopLimit := 64
  src := Vector.replicate 16 1
  dst := Vector.replicate 16 2

/-- The first fragment of the answer: its options and ports. -/
def optionsAnswerFirst : optionsAnswer.Fragment :=
  ⟨.raw, ⟨0, true, optionsAnswer.payload.take 16⟩, _,
    @Carries.v6 0 7 [] [.tlv .dstopts 0 (List.replicate 6 0) rfl] (.udp 53 40000)
      (List.replicate 20 0) [] _ optionsHeader 0 1 rfl fun _ _ => rfl⟩

/-- The other fragment of the answer. -/
def optionsAnswerSecond : optionsAnswer.Fragment :=
  ⟨.raw, ⟨2, false, optionsAnswer.payload.drop 16⟩, _,
    @Carries.v6 0 7 [] [.tlv .dstopts 0 (List.replicate 6 0) rfl] (.udp 53 40000)
      (List.replicate 20 0) [] _ optionsHeader 0 0 rfl fun _ _ => rfl⟩

/-- Its first fragment is UDP, and its second any protocol at all. -/
theorem optionsAnswer_protoByte :
    optionsAnswer.Split [optionsAnswerFirst, optionsAnswerSecond] ∧
      ∃ p q, parsePacket optionsAnswerFirst.bytes 0 = .ok (some p) ∧ p.protoByte = protoUdp ∧
        parsePacket optionsAnswerSecond.bytes 0 = .ok (some q) ∧ q.protoByte = protoAny := by
  have hfits : optionsAnswer.Fits := ⟨by decide, by decide⟩
  refine ⟨Cut.two Nat.two_pos (by decide) (by decide), optionsAnswer.parsed,
    optionsAnswer.laterParsed, ?_, rfl, ?_, rfl⟩
  · exact optionsAnswerFirst.parse_first hfits rfl
      (show optionsAnswerFirst.piece.payload = optionsAnswer.heads ++ List.replicate 4 0 from rfl)
      rfl
  · exact optionsAnswerSecond.parse_later hfits (by decide) rfl

/-- The data path once `syn` has gone out from a host that denies incoming traffic. -/
noncomputable def synSentPath : DataPath :=
  (after (World.step (sampleToml sampleLists)) freshWorld
    (denyIncoming ++ [.egress 100 2 syn.bytes true])).path

theorem synSentPath_live : synSentPath.Live longAnswer.flowKey 200 :=
  ⟨⟨100⟩, rfl, by decide⟩

/-- It lets the first fragment of the answer in and drops the second. -/
theorem longAnswer_cut_off :
    longAnswer.HasPorts ∧ longAnswer.Split [longAnswerFirst, longAnswerSecond] ∧
      longAnswer.heads.length ≤ longAnswerFirst.piece.payload.length ∧
      synSentPath.maps.conntrackEnabled = true ∧ synSentPath.Live longAnswer.flowKey 200 ∧
      tryIngress synSentPath 200 2 longAnswerFirst.bytes = .ok .pass ∧
      tryIngress synSentPath 200 2 longAnswerSecond.bytes ≠ .ok .pass := by
  refine ⟨Or.inl rfl, longAnswer_split, by decide, rfl, synSentPath_live, ?_, ?_⟩
  · refine (tryIngress_pass_iff (s := synSentPath) longAnswerFirst_parse rfl).mpr (Or.inl ?_)
    exact DataPath.admitsReply_iff.mpr ⟨rfl, synSentPath_live⟩
  · rw [Ne, longAnswerSecond.later_pass_iff synSentPath trivial (by decide)
      (longAnswer_l2 1 _ rfl) rfl]
    rintro (⟨v, hentry, -⟩ | hallow)
    · have hnone : synSentPath.conntrack longAnswer.portlessKey = none := rfl
      rw [hnone] at hentry
      cases hentry
    · have hdeny : (walkRules synSentPath.maps dirIn 2 longAnswer.laterParsed).1 = actDeny := rfl
      exact absurd (hdeny.symm.trans hallow) (by decide)

/-- The same with an entry for the later fragments of the flow as well. -/
noncomputable def portlessPath : DataPath :=
  { synSentPath with
    conntrack := fun key =>
      if key = longAnswer.portlessKey then some ⟨150⟩ else synSentPath.conntrack key }

theorem portlessPath_live : portlessPath.Live longAnswer.portlessKey 200 :=
  ⟨⟨150⟩, by simp only [portlessPath, if_true], by decide⟩

/-- Then the second fragment passes too. -/
theorem longAnswerSecond_passes :
    tryIngress { portlessPath with maps := incomingDenied.maps } 200 2 longAnswerSecond.bytes =
      .ok .pass := by
  have hlive : ∀ k < [longAnswerFirst, longAnswerSecond].length,
      portlessPath.Live longAnswer.flowKey 200 := fun _ _ => synSentPath_live
  have hl2 : ∀ (k : Nat) f, [longAnswerFirst, longAnswerSecond][k]? = some f →
      f.l2.At (portlessPath.l2OffFor 2) := longAnswer_l2
  refine (fragments_pass_iff (Or.inl rfl) longAnswer_split ?_ portlessPath hl2 hlive).mpr
    ⟨trivial, fun _ _ _ => portlessPath_live⟩ _ _ incomingDenied_synced rfl 1 _ rfl
  rintro first ⟨⟩
  decide

end Moatd
