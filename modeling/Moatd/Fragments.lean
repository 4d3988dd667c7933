import Moatd.ConnKeys
import Moatd.IpPacket

/-!
# Fragments of a datagram

A datagram is cut into pieces, each of which travels in a packet of its own.  Over IPv4 the
pieces are of the payload; over IPv6 also of the extension headers that only the destination
reads, and every fragment repeats those in front of its fragment header.  The first piece
begins with the headers of the upper layer; of the others a fragment says no more than the
number of what was cut up.
-/

namespace Moatd

open Bytes Fallible

/-! ### Cutting -/

/-- A piece, with its offset in units of eight bytes. -/
structure Piece where
  offset : BitVec 13
  /-- More pieces follow. -/
  more : Bool
  payload : List UInt8

/-- The pieces of what stands from this offset on.  All but the last are multiples of eight
bytes. -/
inductive Cut : Nat → List UInt8 → List Piece → Prop
  | last {offset : Nat} {payload : List UInt8} (hoffset : offset < 2 ^ 13)
      (hpayload : payload ≠ []) : Cut offset payload [⟨BitVec.ofNat 13 offset, false, payload⟩]
  | more {offset words : Nat} {payload rest : List UInt8} {pieces : List Piece}
      (hoffset : offset < 2 ^ 13) (hwords : 0 < words) (hlength : payload.length = 8 * words)
      (hrest : Cut (offset + words) rest pieces) :
    Cut offset (payload ++ rest) (⟨BitVec.ofNat 13 offset, true, payload⟩ :: pieces)

theorem ofNat_offset_ne_zero {offset : Nat} (hoffset : offset < 2 ^ 13) (hpos : 0 < offset) :
    BitVec.ofNat 13 offset ≠ 0 := by
  intro hzero
  have hnat := congrArg BitVec.toNat hzero
  rw [BitVec.toNat_ofNat, Nat.mod_eq_of_lt hoffset] at hnat
  exact absurd hnat (Nat.ne_of_gt hpos)

/-- Pieces that do not begin the payload have an offset. -/
theorem Cut.offset_ne_zero {offset : Nat} {payload : List UInt8} {pieces : List Piece}
    (h : Cut offset payload pieces) (hpos : 0 < offset) :
    ∀ piece ∈ pieces, piece.offset ≠ 0 := by
  induction h with
  | last hoffset _ =>
    intro piece hpiece
    obtain rfl := List.mem_singleton.mp hpiece
    exact ofNat_offset_ne_zero hoffset hpos
  | more hoffset hwords _ _ ih =>
    intro piece hpiece
    rcases List.mem_cons.mp hpiece with rfl | hpiece
    · exact ofNat_offset_ne_zero hoffset hpos
    · exact ih (Nat.add_pos_left hpos _) piece hpiece

/-- **The first piece, and the others.** -/
theorem Cut.cases {payload : List UInt8} {pieces : List Piece} (h : Cut 0 payload pieces) :
    ∃ first later rest, pieces = first :: later ∧ first.offset = 0 ∧
      payload = first.payload ++ rest ∧ (first.more = false → rest = []) ∧
      ∀ piece ∈ later, piece.offset ≠ 0 := by
  rcases h with ⟨_, _⟩ | ⟨_, hwords, _, hrest⟩
  · exact ⟨_, [], [], rfl, rfl, (List.append_nil _).symm, fun _ => rfl, by simp⟩
  · exact ⟨_, _, _, rfl, rfl, rfl, fun hlast => Bool.noConfusion hlast,
      hrest.offset_ne_zero (by omega)⟩

/-- A payload cut in two. -/
theorem Cut.two {payload : List UInt8} {words : Nat} (hwords : 0 < words)
    (hlimit : words < 2 ^ 13) (hlength : 8 * words < payload.length) :
    Cut 0 payload [⟨0, true, payload.take (8 * words)⟩,
      ⟨BitVec.ofNat 13 words, false, payload.drop (8 * words)⟩] := by
  have hlast : Cut (0 + words) (payload.drop (8 * words))
      [⟨BitVec.ofNat 13 (0 + words), false, payload.drop (8 * words)⟩] := by
    refine .last (by omega) fun hnil => ?_
    exact absurd (List.drop_eq_nil_iff.mp hnil) (Nat.not_le_of_lt hlength)
  have hcut := Cut.more (by decide) hwords
    (List.length_take_of_le (Nat.le_of_lt hlength)) hlast
  rwa [List.take_append_drop, Nat.zero_add] at hcut

/-! ### Datagrams -/

/-- A datagram as its sender has it.  Over IPv6 `outer` are the extension headers that every
fragment repeats, `inner` those that are cut up with the upper layer. -/
inductive Datagram
  | v4 (src dst : V4Addr) (ident : UInt16) (upper : Upper false) (rest : List UInt8)
  | v6 (src dst : Vector UInt8 16) (identHigh identLow : UInt16) (outer inner : List Ext)
      (upper : Upper true) (rest : List UInt8)

namespace Datagram

/-- The datagram is of IPv6. -/
def isV6 : Datagram → Bool
  | v4 .. => false
  | v6 .. => true

/-- The protocol of the upper layer. -/
def proto : Datagram → UInt8
  | v4 _ _ _ upper _ => upper.number
  | v6 _ _ _ _ _ _ upper _ => upper.number

/-- The extension headers in the fragmentable part. -/
def inner : Datagram → List Ext
  | v4 .. => []
  | v6 _ _ _ _ _ inner _ _ => inner

/-- The number of what was cut up. -/
def next (d : Datagram) : UInt8 := firstNumber d.inner d.proto

/-- The headers that are cut up, as far as the parser reads them. -/
def heads : Datagram → List UInt8
  | v4 _ _ _ upper _ => upper.bytes
  | v6 _ _ _ _ _ inner upper _ => extBytes inner upper.number ++ upper.bytes

/-- What is cut up. -/
def payload : Datagram → List UInt8
  | d@(v4 _ _ _ _ rest) => d.heads ++ rest
  | d@(v6 _ _ _ _ _ _ _ rest) => d.heads ++ rest

/-- The chain of a first fragment is one that the walk gets behind. -/
def Fits : Datagram → Prop
  | v4 .. => True
  | v6 _ _ _ _ outer inner _ _ => outer.length + (inner.length + 1) ≤ 3 ∧
      (outer.map Ext.length).sum + (8 + (inner.map Ext.length).sum) ≤ 64

/-- What the data path should make of the first fragment. -/
def parsed : Datagram → Parsed
  | v4 src dst _ upper _ =>
    ⟨familyV4, upper.protoByte, upper.icmpType, src.padded, dst.padded, upper.srcPort,
      upper.dstPort⟩
  | v6 src dst _ _ _ _ upper _ =>
    ⟨familyV6, upper.protoByte, upper.icmpType, src, dst, upper.srcPort, upper.dstPort⟩

/-- What it should make of the others. -/
def laterParsed (d : Datagram) : Parsed :=
  { d.parsed with
    protoByte := keptProto d.isV6 d.next, icmpType := 0, srcPort := 0, dstPort := 0 }

end Datagram

/-! ### Fragments -/

/-- The header of an IPv4 fragment goes with a whole packet or with a later fragment. -/
def contentAt (upper : Upper false) (offset : BitVec 13) : V4Content :=
  if h : offset = 0 then .initial upper else .later offset h upper.number

/-- A fragment header. -/
def fragmentHeader (next reserved : UInt8) (offset : BitVec 13) (flags : BitVec 3)
    (identHigh identLow : UInt16) : List UInt8 :=
  let field : UInt16 := ⟨offset ++ flags⟩
  [next, reserved, hi16 field, lo16 field, hi16 identHigh, lo16 identHigh, hi16 identLow,
    lo16 identLow]

/-- The IP packets that carry a piece.  They have the addresses and the identification of the
datagram, and the lowest flag says whether more pieces follow.  A frame may be padded, but
one with an IPv6 fragment that others follow is long enough without. -/
inductive Datagram.Carries : Datagram → Piece → List UInt8 → Prop
  | v4 {upper : Upper false} {rest padding : List UInt8} {piece : Piece} (header : V4Header)
      (hmore : header.flags.getLsbD 0 = piece.more) :
    Carries (.v4 header.src header.dst header.ident upper rest) piece
      ((header.fixed (contentAt upper piece.offset)).toList ++
        (header.options ++ (piece.payload ++ padding)))
  | v6 {identHigh identLow : UInt16} {outer inner : List Ext} {upper : Upper true}
      {rest padding : List UInt8} {piece : Piece} (header : V6Header) (reserved : UInt8)
      (flags : BitVec 3) (hmore : flags.getLsbD 0 = piece.more)
      (hpadding : piece.offset = 0 → piece.more = true → padding = []) :
    Carries (.v6 header.src header.dst identHigh identLow outer inner upper rest) piece
      ((header.fixed (firstNumber outer nhFragment)).toList ++
        (extBytes outer nhFragment ++
          (fragmentHeader (firstNumber inner upper.number) reserved piece.offset flags identHigh
            identLow ++ (piece.payload ++ padding))))

/-- A frame with a fragment of the datagram. -/
structure Datagram.Fragment (d : Datagram) where
  l2 : L2Form
  piece : Piece
  ip : List UInt8
  hip : d.Carries piece ip

/-- The bytes of the fragment on its link. -/
def Datagram.Fragment.bytes {d : Datagram} (f : d.Fragment) : List UInt8 :=
  f.l2.bytes (ipEthertype d.isV6) ++ f.ip

/-- The frames carry the datagram, cut into pieces. -/
def Datagram.Split (d : Datagram) (fragments : List d.Fragment) : Prop :=
  Cut 0 d.payload (fragments.map Fragment.piece)

/-! ### Reading fragments -/

theorem firstNumber_append (outer inner : List Ext) (ext : Ext) (number : UInt8) :
    firstNumber (outer ++ ext :: inner) number = firstNumber outer ext.number := by
  cases outer <;> rfl

theorem extBytes_append (outer inner : List Ext) (ext : Ext) (number : UInt8) :
    extBytes (outer ++ ext :: inner) number =
      extBytes outer ext.number ++ (ext.bytes (firstNumber inner number) ++
        extBytes inner number) := by
  induction outer with
  | nil => rfl
  | cons first outer ih =>
    simp only [List.cons_append, extBytes, ih, firstNumber_append, List.append_assoc]

theorem fragmentHeader_first (next reserved : UInt8) (flags : BitVec 3)
    (identHigh identLow : UInt16) :
    fragmentHeader next reserved 0 flags identHigh identLow =
      (Ext.fragment reserved flags identHigh identLow).bytes next := rfl

/-- The chain that the walk meets in a first fragment. -/
theorem length_chain (outer inner : List Ext) (ext : Ext) :
    (outer ++ ext :: inner).length = outer.length + (inner.length + 1) ∧
      ((outer ++ ext :: inner).map Ext.length).sum =
        (outer.map Ext.length).sum + (ext.length + (inner.map Ext.length).sum) := by
  simp

namespace Datagram

variable {d : Datagram}

theorem beginsWith {piece : Piece} {ip : List UInt8} (h : d.Carries piece ip) :
    BeginsWith d.isV6 ip := by
  rcases h with ⟨header, _⟩ | ⟨header, _, _, _, _⟩
  · exact ⟨header.versionIhl, header.tos, _, rfl, header.version_eq⟩
  · exact header.beginsWith _ _

/-- A fragment is found behind every L2 form. -/
theorem Fragment.parsePacket_eq (f : d.Fragment) {l2Off : Nat} (hl2 : f.l2.At l2Off) :
    parsePacket f.bytes l2Off =
      parseIp d.isV6 f.bytes (f.l2.bytes (ipEthertype d.isV6)).length :=
  parsePacket_l2 f.l2 (fun _ => beginsWith f.hip) hl2

/-- **A later fragment is read**, if the chain in front of its fragment header fits. -/
theorem Fragment.parse_later (f : d.Fragment) (hfits : d.Fits) (hlater : f.piece.offset ≠ 0)
    {l2Off : Nat} (hl2 : f.l2.At l2Off) :
    parsePacket f.bytes l2Off = .ok (some d.laterParsed) := by
  obtain ⟨l2, piece, ip, hip⟩ := f
  rcases hip with @⟨upper, rest, padding, _, header, hmore⟩ |
    @⟨identHigh, identLow, outer, inner, upper, rest, padding, _, header, reserved, flags, hmore,
      hpadding⟩
  · have hread := Frame.parsePacket_eq ⟨l2, .plain (.v4 header (.later piece.offset hlater
      upper.number)), piece.payload ++ padding⟩ hl2
    have hcontent : contentAt upper piece.offset = .later piece.offset hlater upper.number :=
      dif_neg hlater
    simp only [Fragment.bytes, hcontent]
    simp only [Frame.bytes, IpPacket.bytes, Network.bytes, V4Content.bytes, List.append_nil,
      List.append_assoc] at hread
    exact hread
  · have hread := Frame.parsePacket_eq ⟨l2, .v6Later header ⟨outer, by unfold Fits at hfits; omega,
      by unfold Fits at hfits; omega⟩ ⟨firstNumber inner upper.number, reserved, piece.offset,
      hlater, flags, identHigh, identLow⟩, piece.payload ++ padding⟩ hl2
    simp only [Frame.bytes, IpPacket.bytes, List.append_assoc] at hread
    exact hread

/-- **A first fragment is read like the whole datagram**, if it holds the headers of the upper
layer and its chain fits. -/
theorem Fragment.parse_first (f : d.Fragment) (hfits : d.Fits) (hfirst : f.piece.offset = 0)
    {more : List UInt8} (hholds : f.piece.payload = d.heads ++ more) {l2Off : Nat}
    (hl2 : f.l2.At l2Off) : parsePacket f.bytes l2Off = .ok (some d.parsed) := by
  obtain ⟨l2, ⟨offset, moreFollow, payload⟩, ip, hip⟩ := f
  obtain rfl : offset = 0 := hfirst
  obtain rfl : payload = d.heads ++ more := hholds
  rcases hip with @⟨upper, rest, padding, _, header, hmore⟩ |
    @⟨identHigh, identLow, outer, inner, upper, rest, padding, _, header, reserved, flags, hmore,
      hpadding⟩
  · have hread := Frame.parsePacket_eq ⟨l2, .plain (.v4 header (.initial upper)),
      more ++ padding⟩ hl2
    have hcontent : contentAt upper 0 = .initial upper := rfl
    simp only [Fragment.bytes, hcontent, heads]
    simp only [Frame.bytes, IpPacket.bytes, Network.bytes, V4Content.bytes,
      List.append_assoc] at hread ⊢
    exact hread
  · obtain ⟨hcount, hlength⟩ := hfits
    obtain ⟨hchainCount, hchainLength⟩ :=
      length_chain outer inner (.fragment reserved flags identHigh identLow)
    have hread := Frame.parsePacket_eq ⟨l2, .plain (.v6 header
      ⟨outer ++ .fragment reserved flags identHigh identLow :: inner,
        by rw [hchainCount]; exact hcount, by rw [hchainLength]; exact hlength⟩ upper),
      more ++ padding⟩ hl2
    simp only [Fragment.bytes, heads, fragmentHeader_first]
    simp only [Frame.bytes, IpPacket.bytes, Network.bytes, firstNumber_append, extBytes_append,
      List.append_assoc] at hread ⊢
    exact hread

end Datagram

/-! ### What a first fragment that is read has -/

section Walk
variable {packet : List UInt8}

/-- Bytes behind the packet do not change where the walk through it ends. -/
theorem ExtWalk.append (tail : List UInt8) {number : UInt8} {off : Nat} {steps : List Nat}
    {r : WalkEnd} (h : ExtWalk packet number off steps r) :
    ExtWalk (packet ++ tail) number off steps r := by
  have hget : ∀ {k : Nat} {b : UInt8}, packet[k]? = some b →
      (packet ++ tail)[k]? = some b := by
    intro k b hk
    rw [List.getElem?_append_left (List.getElem?_eq_some_iff.mp hk).1]
    exact hk
  have hfragment : ∀ {off next offset}, FragmentAt packet off next offset →
      FragmentAt (packet ++ tail) off next offset := by
    rintro off next offset ⟨hlen, hnext, field, ⟨hi, lo, hhi, hlo, hfield⟩, hoffset⟩
    refine ⟨?_, hget hnext, field, ⟨hi, lo, hget hhi, hget hlo, hfield⟩, hoffset⟩
    rw [List.length_append]
    omega
  induction h with
  | tlv kind hnumber hnext hwords _ ih => exact .tlv kind hnumber (hget hnext) (hget hwords) ih
  | fragment hnumber hfirst _ ih => exact .fragment hnumber (hfragment hfirst) ih
  | later hnumber hlater hoffset => exact .later hnumber (hfragment hlater) hoffset
  | upper hfragment hkinds => exact .upper hfragment hkinds

/-- The walk along a chain takes a step for each header and one at its end. -/
theorem extWalk_chain (upper : Upper true) (exts : List Ext) (pre post : List UInt8) :
    ∃ steps, ExtWalk (pre ++ (extBytes exts upper.number ++ post)) (firstNumber exts upper.number)
        pre.length steps (upper.number, pre.length + (exts.map Ext.length).sum, false) ∧
      steps.length = exts.length + 1 ∧ pre.length + (exts.map Ext.length).sum ∈ steps := by
  induction exts generalizing pre with
  | nil =>
    obtain ⟨htlv, hfragment⟩ := upper.number_ends
    have hkinds : ∀ kind : ExtKind, upper.number ≠ kind.number := by
      intro kind hkind
      rw [isTlv_iff.mpr ⟨kind, hkind⟩] at htlv
      cases htlv
    exact ⟨[pre.length], .upper hfragment hkinds, rfl, List.mem_singleton_self _⟩
  | cons ext exts ih =>
    obtain ⟨steps, hwalk, hlength, hlast⟩ := ih (pre ++ ext.bytes (firstNumber exts upper.number))
    have hlen : (pre ++ ext.bytes (firstNumber exts upper.number)).length =
        pre.length + ext.length := by
      rw [List.length_append, Ext.length_bytes]
    rw [hlen, List.append_assoc, Nat.add_assoc] at hwalk
    rw [hlen, Nat.add_assoc] at hlast
    -- what the walk reads of this header lies behind `pre`
    have hget : ∀ k b, (ext.bytes (firstNumber exts upper.number))[k]? = some b →
        (pre ++ (ext.bytes (firstNumber exts upper.number) ++
          (extBytes exts upper.number ++ post)))[pre.length + k]? = some b := by
      intro k b hk
      rw [List.getElem?_append_right (Nat.le_add_right _ _), Nat.add_sub_cancel_left,
        List.getElem?_append_left (List.getElem?_eq_some_iff.mp hk).1]
      exact hk
    refine ⟨pre.length :: steps, ?_, by rw [List.length_cons, hlength, List.length_cons],
      List.mem_cons_of_mem _ hlast⟩
    rw [extBytes, List.append_assoc, firstNumber]
    rcases ext with ⟨kind, words, body, hbody⟩ | ⟨reserved, flags, identHigh, identLow⟩
    · exact .tlv kind rfl (hget 0 _ rfl) (hget 1 _ rfl) hwalk
    · refine .fragment rfl ⟨?_, hget 0 _ rfl, fragFlags flags, ⟨_, _, hget 2 _ rfl, hget 3 _ rfl,
        be16_hi_lo _⟩, ?_⟩ hwalk
      · simp only [List.length_append, Ext.length_bytes, Ext.length]
        omega
      · exact (fragOff_mask_iff _).mp (fragFlags_mask flags)

end Walk

namespace Datagram

variable {d : Datagram}

/-- The protocol of an IPv4 packet is in its header, whatever its offset is. -/
theorem protoByte_of_parseV4 {header : V4Header} {content : V4Content} {front body : List UInt8}
    {p : Parsed} (h : parseV4 (front ++ ((header.fixed content).toList ++ body)) front.length =
      .ok (some p)) : p.protoByte = keptProto false content.proto := by
  have hbyte : (front ++ ((header.fixed content).toList ++ body))[front.length + 9]? =
      some content.proto := by
    rw [List.getElem?_append_right (Nat.le_add_right _ _), Nat.add_sub_cancel_left,
      List.getElem?_append_left (by rw [Vector.length_toList]; decide), Vector.getElem?_toList]
    rfl
  obtain ⟨-, -, -, ⟨proto, hlater, hfields⟩ | ⟨proto, l4Off, hpayload, hl4⟩⟩ :=
    parseIp_fields (show parseIp false _ _ = _ from h)
  · rcases hlater with ⟨_, _, hproto⟩
    cases hproto.symm.trans hbyte
    rw [Prod.mk.injEq, Prod.mk.injEq, Prod.mk.injEq] at hfields
    exact hfields.2.2.1
  · rcases hpayload with ⟨_, _, _, hproto⟩
    cases hproto.symm.trans hbyte
    exact (parseL4_fields hl4).1

section First
variable (identHigh identLow : UInt16) (outer : List Ext) {inner : List Ext} {upper : Upper true}
  {drest payload padding rest : List UInt8} (header : V6Header) (reserved : UInt8)
  (flags : BitVec 3) (front : List UInt8)

/-- An IPv6 fragment that begins the payload is, with what was cut off, the whole chain. -/
theorem chain_of_first
    (hpayload : extBytes inner upper.number ++ upper.bytes ++ drest = payload ++ rest)
    (hpadding : padding = [] ∨ rest = []) :
    ∃ tail post, front ++ ((header.fixed (firstNumber outer nhFragment)).toList ++
        (extBytes outer nhFragment ++ (fragmentHeader (firstNumber inner upper.number) reserved 0
          flags identHigh identLow ++ (payload ++ padding)))) ++ tail =
      front ++ (header.fixed (firstNumber outer nhFragment)).toList ++
        (extBytes (outer ++ .fragment reserved flags identHigh identLow :: inner) upper.number ++
          post) := by
  simp only [extBytes_append, fragmentHeader_first, Ext.number, List.append_assoc] at hpayload ⊢
  rcases hpadding with rfl | rfl
  · exact ⟨rest, upper.bytes ++ drest, by rw [hpayload, List.nil_append]⟩
  · refine ⟨[], upper.bytes ++ (drest ++ padding), ?_⟩
    rw [List.append_nil] at hpayload
    simp only [← hpayload, List.append_assoc, List.append_nil]

/-- If it is read then the walk has gone along this chain. -/
theorem chain_of_parseV6
    (hpayload : extBytes inner upper.number ++ upper.bytes ++ drest = payload ++ rest)
    (hpadding : padding = [] ∨ rest = []) {p : Parsed}
    (h : parseV6 (front ++ ((header.fixed (firstNumber outer nhFragment)).toList ++
        (extBytes outer nhFragment ++ (fragmentHeader (firstNumber inner upper.number) reserved 0
          flags identHigh identLow ++ (payload ++ padding))))) front.length = .ok (some p)) :
    outer.length + (inner.length + 1) ≤ 3 ∧
      (outer.map Ext.length).sum + (8 + (inner.map Ext.length).sum) ≤ 64 ∧
      p.protoByte = keptProto true upper.number := by
  obtain ⟨tail, post, hwhole⟩ := chain_of_first identHigh identLow outer header reserved flags
    front hpayload hpadding
  obtain ⟨ipv6, hread, h⟩ := bind_eq_ok_iff.mp h
  obtain ⟨r, hwalk, h⟩ := bind_eq_ok_iff.mp h
  cases (ptrAtData_layout front (header.fixed (firstNumber outer nhFragment)) _ rfl rfl).symm.trans
    hread
  have hnext : (header.fixed (firstNumber outer nhFragment))[6] = firstNumber outer nhFragment :=
    Option.some.inj ((Vector.getElem?_eq_getElem (by decide)).symm.trans (header.fixed_next _))
  rw [hnext] at hwalk
  obtain ⟨steps, hsteps, hcount, hspace⟩ := walkV6Ext_eq_ok_iff.mp hwalk
  -- what was cut off does not change the walk, and there is one walk along the whole chain
  obtain ⟨steps', hchain, hchainCount, hmem⟩ := extWalk_chain upper
    (outer ++ .fragment reserved flags identHigh identLow :: inner)
    (front ++ (header.fixed (firstNumber outer nhFragment)).toList) post
  have happend := hsteps.append tail
  have hstart : (front ++ (header.fixed (firstNumber outer nhFragment)).toList).length =
      front.length + ipv6HdrLen := by
    rw [List.length_append, Vector.length_toList]
    rfl
  rw [hwhole] at happend
  rw [firstNumber_append, hstart] at hchain
  obtain ⟨rfl, rfl⟩ := happend.unique hchain
  obtain ⟨hlengthCount, hlengthSum⟩ :=
    length_chain outer inner (.fragment reserved flags identHigh identLow)
  rw [hchainCount, hlengthCount] at hcount
  rw [hstart, hlengthSum] at hmem
  have hlast := hspace _ hmem
  obtain ⟨fields, hl4, h⟩ := bind_eq_ok_iff.mp h
  cases h
  refine ⟨Nat.le_of_succ_le_succ hcount, ?_, (parseL4_fields hl4).1⟩
  unfold maxV6ExtBytes at hlast
  rw [show (Ext.fragment reserved flags identHigh identLow).length = 8 from rfl] at hlast
  omega

end First

/-- **A first fragment that is read** has a chain that fits, and the protocol of the upper
layer, even where it does not hold all of the chain. -/
theorem Fragment.of_parse_first (f : d.Fragment) (hfirst : f.piece.offset = 0)
    {rest : List UInt8} (hpayload : d.payload = f.piece.payload ++ rest)
    (hlast : f.piece.more = false → rest = []) {l2Off : Nat} (hl2 : f.l2.At l2Off) {p : Parsed}
    (hparse : parsePacket f.bytes l2Off = .ok (some p)) :
    d.Fits ∧ p.protoByte = keptProto d.isV6 d.proto := by
  rw [f.parsePacket_eq hl2] at hparse
  obtain ⟨l2, ⟨offset, moreFollow, payload⟩, ip, hip⟩ := f
  obtain rfl : offset = 0 := hfirst
  rcases hip with @⟨upper, drest, padding, _, header, hmore⟩ |
    @⟨identHigh, identLow, outer, inner, upper, drest, padding, _, header, reserved, flags, hmore,
      hpadding⟩
  · exact ⟨trivial, protoByte_of_parseV4 hparse⟩
  · have hend : padding = [] ∨ rest = [] := by
      rcases moreFollow with _ | _
      · exact Or.inr (hlast rfl)
      · exact Or.inl (hpadding rfl rfl)
    obtain ⟨hcount, hlength, hproto⟩ :=
      chain_of_parseV6 identHigh identLow outer header reserved flags (l2.bytes ethPIpv6) hpayload
        hend hparse
    exact ⟨⟨hcount, hlength⟩, hproto⟩

end Datagram

end Moatd
