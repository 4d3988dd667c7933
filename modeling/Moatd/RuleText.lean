import Moatd.AddressMatch
import Moatd.Wire

/-!
# What the texts of a rule denote

An address text is an address, or an address, a slash and a prefix length; a port text
is a port, or two ports and a dash.  `CidrText` and `PortText` say so with the standard
library's parsers for the parts, and `parse_cidr` and `parse_port_range` accept exactly
what denotes something in range.
-/

namespace Moatd

open Bits

/-! ### Splitting -/

theorem splitOnce_eq_some_iff {c : Char} {s a b : List Char} :
    splitOnce c s = some (a, b) ↔ s = a ++ c :: b ∧ c ∉ a := by
  induction s generalizing a with
  | nil => simp [splitOnce]
  | cons x xs ih =>
    rw [splitOnce]
    by_cases hx : x = c
    · subst hx
      rw [if_pos rfl]
      constructor
      · intro h
        cases h
        exact ⟨rfl, List.not_mem_nil⟩
      · rintro ⟨heq, hnot⟩
        cases a with
        | nil =>
          cases heq
          rfl
        | cons y a =>
          cases heq
          exact absurd List.mem_cons_self hnot
    · rw [if_neg hx]
      constructor
      · intro h
        obtain ⟨⟨a', b'⟩, hsplit, heq⟩ := Option.map_eq_some_iff.mp h
        cases heq
        obtain ⟨rfl, hnot⟩ := ih.mp hsplit
        exact ⟨rfl, by simp [hnot, Ne.symm hx]⟩
      · rintro ⟨heq, hnot⟩
        cases a with
        | nil =>
          cases heq
          exact absurd rfl hx
        | cons y a =>
          cases heq
          rw [ih.mpr ⟨rfl, fun h => hnot (List.mem_cons_of_mem _ h)⟩]
          rfl

theorem splitOnce_eq_none_iff {c : Char} {s : List Char} : splitOnce c s = none ↔ c ∉ s := by
  induction s with
  | nil => simp [splitOnce]
  | cons x xs ih =>
    rw [splitOnce]
    by_cases hx : x = c
    · simp [hx]
    · simp [hx, ih, Ne.symm hx]

theorem rsplitOnce_eq_some_iff {c : Char} {s a b : List Char} :
    rsplitOnce c s = some (a, b) ↔ s = a ++ c :: b ∧ c ∉ b := by
  rw [rsplitOnce]
  constructor
  · intro h
    obtain ⟨⟨b', a'⟩, hsplit, heq⟩ := Option.map_eq_some_iff.mp h
    cases heq
    obtain ⟨hs, hnot⟩ := splitOnce_eq_some_iff.mp hsplit
    refine ⟨?_, by simpa using hnot⟩
    rw [← List.reverse_reverse s, hs]
    simp
  · rintro ⟨rfl, hnot⟩
    have hsplit : splitOnce c (a ++ c :: b).reverse = some (b.reverse, a.reverse) :=
      splitOnce_eq_some_iff.mpr ⟨by simp, by simpa using hnot⟩
    rw [hsplit]
    simp

theorem rsplitOnce_eq_none_iff {c : Char} {s : List Char} : rsplitOnce c s = none ↔ c ∉ s := by
  rw [rsplitOnce, Option.map_eq_none_iff, splitOnce_eq_none_iff, List.mem_reverse]

/-! ### Ports -/

/-- The text denotes the ports from `lo` to `hi`. -/
inductive PortText (text : String) : UInt16 → UInt16 → Prop
  | single {port : UInt16} (hdash : '-' ∉ text.toList) (hport : parseU16 text.toList = .ok port) :
    PortText text port port
  | range {loS hiS : List Char} {lo hi : UInt16} (htext : text.toList = loS ++ '-' :: hiS)
    (hdash : '-' ∉ loS) (hlo : parseU16 loS = .ok lo) (hhi : parseU16 hiS = .ok hi) :
    PortText text lo hi

theorem PortText.unique {text : String} {lo hi lo' hi' : UInt16} (h : PortText text lo hi)
    (h' : PortText text lo' hi') : lo = lo' ∧ hi = hi' := by
  cases h with
  | single hdash hport =>
    cases h' with
    | single _ hport' =>
      cases hport.symm.trans hport'
      exact ⟨rfl, rfl⟩
    | range htext =>
      rw [htext] at hdash
      simp at hdash
  | range htext hdash hlo hhi =>
    cases h' with
    | single hdash' =>
      rw [htext] at hdash'
      simp at hdash'
    | range htext' hdash' hlo' hhi' =>
      have hsplit := splitOnce_eq_some_iff.mpr ⟨htext, hdash⟩
      rw [splitOnce_eq_some_iff.mpr ⟨htext', hdash'⟩] at hsplit
      cases hsplit
      cases hlo.symm.trans hlo'
      cases hhi.symm.trans hhi'
      exact ⟨rfl, rfl⟩

/-- **What `parse_port_range` accepts**: a text for a range without port 0, low end
first. -/
theorem parsePortRange_ok {text : String} {ports : UInt16 × UInt16}
    (h : parsePortRange text = .ok ports) :
    PortText text ports.1 ports.2 ∧ ports.1 ≠ 0 ∧ ports.2 ≠ 0 ∧ ports.1 ≤ ports.2 := by
  unfold parsePortRange at h
  split at h
  · rename_i lo hi hsplit
    obtain ⟨htext, hdash⟩ := splitOnce_eq_some_iff.mp hsplit
    obtain ⟨l, hlo, h⟩ := Fallible.bind_eq_ok_iff.mp h
    obtain ⟨r, hhi, h⟩ := Fallible.bind_eq_ok_iff.mp h
    split at h
    · cases h
    · rename_i hrange
      cases h
      simp only [not_or] at hrange
      exact ⟨.range htext hdash (Fallible.mapError_eq_ok_iff.mp hlo)
        (Fallible.mapError_eq_ok_iff.mp hhi), hrange.1, hrange.2.1, UInt16.not_lt.mp hrange.2.2⟩
  · rename_i hsplit
    obtain ⟨p, hport, h⟩ := Fallible.bind_eq_ok_iff.mp h
    split at h
    · cases h
    · rename_i hzero
      cases h
      exact ⟨.single (splitOnce_eq_none_iff.mp hsplit) (Fallible.mapError_eq_ok_iff.mp hport),
        hzero, hzero, UInt16.le_refl p⟩

/-! ### Addresses -/

/-- An address in the standard library's sense: its family and its octets. -/
structure IpAddr where
  family : UInt8
  octets : List UInt8

/-- Number of bits. -/
def IpAddr.width (addr : IpAddr) : Nat := if addr.family = familyV6 then 128 else 32

theorem IpAddr.width_le (addr : IpAddr) : addr.width ≤ 128 := by
  unfold IpAddr.width
  split <;> decide

/-- `IpAddr::from_str`: an IPv4 address, or else an IPv6 address. -/
def ipAddrFromStr (s : List Char) : Option IpAddr :=
  match ipv4FromStr s with
  | some octets => some ⟨familyV4, octets⟩
  | none => (ipv6FromStr s).map fun octets => ⟨familyV6, octets⟩

/-- The text denotes the first `n` bits of the address. -/
inductive CidrText (text : String) : IpAddr → Nat → Prop
  | host {addr : IpAddr} (hslash : '/' ∉ text.toList)
    (haddr : ipAddrFromStr text.toList = some addr) : CidrText text addr addr.width
  | net {addrS prefixS : List Char} {addr : IpAddr} {n : UInt8}
    (htext : text.toList = addrS ++ '/' :: prefixS) (hslash : '/' ∉ prefixS)
    (haddr : ipAddrFromStr addrS = some addr) (hplen : parseU8 prefixS = .ok n)
    (hn : n.toNat ≤ addr.width) : CidrText text addr n.toNat

theorem CidrText.unique {text : String} {addr addr' : IpAddr} {n n' : Nat}
    (h : CidrText text addr n) (h' : CidrText text addr' n') : addr = addr' ∧ n = n' := by
  cases h with
  | host hslash haddr =>
    cases h' with
    | host _ haddr' =>
      cases haddr.symm.trans haddr'
      exact ⟨rfl, rfl⟩
    | net htext =>
      rw [htext] at hslash
      simp at hslash
  | net htext hslash haddr hplen =>
    cases h' with
    | host hslash' =>
      rw [htext] at hslash'
      simp at hslash'
    | net htext' hslash' haddr' hplen' =>
      have hsplit := rsplitOnce_eq_some_iff.mpr ⟨htext, hslash⟩
      rw [rsplitOnce_eq_some_iff.mpr ⟨htext', hslash'⟩] at hsplit
      cases hsplit
      cases haddr.symm.trans haddr'
      cases hplen.symm.trans hplen'
      exact ⟨rfl, rfl⟩

/-- The wire format of the first `n` bits of an address. -/
def IpAddr.cidr (addr : IpAddr) (n : Nat) : IpCidr :=
  ⟨addr.family, UInt8.ofNat n, Addr.ofList addr.octets⟩

theorem ipAddrFromStr_family {s : List Char} {addr : IpAddr} (h : ipAddrFromStr s = some addr) :
    addr.family = familyV4 ∨ addr.family = familyV6 := by
  unfold ipAddrFromStr at h
  split at h
  · cases h
    exact Or.inl rfl
  · obtain ⟨octets, -, rfl⟩ := Option.map_eq_some_iff.mp h
    exact Or.inr rfl

theorem parsePrefix_ok {whole n : UInt8} {p : Option (List Char)}
    (h : parsePrefix whole p = .ok n) :
    (p = none ∧ n = whole) ∨ ∃ s, p = some s ∧ parseU8 s = .ok n := by
  cases p with
  | none =>
    cases h
    exact Or.inl ⟨rfl, rfl⟩
  | some s =>
    exact Or.inr ⟨s, rfl, Fallible.mapError_eq_ok_iff.mp h⟩

/-- The prefix length of an address that has been read, checked against its family. -/
def cidrOf (family whole : UInt8) (version : String) (octets : List UInt8)
    (prefixS : Option (List Char)) : Except WireError IpCidr := do
  let prefixLen ← parsePrefix whole prefixS
  if whole < prefixLen then throw (.prefixOutOfRange prefixLen version)
  return ⟨family, prefixLen, Addr.ofList octets⟩

theorem cidrOf_ok {family whole : UInt8} {version : String} {octets : List UInt8}
    {prefixS : Option (List Char)} {cidr : IpCidr}
    (h : cidrOf family whole version octets prefixS = .ok cidr) :
    ∃ n, parsePrefix whole prefixS = .ok n ∧ n.toNat ≤ whole.toNat ∧
      cidr = ⟨family, n, Addr.ofList octets⟩ := by
  unfold cidrOf at h
  obtain ⟨n, hplen, h⟩ := Fallible.bind_eq_ok_iff.mp h
  split at h
  · cases h
  · rename_i hn
    cases h
    exact ⟨n, hplen, UInt8.le_iff_toNat_le.mp (UInt8.not_lt.mp hn), rfl⟩

/-- `parse_cidr` takes the text apart at its last slash and reads what stands before it. -/
theorem parseCidr_eq (text : String) :
    parseCidr text =
      match rsplitOnce '/' text.toList with
      | some (addrS, prefixS) =>
        match ipv4FromStr addrS, ipv6FromStr addrS with
        | some octets, _ => cidrOf familyV4 32 "IPv4" octets (some prefixS)
        | none, some octets => cidrOf familyV6 128 "IPv6" octets (some prefixS)
        | none, none => .error (.invalidAddress (String.ofList addrS))
      | none =>
        match ipv4FromStr text.toList, ipv6FromStr text.toList with
        | some octets, _ => cidrOf familyV4 32 "IPv4" octets none
        | none, some octets => cidrOf familyV6 128 "IPv6" octets none
        | none, none => .error (.invalidAddress (String.ofList text.toList)) := by
  unfold parseCidr
  cases rsplitOnce '/' text.toList with
  | none =>
    dsimp only
    cases ipv4FromStr text.toList <;> cases ipv6FromStr text.toList <;> rfl
  | some parts =>
    dsimp only
    cases ipv4FromStr parts.1 <;> cases ipv6FromStr parts.1 <;> rfl

/-- An address that has been read, with its prefix length. -/
theorem cidrOf_address {addrS : List Char} {prefixS : Option (List Char)} {cidr : IpCidr}
    (h : (match ipv4FromStr addrS, ipv6FromStr addrS with
      | some octets, _ => cidrOf familyV4 32 "IPv4" octets prefixS
      | none, some octets => cidrOf familyV6 128 "IPv6" octets prefixS
      | none, none => .error (.invalidAddress (String.ofList addrS))) = .ok cidr) :
    ∃ addr n, ipAddrFromStr addrS = some addr ∧
      parsePrefix (UInt8.ofNat addr.width) prefixS = .ok n ∧ n.toNat ≤ addr.width ∧
      cidr = ⟨addr.family, n, Addr.ofList addr.octets⟩ := by
  unfold ipAddrFromStr
  cases hv4 : ipv4FromStr addrS with
  | some octets =>
    rw [hv4] at h
    obtain ⟨n, hplen, hn, rfl⟩ := cidrOf_ok h
    exact ⟨⟨familyV4, octets⟩, n, rfl, hplen, hn, rfl⟩
  | none =>
    cases hv6 : ipv6FromStr addrS with
    | none =>
      rw [hv4, hv6] at h
      cases h
    | some octets =>
      rw [hv4, hv6] at h
      obtain ⟨n, hplen, hn, rfl⟩ := cidrOf_ok h
      exact ⟨⟨familyV6, octets⟩, n, rfl, hplen, hn, rfl⟩

/-- **What `parse_cidr` accepts**: a text for an address and a prefix length of its
family. -/
theorem parseCidr_ok {text : String} {cidr : IpCidr} (h : parseCidr text = .ok cidr) :
    ∃ addr n, CidrText text addr n ∧ n ≤ addr.width ∧ cidr = addr.cidr n := by
  rw [parseCidr_eq] at h
  cases hsplit : rsplitOnce '/' text.toList with
  | none =>
    rw [hsplit] at h
    obtain ⟨addr, n, haddr, hplen, hn, rfl⟩ := cidrOf_address h
    rcases parsePrefix_ok hplen with ⟨-, rfl⟩ | ⟨s, hs, -⟩
    · exact ⟨addr, addr.width, .host (rsplitOnce_eq_none_iff.mp hsplit) haddr, Nat.le_refl _, rfl⟩
    · cases hs
  | some parts =>
    obtain ⟨addrS, prefixS⟩ := parts
    rw [hsplit] at h
    obtain ⟨addr, n, haddr, hplen, hn, rfl⟩ := cidrOf_address h
    obtain ⟨htext, hslash⟩ := rsplitOnce_eq_some_iff.mp hsplit
    have hofNat : UInt8.ofNat n.toNat = n := UInt8.ofNat_toNat
    rcases parsePrefix_ok hplen with ⟨hs, -⟩ | ⟨s, hs, hparse⟩
    · cases hs
    · cases hs
      exact ⟨addr, n.toNat, .net htext hslash haddr hparse hn, hn, by rw [IpAddr.cidr, hofNat]⟩

end Moatd
