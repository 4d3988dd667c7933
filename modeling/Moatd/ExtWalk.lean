import Moatd.Bits
import Moatd.DataPath
import Moatd.Fallible
import Moatd.PacketParse

/-!
# Walks over extension headers

An IPv6 header is followed by a chain of extension headers, each of which names the next
one.  `ExtWalk` follows the chain as far as it goes.  `walk_v6_ext` takes four steps at
most, none of which begins more than 64 bytes behind the first.  It finds what the
unbounded walk finds, or it fails, and then the packet is dropped.
-/

namespace Moatd

open Bytes Fallible

/-! ### The unbounded walk -/

/-- What a walk comes to: the protocol, its offset, and whether it is in a later
fragment. -/
abbrev WalkEnd := UInt8 × Nat × Bool

/-- Two bytes in the packet, the high one first. -/
def Be16At (packet : List UInt8) (off : Nat) (x : UInt16) : Prop :=
  ∃ hi lo, packet[off]? = some hi ∧ packet[off + 1]? = some lo ∧ be16 hi lo = x

/-- A fragment header of eight bytes is there, with the number of the next header and the
offset, which is the high 13 bits of its third and fourth byte. -/
def FragmentAt (packet : List UInt8) (off : Nat) (next : UInt8) (offset : UInt16) : Prop :=
  off + 8 ≤ packet.length ∧ packet[off]? = some next ∧
    ∃ field, Be16At packet (off + 2) field ∧ field >>> 3 = offset

/-- The walk from the header with this number at this offset, along the steps that
begin at the listed offsets. -/
inductive ExtWalk (packet : List UInt8) : UInt8 → Nat → List Nat → WalkEnd → Prop
  /-- A header that says its own length, behind the number of the next one. -/
  | tlv {number next words : UInt8} {off : Nat} {steps : List Nat} {r : WalkEnd} (kind : ExtKind)
      (hnumber : number = kind.number) (hnext : packet[off]? = some next)
      (hwords : packet[off + 1]? = some words)
      (hrest : ExtWalk packet next (off + (words.toNat + 1) * 8) steps r) :
    ExtWalk packet number off (off :: steps) r
  /-- The fragment header of a first fragment. -/
  | fragment {number next : UInt8} {off : Nat} {steps : List Nat} {r : WalkEnd}
      (hnumber : number = nhFragment) (hfirst : FragmentAt packet off next 0)
      (hrest : ExtWalk packet next (off + 8) steps r) :
    ExtWalk packet number off (off :: steps) r
  /-- Of a later one: behind it stands no header. -/
  | later {number next : UInt8} {off : Nat} {offset : UInt16} (hnumber : number = nhFragment)
      (hfragment : FragmentAt packet off next offset) (hlater : offset ≠ 0) :
    ExtWalk packet number off [off] (next, off + 8, true)
  | upper {number : UInt8} {off : Nat} (hfragment : number ≠ nhFragment)
      (hkinds : ∀ kind : ExtKind, number ≠ kind.number) :
    ExtWalk packet number off [off] (number, off, false)

theorem Be16At.unique {packet : List UInt8} {off : Nat} {x x' : UInt16} (h : Be16At packet off x)
    (h' : Be16At packet off x') : x = x' := by
  obtain ⟨hi, lo, hhi, hlo, rfl⟩ := h
  obtain ⟨hi', lo', hhi', hlo', rfl⟩ := h'
  cases hhi.symm.trans hhi'
  cases hlo.symm.trans hlo'
  rfl

theorem FragmentAt.unique {packet : List UInt8} {off : Nat} {next next' : UInt8}
    {offset offset' : UInt16} (h : FragmentAt packet off next offset)
    (h' : FragmentAt packet off next' offset') : next = next' ∧ offset = offset' := by
  obtain ⟨-, hnext, field, hfield, rfl⟩ := h
  obtain ⟨-, hnext', field', hfield', rfl⟩ := h'
  cases hnext.symm.trans hnext'
  obtain rfl := hfield.unique hfield'
  exact ⟨rfl, rfl⟩

/-- A chain can be followed in one way only. -/
theorem ExtWalk.unique {packet : List UInt8} {number : UInt8} {off : Nat}
    {steps steps' : List Nat} {r r' : WalkEnd} (h : ExtWalk packet number off steps r)
    (h' : ExtWalk packet number off steps' r') : steps = steps' ∧ r = r' := by
  have hkind : ∀ kind : ExtKind, kind.number ≠ nhFragment := by
    intro kind
    cases kind <;> decide
  induction h generalizing steps' with
  | tlv kind hnumber hnext hwords hrest ih =>
    cases h' with
    | tlv _ _ hnext' hwords' hrest' =>
      cases hnext.symm.trans hnext'
      cases hwords.symm.trans hwords'
      obtain ⟨rfl, rfl⟩ := ih hrest'
      exact ⟨rfl, rfl⟩
    | fragment hnumber' => exact absurd (hnumber.symm.trans hnumber') (hkind kind)
    | later hnumber' => exact absurd (hnumber.symm.trans hnumber') (hkind kind)
    | upper _ hkinds => exact absurd hnumber (hkinds kind)
  | fragment hnumber hfirst hrest ih =>
    cases h' with
    | tlv kind hnumber' => exact absurd (hnumber'.symm.trans hnumber) (hkind kind)
    | fragment _ hfirst' hrest' =>
      obtain ⟨rfl, -⟩ := hfirst.unique hfirst'
      obtain ⟨rfl, rfl⟩ := ih hrest'
      exact ⟨rfl, rfl⟩
    | later _ hfragment' hlater => exact absurd (hfragment'.unique hfirst).2 hlater
    | upper hfragment => exact absurd hnumber hfragment
  | later hnumber hfragment hlater =>
    cases h' with
    | tlv kind hnumber' => exact absurd (hnumber'.symm.trans hnumber) (hkind kind)
    | fragment _ hfirst => exact absurd (hfragment.unique hfirst).2 hlater
    | later _ hfragment' =>
      obtain ⟨rfl, -⟩ := hfragment.unique hfragment'
      exact ⟨rfl, rfl⟩
    | upper hfragment => exact absurd hnumber hfragment
  | upper hfragment hkinds =>
    cases h' with
    | tlv kind hnumber => exact absurd hnumber (hkinds kind)
    | fragment hnumber => exact absurd hnumber hfragment
    | later hnumber => exact absurd hnumber hfragment
    | upper => exact ⟨rfl, rfl⟩

/-- The walk has an end within `fuel` steps, which all begin at most 64 bytes behind
`start`. -/
def EndsWithin (packet : List UInt8) (start fuel : Nat) (number : UInt8) (off : Nat)
    (r : WalkEnd) : Prop :=
  ∃ steps, ExtWalk packet number off steps r ∧ steps.length ≤ fuel ∧
    ∀ o ∈ steps, o ≤ start + maxV6ExtBytes

/-! ### One iteration -/

theorem isTlv_iff {number : UInt8} :
    isTlv number = true ↔ ∃ kind : ExtKind, number = kind.number := by
  constructor
  · intro h
    by_contra hnone
    rw [isTlv_eq_false fun kind hkind => hnone ⟨kind, hkind⟩] at h
    cases h
  · rintro ⟨kind, rfl⟩
    exact isTlv_number kind

/-- The mask of the code leaves of the field what the shift does. -/
theorem fragOff_mask_iff (fragOff : UInt16) : fragOff &&& 0xfff8 = 0 ↔ fragOff >>> 3 = 0 := by
  have hmask : (fragOff &&& 0xfff8).toBitVec =
      fragOff.toBitVec &&& (BitVec.allOnes 16 <<< (16 - 13)) := rfl
  have hzero : (0 : UInt16).toBitVec = 0#16 &&& (BitVec.allOnes 16 <<< (16 - 13)) := rfl
  have hshift : (fragOff >>> 3).toBitVec = fragOff.toBitVec >>> (16 - 13) := rfl
  rw [← UInt16.toBitVec_inj, ← UInt16.toBitVec_inj, hmask, hzero, hshift,
    Bits.and_mask_eq_iff (by decide), ← Bits.ushiftRight_eq_zero_iff (by decide)]
  rfl

section Read
variable {size : Nat} {packet : List UInt8} {off : Nat} {v : Vector UInt8 size}

/-- A read that succeeds gives the bytes from its offset on. -/
theorem ptrAtData_ok (h : ptrAtData size packet off = .ok v) :
    off + size ≤ packet.length ∧ ∀ i < size, packet[off + i]? = v[i]? := by
  unfold ptrAtData slice at h
  by_cases hlen : off + size ≤ packet.length
  · rw [dif_pos hlen] at h
    cases h
    refine ⟨hlen, fun i hi => ?_⟩
    rw [Vector.getElem?_eq_getElem hi, Vector.getElem_ofFn, List.get_eq_getElem,
      List.getElem?_eq_getElem]
  · rw [dif_neg hlen] at h
    cases h

theorem be16At_of_ptrAtData (h : ptrAtData size packet off = .ok v) {k : Nat} {hi lo : UInt8}
    (hhi : v[k]? = some hi) (hlo : v[k + 1]? = some lo) : Be16At packet (off + k) (be16 hi lo) := by
  obtain ⟨-, hbyte⟩ := ptrAtData_ok h
  have hlt : k + 1 < size := (Vector.getElem?_eq_some_iff.mp hlo).1
  exact ⟨hi, lo, (hbyte k (by omega)).trans hhi, (hbyte (k + 1) hlt).trans hlo, rfl⟩

theorem exists_ptrAtData (h : off + size ≤ packet.length) :
    ∃ v, ptrAtData size packet off = .ok v := by
  unfold ptrAtData slice
  rw [dif_pos h]
  exact ⟨_, rfl⟩

end Read

/-- What the code reads of a fragment header. -/
theorem fragmentAt_of_ptrAtData {packet : List UInt8} {off : Nat} {fh : Vector UInt8 8}
    {next hi lo : UInt8} (h : ptrAtData 8 packet off = .ok fh) (hnext : fh[0]? = some next)
    (hhi : fh[2]? = some hi) (hlo : fh[3]? = some lo) :
    FragmentAt packet off next (be16 hi lo >>> 3) := by
  obtain ⟨hlen, hbyte⟩ := ptrAtData_ok h
  exact ⟨hlen, (hbyte 0 (by decide)).trans hnext, _, be16At_of_ptrAtData h hhi hlo, rfl⟩

/-- A step in front of a walk that ends. -/
theorem EndsWithin.cons {packet : List UInt8} {start fuel : Nat} {number next : UInt8}
    {off off' : Nat} {r : WalkEnd} (h : EndsWithin packet start fuel next off' r)
    (hoff : off ≤ start + maxV6ExtBytes)
    (hstep : ∀ steps, ExtWalk packet next off' steps r →
      ExtWalk packet number off (off :: steps) r) :
    EndsWithin packet start (fuel + 1) number off r := by
  obtain ⟨steps, hwalk, hlength, hsteps⟩ := h
  refine ⟨off :: steps, hstep steps hwalk, Nat.succ_le_succ hlength, ?_⟩
  intro o ho
  rcases List.mem_cons.mp ho with rfl | ho
  · exact hoff
  · exact hsteps o ho

/-- The loop finds no more than the unbounded walk. -/
theorem endsWithin_of_walkV6ExtLoop {packet : List UInt8} {start : Nat} {r : WalkEnd} :
    ∀ {fuel : Nat} {number : UInt8} {off : Nat},
      walkV6ExtLoop packet start fuel number off = .ok r →
        EndsWithin packet start fuel number off r := by
  intro fuel
  induction fuel with
  | zero =>
    intro number off h
    cases h
  | succ fuel ih =>
    intro number off h
    rw [walkV6ExtLoop] at h
    split at h
    · cases h
    rename_i hspace
    have hoff : off ≤ start + maxV6ExtBytes := Nat.not_lt.mp hspace
    have hlast : ∀ o ∈ [off], o ≤ start + maxV6ExtBytes := by simpa using hoff
    split at h
    · rename_i htlv
      obtain ⟨kind, hkind⟩ := isTlv_iff.mp htlv
      obtain ⟨eh, hread, h⟩ := bind_eq_ok_iff.mp h
      obtain ⟨-, hbyte⟩ := ptrAtData_ok hread
      exact (ih h).cons hoff fun steps =>
        .tlv kind hkind (hbyte 0 (by decide)) (hbyte 1 (by decide))
    · rename_i htlv
      split at h
      · rename_i hfragment
        obtain ⟨fh, hread, h⟩ := bind_eq_ok_iff.mp h
        dsimp only at h
        split at h
        · rename_i hlater
          cases h
          exact ⟨[off], .later hfragment (fragmentAt_of_ptrAtData hread rfl rfl rfl)
            (mt (fragOff_mask_iff _).mpr hlater), Nat.le_add_left 1 fuel, hlast⟩
        · rename_i hmask
          have hfirst : FragmentAt packet off fh[0] 0 := by
            rw [← (fragOff_mask_iff _).mp (not_not.mp hmask)]
            exact fragmentAt_of_ptrAtData hread rfl rfl rfl
          exact (ih h).cons hoff fun steps => .fragment hfragment hfirst
      · rename_i hfragment
        cases h
        exact ⟨[off], .upper hfragment fun kind hkind => htlv (isTlv_iff.mpr ⟨kind, hkind⟩),
          Nat.le_add_left 1 fuel, hlast⟩

/-- It finds all of it that the bounds allow. -/
theorem ExtWalk.walkV6ExtLoop_eq {packet : List UInt8} {start : Nat} {number : UInt8} {off : Nat}
    {steps : List Nat} {r : WalkEnd} (h : ExtWalk packet number off steps r) :
    ∀ {fuel : Nat}, steps.length ≤ fuel → (∀ o ∈ steps, o ≤ start + maxV6ExtBytes) →
      walkV6ExtLoop packet start fuel number off = .ok r := by
  induction h with
  | @tlv number next words off steps r kind hnumber hnext hwords hrest ih =>
    intro fuel hlength hsteps
    obtain ⟨hlt, -⟩ := List.getElem?_eq_some_iff.mp hwords
    obtain ⟨eh, hread⟩ := exists_ptrAtData (show off + 2 ≤ packet.length from hlt)
    obtain ⟨-, hbyte⟩ := ptrAtData_ok hread
    cases hnext.symm.trans (hbyte 0 (by decide))
    cases hwords.symm.trans (hbyte 1 (by decide))
    obtain ⟨fuel, rfl⟩ := Nat.exists_eq_add_of_le' (Nat.le_trans (Nat.le_add_left 1 _) hlength)
    have hrestEq := ih (Nat.le_of_succ_le_succ hlength)
      fun o ho => hsteps o (List.mem_cons_of_mem _ ho)
    rw [walkV6ExtLoop, if_neg (Nat.not_lt.mpr (hsteps _ List.mem_cons_self)),
      if_pos (isTlv_iff.mpr ⟨kind, hnumber⟩), hread]
    exact hrestEq
  | fragment hnumber hfirst hrest ih =>
    intro fuel hlength hsteps
    obtain ⟨fh, hread⟩ := exists_ptrAtData hfirst.1
    obtain ⟨rfl, hoffset⟩ := (fragmentAt_of_ptrAtData hread rfl rfl rfl).unique hfirst
    obtain ⟨fuel, rfl⟩ := Nat.exists_eq_add_of_le' (Nat.le_trans (Nat.le_add_left 1 _) hlength)
    have hrestEq := ih (Nat.le_of_succ_le_succ hlength)
      fun o ho => hsteps o (List.mem_cons_of_mem _ ho)
    have hmask : ¬ be16 fh[2] fh[3] &&& 0xfff8 ≠ 0 := not_not.mpr ((fragOff_mask_iff _).mpr hoffset)
    subst hnumber
    rw [walkV6ExtLoop, if_neg (Nat.not_lt.mpr (hsteps _ List.mem_cons_self)),
      show isTlv nhFragment = false from rfl, if_neg Bool.false_ne_true, if_pos rfl,
      hread]
    simp only [bind, Except.bind, if_neg hmask]
    exact hrestEq
  | later hnumber hfragment hlater =>
    intro fuel hlength hsteps
    obtain ⟨fh, hread⟩ := exists_ptrAtData hfragment.1
    obtain ⟨rfl, rfl⟩ := (fragmentAt_of_ptrAtData hread rfl rfl rfl).unique hfragment
    obtain ⟨fuel, rfl⟩ := Nat.exists_eq_add_of_le' (show 1 ≤ fuel from hlength)
    have hmask : be16 fh[2] fh[3] &&& 0xfff8 ≠ 0 := mt (fragOff_mask_iff _).mp hlater
    subst hnumber
    rw [walkV6ExtLoop, if_neg (Nat.not_lt.mpr (hsteps _ List.mem_cons_self)),
      show isTlv nhFragment = false from rfl, if_neg Bool.false_ne_true, if_pos rfl,
      hread]
    simp only [bind, Except.bind, if_pos hmask]
    rfl
  | upper hfragment hkinds =>
    intro fuel hlength hsteps
    obtain ⟨fuel, rfl⟩ := Nat.exists_eq_add_of_le' (show 1 ≤ fuel from hlength)
    rw [walkV6ExtLoop, if_neg (Nat.not_lt.mpr (hsteps _ List.mem_cons_self)),
      isTlv_eq_false hkinds, if_neg Bool.false_ne_true, if_neg hfragment]

/-- **The loop finds what the unbounded walk does**, within its bounds. -/
theorem walkV6Ext_eq_ok_iff {packet : List UInt8} {nextHdr : UInt8} {start : Nat} {r : WalkEnd} :
    walkV6Ext packet nextHdr start = .ok r ↔
      EndsWithin packet start maxV6ExtHdrs nextHdr start r := by
  constructor
  · exact endsWithin_of_walkV6ExtLoop
  · rintro ⟨steps, hwalk, hlength, hsteps⟩
    exact hwalk.walkV6ExtLoop_eq hlength hsteps

/-! ### The packet around the chain -/

/-- A packet with an IPv6 header, behind which anything may stand. -/
structure V6Frame where
  l2 : L2Form
  /-- The version, the traffic class, the flow label and the payload length. -/
  front : Vector UInt8 6
  nextHdr : UInt8
  /-- The hop limit and the addresses. -/
  back : Vector UInt8 33
  rest : List UInt8
  hversion : l2 = .raw → BeginsWith true front.toList

/-- The fixed header, its next header byte in its place. -/
def V6Frame.header (f : V6Frame) : Vector UInt8 40 := f.front.push f.nextHdr ++ f.back

/-- The bytes of the frame. -/
def V6Frame.bytes (f : V6Frame) : List UInt8 :=
  f.l2.bytes ethPIpv6 ++ (f.header.toList ++ f.rest)

/-- Where the extension headers begin. -/
def V6Frame.start (f : V6Frame) : Nat := (f.l2.bytes ethPIpv6).length + ipv6HdrLen

theorem V6Frame.header_toList (f : V6Frame) :
    f.header.toList = f.front.toList ++ f.nextHdr :: f.back.toList := by
  change (f.front.push f.nextHdr ++ f.back).toList = _
  rw [Vector.toList_append, Vector.toList_push, List.append_assoc, List.singleton_append]

theorem V6Frame.header_next (f : V6Frame) : f.header[6]? = some f.nextHdr := by
  unfold V6Frame.header
  rw [Vector.getElem?_append_left (by omega), Vector.getElem?_push_size]

theorem V6Frame.parsePacket_eq (f : V6Frame) {l2Off : Nat} (hl2 : f.l2.At l2Off) :
    parsePacket f.bytes l2Off = parseV6 f.bytes (f.l2.bytes ethPIpv6).length := by
  have hbody : f.l2 = .raw → BeginsWith true (f.header.toList ++ f.rest) := by
    intro hraw
    obtain ⟨first, second, rest, hfront, hfirst⟩ := f.hversion hraw
    refine ⟨first, second, rest ++ f.nextHdr :: (f.back.toList ++ f.rest), ?_, hfirst⟩
    rw [f.header_toList, hfront, List.append_assoc]
    rfl
  exact parsePacket_l2 f.l2 hbody hl2

/-- Where the walk fails, so does the parser. -/
theorem V6Frame.parsePacket_error (f : V6Frame) {l2Off : Nat} (hl2 : f.l2.At l2Off)
    (h : walkV6Ext f.bytes f.nextHdr f.start = .error ()) :
    parsePacket f.bytes l2Off = .error () := by
  have hread : ptrAtData 40 f.bytes (f.l2.bytes ethPIpv6).length = .ok f.header :=
    ptrAtData_layout _ f.header f.rest rfl rfl
  have hnextHdr : f.header[6] = f.nextHdr :=
    Option.some.inj ((Vector.getElem?_eq_getElem _).symm.trans f.header_next)
  rw [f.parsePacket_eq hl2]
  unfold V6Frame.start at h
  simp only [parseV6, hread, bind, Except.bind, hnextHdr, h]

/-- **Walking agrees with the unbounded chain, or fails closed.**  `walk_v6_ext` finds what
the unbounded walk does if that ends within four steps and 64 bytes.  Otherwise it fails,
and both programs drop the packet it was called for. -/
theorem walkV6Ext_agrees (packet : List UInt8) (nextHdr : UInt8) (start : Nat) :
    (∀ r, walkV6Ext packet nextHdr start = .ok r ↔
      EndsWithin packet start maxV6ExtHdrs nextHdr start r) ∧
    ((¬ ∃ r, EndsWithin packet start maxV6ExtHdrs nextHdr start r) →
      walkV6Ext packet nextHdr start = .error () ∧
      ∀ (f : V6Frame) (s : DataPath) (now : Nat) (ifindex : UInt32) (insertOk : Bool),
        f.bytes = packet → f.nextHdr = nextHdr → f.start = start →
        f.l2.At (s.l2OffFor ifindex) →
        moatIngress s now ifindex packet = .aborted ∧
          moatEgress s now ifindex packet insertOk = (.shot, s)) := by
  refine ⟨fun r => walkV6Ext_eq_ok_iff, fun hnone => ?_⟩
  have herror : walkV6Ext packet nextHdr start = .error () := by
    cases hwalk : walkV6Ext packet nextHdr start with
    | error e => rfl
    | ok r => exact absurd ⟨r, walkV6Ext_eq_ok_iff.mp hwalk⟩ hnone
  refine ⟨herror, ?_⟩
  rintro f s now ifindex insertOk rfl rfl rfl hl2
  exact programs_of_error (f.parsePacket_error hl2 herror) now insertOk

end Moatd
