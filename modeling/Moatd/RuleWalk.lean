import Moatd.Maps

/-!
# Matching a packet against the rules

`cidr_contains` and `walk_rules` of the data path.  `walk_rules` takes no lock:
it reads `CONFIG` once, then one slot after another, then perhaps the default
policy, while the daemon may be writing.  So the model takes a `view`, the maps
each successive read finds: read 0 is `CONFIG`, read `i + 1` is slot `i`, and the
last one is the default policy.  A walk nothing interferes with has a constant
view (`walkRules`).
-/

namespace Moatd

/-- What the data path keeps of a packet. -/
structure Parsed where
  family : UInt8
  protoByte : UInt8
  icmpType : UInt8
  srcAddr : Addr
  dstAddr : Addr
  srcPort : UInt16
  dstPort : UInt16
  deriving DecidableEq, Repr

/-! ### Addresses -/

/-- `u32::from_be_bytes` of the first four bytes. -/
def be32 (a : Addr) : UInt32 :=
  ⟨a[0].toBitVec ++ a[1].toBitVec ++ a[2].toBitVec ++ a[3].toBitVec⟩

/-- `be64(b, 0)`: the upper half of the address. -/
def be64Hi (a : Addr) : UInt64 :=
  ⟨a[0].toBitVec ++ a[1].toBitVec ++ a[2].toBitVec ++ a[3].toBitVec ++
    a[4].toBitVec ++ a[5].toBitVec ++ a[6].toBitVec ++ a[7].toBitVec⟩

/-- `be64(b, 8)`: the lower half of the address. -/
def be64Lo (a : Addr) : UInt64 :=
  ⟨a[8].toBitVec ++ a[9].toBitVec ++ a[10].toBitVec ++ a[11].toBitVec ++
    a[12].toBitVec ++ a[13].toBitVec ++ a[14].toBitVec ++ a[15].toBitVec⟩

/-- `u32::MAX`. -/
def u32Max : UInt32 := 0xffffffff

/-- `u64::MAX`. -/
def u64Max : UInt64 := 0xffffffffffffffff

/-- `cidr_contains_v4`. -/
def cidrContainsV4 (cidr : IpCidr) (addr : Addr) : Bool :=
  let prefixLen := cidr.prefixLen.toUInt32
  if prefixLen = 0 then true
  else if 32 < prefixLen then false
  else
    let mask := if 32 ≤ prefixLen then u32Max else u32Max <<< (32 - prefixLen)
    be32 cidr.addr &&& mask == be32 addr &&& mask

/-- `cidr_contains_v6`. -/
def cidrContainsV6 (cidr : IpCidr) (addr : Addr) : Bool :=
  let prefixLen := cidr.prefixLen.toUInt64
  if prefixLen = 0 then true
  else if 128 < prefixLen then false
  else if prefixLen ≤ 64 then
    let mask := if prefixLen = 64 then u64Max else u64Max <<< (64 - prefixLen)
    be64Hi cidr.addr &&& mask == be64Hi addr &&& mask
  else if be64Hi cidr.addr ≠ be64Hi addr then false
  else
    let rem := prefixLen - 64
    let mask := if 64 ≤ rem then u64Max else u64Max <<< (64 - rem)
    be64Lo cidr.addr &&& mask == be64Lo addr &&& mask

/-- `cidr_contains`: prefix length 0 contains addresses of both families. -/
def cidrContains (cidr : IpCidr) (addr : Addr) (family : UInt8) : Bool :=
  if cidr.prefixLen = 0 then true
  else if cidr.family ≠ family then false
  else if family = familyV4 then cidrContainsV4 cidr addr
  else cidrContainsV6 cidr addr

/-! ### The walk -/

/-- The match tests of `walk_rules`, in its order. -/
def Rule.matches (rule : Rule) (direction : UInt8) (ifindex : UInt32) (p : Parsed) : Bool :=
  if rule.direction ≠ direction then false
  else if rule.ifaceIfindex ≠ ifaceAny ∧ rule.ifaceIfindex ≠ ifindex then false
  else if rule.proto ≠ protoAny ∧ rule.proto ≠ p.protoByte then false
  else if rule.dstPortMax ≠ 0 ∧ (p.dstPort < rule.dstPortMin ∨ p.dstPort > rule.dstPortMax) then
    false
  else if rule.srcPortMax ≠ 0 ∧ (p.srcPort < rule.srcPortMin ∨ p.srcPort > rule.srcPortMax) then
    false
  else if !cidrContains rule.src p.srcAddr p.family then false
  else if !cidrContains rule.dst p.dstAddr p.family then false
  else true

/-- The port lies in the range, or there is none. -/
def portMatches (min max port : UInt16) : Prop := max = 0 ∨ (min ≤ port ∧ port ≤ max)

/-- **The match tests of `walk_rules`**, said positively. -/
theorem Rule.matches_iff {rule : Rule} {direction : UInt8} {ifindex : UInt32} {p : Parsed} :
    rule.matches direction ifindex p = true ↔
      rule.direction = direction ∧
      (rule.ifaceIfindex = ifaceAny ∨ rule.ifaceIfindex = ifindex) ∧
      (rule.proto = protoAny ∨ rule.proto = p.protoByte) ∧
      portMatches rule.srcPortMin rule.srcPortMax p.srcPort ∧
      portMatches rule.dstPortMin rule.dstPortMax p.dstPort ∧
      cidrContains rule.src p.srcAddr p.family = true ∧
      cidrContains rule.dst p.dstAddr p.family = true := by
  have hports : ∀ min max port : UInt16,
      (max ≠ 0 ∧ (port < min ∨ port > max)) ↔ ¬ portMatches min max port := by
    intro min max port
    rw [portMatches, not_or, not_and_or, UInt16.not_le, UInt16.not_le]
  rw [Rule.matches]
  simp only [hports, ne_eq, ← not_or, Bool.not_eq_true']
  split_ifs with h₁ h₂ h₃ h₄ h₅ h₆ h₇ <;> simp_all

/-- `u8::MAX`: nothing chosen yet. -/
def unchosen : UInt8 := 255

/-- The loop of `walk_rules` with `fuel` iterations left, at slot `i`: the chosen
action, the matched id, and how many slots were read. -/
def walkSlots (view : Nat → Maps) (base count : Nat) (direction : UInt8) (ifindex : UInt32)
    (p : Parsed) : Nat → Nat → UInt8 → Nat → UInt8 × Nat × Nat
  | 0, i, chosen, matchedId => (chosen, matchedId, i)
  | fuel + 1, i, chosen, matchedId =>
    if chosen ≠ unchosen ∨ count ≤ i then (chosen, matchedId, i)
    else
      match (view (i + 1)).getRule (base + i) with
      | none => (chosen, matchedId, i)
      | some rule =>
        if rule.matches direction ifindex p then
          walkSlots view base count direction ifindex p fuel (i + 1) rule.action i
        else
          walkSlots view base count direction ifindex p fuel (i + 1) chosen matchedId

/-- The loop, entered with the configuration the walk read. -/
def walkLoop (view : Nat → Maps) (direction : UInt8) (ifindex : UInt32) (p : Parsed) :
    UInt8 × Nat × Nat :=
  walkSlots view (view 0).config.base (view 0).config.ruleCount direction ifindex p rulesMax 0
    unchosen ruleIdDefault

/-- How many slots the walk examines. -/
def slotsExamined (view : Nat → Maps) (direction : UInt8) (ifindex : UInt32) (p : Parsed) : Nat :=
  (walkLoop view direction ifindex p).2.2

/-- The slot of `DEFAULT_POLICY` for a direction. -/
def policySlot (direction : UInt8) : Nat := if direction = dirIn then policyIn else policyOut

/-- `walk_rules`, each of whose reads finds the maps `view` gives it. -/
def walkRulesAt (view : Nat → Maps) (direction : UInt8) (ifindex : UInt32) (p : Parsed) :
    UInt8 × Nat :=
  let (chosen, matchedId, slots) := walkLoop view direction ifindex p
  if chosen = unchosen then
    ((view (slots + 1)).defaultPolicy (policySlot direction), ruleIdDefault)
  else (chosen, matchedId)

/-- `walk_rules` on maps that do not change under it. -/
def walkRules (maps : Maps) (direction : UInt8) (ifindex : UInt32) (p : Parsed) : UInt8 × Nat :=
  walkRulesAt (fun _ => maps) direction ifindex p

end Moatd
