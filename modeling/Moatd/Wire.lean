import Moatd.Common
import Moatd.Fallible
import Moatd.StdText

/-!
# Compiling a user rule to its wire format

`wire.rs`: the text fields of a `UserRule` are parsed and packed into a `Rule`.
The interface is not looked up here; its number is a parameter, and it plays no
part in what is accepted (`buildWireRule_ifindex`).
-/

namespace Moatd

/-- Why a rule does not compile. -/
inductive WireError
  | icmpPort
  | familyMismatch
  | invalidAddress (text : String)
  | invalidPrefix (kind : IntErrorKind)
  | prefixOutOfRange (prefixLen : UInt8) (version : String)
  | invalidPort (kind : IntErrorKind)
  | portZero
  | invalidRangeStart (kind : IntErrorKind)
  | invalidRangeEnd (kind : IntErrorKind)
  | invalidRange (text : String)
  deriving DecidableEq, Repr

/-- The text of the error with its cause, as `{e:#}` prints it. -/
def WireError.text : WireError → String
  | .icmpPort => "icmp rules cannot specify a port"
  | .familyMismatch => "src and dst address families mismatch"
  | .invalidAddress a => "invalid IP address `" ++ a ++ "`"
  | .invalidPrefix k => "invalid CIDR prefix: " ++ k.text
  | .prefixOutOfRange p v => "CIDR prefix `" ++ toString p.toNat ++ "` out of range for " ++ v
  | .invalidPort k => "invalid port: " ++ k.text
  | .portZero => "port 0 not allowed"
  | .invalidRangeStart k => "invalid port range start: " ++ k.text
  | .invalidRangeEnd k => "invalid port range end: " ++ k.text
  | .invalidRange s => "invalid port range `" ++ s ++ "`"

/-- `anyhow::Context::context`. -/
def withContext {α : Type} (wrap : IntErrorKind → WireError) (r : Except IntErrorKind α) :
    Except WireError α :=
  r.mapError wrap

/-- `direction_byte`. -/
def directionByte : Direction → UInt8
  | .inbound => dirIn
  | .outbound => dirOut

/-- `action_byte`. -/
def actionByte : Action → UInt8
  | .allow => actAllow
  | .deny => actDeny
  | .reject => actReject

/-- `proto_byte`. -/
def protoByte : Option Protocol → UInt8
  | none | some .any => protoAny
  | some .tcp => protoTcp
  | some .udp => protoUdp
  | some .icmp => protoIcmp

/-- `any_cidr`: the block of all addresses, with this family. -/
def anyCidr (family : UInt8) : IpCidr :=
  if family = familyV6 then IpCidr.anyV6 else IpCidr.anyV4

/-- The address bytes, padded with zeros to sixteen. -/
def Addr.ofList (bytes : List UInt8) : Addr := Vector.ofFn fun i : Fin 16 => bytes.getD i 0

/-- The prefix length after the slash, or `whole` without one. -/
def parsePrefix (whole : UInt8) : Option (List Char) → Except WireError UInt8
  | some p => withContext .invalidPrefix (parseU8 p)
  | none => .ok whole

/-- `parse_cidr`: an address with a prefix length, which is that of a single address if none is
given. -/
def parseCidr (text : String) : Except WireError IpCidr := do
  let (addrS, prefixS) :=
    match rsplitOnce '/' text.toList with
    | some (a, p) => (a, some p)
    | none => (text.toList, none)
  if let some octets := ipv4FromStr addrS then
    let prefixLen ← parsePrefix 32 prefixS
    if 32 < prefixLen then throw (.prefixOutOfRange prefixLen "IPv4")
    return ⟨familyV4, prefixLen, Addr.ofList octets⟩
  if let some octets := ipv6FromStr addrS then
    let prefixLen ← parsePrefix 128 prefixS
    if 128 < prefixLen then throw (.prefixOutOfRange prefixLen "IPv6")
    return ⟨familyV6, prefixLen, Addr.ofList octets⟩
  throw (.invalidAddress (String.ofList addrS))

/-- `parse_port_range`: one port, or two with a dash in between. -/
def parsePortRange (text : String) : Except WireError (UInt16 × UInt16) :=
  match splitOnce '-' text.toList with
  | some (lo, hi) => do
    let lo ← withContext .invalidRangeStart (parseU16 lo)
    let hi ← withContext .invalidRangeEnd (parseU16 hi)
    if lo = 0 ∨ hi = 0 ∨ hi < lo then throw (.invalidRange text)
    return (lo, hi)
  | none => do
    let p ← withContext .invalidPort (parseU16 text.toList)
    if p = 0 then throw .portZero
    return (p, p)

/-- `as_deref().map(parse_cidr).transpose()`. -/
def parseCidrOpt : Option String → Except WireError (Option IpCidr)
  | none => .ok none
  | some s => (parseCidr s).map some

/-- The ports of a rule, `(0, 0)` where none is given. -/
def parsePortsOpt : Option String → Except WireError (UInt16 × UInt16)
  | none => .ok (0, 0)
  | some p => parsePortRange p

/-- The family both addresses of the rule have. -/
def ruleFamily : Option IpCidr → Option IpCidr → Except WireError UInt8
  | some a, some b => if a.family ≠ b.family then .error .familyMismatch else .ok a.family
  | some a, none => .ok a.family
  | none, some b => .ok b.family
  | none, none => .ok familyV4

/-- `build_wire_rule`. -/
def buildWireRule (user : UserRule) (ifaceIfindex : UInt32) : Except WireError Rule := do
  if user.proto = some .icmp ∧ (user.srcPort.isSome ∨ user.dstPort.isSome) then
    throw .icmpPort
  let parsedSrc ← parseCidrOpt user.src
  let parsedDst ← parseCidrOpt user.dst
  let family ← ruleFamily parsedSrc parsedDst
  let src := parsedSrc.getD (anyCidr family)
  let dst := parsedDst.getD (anyCidr family)
  let (srcPortMin, srcPortMax) ← parsePortsOpt user.srcPort
  let (dstPortMin, dstPortMax) ← parsePortsOpt user.dstPort
  return {
    version := schemaVersion
    direction := directionByte user.direction
    action := actionByte user.action
    proto := protoByte user.proto
    ifaceIfindex
    src
    dst
    srcPortMin
    srcPortMax
    dstPortMin
    dstPortMax
    enabled := 1 }

/-! ### What a compiled rule keeps of the user's -/

/-- Everything `build_wire_rule` can do on success. -/
theorem buildWireRule_ok {user : UserRule} {i : UInt32} {r : Rule}
    (h : buildWireRule user i = .ok r) :
    ∃ src dst family srcPorts dstPorts,
      parseCidrOpt user.src = .ok src ∧ parseCidrOpt user.dst = .ok dst ∧
      ruleFamily src dst = .ok family ∧
      parsePortsOpt user.srcPort = .ok srcPorts ∧ parsePortsOpt user.dstPort = .ok dstPorts ∧
      ¬ (user.proto = some .icmp ∧ (user.srcPort.isSome ∨ user.dstPort.isSome)) ∧
      r = ⟨schemaVersion, directionByte user.direction, actionByte user.action,
        protoByte user.proto, i, src.getD (anyCidr family), dst.getD (anyCidr family),
        srcPorts.1, srcPorts.2, dstPorts.1, dstPorts.2, 1⟩ := by
  unfold buildWireRule at h
  split at h
  · cases h
  · rename_i hicmp
    obtain ⟨src, hsrc, h⟩ := Fallible.bind_eq_ok_iff.mp h
    obtain ⟨dst, hdst, h⟩ := Fallible.bind_eq_ok_iff.mp h
    obtain ⟨family, hfamily, h⟩ := Fallible.bind_eq_ok_iff.mp h
    obtain ⟨srcPorts, hsrcPorts, h⟩ := Fallible.bind_eq_ok_iff.mp h
    obtain ⟨dstPorts, hdstPorts, h⟩ := Fallible.bind_eq_ok_iff.mp h
    cases h
    exact ⟨src, dst, family, srcPorts, dstPorts, hsrc, hdst, hfamily, hsrcPorts, hdstPorts, hicmp,
      rfl⟩

/-- Whether the rule passes every check of `build_wire_rule`.  The interface
number takes no part in them (`UserRule.compiles_iff`). -/
def UserRule.compiles (user : UserRule) : Bool := (buildWireRule user ifaceAny).toBool

/-- The interface number is copied into the rule and decides nothing else. -/
theorem buildWireRule_ifindex (user : UserRule) (i j : UInt32) :
    buildWireRule user i = (buildWireRule user j).map fun r => { r with ifaceIfindex := i } := by
  unfold buildWireRule
  split
  · rfl
  · simp only [bind, Except.bind, pure, Except.pure]
    cases parseCidrOpt user.src with
    | error e => rfl
    | ok src =>
    cases parseCidrOpt user.dst with
    | error e => rfl
    | ok dst =>
    cases hfam : ruleFamily src dst with
    | error e => simp [hfam, Except.map]
    | ok family =>
    cases parsePortsOpt user.srcPort with
    | error e => simp [hfam, Except.map]
    | ok sp =>
    cases parsePortsOpt user.dstPort with
    | error e => simp [hfam, Except.map]
    | ok dp => simp [hfam, Except.map]

theorem UserRule.compiles_iff {user : UserRule} (i : UInt32) :
    user.compiles = true ↔ ∃ r, buildWireRule user i = .ok r := by
  unfold UserRule.compiles
  rw [buildWireRule_ifindex user i ifaceAny]
  cases buildWireRule user ifaceAny with
  | error e => simp [Except.toBool, Except.map]
  | ok r => simp [Except.toBool, Except.map]

end Moatd
