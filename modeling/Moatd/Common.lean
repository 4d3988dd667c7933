import Mathlib.Data.List.Basic
import Mathlib.Tactic.Common

/-!
# The types shared by the daemon and the data path

`moatd-common`: the wire format of a rule, the global configuration, the
connection key, and the control protocol's requests and responses.  Integers
that the code packs into a wire record keep their width (`UInt8`, `UInt16`,
`UInt32`); slot numbers, list lengths and nanosecond times are `Nat`.  The `_pad`
bytes of the records are always zero and nothing reads them, so they are left
out.
-/

namespace Moatd

/-! ### Constants -/

/-- Version of the records shared by the daemon and the data path. -/
def schemaVersion : UInt8 := 1

/-- Slots of one rule bank. -/
def rulesMax : Nat := 256

/-- Banks of the `RULES` array: one in use, one to write. -/
def ruleBanks : Nat := 2

/-- Slots of the `RULES` array: two banks of `rulesMax`. -/
def rulesSlots : Nat := rulesMax * ruleBanks

/-- Slot of `DEFAULT_POLICY` for inbound traffic. -/
def policyIn : Nat := 0

/-- Slot of `DEFAULT_POLICY` for outbound traffic. -/
def policyOut : Nat := 1

/-- Protocol byte of a rule for every protocol, and of packets of another protocol than the four
below. -/
def protoAny : UInt8 := 0

/-- Protocol byte of ICMP. -/
def protoIcmp : UInt8 := 1

/-- Protocol byte of TCP. -/
def protoTcp : UInt8 := 6

/-- Protocol byte of UDP. -/
def protoUdp : UInt8 := 17

/-- Protocol byte of ICMPv6. -/
def protoIcmpv6 : UInt8 := 58

/-- Direction byte of inbound rules. -/
def dirIn : UInt8 := 0

/-- Direction byte of outbound rules. -/
def dirOut : UInt8 := 1

/-- Action byte: let the packet through. -/
def actAllow : UInt8 := 0

/-- Action byte: drop the packet. -/
def actDeny : UInt8 := 1

/-- Action byte: the data path drops these packets too. -/
def actReject : UInt8 := 2

/-- Family byte of IPv4 addresses. -/
def familyV4 : UInt8 := 4

/-- Family byte of IPv6 addresses. -/
def familyV6 : UInt8 := 6

/-- The rule is for every interface. -/
def ifaceAny : UInt32 := 0

/-- `u32::MAX`: the interface of the rule is not there. -/
def ifaceAbsent : UInt32 := 0xffffffff

/-- Two hours. -/
def conntrackTtlNs : Nat := 7200000000000

/-- Ten seconds. -/
def conntrackRefreshNs : Nat := 10000000000

/-- `u32::MAX`, the rule id reported when no rule matched. -/
def ruleIdDefault : Nat := 0xffffffff

/-- A syntactically valid Linux interface name (`IFNAMSIZ` is 16 with the
terminating zero).  The length is counted in bytes. -/
def validIfaceName (name : String) : Bool :=
  decide (name ≠ "") && decide (name.utf8ByteSize ≤ 15) &&
    !name.toList.any fun c => c == '/' || c == ' ' || c == '\x00'

/-! ### The wire format -/

/-- Sixteen address bytes.  An IPv4 address occupies the first four. -/
abbrev Addr := Vector UInt8 16

/-- The address of zero bytes. -/
def Addr.zero : Addr := Vector.replicate 16 0

/-- A block of addresses: those of the family that begin with the prefix. -/
structure IpCidr where
  family : UInt8
  prefixLen : UInt8
  addr : Addr
  deriving DecidableEq, Repr

/-- The block of prefix length 0 that stands for any address. -/
def IpCidr.anyV4 : IpCidr := ⟨familyV4, 0, Addr.zero⟩

/-- The block of prefix length 0, with the IPv6 family. -/
def IpCidr.anyV6 : IpCidr := ⟨familyV6, 0, Addr.zero⟩

/-- A compiled rule, as it is stored in one slot of `RULES`. -/
structure Rule where
  version : UInt8
  direction : UInt8
  action : UInt8
  proto : UInt8
  ifaceIfindex : UInt32
  src : IpCidr
  dst : IpCidr
  srcPortMin : UInt16
  srcPortMax : UInt16
  dstPortMin : UInt16
  dstPortMax : UInt16
  enabled : UInt8
  deriving DecidableEq, Repr

/-- A slot the loader never wrote: BPF arrays start zeroed. -/
def Rule.zeroed : Rule :=
  ⟨0, 0, 0, 0, 0, ⟨0, 0, Addr.zero⟩, ⟨0, 0, Addr.zero⟩, 0, 0, 0, 0, 0⟩

/-- The value in `CONFIG`. -/
structure GlobalConfig where
  loggingEnabled : UInt8
  logLevel : UInt8
  activeBank : UInt8
  /-- When 0 the data path skips the conntrack lookup and insert. -/
  conntrackEnabled : UInt8
  ruleCount : Nat
  deriving DecidableEq, Repr

/-- `CONFIG` before the daemon has written it. -/
def GlobalConfig.zeroed : GlobalConfig := ⟨0, 0, 0, 0, 0⟩

/-- The key of a flow in `CONNTRACK`. -/
structure ConnKey where
  proto : UInt8
  family : UInt8
  srcAddr : Addr
  dstAddr : Addr
  srcPort : UInt16
  dstPort : UInt16
  deriving DecidableEq, Repr

/-- What `CONNTRACK` holds for a flow: when an outbound packet last refreshed it. -/
structure ConnVal where
  lastSeenNs : Nat
  deriving DecidableEq, Repr

/-! ### The control protocol -/

/-- Which way a rule's packets go. -/
inductive Direction
  | inbound
  | outbound
  deriving DecidableEq, Repr

/-- What a rule or a default does with a packet. -/
inductive Action
  | allow
  | deny
  | reject
  deriving DecidableEq, Repr

/-- The protocols a rule can name. -/
inductive Protocol
  | tcp
  | udp
  | icmp
  | any
  deriving DecidableEq, Repr

/-- A rule as the user wrote it: addresses and ports are still text. -/
structure UserRule where
  direction : Direction
  action : Action
  iface : Option String := none
  proto : Option Protocol := none
  src : Option String := none
  dst : Option String := none
  srcPort : Option String := none
  dstPort : Option String := none
  deriving DecidableEq, Repr

/-- What a client can ask of the daemon. -/
inductive Request
  | ping
  | status
  | listRules
  | addRule (rule : UserRule)
  | deleteRule (oneBasedIdx : UInt32)
  | setDefault (direction : Direction) (action : Action)
  | setLogging (enabled : Bool)
  | reset
  deriving DecidableEq, Repr

/-- What `Status` answers. -/
structure StatusReport where
  active : Bool
  attachedInterfaces : List String
  rules : Nat
  schemaVersion : UInt8
  defaultIn : Action
  defaultOut : Action
  loggingEnabled : Bool
  deriving DecidableEq, Repr

end Moatd
