import Moatd.BoundedMap
import Moatd.Sysfs

/-!
# Attaching to interfaces

`run_daemon` attaches its programs to the interfaces it finds, and `watch_interfaces` to
those that come later, or come back with another number.  `attach_to_iface` ends by
recording the L2 header length in `IFACE_L2`; the map has 64 entries, which are never
removed, and a failed insert is only logged.  This module is the state machine of these
loops beside interfaces that come and go: each step reads one file, so that changes may
fall in between.

The order in which a loop goes through its `HashMap` is the order of the directory, which
is any.
-/

namespace Moatd

/-! ### The interface directory -/

/-- The files of one interface, with the one for its link type. -/
structure LinkDir extends IfaceDir where
  type : Option String

/-- What `SysNet` holds of it. -/
def linkSysNet (dirs : List (String × LinkDir)) : SysNet :=
  dirs.map fun e => (e.1, e.2.toIfaceDir)

/-- `/sys/class/net`.  No two interfaces have the same number. -/
structure LinkNet where
  dirs : List (String × LinkDir)
  hdistinct : ∀ name name' i, ifaceIfindex (linkSysNet dirs) name = some i →
    ifaceIfindex (linkSysNet dirs) name' = some i → name = name'

/-- The interfaces as `resolve_iface` reads them. -/
def LinkNet.sysNet (net : LinkNet) : SysNet := linkSysNet net.dirs

/-- The directories of `/sys/class/net`. -/
def LinkNet.names (net : LinkNet) : List String := net.dirs.map Prod.fst

/-- The number of the interface with this name. -/
def LinkNet.index (net : LinkNet) (name : String) : Option UInt32 := ifaceIfindex net.sysNet name

/-- Its link type, as the file has it. -/
def LinkNet.type (net : LinkNet) (name : String) : Option String :=
  (net.dirs.lookup name).bind LinkDir.type

/-- Link type of interfaces without a link-layer header. -/
def arphrdNone : UInt32 := 0xfffe

/-- Link type of interfaces about which nothing is known. -/
def arphrdVoid : UInt32 := 0xffff

/-- `iface_l2_len`: 14 unless the type file says that there is no header. -/
def ifaceL2Len (net : LinkNet) (name : String) : UInt8 :=
  match (net.type name).bind fun s => (parseU32 (trim s.toList)).toOption with
  | some arphrd => if arphrd = arphrdNone ∨ arphrd = arphrdVoid then 0 else 14
  | none => 14

/-! ### The filter -/

/-- `is_skipped_iface`: interfaces that are left to others. -/
def isSkippedIface (name : String) : Bool :=
  name == "lo" || "docker".toList.isPrefixOf name.toList || "virbr".toList.isPrefixOf name.toList ||
    "br-".toList.isPrefixOf name.toList || "veth".toList.isPrefixOf name.toList ||
    "ipvl".toList.isPrefixOf name.toList

/-- `iface_filter`, with the value of `MOAT_INTERFACES`. -/
def ifaceFilter (moatInterfaces : Option String) (name : String) : Bool :=
  match moatInterfaces with
  | some val =>
    (((val.toList.splitOn ',').map trim).filter fun s => !s.isEmpty).contains name.toList
  | none => !isSkippedIface name

/-! ### The loops -/

/-- Entries of `IFACE_L2`. -/
def ifaceL2Max : Nat := 64

/-- Where the attach loops are.  `initial` is the loop of `run_daemon`. -/
inductive AttachPhase
  /-- The loop is over. -/
  | waiting
  /-- The snapshot is being taken: these names have still to be read. -/
  | listing (initial : Bool) (names : List String) (found : IfaceSnapshot)
  | looping (initial : Bool) (todo : IfaceSnapshot)
  /-- `attach_to_iface` has attached both programs. -/
  | attaching (initial : Bool) (name : String) (ifindex : UInt32) (todo : IfaceSnapshot)
  /-- It has read the number again. -/
  | numbered (initial : Bool) (name : String) (ifindex : UInt32) (number : Option UInt32)
      (todo : IfaceSnapshot)

/-- The interfaces, the loops that attach to them, and what these keep. -/
structure Links where
  net : LinkNet
  /-- All numbers interfaces have had. -/
  used : List UInt32
  attached : AList fun _ : String => UInt32
  /-- What `Status` reports. -/
  attachedInterfaces : List String
  ifaceL2 : BoundedMap UInt32 UInt8 ifaceL2Max
  phase : AttachPhase

/-- What happens next: the interfaces change, or the loops do their next operation. -/
inductive LinkStep
  | change (net : LinkNet)
  /-- The loops go on; `attaches` says that the programs can be attached. -/
  | go (attaches : Bool)

/-- `set_iface_l2`; the caller only logs an error. -/
def setIfaceL2 (ifaceL2 : BoundedMap UInt32 UInt8 ifaceL2Max) (ifindex : UInt32) (l2Len : UInt8) :
    BoundedMap UInt32 UInt8 ifaceL2Max :=
  (ifaceL2.insert ifindex l2Len).getD ifaceL2

/-- The loops' steps, for this `iface_filter`. -/
def Links.go (filter : String → Bool) (w : Links) (attaches : Bool) : Links :=
  match w.phase with
  | .waiting => { w with phase := .listing false w.net.names [] }
  | .listing initial [] found => { w with phase := .looping initial found }
  | .listing initial (name :: names) found =>
    match ifaceState w.net.sysNet name with
    | some state => { w with phase := .listing initial names (found ++ [(name, state)]) }
    | none => { w with phase := .listing initial names found }
  | .looping initial [] =>
    { w with
      attachedInterfaces := if initial then w.attached.keys else w.attachedInterfaces
      phase := .waiting }
  | .looping initial ((name, ifindex, _) :: todo) =>
    if filter name = false then { w with phase := .looping initial todo }
    else if initial = false ∧ w.attached.lookup name = some ifindex then
      { w with phase := .looping initial todo }
    else if attaches then { w with phase := .attaching initial name ifindex todo }
    else { w with phase := .looping initial todo }
  | .attaching initial name ifindex todo =>
    { w with phase := .numbered initial name ifindex (w.net.index name) todo }
  | .numbered initial name ifindex number todo =>
    -- from here on nothing more is read of the interface
    { w with
      ifaceL2 :=
        match number with
        | some number => setIfaceL2 w.ifaceL2 number (ifaceL2Len w.net name)
        | none => w.ifaceL2
      attached := w.attached.insert name ifindex
      attachedInterfaces :=
        if initial || w.attachedInterfaces.contains name then w.attachedInterfaces
        else w.attachedInterfaces ++ [name]
      phase := .looping initial todo }

/-- The numbers of the interfaces that are there. -/
def LinkNet.indices (net : LinkNet) : List UInt32 := net.names.filterMap net.index

/-- One step. -/
def Links.step (filter : String → Bool) (w : Links) : LinkStep → Links
  | .change net => { w with net, used := w.used ++ net.indices }
  | .go attaches => w.go filter attaches

/-- The daemon begins its initial snapshot. -/
def Links.start (net : LinkNet) : Links where
  net
  used := net.indices
  attached := ∅
  attachedInterfaces := []
  ifaceL2 := .empty
  phase := .listing true net.names []

end Moatd
