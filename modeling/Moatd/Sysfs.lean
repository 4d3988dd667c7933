import Moatd.Common
import Moatd.StdText

/-!
# Looking up interfaces

What `wire.rs` reads of `/sys/class/net`: the files of each interface, by name.
A `SysNet` is what one round of reads saw; the files are re-read at every call,
so two calls may see two different values.
-/

namespace Moatd

/-- The files of one interface directory that are read.  A file that is gone is
`none`. -/
structure IfaceDir where
  operstate : Option String
  ifindex : Option String
  deriving DecidableEq, Repr

/-- The directory `/sys/class/net`. -/
abbrev SysNet := List (String × IfaceDir)

/-- An interface as the watcher's snapshot records it: its number, and whether
it is up. -/
abbrev IfaceState := UInt32 × Bool

/-- Many virtual interfaces report `unknown` while operational. -/
def IfaceDir.isUp (d : IfaceDir) : Bool :=
  match d.operstate.map fun s => trim s.toList with
  | some s => s = "up".toList || s = "unknown".toList
  | none => false

/-- The interface number the directory gives, if its file is there and holds one. -/
def IfaceDir.index (d : IfaceDir) : Option UInt32 :=
  d.ifindex.bind fun s => (parseU32 (trim s.toList)).toOption

/-- `iface_ifindex`: the number in the interface's directory. -/
def ifaceIfindex (net : SysNet) (name : String) : Option UInt32 :=
  (net.lookup name).bind IfaceDir.index

/-- `resolve_iface`: an interface that is not up counts as absent. -/
def resolveIface (net : SysNet) : Option String → UInt32
  | none => ifaceAny
  | some name =>
    match net.lookup name with
    | none => ifaceAbsent
    | some dir => if dir.isUp then dir.index.getD ifaceAbsent else ifaceAbsent

/-! ### Snapshots -/

/-- The `HashMap` the watcher keeps, as the list of its entries. -/
abbrev IfaceSnapshot := List (String × IfaceState)

/-- The state of one named interface: nothing without a readable number. -/
def ifaceState (net : SysNet) (name : String) : Option IfaceState :=
  (net.lookup name).bind fun dir => dir.index.map fun idx => (idx, dir.isUp)

/-- Every name the directory lists, with the state its files give. -/
def ifaceSnapshot (net : SysNet) : IfaceSnapshot :=
  (net.map Prod.fst).filterMap fun name => (ifaceState net name).map fun st => (name, st)

/-- Equality of two `HashMap`s: they hold the same entries. -/
def IfaceSnapshot.same (a b : IfaceSnapshot) : Bool :=
  ((a ++ b).map Prod.fst).all fun name => a.lookup name == b.lookup name

/-- The names under which two snapshots differ: entries of `current` that `last`
does not have like this, and entries of `last` that are gone. -/
def changedNames (current last : IfaceSnapshot) : List String :=
  ((current.filter fun e => last.lookup e.1 != some e.2) ++
    last.filter fun e => (current.lookup e.1).isNone).map Prod.fst

/-- What `resolve_iface` gives for an interface in this state. -/
def resolveState : Option IfaceState → UInt32
  | some (idx, true) => idx
  | _ => ifaceAbsent

/-- **`resolve_iface` and the snapshot read the same thing**: the number of a rule
is decided by the state the snapshot records for its interface. -/
theorem resolveIface_some (net : SysNet) (name : String) :
    resolveIface net (some name) = resolveState (ifaceState net name) := by
  cases hdir : net.lookup name with
  | none => simp [resolveIface, ifaceState, hdir, resolveState]
  | some dir =>
    cases hidx : dir.index <;> cases hup : dir.isUp <;>
      simp [resolveIface, ifaceState, hdir, hidx, hup, resolveState]

theorem lookup_filterMap_state (state : String → Option IfaceState) (names : List String)
    (name : String) :
    (names.filterMap fun n => (state n).map fun st => (n, st)).lookup name =
      if name ∈ names then state name else none := by
  induction names with
  | nil => rfl
  | cons n names ih =>
    by_cases hn : name = n
    · subst hn
      cases hs : state name with
      | none =>
        rw [List.filterMap_cons_none (by rw [hs]; rfl), ih, hs]
        simp
      | some st =>
        rw [List.filterMap_cons_some (by rw [hs]; rfl), List.lookup_cons_self]
        simp
    · have hmem : (name ∈ n :: names) ↔ name ∈ names := by simp [hn]
      cases hs : state n with
      | none => rw [List.filterMap_cons_none (by rw [hs]; rfl), ih, if_congr hmem rfl rfl]
      | some st =>
        have hbeq : (name == n) = false := by simpa using hn
        rw [List.filterMap_cons_some (by rw [hs]; rfl), List.lookup_cons, hbeq, ih,
          if_congr hmem rfl rfl]

/-- The snapshot holds exactly the states of the interfaces that have one. -/
theorem lookup_ifaceSnapshot (net : SysNet) (name : String) :
    (ifaceSnapshot net).lookup name = ifaceState net name := by
  unfold ifaceSnapshot
  rw [lookup_filterMap_state]
  split
  · rfl
  · rename_i hname
    have hnone : net.lookup name = none := by
      rw [List.lookup_eq_none_iff]
      intro e he
      have : e.1 ≠ name := fun h => hname (List.mem_map.mpr ⟨e, he, h⟩)
      simpa using fun h => this h.symm
    simp [ifaceState, hnone]

end Moatd
