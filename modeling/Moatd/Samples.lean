import Moatd.Daemon
import Mathlib.Data.Countable.Basic
import Mathlib.Logic.Equiv.List
import Mathlib.Tactic.DeriveCountable

/-!
# A round-tripping TOML, and sample inputs

The theorems about the rules file take the TOML library as a parameter.  This
module gives that parameter a value, so that their hypotheses are seen to be
satisfiable: the documents in `known` have the text the library writes for them
(`tomlText`), every other list has some text of its own, and parsing is the
inverse.  The inputs at the end are the ones at which theorems are applied.
-/

namespace Moatd

/-! ### The text of a document -/

/-- The direction in the rules file. -/
def directionName : Direction → String
  | .inbound => "in"
  | .outbound => "out"

/-- The action in the rules file. -/
def actionName : Action → String
  | .allow => "allow"
  | .deny => "deny"
  | .reject => "reject"

/-- The protocol in the rules file. -/
def protocolName : Protocol → String
  | .tcp => "tcp"
  | .udp => "udp"
  | .icmp => "icmp"
  | .any => "any"

/-- A line `key = "value"`; the value needs no escapes. -/
def tomlLine (key value : String) : String := key ++ " = \"" ++ value ++ "\"\n"

/-- A field that is skipped when it is `None`. -/
def tomlOptLine (key : String) : Option String → String
  | none => ""
  | some value => tomlLine key value

/-- The table of a rule. -/
def tomlRule (r : UserRule) : String :=
  "\n[[rules]]\n" ++ tomlLine "direction" (directionName r.direction) ++
    tomlLine "action" (actionName r.action) ++ tomlOptLine "iface" r.iface ++
    tomlOptLine "proto" (r.proto.map protocolName) ++ tomlOptLine "src" r.src ++
    tomlOptLine "dst" r.dst ++ tomlOptLine "src_port" r.srcPort ++
    tomlOptLine "dst_port" r.dstPort

/-- What `toml::to_string_pretty` writes for a list whose texts need no escapes. -/
def tomlText (d : OnDisk) : String :=
  tomlLine "default_in" (actionName d.defaultIn) ++
    tomlLine "default_out" (actionName d.defaultOut) ++
    "logging_enabled = " ++ (if d.loggingEnabled then "true\n" else "false\n") ++
    (if d.rules = [] then "rules = []\n" else String.join (d.rules.map tomlRule))

/-! ### The other documents -/

deriving instance Countable for Direction
deriving instance Countable for Action
deriving instance Countable for Protocol

instance countableChar : Countable Char :=
  Function.Injective.countable (f := Char.toNat) fun _ _ h => Char.toNat_inj.mp h

instance countableString : Countable String :=
  Function.Injective.countable (f := String.toList) fun _ _ h => String.toList_inj.mp h

deriving instance Countable for UserRule
deriving instance Countable for OnDisk

/-- A comment of its own for every list. -/
noncomputable def commentText (d : OnDisk) : String :=
  String.ofList (List.replicate ((exists_injective_nat OnDisk).choose d + 1) '#')

theorem commentText_injective : Function.Injective commentText := by
  intro d d' h
  have hlen := congrArg (fun s : String => s.toList.length) h
  simp only [commentText, String.toList_ofList, List.length_replicate] at hlen
  exact (exists_injective_nat OnDisk).choose_spec (by omega)

theorem tomlText_ne_commentText (d d' : OnDisk) : tomlText d ≠ commentText d' := by
  intro h
  have hhead := congrArg (fun s : String => s.toList.head?) h
  simp [tomlText, tomlLine, commentText, List.replicate_succ] at hhead

/-! ### The library -/

open Classical in
/-- The library on the documents in `known`. -/
noncomputable def sampleToml (known : List OnDisk) : Toml where
  toStringPretty d := .ok (if d ∈ known then tomlText d else commentText d)
  fromStr text :=
    if h : ∃ d, (if d ∈ known then tomlText d else commentText d) = text then .ok h.choose
    else .error "not a document"

theorem sampleToml_saves (known : List OnDisk) (d : OnDisk) :
    saves (sampleToml known) none d = true := by
  simp [saves, sampleToml, Except.toBool]

/-- Where the known documents have different texts, all documents do. -/
theorem sampleToml_roundTrips {known : List OnDisk}
    (hknown : ∀ d ∈ known, ∀ d' ∈ known, tomlText d = tomlText d' → d = d') :
    (sampleToml known).RoundTrips := by
  intro d
  refine ⟨_, rfl, ?_⟩
  have hex : ∃ d', (if d' ∈ known then tomlText d' else commentText d') =
      (if d ∈ known then tomlText d else commentText d) := ⟨d, rfl⟩
  have hinj : ∀ d', (if d' ∈ known then tomlText d' else commentText d') =
      (if d ∈ known then tomlText d else commentText d) → d' = d := by
    intro d' h
    by_cases hd' : d' ∈ known <;> by_cases hd : d ∈ known <;>
      simp only [hd, hd', if_true, if_false] at h
    · exact hknown d' hd' d hd h
    · exact absurd h (tomlText_ne_commentText d' d)
    · exact absurd h.symm (tomlText_ne_commentText d d')
    · exact commentText_injective h
  simp only [sampleToml]
  rw [dif_pos hex, hinj _ hex.choose_spec]

/-! ### Inputs -/

/-- No interfaces at all. -/
def noNet : Nat → SysNet := fun _ => []

/-- A machine without a rules file. -/
def noFile : RulesDir := ⟨none, none⟩

/-- `moatd allow 22/tcp`. -/
def sshRule : UserRule :=
  { direction := .inbound, action := .allow, proto := some .tcp, dstPort := some "22" }

/-- `moatd deny 23/tcp`. -/
def denyTelnetIn : UserRule :=
  { direction := .inbound, action := .deny, proto := some .tcp, dstPort := some "23" }

/-- Port 22 over ICMP: the interface check has nothing against it. -/
def icmpPortRule : UserRule :=
  { direction := .inbound, action := .deny, proto := some .icmp, dstPort := some "22" }

theorem sshRule_compiles : sshRule.compiles = true := by decide

theorem icmpPortRule_not_compiles : icmpPortRule.compiles = false := by decide

/-- The lists with exactly one of these rules. -/
def sampleLists : List OnDisk := [{ rules := [sshRule] }, { rules := [icmpPortRule] }]

theorem sampleLists_roundTrip : (sampleToml sampleLists).RoundTrips :=
  sampleToml_roundTrips (by decide)

/-- A daemon that started without a rules file. -/
noncomputable def freshDaemon : DaemonState :=
  (runDaemon (sampleToml sampleLists) { net := noNet } false [] noFile).2

end Moatd
