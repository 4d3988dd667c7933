import Moatd.Common

/-!
# The rules file

`store.rs`: the persisted rule list, read at startup and rewritten by every
mutating request.  TOML is a third-party format: the serialiser and the parser
are a parameter (`Toml`), and what the daemon needs of them is that one reads
back what the other wrote (`Toml.RoundTrips`).
-/

namespace Moatd

/-- What `rules.toml` holds. -/
structure OnDisk where
  defaultIn : Action := .allow
  defaultOut : Action := .allow
  loggingEnabled : Bool := false
  rules : List UserRule := []
  deriving DecidableEq, Repr

/-- The `toml` crate, at the type the daemon uses it for. -/
structure Toml where
  toStringPretty : OnDisk → Except String String
  fromStr : String → Except String OnDisk

/-- Every `OnDisk` can be serialised, and its text parses back to it. -/
def Toml.RoundTrips (toml : Toml) : Prop :=
  ∀ d, ∃ text, toml.toStringPretty d = .ok text ∧ toml.fromStr text = .ok d

/-- `rules.toml` and the temporary file beside it. -/
structure RulesDir where
  rulesFile : Option String
  tmpFile : Option String
  deriving DecidableEq, Repr

/-! ### Loading -/

/-- What `load` fails with. -/
inductive LoadError
  | reading
  | parsing (text : String)
  deriving DecidableEq, Repr

/-- `RULES_FILE`. -/
def rulesPath : String := "/etc/moatd/rules.toml"

/-- The message of the error. -/
def LoadError.text : LoadError → String
  | .reading => "reading " ++ rulesPath
  | .parsing e => "parsing " ++ rulesPath ++ ": " ++ e

variable (toml : Toml)

/-- `store::load`; `unreadable` says that reading the file fails. -/
def load (unreadable : Bool) (dir : RulesDir) : Except LoadError OnDisk :=
  match dir.rulesFile with
  | none => .ok {}
  | some text =>
    if unreadable then .error .reading
    else (toml.fromStr text).mapError .parsing

/-! ### Saving -/

/-- The file operation of `store::save` that fails; a failing `write_all` may
have written some of the text. -/
inductive SaveFault
  | createDir
  | createTmp
  | write (written : Nat)
  | rename
  deriving DecidableEq, Repr

/-- What `save` fails with. -/
inductive SaveError
  | serialize (text : String)
  | io (fault : SaveFault)
  deriving DecidableEq, Repr

/-- The context of the error; the operating system's own text follows it. -/
def SaveError.text : SaveError → String
  | .serialize e => e
  | .io .createDir => "creating /etc/moatd"
  | .io .createTmp => "creating " ++ rulesPath ++ ".tmp"
  | .io (.write _) => ""
  | .io .rename => "renaming " ++ rulesPath

/-- `store::save`: the text goes to a fresh temporary file, which is then renamed
over the rules file. -/
def save (fault : Option SaveFault) (dir : RulesDir) (d : OnDisk) :
    Except SaveError Unit × RulesDir :=
  if fault = some .createDir then (.error (.io .createDir), dir)
  else
    match toml.toStringPretty d with
    | .error e => (.error (.serialize e), dir)
    | .ok body =>
      match fault with
      | some (.write n) =>
        (.error (.io (.write n)), { dir with tmpFile := some (String.ofList (body.toList.take n)) })
      | some .rename => (.error (.io .rename), { dir with tmpFile := some body })
      | some f => (.error (.io f), { dir with tmpFile := none })
      | none => (.ok (), ⟨some body, none⟩)

/-- Whether `store::save` succeeds. -/
def saves (fault : Option SaveFault) (d : OnDisk) : Bool :=
  decide (fault = none) && (toml.toStringPretty d).toBool

/-- The rules file holds this list. -/
def RulesDir.Holds (dir : RulesDir) (d : OnDisk) : Prop :=
  ∃ text, toml.toStringPretty d = .ok text ∧ dir.rulesFile = some text

/-- **A save either replaces the rules file or leaves it alone**: the rename is
the last thing it does. -/
theorem save_cases (fault : Option SaveFault) (dir : RulesDir) (d : OnDisk) :
    (saves toml fault d = true ∧ ∃ text, toml.toStringPretty d = .ok text ∧
        save toml fault dir d = (.ok (), ⟨some text, none⟩)) ∨
      (saves toml fault d = false ∧ ∃ e tmp,
        save toml fault dir d = (.error e, { dir with tmpFile := tmp })) := by
  unfold save saves
  cases htext : toml.toStringPretty d with
  | error e =>
    refine Or.inr ⟨by simp [Except.toBool], ?_⟩
    split
    · exact ⟨_, dir.tmpFile, rfl⟩
    · exact ⟨_, dir.tmpFile, rfl⟩
  | ok text =>
    cases fault with
    | none => exact Or.inl ⟨by simp [Except.toBool], text, rfl, by simp⟩
    | some f =>
      refine Or.inr ⟨by simp, ?_⟩
      cases f with
      | createDir => exact ⟨_, dir.tmpFile, rfl⟩
      | createTmp => exact ⟨_, none, rfl⟩
      | write n => exact ⟨_, _, rfl⟩
      | rename => exact ⟨_, _, rfl⟩

end Moatd
