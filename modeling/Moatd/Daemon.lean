import Moatd.Maps
import Moatd.Wire
import Moatd.Sysfs
import Moatd.Store

/-!
# The daemon

`moatd.rs`: the daemon's state, the sync that copies the rule list into the BPF
maps, and the control requests.  A request edits the in-memory list, saves the
file and syncs the maps, one map element at a time; each of these may fail, and
what was done before the failure stays done.  An `Outcome` is therefore a result
together with the state left behind.

What the environment does during a request is an argument (`Env`): which file
operation or map update fails, and what `/sys/class/net` shows to each rule's
lookup.
-/

namespace Moatd

/-- What `anyhow` carries to the client when a request fails. -/
inductive Error
  | ruleLimit
  | invalidIfaceName (name : String)
  | indexZero
  | noRule (oneBasedIdx : UInt32)
  | save (error : SaveError)
  | wire (error : WireError)
  | map (write : MapWrite)
  deriving DecidableEq, Repr

/-- The text of `Response::Err`; a failed map update has the library's text. -/
def Error.text : Error → String
  | .ruleLimit => "rule limit (" ++ toString rulesMax ++ ") reached"
  | .invalidIfaceName name => "invalid interface name `" ++ name ++ "`"
  | .indexZero => "rule index is 1-based"
  | .noRule idx => "no rule at index " ++ toString idx.toNat
  | .save e => e.text
  | .wire e => e.text
  | .map _ => ""

/-- The request failed in a map update. -/
def Error.isMap : Error → Bool
  | .map _ => true
  | _ => false

/-- What the daemon answers. -/
inductive Response
  | pong
  | ok
  | status (report : StatusReport)
  | rules (rules : List UserRule)
  | err (error : Error)
  deriving DecidableEq, Repr

/-- What one request meets. -/
structure Env where
  /-- The file operation of the save that fails. -/
  saveFault : Option SaveFault := none
  /-- How many map updates succeed before one fails. -/
  failAt : Option Nat := none
  /-- What `/sys/class/net` shows when the interface of rule `i` is looked up. -/
  net : Nat → SysNet

/-- The daemon: the fields of `DaemonState`, the file it persists to, and the map
updates the request in progress has made so far, in order. -/
structure DaemonState where
  attachedInterfaces : List String
  onDisk : OnDisk
  maps : Maps
  activeBank : Bank
  dir : RulesDir
  writes : List MapWrite

/-- The result of an operation on the daemon's state, and the state it leaves: a failure does not
take back what was done before it. -/
abbrev Outcome := Except Error Unit × DaemonState

/-- The `?` operator: an error ends the request with the state as it is. -/
def Outcome.andThen (r : Outcome) (next : DaemonState → Outcome) : Outcome :=
  match r with
  | (.ok (), s) => next s
  | (.error e, s) => (.error e, s)

/-! ### Syncing the maps -/

/-- One `Array::set`. -/
def DaemonState.set (env : Env) (s : DaemonState) (w : MapWrite) : Outcome :=
  if w.inBounds = false ∨ env.failAt = some s.writes.length then (.error (.map w), s)
  else (.ok (), { s with maps := s.maps.write w, writes := s.writes ++ [w] })

/-- `sync_defaults`: the two slots of `DEFAULT_POLICY`. -/
def syncDefaults (env : Env) (s : DaemonState) : Outcome :=
  (s.set env (.defaultPolicy policyIn (actionByte s.onDisk.defaultIn))).andThen fun s =>
    s.set env (.defaultPolicy policyOut (actionByte s.onDisk.defaultOut))

/-- Conntrack is only needed to let replies past restrictive inbound filtering. -/
def needsConntrack (d : OnDisk) : Bool :=
  decide (d.defaultIn ≠ .allow) ||
    d.rules.any fun r => decide (r.direction = .inbound) && decide (r.action ≠ .allow)

/-- `u8::from` of a flag. -/
def flagByte (b : Bool) : UInt8 := if b then 1 else 0

/-- The configuration `write_config` publishes. -/
def configOf (d : OnDisk) (bank : Bank) : GlobalConfig where
  loggingEnabled := flagByte d.loggingEnabled
  logLevel := 0
  activeBank := bank.byte
  conntrackEnabled := flagByte (needsConntrack d)
  ruleCount := min d.rules.length rulesMax

/-- `write_config`: the update of `CONFIG`. -/
def writeConfig (env : Env) (s : DaemonState) : Outcome :=
  s.set env (.config (configOf s.onDisk s.activeBank))

/-- The rules from number `i` on, each with its interface looked up and compiled. -/
def compileRules (net : Nat → SysNet) : Nat → List UserRule → Except WireError (List Rule)
  | _, [] => .ok []
  | i, user :: rest =>
    match buildWireRule user (resolveIface (net i) user.iface) with
    | .error e => .error e
    | .ok rule =>
      match compileRules net (i + 1) rest with
      | .error e => .error e
      | .ok rules => .ok (rule :: rules)

/-- The slots of a bank from `base + i` on, one update each. -/
def writeSlots (env : Env) (base : Nat) : Nat → List Rule → DaemonState → Outcome
  | _, [], s => (.ok (), s)
  | i, rule :: rest, s =>
    (s.set env (.rule (base + i) rule)).andThen fun s => writeSlots env base (i + 1) rest s

/-- `sync_rules`: the rules go into the bank that is not in use, then `CONFIG` is flipped to it.
-/
def syncRules (env : Env) (s : DaemonState) : Outcome :=
  match compileRules env.net 0 s.onDisk.rules with
  | .error e => (.error (.wire e), s)
  | .ok wireRules =>
    let target := s.activeBank.other
    (writeSlots env target.base 0 (wireRules.take rulesMax) s).andThen fun s =>
      writeConfig env { s with activeBank := target }

/-- `sync_all`: the defaults, then the rules and `CONFIG`. -/
def syncAll (env : Env) (s : DaemonState) : Outcome :=
  (syncDefaults env s).andThen fun s => syncRules env s

/-! ### The control requests -/

variable (toml : Toml)

/-- `persist_and_sync`: the list is saved, then synced. -/
def persistAndSync (env : Env) (s : DaemonState) : Outcome :=
  match save toml env.saveFault s.dir s.onDisk with
  | (.error e, dir) => (.error (.save e), { s with dir })
  | (.ok (), dir) => syncAll env { s with dir }

/-- `add_rule`: the rule goes behind all others. -/
def addRule (env : Env) (s : DaemonState) (rule : UserRule) : Outcome :=
  if rulesMax ≤ s.onDisk.rules.length then (.error .ruleLimit, s)
  else
    match rule.iface with
    | some name =>
      if validIfaceName name then
        persistAndSync toml env
          { s with onDisk := { s.onDisk with rules := s.onDisk.rules ++ [rule] } }
      else (.error (.invalidIfaceName name), s)
    | none =>
      persistAndSync toml env
        { s with onDisk := { s.onDisk with rules := s.onDisk.rules ++ [rule] } }

/-- `delete_rule`, with the number that `list` prints. -/
def deleteRule (env : Env) (s : DaemonState) (oneBasedIdx : UInt32) : Outcome :=
  if oneBasedIdx = 0 then (.error .indexZero, s)
  else
    let idx := (oneBasedIdx - 1).toNat
    if s.onDisk.rules.length ≤ idx then (.error (.noRule oneBasedIdx), s)
    else
      persistAndSync toml env
        { s with onDisk := { s.onDisk with rules := s.onDisk.rules.eraseIdx idx } }

/-- `set_default` of one direction. -/
def setDefault (env : Env) (s : DaemonState) (dir : Direction) (action : Action) : Outcome :=
  match dir with
  | .inbound =>
    persistAndSync toml env { s with onDisk := { s.onDisk with defaultIn := action } }
  | .outbound =>
    persistAndSync toml env { s with onDisk := { s.onDisk with defaultOut := action } }

/-- `set_logging`. -/
def setLogging (env : Env) (s : DaemonState) (enabled : Bool) : Outcome :=
  persistAndSync toml env { s with onDisk := { s.onDisk with loggingEnabled := enabled } }

/-- `reset`: an empty list, and everything allowed. -/
def reset (env : Env) (s : DaemonState) : Outcome :=
  persistAndSync toml env { s with onDisk :=
    { rules := [], defaultIn := .allow, defaultOut := .allow, loggingEnabled := false } }

/-- `to_response`: how an operation is answered. -/
def toResponse (r : Outcome) : Response × DaemonState :=
  match r with
  | (.ok (), s) => (.ok, s)
  | (.error e, s) => (.err e, s)

/-- `dispatch`: one request is served, and `writes` starts anew with it. -/
def dispatch (env : Env) (state : DaemonState) (req : Request) : Response × DaemonState :=
  let s := { state with writes := [] }
  match req with
  | .ping => (.pong, s)
  | .status => (.status {
      active := true
      attachedInterfaces := s.attachedInterfaces
      rules := s.onDisk.rules.length
      schemaVersion
      defaultIn := s.onDisk.defaultIn
      defaultOut := s.onDisk.defaultOut
      loggingEnabled := s.onDisk.loggingEnabled }, s)
  | .listRules => (.rules s.onDisk.rules, s)
  | .addRule rule => toResponse (addRule toml env s rule)
  | .deleteRule idx => toResponse (deleteRule toml env s idx)
  | .setDefault dir action => toResponse (setDefault toml env s dir action)
  | .setLogging enabled => toResponse (setLogging toml env s enabled)
  | .reset => toResponse (reset toml env s)

/-- The daemon serves one request after another. -/
def serve (s : DaemonState) (l : Request × Env) : DaemonState := (dispatch toml l.2 s l.1).2

/-! ### Startup -/

/-- The daemon before its first sync: the maps are as the kernel made them. -/
def boot (attached : List String) (dir : RulesDir) (onDisk : OnDisk) : DaemonState where
  attachedInterfaces := attached
  onDisk
  maps := Maps.zeroed
  activeBank := ⟨0, Nat.zero_lt_two⟩
  dir
  writes := []

/-- The list startup begins with: an unreadable file is replaced by defaults. -/
def loadOrDefault (unreadable : Bool) (dir : RulesDir) : OnDisk :=
  match load toml unreadable dir with
  | .ok d => d
  | .error _ => {}

/-- `run_daemon` up to the first request it serves. -/
def runDaemon (env : Env) (unreadable : Bool) (attached : List String) (dir : RulesDir) : Outcome :=
  syncAll env (boot attached dir (loadOrDefault toml unreadable dir))

end Moatd
