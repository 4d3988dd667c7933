import Moatd.Enforcement

/-!
# The link watcher

`watch_interfaces` runs beside the requests: it polls `/sys/class/net` and runs
`sync_rules` when an interface that a rule names differs between two of its
snapshots.  This module is the state machine of the three parties, each taking a
step when it likes: the interfaces change, the daemon serves a request, the watcher
goes on with its tick.  A tick is three steps: the snapshot, the look at the list
under the lock, and the sync under the lock taken again.  The attach loop of the
tick works on other state and is left out.

Interfaces may also change among the lookups of a sync or of a snapshot (`Amid`);
what each lookup then sees is arbitrary.
-/

namespace Moatd

/-- Where the watcher is: before its baseline snapshot, waiting for the next tick,
or inside one. -/
inductive Phase
  | starting
  | waiting
  | snapped (current : IfaceSnapshot)
  | resyncing (current : IfaceSnapshot)

/-- Interface changes that fall among lookups: what each lookup sees, and what the
directory shows afterwards. -/
structure Amid where
  views : Nat → SysNet
  net : SysNet

/-- The interfaces, the daemon and its watcher. -/
structure Watch where
  net : SysNet
  daemon : DaemonState
  /-- The watcher's previous snapshot. -/
  last : IfaceSnapshot
  phase : Phase
  /-- The list of the latest sync. -/
  synced : OnDisk
  /-- What that sync saw when it looked up the interface of rule `i`. -/
  seen : Nat → SysNet
  /-- No interface has changed since the snapshot of the tick was begun. -/
  quiet : Bool

/-- What happens next; a step that reads the interfaces may have them change on the way. -/
inductive WatchStep
  | change (net : SysNet)
  | request (req : Request) (saveFault : Option SaveFault) (failAt : Option Nat)
      (amid : Option Amid)
  | baseline (amid : Option Amid)
  | snapshot (amid : Option Amid)
  | check
  | resync (failAt : Option Nat) (amid : Option Amid)

/-! ### The steps -/

/-- What lookup `i` of the step sees. -/
def Watch.views (w : Watch) (amid : Option Amid) (i : Nat) : SysNet :=
  match amid with
  | none => w.net
  | some a => a.views i

/-- The interfaces after the step. -/
def Watch.moveOn (w : Watch) (amid : Option Amid) : Watch :=
  match amid with
  | none => w
  | some a => { w with net := a.net, quiet := false }

/-- Some rule of the list names an interface under which the snapshots differ. -/
def touchesRules (current last : IfaceSnapshot) (d : OnDisk) : Bool :=
  d.rules.any fun r =>
    match r.iface with
    | some name => decide (name ∈ changedNames current last)
    | none => false

variable (toml : Toml)

/-- The daemon serves a request; only if it is answered `Ok` has it synced. -/
def Watch.request (w : Watch) (req : Request) (saveFault : Option SaveFault)
    (failAt : Option Nat) (amid : Option Amid) : Watch :=
  let env : Env := { saveFault, failAt, net := w.views amid }
  let daemon := serve toml w.daemon (req, env)
  if (dispatch toml env w.daemon req).1 = .ok then
    { w with daemon, synced := daemon.onDisk, seen := env.net }
  else { w with daemon }

/-- The watcher's first snapshot. -/
def Watch.baseline (w : Watch) (amid : Option Amid) : Watch :=
  match w.phase with
  | .starting => { w with last := ifaceSnapshot (w.views amid 0), phase := .waiting }
  | _ => w

/-- A tick begins with a snapshot. -/
def Watch.snapshot (w : Watch) (amid : Option Amid) : Watch :=
  match w.phase with
  | .waiting => { w with phase := .snapped (ifaceSnapshot (w.views amid 0)), quiet := true }
  | _ => w

/-- The tick compares its snapshot with the previous one. -/
def Watch.check (w : Watch) : Watch :=
  match w.phase with
  | .snapped current =>
    if current.same w.last then { w with phase := .waiting }
    else if touchesRules current w.last w.daemon.onDisk then { w with phase := .resyncing current }
    else { w with last := current, phase := .waiting }
  | _ => w

/-- The sync of a tick; an error is only logged. -/
def Watch.resync (w : Watch) (failAt : Option Nat) (amid : Option Amid) : Watch :=
  match w.phase with
  | .resyncing current =>
    let env : Env := { failAt, net := w.views amid }
    match syncRules env { w.daemon with writes := [] } with
    | (.ok (), daemon) =>
      { w with daemon, synced := daemon.onDisk, seen := env.net, last := current,
               phase := .waiting }
    | (.error _, daemon) => { w with daemon, last := current, phase := .waiting }
  | _ => w

/-- One step. -/
def Watch.step (w : Watch) : WatchStep → Watch
  | .change net => { w with net, quiet := false }
  | .request req saveFault failAt amid =>
    (w.request toml req saveFault failAt amid).moveOn amid
  | .baseline amid => (w.baseline amid).moveOn amid
  | .snapshot amid => (w.snapshot amid).moveOn amid
  | .check => w.check
  | .resync failAt amid => (w.resync failAt amid).moveOn amid

/-- After startup: the initial sync is done, and the watcher's task begins. -/
def Watch.start (env : Env) (unreadable : Bool) (attached : List String) (dir : RulesDir)
    (net : SysNet) : Watch where
  net
  daemon := (runDaemon toml env unreadable attached dir).2
  last := []
  phase := .starting
  synced := loadOrDefault toml unreadable dir
  seen := env.net
  quiet := false

/-! ### What a step leaves alone -/

section Request
variable {toml : Toml} {w : Watch} {req : Request} {saveFault : Option SaveFault}
  {failAt : Option Nat} {amid : Option Amid}

theorem Watch.request_of_ok
    (h : (dispatch toml { saveFault, failAt, net := w.views amid } w.daemon req).1 = .ok) :
    w.request toml req saveFault failAt amid =
      { w with
        daemon := serve toml w.daemon (req, { saveFault, failAt, net := w.views amid })
        synced := (serve toml w.daemon (req, { saveFault, failAt, net := w.views amid })).onDisk
        seen := w.views amid } :=
  if_pos h

theorem Watch.request_of_not_ok
    (h : (dispatch toml { saveFault, failAt, net := w.views amid } w.daemon req).1 ≠ .ok) :
    w.request toml req saveFault failAt amid =
      { w with daemon := serve toml w.daemon (req, { saveFault, failAt, net := w.views amid }) } :=
  if_neg h

theorem Watch.request_phase : (w.request toml req saveFault failAt amid).phase = w.phase := by
  by_cases h : (dispatch toml { saveFault, failAt, net := w.views amid } w.daemon req).1 = .ok
  · rw [Watch.request_of_ok h]
  · rw [Watch.request_of_not_ok h]

end Request

section MoveOn
variable (w : Watch) (amid : Option Amid)

@[simp] theorem Watch.moveOn_daemon : (w.moveOn amid).daemon = w.daemon := by cases amid <;> rfl

@[simp] theorem Watch.moveOn_phase : (w.moveOn amid).phase = w.phase := by cases amid <;> rfl

@[simp] theorem Watch.moveOn_synced : (w.moveOn amid).synced = w.synced := by cases amid <;> rfl

@[simp] theorem Watch.moveOn_seen : (w.moveOn amid).seen = w.seen := by cases amid <;> rfl

/-- A step after which it is still quiet was not amid changes. -/
theorem Watch.moveOn_quiet (h : (w.moveOn amid).quiet = true) : amid = none ∧ w.quiet = true := by
  cases amid with
  | none => exact ⟨rfl, h⟩
  | some a => cases h

end MoveOn

/-- The error stopped a sync. -/
def Error.stopsSync : Error → Bool
  | .map _ | .wire _ => true
  | _ => false

/-- No sync of the step fails. -/
def Watch.SyncsOk (w : Watch) : WatchStep → Prop
  | .request req saveFault failAt amid =>
    ∀ e, (dispatch toml { saveFault, failAt, net := w.views amid } w.daemon req).1 = .err e →
      e.stopsSync = false
  | .resync failAt amid =>
    ∀ current, w.phase = .resyncing current →
      (syncRules { failAt, net := w.views amid } { w.daemon with writes := [] }).1 = .ok ()
  | _ => True

theorem FullSync.stopsSync {env : Env} {s : DaemonState} {r : Outcome} (h : FullSync env s r)
    {e : Error} (he : r.1 = .error e) : e.stopsSync = true := by
  cases h with
  | defaultFail =>
    cases he
    rfl
  | rules _ h =>
    cases h with
    | compileFail | slotFail | configFail =>
      cases he
      rfl
    | done => cases he

/-- A request whose sync does not fail, and that is not answered `Ok`, leaves the
maps alone. -/
theorem serve_of_not_ok {toml : Toml} {env : Env} {s : DaemonState} {req : Request}
    (hok : (dispatch toml env s req).1 ≠ .ok)
    (hsync : ∀ e, (dispatch toml env s req).1 = .err e → e.stopsSync = false) :
    (serve toml s (req, env)).maps = s.maps ∧
      (serve toml s (req, env)).activeBank = s.activeBank := by
  unfold serve
  have hcase := dispatch_cases toml env s req
  generalize dispatch toml env s req = out at hcase hok hsync
  cases hcase with
  | query | refused | saveFail => exact ⟨rfl, rfl⟩
  | synced d text r _ _ _ _ hfull =>
    obtain ⟨result, t⟩ := r
    cases result with
    | ok => exact absurd rfl hok
    | error e =>
      have hstop := hfull.stopsSync (e := e) rfl
      rw [hsync e rfl] at hstop
      cases hstop

end Moatd
