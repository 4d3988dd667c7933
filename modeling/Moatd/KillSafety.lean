import Moatd.Durable
import Moatd.SaveSteps
import Moatd.WholeFile

/-!
# Killing the daemon

The daemon may be killed at any moment, between any two file operations of a save or in the
middle of a sync; what is left is the directory.  The next start reads the rules file, and
takes the defaults where it cannot.

A request is served while its task holds the daemon's state, so at most one is at hand.  The
maps go with the process: how far a sync had come when it was killed makes no difference.
-/

namespace Moatd

open Runs Durable

/-! ### The daemon, step by step -/

/-- What happens to the list in memory. -/
inductive Change
  | request (req : Request)
  /-- A start that cannot read the file. -/
  | defaults
  deriving DecidableEq

/-- The list after the change. -/
def Change.apply (d : OnDisk) : Change → OnDisk
  | .request req =>
    match req.edit d with
    | .ok d' => d'
    | .error _ => d
  | .defaults => {}

/-- What the task at hand is doing. -/
inductive Job
  | idle
  | saving (req : Request) (env : Env) (saving : Saving)
  | syncing (req : Request) (env : Env)

/-- The daemon's process: it is down, or up and at some job. -/
inductive Process
  | down (dir : RulesDir)
  | up (s : DaemonState) (job : Job)

/-- The directory of the rules file. -/
def Process.dir : Process → RulesDir
  | .down dir => dir
  | .up s _ => s.dir

/-- The machine: the daemon or what is left of it, the changes that were made in memory, and
the answers that were given. -/
structure Host where
  process : Process
  changes : List Change
  answers : List (Request × Response)

/-- A machine on which no daemon has run yet. -/
def Host.booted (dir : RulesDir) : Host := ⟨.down dir, [], []⟩

/-- The changes of the requests that were answered `Ok`. -/
def Host.acknowledged (h : Host) : List Change :=
  (h.answers.filter fun a => decide (a.2 = .ok)).map fun a => .request a.1

/-- What happens on the machine, one at a time. -/
inductive HostEvent
  | start (env : Env) (unreadable : Bool) (attached : List String)
  | request (req : Request) (env : Env)
  | fileOp (result : FileResult)
  | sync
  | kill

/-- The daemon answers, and is idle again. -/
def Host.answer (h : Host) (req : Request) (resp : Response) (s : DaemonState) : Host :=
  { h with process := .up s .idle, answers := h.answers ++ [(req, resp)] }

/-- Behind a file operation the save goes on, or the request goes on without it. -/
def Host.goOn (h : Host) (s : DaemonState) (req : Request) (env : Env) : Saving × RulesDir → Host
  | (.done (.ok ()), dir) => { h with process := .up { s with dir } (.syncing req env) }
  | (.done (.error e), dir) => h.answer req (.err (.save e)) { s with dir }
  | (saving, dir) => { h with process := .up { s with dir } (.saving req env saving) }

variable (toml : Toml)

/-- One event. -/
def Host.step (h : Host) : HostEvent → Host
  | .start env unreadable attached =>
    match h.process with
    | .down dir =>
      match runDaemon toml env unreadable attached dir, load toml unreadable dir with
      | (.error _, _), _ => h
      | (.ok (), s), .ok _ => { h with process := .up s .idle }
      | (.ok (), s), .error _ =>
        { h with process := .up s .idle, changes := h.changes ++ [.defaults] }
    | .up _ _ => h
  | .request req env =>
    match h.process with
    | .up s .idle =>
      if req.mutates then
        match req.edit s.onDisk with
        | .error e => h.answer req (.err e) { s with writes := [] }
        | .ok d => { h with
            process := .up { s with onDisk := d, writes := [] } (.saving req env .createDir)
            changes := h.changes ++ [.request req] }
      else h.answer req (dispatch toml env s req).1 (dispatch toml env s req).2
    | _ => h
  | .fileOp result =>
    match h.process with
    | .up s (.saving req env saving) =>
      h.goOn s req env (Saving.step toml s.onDisk (saving, s.dir) result)
    | _ => h
  | .sync =>
    match h.process with
    | .up s (.syncing req env) =>
      h.answer req (toResponse (syncAll env s)).1 (toResponse (syncAll env s)).2
    | _ => h
  | .kill => { h with process := .down h.process.dir }

/-! ### A request during which the daemon is not killed -/

variable {toml}

theorem Host.goOn_of_going (h : Host) (s : DaemonState) (req : Request) (env : Env)
    {saving : Saving} (hgoing : ∀ r, saving ≠ .done r) (dir : RulesDir) :
    h.goOn s req env (saving, dir) =
      { h with process := .up { s with dir } (.saving req env saving) } := by
  cases saving with
  | done r => exact absurd rfl (hgoing r)
  | _ => rfl

theorem Saving.after_done (d : OnDisk) (r : Except SaveError Unit) (dir : RulesDir)
    (results : List FileResult) :
    after (Saving.step toml d) (.done r, dir) results = (.done r, dir) := by
  induction results with
  | nil => rfl
  | cons result results ih => exact ih

theorem Host.after_fileOps_of_goOn_done (h : Host) (s : DaemonState) (req : Request) (env : Env)
    (r : Except SaveError Unit) (dir : RulesDir) (results : List FileResult) :
    after (Host.step toml) (h.goOn s req env (.done r, dir)) (results.map .fileOp) =
      h.goOn s req env (.done r, dir) := by
  induction results with
  | nil => rfl
  | cons result results ih => cases r <;> exact ih

/-- The host makes the steps of the save. -/
theorem Host.after_fileOps {h : Host} {s : DaemonState} {req : Request} {env : Env}
    {saving : Saving} (hgoing : ∀ r, saving ≠ .done r)
    (hp : h.process = .up s (.saving req env saving)) (results : List FileResult) :
    after (Host.step toml) h (results.map .fileOp) =
      h.goOn s req env (after (Saving.step toml s.onDisk) (saving, s.dir) results) := by
  induction results generalizing h s saving with
  | nil =>
    rw [after_nil, goOn_of_going h s req env hgoing, ← hp]
    rfl
  | cons result results ih =>
    have hstep : h.step toml (.fileOp result) =
        h.goOn s req env (Saving.step toml s.onDisk (saving, s.dir) result) := by
      simp only [Host.step, hp]
    rw [List.map_cons, after_cons, after_cons, hstep]
    generalize Saving.step toml s.onDisk (saving, s.dir) result = next
    obtain ⟨saving', dir⟩ := next
    by_cases hgoing' : ∀ r, saving' ≠ .done r
    · rw [goOn_of_going h s req env hgoing', ih hgoing' rfl]
      rfl
    · obtain ⟨r, hdone⟩ := not_forall.mp hgoing'
      rw [ne_eq, not_not] at hdone
      rw [hdone, Saving.after_done, after_fileOps_of_goOn_done]

theorem Host.after_fileOps_of_idle {h : Host} {s : DaemonState} (hp : h.process = .up s .idle)
    (results : List FileResult) : after (Host.step toml) h (results.map .fileOp) = h := by
  induction results with
  | nil => rfl
  | cons result results ih =>
    have hstep : h.step toml (.fileOp result) = h := by simp only [Host.step, hp]
    rw [List.map_cons, after_cons, hstep]
    exact ih

theorem writeSlots_saveFault (env : Env) (fault : Option SaveFault) (base i : Nat)
    (rules : List Rule) (s : DaemonState) :
    writeSlots { env with saveFault := fault } base i rules s = writeSlots env base i rules s := by
  induction rules generalizing i s with
  | nil => rfl
  | cons rule rest ih =>
    rw [writeSlots, writeSlots]
    exact congrArg _ (funext fun s => ih (i + 1) s)

/-- A sync has nothing to do with the file. -/
theorem syncAll_saveFault (env : Env) (fault : Option SaveFault) (s : DaemonState) :
    syncAll { env with saveFault := fault } s = syncAll env s := by
  have hrules (s : DaemonState) :
      syncRules { env with saveFault := fault } s = syncRules env s := by
    unfold syncRules
    simp only [writeSlots_saveFault]
    rfl
  rw [syncAll, syncAll]
  exact congrArg _ (funext hrules)

/-- What the answer to the request would be, and the state, were it served in one step. -/
theorem dispatch_of_saved {s : DaemonState} {req : Request} {d : OnDisk} {env : Env}
    {fault : Option SaveFault} (hedit : req.edit s.onDisk = .ok d) (hmut : req.mutates = true)
    {dir : RulesDir} (hsave : save toml fault s.dir d = (.ok (), dir)) :
    dispatch toml { env with saveFault := fault } s req =
      toResponse (syncAll env { s with onDisk := d, writes := [], dir }) := by
  rw [dispatch_eq toml _ s hmut, hedit]
  simp only [persistAndSync, hsave, syncAll_saveFault]

theorem dispatch_of_saveFail {s : DaemonState} {req : Request} {d : OnDisk} {env : Env}
    {fault : Option SaveFault} (hedit : req.edit s.onDisk = .ok d) (hmut : req.mutates = true)
    {dir : RulesDir} {e : SaveError} (hsave : save toml fault s.dir d = (.error e, dir)) :
    dispatch toml { env with saveFault := fault } s req =
      (.err (.save e), { s with onDisk := d, writes := [], dir }) := by
  rw [dispatch_eq toml _ s hmut, hedit]
  simp only [persistAndSync, hsave]
  rfl

/-- The state with this temporary file. -/
def DaemonState.withTmp (s : DaemonState) (tmp : Option String) : DaemonState :=
  { s with dir := { s.dir with tmpFile := tmp } }

/-- The run of one request: its file operations, and the sync behind them. -/
def requestRun (req : Request) (env : Env) (results : List FileResult) : List HostEvent :=
  .request req env :: (results.map .fileOp ++ [.sync])

section Served
variable {h : Host} {s : DaemonState} {req : Request} {env : Env} {results : List FileResult}

theorem Host.after_requestRun_of_idle {s' : DaemonState}
    (hstep : (h.step toml (.request req env)).process = .up s' .idle) :
    after (Host.step toml) h (requestRun req env results) = h.step toml (.request req env) := by
  rw [requestRun, after_cons, after_append, after_fileOps_of_idle hstep, after_cons, after_nil]
  generalize h.step toml (.request req env) = h' at *
  simp only [Host.step, hstep]

/-- A request that changes nothing is answered at once, with what it would meet unused. -/
theorem Host.step_request_of_unchanged (hp : h.process = .up s .idle)
    (hunchanged : req.mutates = false ∨ ∃ e, req.edit s.onDisk = .error e) (env' : Env) :
    h.step toml (.request req env) =
      h.answer req (dispatch toml env' s req).1 (dispatch toml env' s req).2 := by
  by_cases hmut : req.mutates = true
  · obtain hquery | ⟨e, hedit⟩ := hunchanged
    · rw [hquery] at hmut
      cases hmut
    · rw [dispatch_eq toml env' s hmut, hedit]
      simp [Host.step, hp, hmut, hedit]
  · have hsame : dispatch toml env s req = dispatch toml env' s req := by
      cases req with
      | ping | status | listRules => rfl
      | _ => exact absurd rfl hmut
    simp [Host.step, hp, hmut, hsame]

/-- A request that gets past its checks is served by its save, and the sync behind it. -/
theorem Host.after_requestRun (hp : h.process = .up s .idle) (hmut : req.mutates = true)
    {d : OnDisk} (hedit : req.edit s.onDisk = .ok d) :
    after (Host.step toml) h (requestRun req env results) =
      Host.step toml (Host.goOn { h with changes := h.changes ++ [.request req] }
        { s with onDisk := d, writes := [] } req env
        (after (Saving.step toml d) (.createDir, s.dir) results)) .sync := by
  rw [requestRun, after_cons, after_append, after_cons, after_nil]
  have hstep : h.step toml (.request req env) =
      ⟨.up { s with onDisk := d, writes := [] } (.saving req env .createDir),
        h.changes ++ [.request req], h.answers⟩ := by
    simp [Host.step, hp, hmut, hedit]
  rw [hstep, after_fileOps (by simp) rfl]
  rfl

variable (toml) in
/-- **A request during which the daemon is not killed is served as in one step**, in whatever
pieces its text is written, and whatever temporary file an earlier save has left behind.  If
no file operation fails, the save does not fail. -/
theorem served_unless_killed (h : Host) (hp : h.process = .up s .idle) (req : Request)
    (env : Env) (results : List FileResult) :
    let h' := after (Host.step toml) h (requestRun req env results)
    let out fault := dispatch toml { env with saveFault := fault } s req
    (∀ s', h'.process = .up s' .idle → ∃ fault tmp,
        h'.answers = h.answers ++ [(req, (out fault).1)] ∧
          s' = (out fault).2.withTmp tmp) ∧
      ((∀ r ∈ results, ∃ n, n ≠ 0 ∧ r = .succeeds n) →
        (∀ d, req.edit s.onDisk = .ok d → ∃ body, toml.toStringPretty d = .ok body ∧
          body.length + 4 ≤ results.length) →
        h'.answers = h.answers ++ [(req, (out none).1)] ∧ h'.process = .up (out none).2 .idle) := by
  intro h' out
  by_cases hunchanged : req.mutates = false ∨ ∃ e, req.edit s.onDisk = .error e
  · have hstep : h.step toml (.request req env) = h.answer req (out none).1 (out none).2 :=
      Host.step_request_of_unchanged hp hunchanged { env with saveFault := none }
    have hh' : h' = h.answer req (out none).1 (out none).2 := by
      rw [← hstep]
      exact Host.after_requestRun_of_idle (by rw [hstep]; rfl)
    rw [hh']
    refine ⟨fun s' hidle => ⟨none, (out none).2.dir.tmpFile, rfl, ?_⟩, fun _ _ => ⟨rfl, rfl⟩⟩
    cases hidle
    rfl
  · rw [not_or, Bool.not_eq_false] at hunchanged
    obtain ⟨hmut, haccepted⟩ := hunchanged
    obtain ⟨d, hedit⟩ : ∃ d, req.edit s.onDisk = .ok d := by
      cases hedit : req.edit s.onDisk with
      | error e => exact absurd ⟨e, hedit⟩ haccepted
      | ok d => exact ⟨d, rfl⟩
    have hh' : h' = _ := Host.after_requestRun hp hmut hedit
    rw [hh']
    constructor
    · have hreached : (after (Saving.step toml d) (.createDir, s.dir) results).1.Reached toml d
          s.dir (after (Saving.step toml d) (.createDir, s.dir) results).2 :=
        Saving.reached_after results
      generalize after (Saving.step toml d) (.createDir, s.dir) results = saved at *
      obtain ⟨saving, dir⟩ := saved
      intro s' hidle
      by_cases hgoing : ∀ r, saving ≠ .done r
      · rw [Host.goOn_of_going _ _ req env hgoing] at hidle
        cases hidle
      obtain ⟨r, hdone⟩ := not_forall.mp hgoing
      rw [ne_eq, not_not] at hdone
      subst hdone
      obtain ⟨fault, hr, hfile, htmp⟩ := hreached
      cases r with
      | error e =>
        have hout : out fault = _ := dispatch_of_saveFail hedit hmut (Prod.ext hr.symm rfl)
        refine ⟨fault, dir.tmpFile, by rw [hout]; rfl, ?_⟩
        cases hidle
        simp [hout, DaemonState.withTmp, ← hfile]
      | ok _ =>
        have hdir : dir = (save toml fault s.dir d).2 := by
          rcases save_cases toml fault s.dir d with ⟨-, text, -, hsave⟩ | ⟨-, e, tmp, hsave⟩
          · rw [hsave] at hfile ⊢
            dsimp only at hfile htmp
            rw [← hfile, ← htmp rfl]
          · rw [hsave] at hr
            cases hr
        have hout : out fault = _ :=
          dispatch_of_saved hedit hmut (Prod.ext hr.symm hdir.symm)
        refine ⟨fault, (out fault).2.dir.tmpFile, by rw [hout]; rfl, ?_⟩
        cases hidle
        rw [hout]
        rfl
    · intro hall henough
      obtain ⟨body, htext, hlength⟩ := henough d hedit
      rw [Saving.after_smooth htext hall (show Saving.createDir.Smooth body s.dir from trivial)
        hlength]
      have hsave : save toml none s.dir d = (.ok (), ⟨some body, none⟩) := by simp [save, htext]
      have hout : out none = _ := dispatch_of_saved hedit hmut hsave
      rw [hout]
      exact ⟨rfl, rfl⟩

end Served

/-- A rule is added where a killed save has left its file behind. -/
theorem leftBehind_served :
    let s := (runDaemon (sampleToml sampleLists) { net := noNet } false [] ⟨none, some "x"⟩).2
    let results := List.replicate 200 (FileResult.succeeds 1)
    let h' := after (Host.step (sampleToml sampleLists)) ⟨.up s .idle, [], []⟩
      (requestRun (.addRule sshRule) { net := noNet } results)
    let out fault := dispatch (sampleToml sampleLists) { net := noNet, saveFault := fault } s
      (.addRule sshRule)
    h'.answers = [(.addRule sshRule, (out none).1)] ∧ h'.process = .up (out none).2 .idle := by
  intro s results h' out
  refine (served_unless_killed (sampleToml sampleLists) ⟨.up s .idle, [], []⟩ rfl
    (.addRule sshRule) { net := noNet } results).2 ?_ ?_
  · exact fun r hr => ⟨1, Nat.one_ne_zero, List.eq_of_mem_replicate hr⟩
  · intro d hedit
    cases show Except.ok { rules := [sshRule] } = Except.ok d from hedit
    exact ⟨tomlText { rules := [sshRule] }, rfl, by decide +kernel⟩

/-! ### The daemon keeps its list in a durable store -/

theorem load_congr {unreadable : Bool} {dir dir' : RulesDir}
    (h : dir.rulesFile = dir'.rulesFile) :
    load toml unreadable dir = load toml unreadable dir' := by
  unfold load
  rw [h]

theorem load_of_unreadable {unreadable : Bool} {dir : RulesDir} {d : OnDisk}
    (h : load toml unreadable dir = .ok d) : load toml false dir = .ok d := by
  cases hfile : dir.rulesFile with
  | none =>
    rw [load, hfile] at h ⊢
    exact h
  | some text =>
    cases unreadable with
    | false => exact h
    | true =>
      rw [load, hfile] at h
      cases h

/-- Until its last operation a save leaves the rules file alone. -/
theorem Saving.Reached.rulesFile {saving : Saving} {d : OnDisk} {start dir : RulesDir}
    (h : saving.Reached toml d start dir) (hgoing : ∀ r, saving ≠ .done r) :
    dir.rulesFile = start.rulesFile := by
  cases saving with
  | createDir => rw [h]
  | removeTmp body | createTmp body => exact h.2
  | write written left => rw [h.2]
  | rename =>
    obtain ⟨body, -, rfl⟩ := h
    rfl
  | done r => exact absurd rfl (hgoing r)

variable (toml) in
/-- What the process holds, against the store. -/
def Process.Refines (a : Store OnDisk Change) : Process → Prop
  | .down _ => a.phase = .idle ∧ a.memory = a.disk
  | .up s .idle => a.phase = .idle ∧ a.memory = s.onDisk
  | .up s (.saving req _ saving) => a.phase = .editing (.request req) ∧ a.memory = s.onDisk ∧
      (∀ r, saving ≠ .done r) ∧ ∃ start, saving.Reached toml s.onDisk start s.dir
  | .up s (.syncing req _) => a.phase = .saved (.request req) ∧ a.memory = s.onDisk

variable (toml) in

/-- The machine is this store: memory and disk are its daemon's list and its rules file. -/
structure Host.Refines (h : Host) (a : Store OnDisk Change) : Prop where
  disk : load toml false h.process.dir = .ok a.disk
  changes : h.changes = a.made
  acknowledged : h.acknowledged = a.acknowledged
  process : h.process.Refines toml a

theorem Host.acknowledged_answer (h : Host) (req : Request) (resp : Response) (s : DaemonState) :
    (h.answer req resp s).acknowledged =
      h.acknowledged ++ if resp = .ok then [.request req] else [] := by
  unfold Host.acknowledged Host.answer
  by_cases hok : resp = .ok
  · simp [hok]
  · simp [hok]

/-- An answer that is not `Ok` gives up on the edit, if there is one. -/
theorem Host.Refines.answer {h : Host} {a : Store OnDisk Change} {req : Request}
    {resp : Response} {s : DaemonState} (hdisk : load toml false s.dir = .ok a.disk)
    (hchanges : h.changes = a.made) (hacked : h.acknowledged = a.acknowledged)
    (hmemory : a.memory = s.onDisk) (hresp : resp ≠ .ok) :
    (h.answer req resp s).Refines toml { a with phase := .idle } where
  disk := hdisk
  changes := hchanges
  acknowledged := by rw [acknowledged_answer, if_neg hresp, List.append_nil, hacked]
  process := ⟨rfl, hmemory⟩

/-- **Step of a save**: the rename makes the list durable. -/
theorem Host.Refines.goOn (hrt : toml.RoundTrips) {h : Host} {a : Store OnDisk Change}
    {s : DaemonState} {req : Request} {env : Env} {saving : Saving} {start dir : RulesDir}
    (hdisk : load toml false start = .ok a.disk) (hchanges : h.changes = a.made)
    (hacked : h.acknowledged = a.acknowledged) (hphase : a.phase = .editing (.request req))
    (hmemory : a.memory = s.onDisk) (hreached : saving.Reached toml s.onDisk start dir) :
    ∃ moves, (h.goOn s req env (saving, dir)).Refines toml
      (after (Store.step Change.apply) a moves) := by
  by_cases hgoing : ∀ r, saving ≠ .done r
  · rw [goOn_of_going h s req env hgoing]
    refine ⟨[], ?_, hchanges, hacked, hphase, hmemory, hgoing, start, hreached⟩
    rw [after_nil, ← hdisk]
    exact load_congr (hreached.rulesFile hgoing)
  · obtain ⟨r, hdone⟩ := not_forall.mp hgoing
    rw [ne_eq, not_not] at hdone
    subst hdone
    obtain ⟨fault, hr, hfile, -⟩ := hreached
    rcases save_cases toml fault start s.onDisk with
      ⟨-, text, htext, hsave⟩ | ⟨-, e, tmp, hsave⟩ <;> rw [hsave] at hr hfile <;> subst hr
    · refine ⟨[.save], ?_, ?_, ?_, ?_⟩
      all_goals rw [after_cons, after_nil, Store.step, hphase]
      · rw [hmemory, ← load_of_roundTrips toml hrt htext none]
        exact load_congr hfile
      · exact hchanges
      · exact hacked
      · exact ⟨rfl, hmemory⟩
    · refine ⟨[.giveUp], Host.Refines.answer ?_ hchanges hacked hmemory (by simp)⟩
      rw [← hdisk]
      exact load_congr hfile

theorem Host.Refines.start {h : Host} {a : Store OnDisk Change} {dir : RulesDir}
    (hh : h.Refines toml a) (hdown : h.process = .down dir) (env : Env) (unreadable : Bool)
    (attached : List String) :
    ∃ moves, (h.step toml (.start env unreadable attached)).Refines toml
      (after (Store.step Change.apply) a moves) := by
  have hprocess := hh.process
  have hdisk := hh.disk
  rw [hdown] at hprocess hdisk
  obtain ⟨hphase, hmemory⟩ := hprocess
  obtain ⟨honDisk, hdir⟩ :=
    (syncAll_cases env (boot attached dir (loadOrDefault toml unreadable dir))).frame
  simp only [Host.step, hdown, runDaemon]
  generalize syncAll env (boot attached dir (loadOrDefault toml unreadable dir)) = r at *
  obtain ⟨result, s⟩ := r
  have hkept : load toml false s.dir = .ok a.disk := by
    rw [← hdisk]
    exact congrArg _ hdir
  cases result with
  | error e => exact ⟨[], hh⟩
  | ok _ =>
    cases hload : load toml unreadable dir with
    | ok d =>
      have hread : d = a.disk := by
        have hread := load_of_unreadable hload
        rw [show load toml false dir = .ok a.disk from hdisk, Except.ok.injEq] at hread
        exact hread.symm
      refine ⟨[], hkept, hh.changes, hh.acknowledged, hphase, ?_⟩
      rw [honDisk, after_nil, hmemory, ← hread]
      simp [boot, loadOrDefault, hload]
    | error e =>
      refine ⟨[.edit .defaults, .giveUp], ?_⟩
      rw [after_cons, after_cons, after_nil, Store.step, hphase]
      refine ⟨hkept, ?_, hh.acknowledged, rfl, ?_⟩
      · show h.changes ++ [.defaults] = a.made ++ [.defaults]
        rw [hh.changes]
      · rw [honDisk]
        simp [boot, loadOrDefault, hload, Store.step, Change.apply]

theorem Host.Refines.request {h : Host} {a : Store OnDisk Change} {s : DaemonState}
    (hh : h.Refines toml a) (hidle : h.process = .up s .idle) (req : Request) (env : Env) :
    ∃ moves, (h.step toml (.request req env)).Refines toml
      (after (Store.step Change.apply) a moves) := by
  have hprocess := hh.process
  have hdisk := hh.disk
  rw [hidle] at hprocess hdisk
  obtain ⟨hphase, hmemory⟩ := hprocess
  simp only [Host.step, hidle]
  by_cases hmut : req.mutates = true
  · rw [if_pos hmut]
    cases hedit : req.edit s.onDisk with
    | error e =>
      exact ⟨[.giveUp], Host.Refines.answer hdisk hh.changes hh.acknowledged hmemory (by simp)⟩
    | ok d =>
      refine ⟨[.edit (.request req)], ?_⟩
      rw [after_cons, after_nil, Store.step, hphase]
      refine ⟨hdisk, ?_, hh.acknowledged, rfl, ?_, by simp, s.dir, rfl⟩
      · show h.changes ++ [.request req] = a.made ++ [.request req]
        rw [hh.changes]
      · show Change.apply a.memory (.request req) = d
        rw [hmemory, Change.apply, hedit]
  · rw [if_neg hmut]
    have hcase := dispatch_cases toml env s req
    generalize dispatch toml env s req = out at hcase
    cases hcase with
    | query resp _ hok =>
      exact ⟨[.giveUp], Host.Refines.answer hdisk hh.changes hh.acknowledged hmemory hok⟩
    | _ => contradiction

theorem Host.Refines.sync {h : Host} {a : Store OnDisk Change} {s : DaemonState} {req : Request}
    {env : Env} (hh : h.Refines toml a) (hsyncing : h.process = .up s (.syncing req env)) :
    ∃ moves, (h.step toml .sync).Refines toml (after (Store.step Change.apply) a moves) := by
  have hprocess := hh.process
  have hdisk := hh.disk
  rw [hsyncing] at hprocess hdisk
  obtain ⟨hphase, hmemory⟩ := hprocess
  obtain ⟨honDisk, hdir⟩ := (syncAll_cases env s).frame
  simp only [Host.step, hsyncing]
  generalize syncAll env s = r at *
  obtain ⟨result, s'⟩ := r
  have hkept : load toml false s'.dir = .ok a.disk := by
    rw [← hdisk]
    exact congrArg _ hdir
  have hmemory' : a.memory = s'.onDisk := hmemory.trans honDisk.symm
  cases result with
  | error e =>
    exact ⟨[.giveUp], Host.Refines.answer hkept hh.changes hh.acknowledged hmemory'
      (by simp [toResponse])⟩
  | ok _ =>
    refine ⟨[.acknowledge], ?_⟩
    rw [after_cons, after_nil, Store.step, hphase]
    refine ⟨hkept, hh.changes, ?_, rfl, hmemory'⟩
    rw [acknowledged_answer, hh.acknowledged]
    rfl

/-- **Step**: whatever happens to the machine, the store follows. -/
theorem Host.Refines.step (hrt : toml.RoundTrips) {h : Host} {a : Store OnDisk Change}
    (hh : h.Refines toml a) (e : HostEvent) :
    ∃ moves, (h.step toml e).Refines toml (after (Store.step Change.apply) a moves) := by
  -- an event that does not apply changes nothing
  have hsame : ∃ moves, h.Refines toml (after (Store.step Change.apply) a moves) := ⟨[], hh⟩
  have hprocess := hh.process
  cases e with
  | start env unreadable attached =>
    cases hp : h.process with
    | down dir => exact hh.start hp env unreadable attached
    | up s job => simpa only [Host.step, hp] using hsame
  | request req env =>
    cases hp : h.process with
    | down dir => simpa only [Host.step, hp] using hsame
    | up s job =>
      cases job with
      | idle => exact hh.request hp req env
      | _ => simpa only [Host.step, hp] using hsame
  | fileOp result =>
    cases hp : h.process with
    | down dir => simpa only [Host.step, hp] using hsame
    | up s job =>
      cases job with
      | saving req env saving =>
        rw [hp] at hprocess
        obtain ⟨hphase, hmemory, hgoing, start, hreached⟩ := hprocess
        simp only [Host.step, hp]
        refine Host.Refines.goOn hrt ?_ hh.changes hh.acknowledged hphase hmemory
          (hreached.step result)
        rw [← hh.disk, hp]
        exact load_congr (hreached.rulesFile hgoing).symm
      | _ => simpa only [Host.step, hp] using hsame
  | sync =>
    cases hp : h.process with
    | down dir => simpa only [Host.step, hp] using hsame
    | up s job =>
      cases job with
      | syncing req env => exact hh.sync hp
      | _ => simpa only [Host.step, hp] using hsame
  | kill => exact ⟨[.kill], hh.disk, hh.changes, hh.acknowledged, rfl, rfl⟩

/-- **Run.** -/
theorem Host.Refines.after (hrt : toml.RoundTrips) {h : Host} {a : Store OnDisk Change}
    (hh : h.Refines toml a) (run : List HostEvent) :
    ∃ moves, (Runs.after (Host.step toml) h run).Refines toml
      (Runs.after (Store.step Change.apply) a moves) := by
  induction run generalizing h a with
  | nil => exact ⟨[], hh⟩
  | cons e run ih =>
    obtain ⟨moves, hstep⟩ := hh.step hrt e
    obtain ⟨moves', hrun⟩ := ih hstep
    refine ⟨moves ++ moves', ?_⟩
    rw [after_append]
    exact hrun

end Moatd
