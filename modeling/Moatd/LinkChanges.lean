import Moatd.LinkWatcher
import Moatd.Runs

/-!
# Which link changes are lost

The watcher re-syncs when its own two snapshots differ, while the rules were
resolved whenever the latest sync looked.  A change is lost when a sync saw an
interface in a state that neither snapshot shows: between the initial sync and the
baseline, or when the interface went down and up again around a request between two
ticks.  So a tick that does not re-sync leaves the rules right exactly if the latest
sync had seen what the tick's snapshot shows; as long as no save has failed, that is
what the previous snapshot shows.
-/

namespace Moatd

/-! ### Two snapshots -/

theorem mem_of_lookup {snapshot : IfaceSnapshot} {name : String} {st : IfaceState}
    (h : snapshot.lookup name = some st) : (name, st) ∈ snapshot := by
  induction snapshot with
  | nil => cases h
  | cons e rest ih =>
    rw [List.lookup_cons] at h
    split at h
    · rename_i heq
      obtain rfl : name = e.1 := by simpa using heq
      rw [Option.some.injEq] at h
      subst h
      exact List.mem_cons_self
    · exact List.mem_cons_of_mem _ (ih h)

/-- A name that has not changed has the same state in both snapshots. -/
theorem lookup_eq_of_not_mem_changedNames {current last : IfaceSnapshot} {name : String}
    (h : name ∉ changedNames current last) : current.lookup name = last.lookup name := by
  unfold changedNames at h
  rw [List.map_append, List.mem_append, not_or] at h
  obtain ⟨hcurrent, hlast⟩ := h
  cases hc : current.lookup name with
  | some st =>
    have hmem := mem_of_lookup hc
    by_cases heq : last.lookup name = some st
    · exact heq.symm
    · refine absurd (List.mem_map.mpr ⟨(name, st), List.mem_filter.mpr ⟨hmem, ?_⟩, rfl⟩) hcurrent
      simpa using heq
  | none =>
    cases hl : last.lookup name with
    | none => rfl
    | some st =>
      refine absurd (List.mem_map.mpr ⟨(name, st),
        List.mem_filter.mpr ⟨mem_of_lookup hl, ?_⟩, rfl⟩) hlast
      simp [hc]

/-- Equal snapshots have equal states. -/
theorem lookup_eq_of_same {current last : IfaceSnapshot} (h : current.same last = true)
    (name : String) : current.lookup name = last.lookup name := by
  have heq {st : IfaceState} (hmem : (name, st) ∈ current ++ last) :
      current.lookup name = last.lookup name :=
    eq_of_beq (List.all_eq_true.mp h name (List.mem_map_of_mem hmem))
  cases hc : current.lookup name with
  | some st =>
    rw [← hc]
    exact heq (List.mem_append_left _ (mem_of_lookup hc))
  | none =>
    cases hl : last.lookup name with
    | none => rfl
    | some st =>
      rw [← hc, ← hl]
      exact heq (List.mem_append_right _ (mem_of_lookup hl))

/-! ### The property and the condition -/

/-- Every rule in the live bank carries the number that `resolve_iface` now gives for
its interface. -/
def Watch.Fresh (w : Watch) : Prop :=
  ∀ i < min w.daemon.maps.config.ruleCount rulesMax,
    ∃ user, w.synced.rules[i]? = some user ∧
      (w.daemon.maps.rules (w.daemon.maps.config.base + i)).ifaceIfindex =
        resolveIface w.net user.iface

/-- The watcher is inside a tick, past its snapshot. -/
def Phase.inTick : Phase → Bool
  | .snapped _ | .resyncing _ => true
  | _ => false

variable (toml : Toml)

/-- If the step ends a tick whose snapshot no interface change has followed, the
rules are fresh. -/
def FreshAfterTick (w : Watch) (l : WatchStep) : Prop :=
  w.phase.inTick = true → (w.step toml l).phase = .waiting → (w.step toml l).quiet = true →
    (w.step toml l).Fresh

/-- The tick with this snapshot does not re-sync. -/
def Watch.passesOver (w : Watch) (current : IfaceSnapshot) : Bool :=
  current.same w.last || !touchesRules current w.last w.daemon.onDisk

/-- The latest sync resolved each rule to what the snapshot shows of its interface. -/
def Watch.SawAs (w : Watch) (snapshot : IfaceSnapshot) : Prop :=
  ∀ i user name, i < rulesMax → w.synced.rules[i]? = some user → user.iface = some name →
    resolveIface (w.seen i) (some name) = resolveState (snapshot.lookup name)

/-- The condition on a tick: if it re-syncs nothing, the latest sync saw what the
snapshot shows. -/
def TickCovers (w : Watch) (l : WatchStep) : Prop :=
  ∀ current, l = .check → w.phase = .snapped current → w.quiet = true →
    w.passesOver current = true → w.SawAs current

theorem Watch.lookup_eq_of_passesOver {w : Watch} {current : IfaceSnapshot}
    (h : w.passesOver current = true) {user : UserRule} {name : String}
    (huser : user ∈ w.daemon.onDisk.rules) (hname : user.iface = some name) :
    current.lookup name = w.last.lookup name := by
  rcases Bool.or_eq_true_iff.mp h with hsame | htouches
  · exact lookup_eq_of_same hsame name
  · rw [Bool.not_eq_true', touchesRules, List.any_eq_false] at htouches
    have huntouched := htouches user huser
    simp only [hname, decide_eq_true_eq] at huntouched
    exact lookup_eq_of_not_mem_changedNames huntouched

/-- Where the list in memory is the one published, that is what the watcher's previous
snapshot shows. -/
theorem Watch.sawAs_iff_last {w : Watch} {current : IfaceSnapshot}
    (h : w.passesOver current = true) (hsynced : w.synced = w.daemon.onDisk) :
    w.SawAs current ↔ w.SawAs w.last := by
  have hlookup {i : Nat} {user : UserRule} {name : String}
      (huser : w.synced.rules[i]? = some user) (hname : user.iface = some name) :
      current.lookup name = w.last.lookup name := by
    rw [hsynced] at huser
    exact Watch.lookup_eq_of_passesOver h (List.mem_of_getElem? huser) hname
  constructor
  · intro hsaw i user name hi huser hname
    rw [hsaw i user name hi huser hname, hlookup huser hname]
  · intro hsaw i user name hi huser hname
    rw [hsaw i user name hi huser hname, hlookup huser hname]

/-! ### What the watcher can rely on -/

/-- The maps publish the latest sync's list as that sync saw it, and the snapshot of
a quiet tick shows the interfaces as they are. -/
structure Watch.Tracks (w : Watch) : Prop where
  published : ∃ rules, compileRules w.seen 0 w.synced.rules = .ok rules ∧
    w.daemon.maps.PublishesRules w.synced w.daemon.activeBank rules
  snapshot : ∀ current, w.phase = .snapped current ∨ w.phase = .resyncing current →
    w.quiet = true → current = ifaceSnapshot w.net

theorem buildWireRule_ifaceIfindex {user : UserRule} {i : UInt32} {r : Rule}
    (h : buildWireRule user i = .ok r) : r.ifaceIfindex = i := by
  obtain ⟨src, dst, family, srcPorts, dstPorts, -, -, -, -, -, -, rfl⟩ := buildWireRule_ok h
  rfl

/-- **Freshness is about what the latest sync saw.** -/
theorem Watch.Tracks.fresh_iff {w : Watch} (h : w.Tracks) :
    w.Fresh ↔ ∀ i user, i < rulesMax → w.synced.rules[i]? = some user →
      resolveIface (w.seen i) user.iface = resolveIface w.net user.iface := by
  obtain ⟨rules, hcompile, hpub⟩ := h.published
  have hbase : w.daemon.maps.config.base = w.daemon.activeBank.base := by
    rw [hpub.config]
    exact w.daemon.activeBank.base_of_byte
  have hcount : ∀ i, i < min w.daemon.maps.config.ruleCount rulesMax ↔
      i < rulesMax ∧ i < w.synced.rules.length := by
    intro i
    rw [hpub.config]
    simp only [configOf]
    omega
  have hslot : ∀ i user, i < rulesMax → w.synced.rules[i]? = some user →
      (w.daemon.maps.rules (w.daemon.maps.config.base + i)).ifaceIfindex =
        resolveIface (w.seen i) user.iface := by
    intro i user hi huser
    obtain ⟨r, hr, hbuild⟩ := compileRules_user hcompile huser
    rw [hbase, hpub.slot i r hi hr, buildWireRule_ifaceIfindex hbuild]
  constructor
  · intro hfresh i user hi huser
    have hlen := (List.getElem?_eq_some_iff.mp huser).1
    obtain ⟨user', huser', hnow⟩ := hfresh i ((hcount i).mpr ⟨hi, hlen⟩)
    rw [huser, Option.some.injEq] at huser'
    subst huser'
    rw [← hslot i user hi huser, hnow]
  · intro hseen i hi
    obtain ⟨hmax, hlen⟩ := (hcount i).mp hi
    have huser : w.synced.rules[i]? = some w.synced.rules[i] := List.getElem?_eq_getElem hlen
    exact ⟨_, huser, by rw [hslot i _ hmax huser, hseen i _ hmax huser]⟩

/-- The latest sync is up to date exactly if it saw what the snapshot of a quiet tick
shows. -/
theorem Watch.Tracks.sawAs_iff {w : Watch} (h : w.Tracks) {current : IfaceSnapshot}
    (hphase : w.phase = .snapped current) (hquiet : w.quiet = true) :
    w.SawAs current ↔ ∀ i user, i < rulesMax → w.synced.rules[i]? = some user →
      resolveIface (w.seen i) user.iface = resolveIface w.net user.iface := by
  obtain rfl := h.snapshot current (Or.inl hphase) hquiet
  have hstate (name : String) :
      resolveState ((ifaceSnapshot w.net).lookup name) = resolveIface w.net (some name) := by
    rw [resolveIface_some, ← lookup_ifaceSnapshot]
  constructor
  · intro hsaw i user hi huser
    cases hiface : user.iface with
    | none => rfl
    | some name =>
      rw [hsaw i user name hi huser hiface]
      exact hstate name
  · intro hseen i user name hi huser hiface
    rw [hstate name, ← hiface]
    exact hseen i user hi huser

/-! ### The steps -/

/-- Changing interfaces loses nothing but the quiet. -/
theorem Watch.Tracks.moveOn {w : Watch} (h : w.Tracks) (amid : Option Amid) :
    (w.moveOn amid).Tracks := by
  refine ⟨by simpa using h.published, fun current hphase hquiet => ?_⟩
  obtain ⟨rfl, hquiet⟩ := w.moveOn_quiet amid hquiet
  exact h.snapshot current hphase hquiet

theorem Watch.Tracks.request {toml : Toml} {w : Watch} (h : w.Tracks) {req : Request}
    {saveFault : Option SaveFault} {failAt : Option Nat} {amid : Option Amid}
    (hok : w.SyncsOk toml (.request req saveFault failAt amid)) :
    (w.request toml req saveFault failAt amid).Tracks := by
  by_cases hresp :
      (dispatch toml { saveFault, failAt, net := w.views amid } w.daemon req).1 = .ok
  · rw [Watch.request_of_ok hresp]
    refine ⟨?_, h.snapshot⟩
    obtain ⟨d, text, rules, -, -, hcompile, hserve⟩ := dispatch_ok hresp
    simp only [serve, hserve]
    exact ⟨rules, hcompile, (publishes_sync _ _ _ _).toPublishesRules⟩
  · rw [Watch.request_of_not_ok hresp]
    refine ⟨?_, h.snapshot⟩
    obtain ⟨hmaps, hbank⟩ := serve_of_not_ok hresp hok
    simp only [hmaps, hbank]
    exact h.published

/-- A sync of the watcher that succeeds publishes what it saw, and ends the tick. -/
theorem Watch.resync_of_ok {w : Watch} {current : IfaceSnapshot} {failAt : Option Nat}
    {amid : Option Amid} (hphase : w.phase = .resyncing current)
    (hok : (syncRules { failAt, net := w.views amid } { w.daemon with writes := [] }).1 = .ok ()) :
    (w.resync failAt amid).phase = .waiting ∧ (w.resync failAt amid).seen = w.views amid ∧
      (w.resync failAt amid).net = w.net ∧ (w.resync failAt amid).quiet = w.quiet ∧
      ∃ rules, compileRules (w.views amid) 0 (w.resync failAt amid).synced.rules = .ok rules ∧
        (w.resync failAt amid).daemon.maps.PublishesRules (w.resync failAt amid).synced
          (w.resync failAt amid).daemon.activeBank rules := by
  have hcase := syncRules_cases { failAt, net := w.views amid } { w.daemon with writes := [] }
  obtain ⟨rules, hcompile, hstate⟩ := hcase.of_ok hok
  have hframe := hcase.frame.1
  unfold Watch.resync
  rw [hphase]
  simp only
  generalize syncRules { failAt, net := w.views amid } { w.daemon with writes := [] } = out at *
  obtain ⟨result, daemon⟩ := out
  cases hok
  have honDisk : daemon.onDisk = w.daemon.onDisk := hframe
  have hdaemon : daemon = _ := hstate
  refine ⟨rfl, rfl, rfl, rfl, rules, ?_, ?_⟩
  · simp only [honDisk]
    exact hcompile
  · simp only [honDisk]
    rw [hdaemon]
    exact publishesRules_sync _ _ _ _

theorem Watch.Tracks.check {w : Watch} (h : w.Tracks) : w.check.Tracks := by
  have hnone : ∀ c : IfaceSnapshot,
      Phase.waiting = .snapped c ∨ Phase.waiting = .resyncing c → False := by
    rintro c (hc | hc) <;> cases hc
  rw [Watch.check]
  split
  · rename_i current hcurrent
    split
    · exact ⟨h.published, fun c hc => (hnone c hc).elim⟩
    · split
      · refine ⟨h.published, fun c hc hquiet => ?_⟩
        rcases hc with hc | hc
        · cases hc
        · cases hc
          exact h.snapshot current (Or.inl hcurrent) hquiet
      · exact ⟨h.published, fun c hc => (hnone c hc).elim⟩
  · exact h

theorem Watch.Tracks.resync {toml : Toml} {w : Watch} (h : w.Tracks) {failAt : Option Nat}
    {amid : Option Amid} (hok : w.SyncsOk toml (.resync failAt amid)) :
    (w.resync failAt amid).Tracks := by
  by_cases hphase : ∃ current, w.phase = .resyncing current
  · obtain ⟨current, hcurrent⟩ := hphase
    obtain ⟨hwait, hseen, -, -, hpub⟩ := Watch.resync_of_ok hcurrent (hok current hcurrent)
    refine ⟨by rw [hseen]; exact hpub, fun c hc => ?_⟩
    rw [hwait] at hc
    rcases hc with hc | hc <;> cases hc
  · have hsame : w.resync failAt amid = w := by
      unfold Watch.resync
      split
      · exact absurd ⟨_, ‹_›⟩ hphase
      · rfl
    rw [hsame]
    exact h

/-- **Every step keeps track of what the latest sync saw.** -/
theorem Watch.Tracks.step {toml : Toml} {w : Watch} (h : w.Tracks) {l : WatchStep}
    (hok : w.SyncsOk toml l) : (w.step toml l).Tracks := by
  cases l with
  | change net => exact ⟨h.published, fun current _ hquiet => by cases hquiet⟩
  | request req saveFault failAt amid => exact (h.request hok).moveOn amid
  | baseline amid =>
    refine Watch.Tracks.moveOn ?_ amid
    unfold Watch.baseline
    split
    · refine ⟨h.published, fun current hphase _ => ?_⟩
      rcases hphase with hphase | hphase
      · cases hphase
      · cases hphase
    · exact h
  | snapshot amid =>
    rw [Watch.step, Watch.snapshot]
    split
    · refine ⟨by simpa using h.published, fun current hphase hquiet => ?_⟩
      obtain ⟨rfl, -⟩ := Watch.moveOn_quiet _ amid hquiet
      rcases hphase with hphase | hphase
      · cases hphase
        rfl
      · cases hphase
    · exact h.moveOn amid
  | check => exact h.check
  | resync failAt amid => exact (h.resync hok).moveOn amid

/-- A check that does not re-sync ends the tick and changes nothing the rules depend
on. -/
theorem Watch.check_of_passesOver {w : Watch} {current : IfaceSnapshot}
    (hphase : w.phase = .snapped current) (hpass : w.passesOver current = true) :
    w.check.phase = .waiting ∧ w.check.net = w.net ∧ w.check.quiet = w.quiet ∧
      (w.check.Fresh ↔ w.Fresh) := by
  unfold Watch.passesOver at hpass
  unfold Watch.check
  rw [hphase]
  simp only
  split
  · exact ⟨rfl, rfl, rfl, Iff.rfl⟩
  · rename_i hsame
    simp only [Bool.not_eq_true] at hsame
    rw [hsame, Bool.false_or, Bool.not_eq_true'] at hpass
    rw [hpass]
    exact ⟨rfl, rfl, rfl, Iff.rfl⟩

/-- A check that ends the tick does not re-sync. -/
theorem Watch.passesOver_of_waiting {w : Watch} {current : IfaceSnapshot}
    (hphase : w.phase = .snapped current) (hwait : w.check.phase = .waiting) :
    w.passesOver current = true := by
  rw [Watch.check, hphase] at hwait
  simp only at hwait
  unfold Watch.passesOver
  by_cases hsame : current.same w.last = true
  · simp [hsame]
  · by_cases htouches : touchesRules current w.last w.daemon.onDisk = true
    · rw [if_neg hsame, if_pos htouches] at hwait
      cases hwait
    · simp [htouches]

/-- A tick that does not re-sync relies on what the latest sync saw. -/
theorem freshAfterTick_check_iff {toml : Toml} {w : Watch} (h : w.Tracks) :
    FreshAfterTick toml w .check ↔ TickCovers w .check := by
  constructor
  · intro hfresh current _ hphase hquiet hpass
    obtain ⟨hwait, -, hquiet', hiff⟩ := Watch.check_of_passesOver hphase hpass
    rw [h.sawAs_iff hphase hquiet, ← h.fresh_iff, ← hiff]
    exact hfresh (by rw [hphase]; rfl) hwait (by rw [Watch.step, hquiet', hquiet])
  · intro hcovers htick hwait hquiet
    cases hphase : w.phase with
    | starting | waiting =>
      rw [hphase] at htick
      cases htick
    | resyncing current =>
      rw [Watch.step, Watch.check, hphase] at hwait
      simp only at hwait
      rw [hphase] at hwait
      cases hwait
    | snapped current =>
      have hpass := Watch.passesOver_of_waiting hphase hwait
      obtain ⟨-, -, hquiet', hiff⟩ := Watch.check_of_passesOver hphase hpass
      rw [Watch.step, hquiet'] at hquiet
      rw [Watch.step, hiff, h.fresh_iff, ← h.sawAs_iff hphase hquiet]
      exact hcovers current rfl hphase hquiet hpass

/-- A tick that re-syncs leaves the rules fresh: its sync sees the interfaces as they are. -/
theorem freshAfterTick_resync {toml : Toml} {w : Watch} (h : w.Tracks) {failAt : Option Nat}
    {amid : Option Amid} (hok : w.SyncsOk toml (.resync failAt amid)) :
    FreshAfterTick toml w (.resync failAt amid) := by
  intro htick hwait hquiet
  have htracks := h.step hok
  rw [htracks.fresh_iff]
  obtain ⟨rfl, -⟩ := Watch.moveOn_quiet _ amid hquiet
  cases hphase : w.phase with
  | starting | waiting =>
    rw [hphase] at htick
    cases htick
  | snapped current =>
    rw [Watch.step, Watch.moveOn_phase, Watch.resync, hphase] at hwait
    simp only at hwait
    rw [hphase] at hwait
    cases hwait
  | resyncing current =>
    obtain ⟨-, hseen, hnet, -⟩ := Watch.resync_of_ok hphase (hok current hphase)
    intro i user _ _
    rw [Watch.step, Watch.moveOn, hseen, hnet]
    rfl

/-- **A tick leaves the rules fresh exactly if it covers them.** -/
theorem freshAfterTick_iff {toml : Toml} {w : Watch} (h : w.Tracks) {l : WatchStep}
    (hok : w.SyncsOk toml l) : FreshAfterTick toml w l ↔ TickCovers w l := by
  cases l with
  | check => exact freshAfterTick_check_iff h
  | resync failAt amid =>
    exact iff_of_true (freshAfterTick_resync h hok) fun current hl => by cases hl
  | change net =>
    exact iff_of_true (fun _ _ hquiet => by cases hquiet) fun current hl => by cases hl
  | request req saveFault failAt amid =>
    refine iff_of_true (fun htick hwait _ => ?_) fun current hl => by cases hl
    rw [Watch.step, Watch.moveOn_phase, Watch.request_phase] at hwait
    rw [hwait] at htick
    cases htick
  | baseline amid | snapshot amid =>
    refine iff_of_true (fun htick hwait _ => ?_) fun current hl => by cases hl
    cases hphase : w.phase with
    | starting | waiting =>
      rw [hphase] at htick
      cases htick
    | snapped current | resyncing current =>
      simp only [Watch.step, Watch.moveOn_phase, Watch.baseline, Watch.snapshot, hphase] at hwait
      cases hwait

theorem tracks_start {toml : Toml} {env : Env} {unreadable : Bool} {attached : List String}
    {dir : RulesDir} (net : SysNet)
    (hstart : (runDaemon toml env unreadable attached dir).1 = .ok ()) :
    (Watch.start toml env unreadable attached dir net).Tracks := by
  have hcase := syncAll_cases env (boot attached dir (loadOrDefault toml unreadable dir))
  obtain ⟨rules, hcompile, hstate⟩ := hcase.of_ok hstart
  refine ⟨⟨rules, hcompile, ?_⟩, ?_⟩
  · rw [Watch.start]
    simp only [runDaemon, hstate]
    exact (publishes_sync _ _ _ _).toPublishesRules
  · rintro current (hphase | hphase) <;> cases hphase

/-- **Which link changes are lost.**  In a run whose syncs all succeed, every tick
that no change follows leaves the rules fresh exactly if every such tick that does
not re-sync finds that the latest sync saw what its snapshot shows. -/
theorem along_freshAfterTick_iff {env : Env} {unreadable : Bool} {attached : List String}
    {dir : RulesDir} (hstart : (runDaemon toml env unreadable attached dir).1 = .ok ())
    (net : SysNet) {run : List WatchStep}
    (hok : Runs.Along (Watch.step toml) (Watch.SyncsOk toml)
      (Watch.start toml env unreadable attached dir net) run) :
    Runs.Along (Watch.step toml) (FreshAfterTick toml)
        (Watch.start toml env unreadable attached dir net) run ↔
      Runs.Along (Watch.step toml) TickCovers
        (Watch.start toml env unreadable attached dir net) run :=
  Runs.along_congr_of_along (I := Watch.Tracks) (fun _ _ h hl => h.step hl)
    (fun _ _ h hl => freshAfterTick_iff h hl) hok (tracks_start net hstart)

/-! ### One interface -/

/-- `eth0` with number 2, up. -/
def eth0Up : SysNet := [("eth0", ⟨some "up\n", some "2\n"⟩)]

/-- `eth0`, which is down. -/
def eth0Down : SysNet := [("eth0", ⟨some "down\n", some "2\n"⟩)]

/-- `moatd allow in on eth0 port 22 proto tcp`. -/
def eth0Rule : UserRule := { sshRule with iface := some "eth0" }

/-- A daemon that started without a rules file while `eth0` was up. -/
noncomputable def eth0Start : Watch :=
  Watch.start (sampleToml sampleLists) { net := fun _ => eth0Up } false [] noFile eth0Up

/-- The interface goes down after the rule was added; one tick later the rule is
disabled. -/
theorem eth0Rule_fresh :
    Runs.Along (Watch.step (sampleToml sampleLists)) (Watch.SyncsOk (sampleToml sampleLists))
        eth0Start
        [.baseline none, .request (.addRule eth0Rule) none none none, .change eth0Down,
          .snapshot none, .check, .resync none none] ∧
      Runs.Along (Watch.step (sampleToml sampleLists)) (FreshAfterTick (sampleToml sampleLists))
        eth0Start
        [.baseline none, .request (.addRule eth0Rule) none none none, .change eth0Down,
          .snapshot none, .check, .resync none none] := by
  have hok : Runs.Along (Watch.step (sampleToml sampleLists))
      (Watch.SyncsOk (sampleToml sampleLists)) eth0Start
      [.baseline none, .request (.addRule eth0Rule) none none none, .change eth0Down,
        .snapshot none, .check, .resync none none] := by
    refine ⟨trivial, fun e he => (by cases he), trivial, trivial, trivial,
      fun current _ => ?_, trivial⟩
    rfl
  refine ⟨hok, (along_freshAfterTick_iff (sampleToml sampleLists) rfl eth0Up hok).mpr ?_⟩
  refine ⟨?_, ?_, ?_, ?_, ?_, ?_, trivial⟩
  all_goals
    intro current hl hphase hquiet hpass
    cases hl
  cases hphase
  exact absurd hpass (by decide)

/-- The interface is down while the rule is added and up again before the tick: both
snapshots show it up, and the rule stays disabled. -/
theorem eth0Rule_stays_absent :
    Runs.Along (Watch.step (sampleToml sampleLists)) (Watch.SyncsOk (sampleToml sampleLists))
        eth0Start
        [.baseline none, .change eth0Down, .request (.addRule eth0Rule) none none none,
          .change eth0Up, .snapshot none, .check] ∧
      ¬ Runs.Along (Watch.step (sampleToml sampleLists))
        (FreshAfterTick (sampleToml sampleLists)) eth0Start
        [.baseline none, .change eth0Down, .request (.addRule eth0Rule) none none none,
          .change eth0Up, .snapshot none, .check] := by
  refine ⟨⟨trivial, trivial, fun e he => (by cases he), trivial, trivial, trivial, trivial⟩, ?_⟩
  rintro ⟨-, -, -, -, -, hfresh, -⟩
  obtain ⟨user, huser, hnow⟩ := hfresh rfl rfl rfl 0 (by decide)
  cases huser
  revert hnow
  decide

end Moatd
