import Moatd.FailedRequests

/-!
# Starting again from the rules file

Startup loads the rules file and compiles every rule in it; a rule that does not
compile ends it.  What the write path lets into the file is decided by `add_rule`,
which checks only the interface name.  So the daemon can start again from every
file it writes exactly as long as each `AddRule` that reaches the list carries a
rule that compiles.
-/

namespace Moatd

variable (toml : Toml)

/-- Startup succeeds on this file: it loads, and the first sync goes through
whatever the interfaces are. -/
def Startable (dir : RulesDir) : Prop :=
  ∃ d, load toml false dir = .ok d ∧
    ∀ attached net, (syncAll { net } (boot attached dir d)).1 = .ok ()

theorem startable_iff (dir : RulesDir) :
    Startable toml dir ↔
      ∃ d, load toml false dir = .ok d ∧ ∀ rule ∈ d.rules, rule.compiles = true := by
  refine exists_congr fun d => and_congr_right fun _ => ?_
  constructor
  · intro h
    exact (syncAll_ok_iff_compiles (fun _ => []) (boot [] dir d)).mp (h [] fun _ => [])
  · intro h attached net
    exact (syncAll_ok_iff_compiles net (boot attached dir d)).mpr h

/-- A saved list is the one that is loaded. -/
theorem load_of_roundTrips (hrt : toml.RoundTrips) {d : OnDisk} {text : String}
    (htext : toml.toStringPretty d = .ok text) (tmp : Option String) :
    load toml false ⟨some text, tmp⟩ = .ok d := by
  obtain ⟨text', htext', hparse⟩ := hrt d
  rw [htext, Except.ok.injEq] at htext'
  subst htext'
  simp [load, hparse, Except.mapError]

/-! ### Requests without faults -/

/-- A request served while no file or map operation fails. -/
def serveFaultless (s : DaemonState) (l : Request × (Nat → SysNet)) : DaemonState :=
  serve toml s (l.1, { net := l.2 })

/-- The request leaves a file to start from. -/
def LeavesStartable (s : DaemonState) (l : Request × (Nat → SysNet)) : Prop :=
  Startable toml (serveFaultless toml s l).dir

/-- A rule that reaches the list compiles. -/
def AddsCompiling (s : DaemonState) (l : Request × (Nat → SysNet)) : Prop :=
  ∀ rule, l.1 = .addRule rule → (∃ d, l.1.edit s.onDisk = .ok d) → rule.compiles = true

/-- An edit adds the rule of an `AddRule` and no other. -/
theorem edit_rules {req : Request} {d d' : OnDisk} (h : req.edit d = .ok d') :
    (∃ rule, req = .addRule rule ∧ d' = { d with rules := d.rules ++ [rule] }) ∨
      ((∀ rule, req ≠ .addRule rule) ∧ ∀ rule ∈ d'.rules, rule ∈ d.rules) := by
  cases edit_cases h with
  | added rule => exact Or.inl ⟨rule, rfl, rfl⟩
  | deleted => exact Or.inr ⟨by simp, fun rule hr => List.mem_of_mem_eraseIdx hr⟩
  | defaultIn | defaultOut | logging | reset => exact Or.inr ⟨by simp, by simp⟩
  | query _ hmut =>
    refine Or.inr ⟨?_, fun rule hr => hr⟩
    rintro rule rfl
    cases hmut

/-- A request that gets past its checks ends with its list in memory and in the
file; any other request leaves both alone. -/
theorem serveFaultless_cases (hrt : toml.RoundTrips) (s : DaemonState)
    (l : Request × (Nat → SysNet)) :
    (∃ d text, l.1.edit s.onDisk = .ok d ∧ toml.toStringPretty d = .ok text ∧
        (serveFaultless toml s l).onDisk = d ∧
        (serveFaultless toml s l).dir = ⟨some text, none⟩) ∨
      ((serveFaultless toml s l).onDisk = s.onDisk ∧ (serveFaultless toml s l).dir = s.dir ∧
        ∀ rule, l.1 = .addRule rule → ¬ ∃ d, l.1.edit s.onDisk = .ok d) := by
  obtain ⟨req, net⟩ := l
  unfold serveFaultless serve
  have hcase := dispatch_cases toml { net } s req
  generalize dispatch toml { net } s req = out at hcase
  cases hcase with
  | query resp hmut =>
    refine Or.inr ⟨rfl, rfl, ?_⟩
    rintro rule rfl
    cases hmut
  | refused e _ hedit =>
    refine Or.inr ⟨rfl, rfl, fun _ _ => ?_⟩
    rintro ⟨d, hd⟩
    rw [hedit] at hd
    cases hd
  | saveFail d e tmp _ hedit hsave =>
    -- a round-tripping library serialises every list
    obtain ⟨text, htext, -⟩ := hrt d
    simp [saves, htext, Except.toBool] at hsave
  | synced d text r _ hedit hsave htext hsync =>
    exact Or.inl ⟨d, text, hedit, htext, by simpa using hsync.frame.1, by simpa using hsync.frame.2⟩

/-- The invariant: the list in memory compiles, and the file is one to start from. -/
structure KeepsStartable (s : DaemonState) : Prop where
  compiles : ∀ rule ∈ s.onDisk.rules, rule.compiles = true
  startable : Startable toml s.dir

/-- The rules of an edited list compile if the old ones and the added one do. -/
theorem edit_compiles {s : DaemonState} {l : Request × (Nat → SysNet)} {d : OnDisk}
    (hs : ∀ rule ∈ s.onDisk.rules, rule.compiles = true) (hl : AddsCompiling s l)
    (hedit : l.1.edit s.onDisk = .ok d) : ∀ rule ∈ d.rules, rule.compiles = true := by
  rcases edit_rules hedit with ⟨added, hadd, rfl⟩ | ⟨-, hsub⟩
  · intro rule hr
    rcases List.mem_append.mp hr with hr | hr
    · exact hs rule hr
    · rw [List.mem_singleton.mp hr]
      exact hl added hadd ⟨_, hedit⟩
  · exact fun rule hr => hs rule (hsub rule hr)

theorem keepsStartable_step (hrt : toml.RoundTrips) {s : DaemonState}
    {l : Request × (Nat → SysNet)} (hs : KeepsStartable toml s) (hl : AddsCompiling s l) :
    KeepsStartable toml (serveFaultless toml s l) := by
  rcases serveFaultless_cases toml hrt s l with ⟨d, text, hedit, htext, hd, hdir⟩ | ⟨hd, hdir, -⟩
  · have hcomp := edit_compiles hs.compiles hl hedit
    refine ⟨by rwa [hd], ?_⟩
    rw [hdir, startable_iff]
    exact ⟨d, load_of_roundTrips toml hrt htext none, hcomp⟩
  · exact ⟨by rw [hd]; exact hs.compiles, by rw [hdir]; exact hs.startable⟩

theorem leavesStartable_iff (hrt : toml.RoundTrips) {s : DaemonState}
    {l : Request × (Nat → SysNet)} (hs : KeepsStartable toml s) :
    LeavesStartable toml s l ↔ AddsCompiling s l := by
  refine ⟨?_, fun hl => (keepsStartable_step toml hrt hs hl).startable⟩
  rintro h rule hadd ⟨d', hd'⟩
  rcases serveFaultless_cases toml hrt s l with ⟨d, text, hedit, htext, -, hdir⟩ | ⟨-, -, hno⟩
  · -- the file holds the added rule, and startup compiles all of it
    rw [LeavesStartable, hdir, startable_iff] at h
    obtain ⟨d'', hload, hcomp⟩ := h
    rw [load_of_roundTrips toml hrt htext none, Except.ok.injEq] at hload
    subst hload
    rcases edit_rules hedit with ⟨added, hadd', rfl⟩ | ⟨hno, -⟩
    · rw [hadd, Request.addRule.injEq] at hadd'
      subst hadd'
      exact hcomp rule (by simp)
    · exact absurd hadd (hno rule)
  · exact absurd ⟨d', hd'⟩ (hno rule hadd)

/-- The state of a daemon that started from this file. -/
def started (net : Nat → SysNet) (attached : List String) (dir : RulesDir) : DaemonState :=
  (runDaemon toml { net } false attached dir).2

theorem keepsStartable_started {dir : RulesDir} (hdir : Startable toml dir) (net : Nat → SysNet)
    (attached : List String) : KeepsStartable toml (started toml net attached dir) := by
  obtain ⟨d, hload, hcomp⟩ := (startable_iff toml dir).mp hdir
  have hframe := (syncAll_cases { net } (boot attached dir (loadOrDefault toml false dir))).frame
  have hd : loadOrDefault toml false dir = d := by rw [loadOrDefault, hload]
  refine ⟨?_, ?_⟩
  · rw [started, runDaemon, hframe.1, hd]
    exact hcomp
  · rw [started, runDaemon, hframe.2]
    exact hdir

/-- **The daemon can start again from every file it writes exactly when every rule
it lets in compiles.** -/
theorem along_leavesStartable_iff (hrt : toml.RoundTrips) {dir : RulesDir}
    (hdir : Startable toml dir) (net : Nat → SysNet) (attached : List String)
    (run : List (Request × (Nat → SysNet))) :
    Runs.Along (serveFaultless toml) (LeavesStartable toml) (started toml net attached dir) run ↔
      Runs.Along (serveFaultless toml) AddsCompiling (started toml net attached dir) run :=
  Runs.along_congr_of_invariant (I := KeepsStartable toml)
    (fun _ _ hs hl => keepsStartable_step toml hrt hs hl)
    (fun _ _ hs => leavesStartable_iff toml hrt hs) run
    (keepsStartable_started toml hdir net attached)

theorem startable_noFile : Startable toml noFile :=
  (startable_iff toml noFile).mpr ⟨{}, rfl, by simp⟩

/-- One rule that compiles is added, and the file is one to start from. -/
theorem sshRule_leavesStartable :
    Runs.Along (serveFaultless (sampleToml sampleLists)) (LeavesStartable (sampleToml sampleLists))
      (started (sampleToml sampleLists) noNet [] noFile) [(.addRule sshRule, noNet)] := by
  refine (along_leavesStartable_iff _ sampleLists_roundTrip (startable_noFile _) noNet [] _).mpr
    ⟨?_, trivial⟩
  rintro rule hadd -
  cases hadd
  exact sshRule_compiles

/-- A rule that does not compile is refused, and startup fails on the file the
daemon has written. -/
theorem icmpPortRule_not_startable :
    (sampleToml sampleLists).RoundTrips ∧ Startable (sampleToml sampleLists) noFile ∧
      ¬ Runs.Along (serveFaultless (sampleToml sampleLists))
        (LeavesStartable (sampleToml sampleLists))
        (started (sampleToml sampleLists) noNet [] noFile) [(.addRule icmpPortRule, noNet)] := by
  refine ⟨sampleLists_roundTrip, startable_noFile _, ?_⟩
  rintro ⟨hstart, -⟩
  have hkeeps := keepsStartable_started (sampleToml sampleLists) (startable_noFile _) noNet []
  have hadds := (leavesStartable_iff _ sampleLists_roundTrip hkeeps).mp hstart
  have hd : (started (sampleToml sampleLists) noNet [] noFile).onDisk = {} := freshDaemon_onDisk
  have := hadds icmpPortRule rfl ⟨{ rules := [icmpPortRule] }, by rw [hd]; rfl⟩
  rw [icmpPortRule_not_compiles] at this
  cases this

end Moatd
