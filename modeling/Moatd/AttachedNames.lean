import Moatd.AttachTicks
import Moatd.Samples
import Moatd.SyncOutcome

/-!
# The interfaces that Status reports

Both records of the watcher, the numbers by name and the list of names it shares with the
daemon, only ever grow.  So Status reports what has been attached at some time.  That is
what is attached now, as long as no such interface goes, and each that is created anew
has another number and is attached again.
-/

namespace Moatd

/-! ### Everything else leaves the list alone -/

theorem RulesSync.attachedInterfaces {env : Env} {s : DaemonState} {r : Outcome}
    (h : RulesSync env s r) : r.2.attachedInterfaces = s.attachedInterfaces := by
  cases h <;> rfl

theorem FullSync.attachedInterfaces {env : Env} {s : DaemonState} {r : Outcome}
    (h : FullSync env s r) : r.2.attachedInterfaces = s.attachedInterfaces := by
  cases h with
  | defaultFail => rfl
  | rules _ h => exact h.attachedInterfaces

theorem serve_attachedInterfaces (toml : Toml) (s : DaemonState) (l : Request × Env) :
    (serve toml s l).attachedInterfaces = s.attachedInterfaces := by
  obtain ⟨req, env⟩ := l
  unfold serve
  have hcase := dispatch_cases toml env s req
  generalize dispatch toml env s req = out at hcase
  cases hcase with
  | query | refused | saveFail => rfl
  | synced d text r _ _ _ _ hsync =>
    rw [toResponse_snd]
    exact hsync.attachedInterfaces

/-! ### One pass of a loop -/

section Push
variable {names : List String} {name : String}

theorem mem_pushName {name' : String} :
    name' ∈ pushName names name ↔ name' ∈ names ∨ name' = name := by
  unfold pushName
  split_ifs with h
  · rw [List.contains_iff_mem] at h
    exact ⟨Or.inl, fun hmem => hmem.elim id fun heq => heq ▸ h⟩
  · rw [List.mem_append, List.mem_singleton]

theorem nodup_pushName (h : names.Nodup) : (pushName names name).Nodup := by
  unfold pushName
  split_ifs with hmem
  · exact h
  · rw [List.contains_iff_mem] at hmem
    rw [← List.concat_eq_append]
    exact h.concat hmem

end Push

namespace Attacher

variable {filter : String → Bool} {w : Attacher}

/-- The watcher calls `attach_to_iface` for this interface, and the call succeeds. -/
def Attaches (filter : String → Bool) (w : Attacher) (l : SeenLink) : Prop :=
  filter l.name = true ∧ w.attached.lookup l.name ≠ some l.ifindex ∧ l.attaches = true

theorem attachSeen_of_attaches {l : SeenLink} (h : w.Attaches filter l) :
    w.attachSeen filter l =
      { attached := w.attached.insert l.name l.ifindex
        daemon := { w.daemon with
          attachedInterfaces := pushName w.daemon.attachedInterfaces l.name }
        succeeded := w.succeeded ++ [(l.name, l.met)] } := by
  obtain ⟨hfilter, hlookup, hattaches⟩ := h
  rw [attachSeen, if_neg ((Bool.not_eq_false _).mpr hfilter), if_neg hlookup,
    if_pos hattaches]

theorem attachSeen_of_not_attaches {l : SeenLink} (h : ¬ w.Attaches filter l) :
    w.attachSeen filter l = w := by
  unfold attachSeen
  split_ifs with hfilter hlookup hattaches
  · rfl
  · rfl
  · exact absurd ⟨(Bool.not_eq_false _).mp hfilter, hlookup, hattaches⟩ h
  · rfl

/-- The records agree with each other. -/
structure Inv (filter : String → Bool) (w : Attacher) : Prop where
  keys : ∀ name, name ∈ w.daemon.attachedInterfaces ↔ name ∈ w.attached
  allowed : ∀ name ∈ w.daemon.attachedInterfaces, filter name = true
  nodup : w.daemon.attachedInterfaces.Nodup
  succeeded : ∀ x ∈ w.succeeded, x.1 ∈ w.daemon.attachedInterfaces

/-- **Step**: the records still agree. -/
theorem Inv.attachSeen (h : w.Inv filter) (l : SeenLink) : (w.attachSeen filter l).Inv filter := by
  by_cases hl : w.Attaches filter l
  · rw [attachSeen_of_attaches hl]
    refine ⟨fun name => ?_, fun name hname => ?_, nodup_pushName h.nodup, fun x hx => ?_⟩
    · rw [mem_pushName, AList.mem_insert, h.keys, or_comm]
    · rcases mem_pushName.mp hname with hold | rfl
      · exact h.allowed name hold
      · exact hl.1
    · rw [mem_pushName]
      rcases List.mem_append.mp hx with hold | hnew
      · exact Or.inl (h.succeeded x hold)
      · rw [List.mem_singleton.mp hnew]
        exact Or.inr rfl
  · rw [attachSeen_of_not_attaches hl]
    exact h

/-- Whether an interface is attached does not depend on those before it in the snapshot. -/
theorem attaches_attachSeen_iff {l l' : SeenLink} (hne : l'.name ≠ l.name) :
    (w.attachSeen filter l).Attaches filter l' ↔ w.Attaches filter l' := by
  by_cases hl : w.Attaches filter l
  · rw [attachSeen_of_attaches hl, Attaches, Attaches, AList.lookup_insert_ne hne]
  · rw [attachSeen_of_not_attaches hl]

theorem mem_attachSeen (filter : String → Bool) (w : Attacher) (l : SeenLink) :
    (∀ name, name ∈ (w.attachSeen filter l).daemon.attachedInterfaces ↔
      name ∈ w.daemon.attachedInterfaces ∨ w.Attaches filter l ∧ l.name = name) ∧
    ∀ x, x ∈ (w.attachSeen filter l).succeeded ↔
      x ∈ w.succeeded ∨ w.Attaches filter l ∧ (l.name, l.met) = x := by
  by_cases hl : w.Attaches filter l
  · rw [attachSeen_of_attaches hl]
    refine ⟨fun name => ?_, fun x => ?_⟩
    · rw [mem_pushName, and_iff_right hl, eq_comm]
    · rw [List.mem_append, List.mem_singleton, and_iff_right hl, eq_comm]
  · rw [attachSeen_of_not_attaches hl]
    simp [hl]

/-- **Run**: the names and instances that a pass adds. -/
theorem mem_pass (filter : String → Bool) (w : Attacher) {seen : List SeenLink}
    (hnames : (seen.map SeenLink.name).Nodup) :
    (∀ name, name ∈ (seen.foldl (attachSeen filter) w).daemon.attachedInterfaces ↔
      name ∈ w.daemon.attachedInterfaces ∨ ∃ l ∈ seen, w.Attaches filter l ∧ l.name = name) ∧
    ∀ x, x ∈ (seen.foldl (attachSeen filter) w).succeeded ↔
      x ∈ w.succeeded ∨ ∃ l ∈ seen, w.Attaches filter l ∧ (l.name, l.met) = x := by
  induction seen generalizing w with
  | nil => simp
  | cons l seen ih =>
    rw [List.map_cons, List.nodup_cons] at hnames
    obtain ⟨ihnames, ihsucceeded⟩ := ih (w := w.attachSeen filter l) hnames.2
    obtain ⟨hheadNames, hheadSucceeded⟩ := w.mem_attachSeen filter l
    have hlater : ∀ l' ∈ seen,
        ((w.attachSeen filter l).Attaches filter l' ↔ w.Attaches filter l') := fun l' hl' =>
      attaches_attachSeen_iff fun heq => hnames.1 (heq ▸ List.mem_map_of_mem hl')
    refine ⟨fun name => ?_, fun x => ?_⟩
    · rw [List.foldl_cons, ihnames, hheadNames, or_assoc]
      simp only [List.mem_cons, or_and_right, exists_or, exists_eq_left]
      refine or_congr_right (or_congr_right (exists_congr fun l' => and_congr_right fun hl' => ?_))
      rw [hlater l' hl']
    · rw [List.foldl_cons, ihsucceeded, hheadSucceeded, or_assoc]
      simp only [List.mem_cons, or_and_right, exists_or, exists_eq_left]
      refine or_congr_right (or_congr_right (exists_congr fun l' => and_congr_right fun hl' => ?_))
      rw [hlater l' hl']

/-- The initial pass, which begins without any record. -/
theorem mem_initial {seen : List SeenLink} (attached : AList fun _ : String => UInt32)
    (name : String) :
    name ∈ seen.foldl (attachInitial filter) attached ↔
      name ∈ attached ∨ ∃ l ∈ seen, filter l.name = true ∧ l.attaches = true ∧ l.name = name := by
  induction seen generalizing attached with
  | nil => simp
  | cons l seen ih =>
    rw [List.foldl_cons, ih]
    simp only [List.mem_cons, or_and_right, exists_or, exists_eq_left, ← or_assoc]
    refine or_congr_left ?_
    unfold attachInitial
    split_ifs with hfilter hattaches
    · simp [hfilter]
    · rw [AList.mem_insert]
      simp [hfilter, hattaches, or_comm, eq_comm]
    · simp [hattaches]

end Attacher

/-! ### What Status reports -/

/-- Status reports exactly the interfaces of the snapshot that the filter allows and whose
present instance is attached. -/
def Attacher.ReportsAttached (filter : String → Bool) (toml : Toml) (w : Attacher)
    (tick : LinkTick) : Prop :=
  ∀ env, ∃ report, (dispatch toml env w.daemon .status).1 = .status report ∧
    report.attachedInterfaces.Nodup ∧
    ∀ name, name ∈ report.attachedInterfaces ↔
      (∃ l ∈ tick.seen, l.name = name) ∧ filter name = true ∧
        (name, tick.present name) ∈ w.succeeded

/-- Nothing of the initial snapshot is created anew once it is attached. -/
def LinkTick.Lasts (filter : String → Bool) (tick : LinkTick) : Prop :=
  ∀ l ∈ tick.seen, filter l.name = true → l.attaches = true → l.met = tick.present l.name

/-- The interfaces reported before the tick are still there, and each that has been created
anew has another number and is attached again. -/
structure LinkTick.Keeps (filter : String → Bool) (w : Attacher) (tick : LinkTick) : Prop where
  reported : ∀ name ∈ w.daemon.attachedInterfaces, ∃ l ∈ tick.seen, l.name = name ∧
    ((name, tick.present name) ∈ w.succeeded ∨
      w.attached.lookup name ≠ some l.ifindex ∧ l.attaches = true ∧ l.met = tick.present name)
  /-- None of the others is created anew once it is attached. -/
  others : ∀ l ∈ tick.seen, l.name ∉ w.daemon.attachedInterfaces → filter l.name = true →
    l.attaches = true → l.met = tick.present l.name

namespace Attacher

variable {filter : String → Bool} {toml : Toml} {w : Attacher}

theorem reportsAttached_iff {tick : LinkTick} (hnodup : w.daemon.attachedInterfaces.Nodup) :
    w.ReportsAttached filter toml tick ↔
      ∀ name, name ∈ w.daemon.attachedInterfaces ↔
        (∃ l ∈ tick.seen, l.name = name) ∧ filter name = true ∧
          (name, tick.present name) ∈ w.succeeded := by
  constructor
  · intro h
    obtain ⟨report, hreport, -, hnames⟩ := h { net := fun _ => [] }
    cases hreport
    exact hnames
  · intro h env
    exact ⟨_, rfl, hnodup, h⟩

theorem Inv.pass (h : w.Inv filter) (seen : List SeenLink) :
    (seen.foldl (Attacher.attachSeen filter) w).Inv filter :=
  List.foldlRecOn _ _ h fun _ hw l _ => hw.attachSeen l

/-- An interface without a record is attached if that is possible at all. -/
theorem Inv.attaches_of_new (h : w.Inv filter) {l : SeenLink}
    (hnew : l.name ∉ w.daemon.attachedInterfaces) (hfilter : filter l.name = true)
    (hattaches : l.attaches = true) : w.Attaches filter l := by
  refine ⟨hfilter, ?_, hattaches⟩
  rw [h.keys] at hnew
  rw [AList.lookup_eq_none.mpr hnew]
  exact nofun

/-- **When a tick leaves the right report.** -/
theorem Inv.reportsAttached_tick_iff (h : w.Inv filter) (tick : LinkTick) :
    (w.step filter toml (.tick tick)).ReportsAttached filter toml tick ↔ tick.Keeps filter w := by
  have hpass := h.pass tick.seen
  obtain ⟨hmem, hmemSucceeded⟩ := mem_pass filter w tick.hnames
  rw [Attacher.step, reportsAttached_iff hpass.nodup]
  constructor
  · intro hreport
    refine ⟨fun name hname => ?_, fun l hl hnew hfilter hattaches => ?_⟩
    · obtain ⟨⟨l, hl, hlname⟩, -, hsucceeded⟩ :=
        (hreport name).mp ((hmem name).mpr (Or.inl hname))
      -- the programs are there since an earlier tick, or since this one
      rcases (hmemSucceeded _).mp hsucceeded with hold | ⟨l', hl', hattaches, hmet⟩
      · exact ⟨l, hl, hlname, Or.inl hold⟩
      · obtain ⟨rfl, hmet⟩ := Prod.mk.inj hmet
        exact ⟨l', hl', rfl, Or.inr ⟨hattaches.2.1, hattaches.2.2, hmet⟩⟩
    · -- a new interface got its programs now, so on the number that was seen
      have hnow := h.attaches_of_new hnew hfilter hattaches
      obtain ⟨-, -, hsucceeded⟩ :=
        (hreport l.name).mp ((hmem _).mpr (Or.inr ⟨l, hl, hnow, rfl⟩))
      rcases (hmemSucceeded _).mp hsucceeded with hold | ⟨l', hl', -, hmet⟩
      · exact absurd (h.succeeded _ hold) hnew
      · obtain ⟨hname, hmet⟩ := Prod.mk.inj hmet
        rw [List.inj_on_of_nodup_map tick.hnames hl' hl hname] at hmet
        exact hmet
  · intro hkeeps name
    refine ⟨fun hname => ?_, fun hname => hpass.succeeded _ hname.2.2⟩
    refine ⟨?_, hpass.allowed name hname, ?_⟩
    · rcases (hmem name).mp hname with hold | ⟨l, hl, -, hlname⟩
      · obtain ⟨l, hl, hlname, -⟩ := hkeeps.reported name hold
        exact ⟨l, hl, hlname⟩
      · exact ⟨l, hl, hlname⟩
    · by_cases hold : name ∈ w.daemon.attachedInterfaces
      · obtain ⟨l, hl, rfl, hsucceeded | ⟨hnumber, hattaches, hmet⟩⟩ := hkeeps.reported name hold
        · exact (hmemSucceeded _).mpr (Or.inl hsucceeded)
        · refine (hmemSucceeded _).mpr (Or.inr ⟨l, hl, ⟨?_, hnumber, hattaches⟩, by rw [hmet]⟩)
          exact h.allowed _ hold
      · obtain ⟨l, hl, hattaches, rfl⟩ := ((hmem name).mp hname).resolve_left hold
        refine (hmemSucceeded _).mpr (Or.inr ⟨l, hl, hattaches, ?_⟩)
        rw [hkeeps.others l hl hold hattaches.1 hattaches.2.2]

/-- The records agree after every step. -/
theorem Inv.step (h : w.Inv filter) (e : AttachEvent) : (w.step filter toml e).Inv filter := by
  rcases e with tick | env | ⟨req, env⟩
  · exact h.pass tick.seen
  · have hframe := (syncRules_cases env w.daemon).attachedInterfaces
    obtain ⟨hkeys, hallowed, hnodup, hsucceeded⟩ := h
    rw [← hframe] at hkeys hallowed hnodup hsucceeded
    exact ⟨hkeys, hallowed, hnodup, hsucceeded⟩
  · have hframe := serve_attachedInterfaces toml w.daemon (req, env)
    obtain ⟨hkeys, hallowed, hnodup, hsucceeded⟩ := h
    rw [← hframe] at hkeys hallowed hnodup hsucceeded
    exact ⟨hkeys, hallowed, hnodup, hsucceeded⟩

end Attacher

section Run
variable (filter : String → Bool) (toml : Toml) (env : Env) (unreadable : Bool) (dir : RulesDir)

theorem attacherStart_attachedInterfaces (first : LinkTick) :
    (Attacher.start filter toml env unreadable dir first).daemon.attachedInterfaces =
      (first.seen.foldl (attachInitial filter) ∅).keys :=
  (syncAll_cases env _).attachedInterfaces

/-- The initial loop, file by file, leaves these records. -/
theorem Links.pass_start {filter : String → Bool} {w : Links} {snapshot : IfaceSnapshot}
    (hw : w.records = (∅, [])) (hphase : w.phase = .looping true snapshot) {run : List LinkStep}
    (hrun : Runs.Along (Links.step filter) (fun w _ => w.phase ≠ .waiting) w run)
    (hover : (Runs.after (Links.step filter) w run).phase = .waiting) :
    ∃ seen, Lists seen snapshot ∧ ∀ first : LinkTick, first.seen = seen →
      (Runs.after (Links.step filter) w run).records =
        (Attacher.start filter toml env unreadable dir first).records := by
  obtain ⟨seen, r, hlists, hpass, hrecords⟩ := Links.pass_records hphase hrun hover
  refine ⟨seen, hlists, fun first hfirst => hrecords.trans ?_⟩
  subst hfirst
  rw [hw, records_attachInitial] at hpass
  rw [Attacher.records, attacherStart_attachedInterfaces, hpass]
  rfl

theorem attacherStart_names (first : LinkTick) (name : String) :
    name ∈ (Attacher.start filter toml env unreadable dir first).daemon.attachedInterfaces ↔
      ∃ l ∈ first.seen, filter l.name = true ∧ l.attaches = true ∧ l.name = name := by
  rw [attacherStart_attachedInterfaces, ← AList.mem_keys, Attacher.mem_initial]
  exact or_iff_right (AList.notMem_empty name)

theorem inv_attacherStart (first : LinkTick) :
    (Attacher.start filter toml env unreadable dir first).Inv filter := by
  have hframe := attacherStart_attachedInterfaces filter toml env unreadable dir first
  have hnames := attacherStart_names filter toml env unreadable dir first
  refine ⟨fun name => ?_, fun name hname => ?_, ?_, fun x hx => ?_⟩
  · rw [hframe, ← AList.mem_keys]
    rfl
  · obtain ⟨l, -, hfilter, -, rfl⟩ := (hnames name).mp hname
    exact hfilter
  · rw [hframe]
    exact AList.keys_nodup _
  · obtain ⟨l, hl, rfl⟩ := List.mem_map.mp hx
    rw [List.mem_filter, Bool.and_eq_true] at hl
    exact (hnames l.name).mpr ⟨l, hl.1, hl.2.1, hl.2.2, rfl⟩

theorem reportsAttached_start_iff (first : LinkTick) :
    (Attacher.start filter toml env unreadable dir first).ReportsAttached filter toml first ↔
      first.Lasts filter := by
  have hinv := inv_attacherStart filter toml env unreadable dir first
  have hnames := attacherStart_names filter toml env unreadable dir first
  have hsucceeded : ∀ x, x ∈ (Attacher.start filter toml env unreadable dir first).succeeded ↔
      ∃ l ∈ first.seen, (filter l.name = true ∧ l.attaches = true) ∧ (l.name, l.met) = x := by
    intro x
    simp only [Attacher.start, List.mem_map, List.mem_filter, Bool.and_eq_true, and_assoc]
  rw [Attacher.reportsAttached_iff hinv.nodup]
  constructor
  · intro hreport l hl hfilter hattaches
    obtain ⟨-, -, hpresent⟩ :=
      (hreport l.name).mp ((hnames _).mpr ⟨l, hl, hfilter, hattaches, rfl⟩)
    obtain ⟨l', hl', -, hmet⟩ := (hsucceeded _).mp hpresent
    obtain ⟨hname, hmet⟩ := Prod.mk.inj hmet
    rw [List.inj_on_of_nodup_map first.hnames hl' hl hname] at hmet
    exact hmet
  · intro hlasts name
    refine ⟨fun hname => ?_, fun hname => hinv.succeeded _ hname.2.2⟩
    obtain ⟨l, hl, hfilter, hattaches, rfl⟩ := (hnames name).mp hname
    refine ⟨⟨l, hl, rfl⟩, hfilter, (hsucceeded _).mpr ⟨l, hl, ⟨hfilter, hattaches⟩, ?_⟩⟩
    rw [hlasts l hl hfilter hattaches]

/-- **When Status reports the interfaces that are really attached.**  After the initial loop
and after every tick it does, in a run in which nothing is created anew right after it was
attached, no attached interface goes, and each that is created anew before a tick has
another number and is attached again; and in no other run. -/
theorem along_reportsAttached_iff (first : LinkTick) (run : List AttachEvent) :
    ((Attacher.start filter toml env unreadable dir first).ReportsAttached filter toml first ∧
      Runs.Along (Attacher.step filter toml)
        (fun w e => ∀ tick, e = .tick tick →
          (w.step filter toml e).ReportsAttached filter toml tick)
        (Attacher.start filter toml env unreadable dir first) run) ↔
    first.Lasts filter ∧
      Runs.Along (Attacher.step filter toml)
        (fun w e => ∀ tick, e = .tick tick → tick.Keeps filter w)
        (Attacher.start filter toml env unreadable dir first) run := by
  refine and_congr (reportsAttached_start_iff filter toml env unreadable dir first) ?_
  refine Runs.along_congr_of_invariant (fun w e h _ => h.step e) (fun w e h => ?_) run
    (inv_attacherStart filter toml env unreadable dir first)
  refine forall_congr' fun tick => forall_congr' fun he => ?_
  rw [he]
  exact h.reportsAttached_tick_iff tick

end Run

/-! ### An interface that goes -/

/-- `eth0` with the number 2, attached. -/
def eth0Seen : LinkTick where
  seen := [⟨"eth0", 2, true, 0⟩]
  hnames := List.nodup_singleton _
  present _ := 0

/-- It has gone. -/
def nothingSeen : LinkTick where
  seen := []
  hnames := List.nodup_nil
  present _ := 0

/-- It is back, as another instance with the same number. -/
def eth0Again : LinkTick where
  seen := [⟨"eth0", 2, true, 1⟩]
  hnames := List.nodup_singleton _
  present _ := 1

/-- A daemon that has attached to `eth0` at startup. -/
noncomputable def eth0Attached : Attacher :=
  .start (ifaceFilter none) (sampleToml sampleLists) { net := noNet } false noFile eth0Seen

/-- The watcher after it has seen these. -/
noncomputable def afterTicks (ticks : List LinkTick) : Attacher :=
  Runs.after (Attacher.step (ifaceFilter none) (sampleToml sampleLists)) eth0Attached
    (ticks.map .tick)

/-- Status goes on to report `eth0` when it has gone, and when it is back and nothing is
attached to it. -/
theorem eth0_still_reported :
    (∃ report, (dispatch (sampleToml sampleLists) { net := noNet }
        (afterTicks [nothingSeen]).daemon .status).1 = .status report ∧
      report.attachedInterfaces = ["eth0"]) ∧
    eth0Attached.ReportsAttached (ifaceFilter none) (sampleToml sampleLists) eth0Seen ∧
    ¬ (afterTicks [nothingSeen]).ReportsAttached (ifaceFilter none) (sampleToml sampleLists)
        nothingSeen ∧
    ¬ (afterTicks [eth0Again]).ReportsAttached (ifaceFilter none) (sampleToml sampleLists)
        eth0Again := by
  have hinv := inv_attacherStart (ifaceFilter none) (sampleToml sampleLists) { net := noNet } false
    noFile eth0Seen
  refine ⟨⟨_, rfl, rfl⟩, ?_, ?_, ?_⟩
  · rw [eth0Attached, reportsAttached_start_iff]
    intro l hl _ _
    rw [List.mem_singleton.mp hl]
    rfl
  · intro hreport
    obtain ⟨l, hl, -⟩ := (hinv.reportsAttached_tick_iff nothingSeen).mp hreport |>.reported "eth0"
      List.mem_cons_self
    cases hl
  · intro hreport
    obtain ⟨l, hl, -, hsucceeded | ⟨hnumber, -⟩⟩ :=
      (hinv.reportsAttached_tick_iff eth0Again).mp hreport |>.reported "eth0" List.mem_cons_self
    · cases List.mem_singleton.mp hsucceeded
    · rw [List.mem_singleton.mp hl] at hnumber
      exact hnumber rfl

end Moatd
