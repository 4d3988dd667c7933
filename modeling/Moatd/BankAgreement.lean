import Moatd.DoubleBuffer

/-!
# Whose bank is live

The bank in use is kept twice: in the daemon, which computes from it where the next
list goes, and in `CONFIG`, which the data path reads.  A sync moves the daemon's copy
before it writes `CONFIG`.  If that last update fails, the two differ, and the next
sync fills the bank that is live.  Every other failure leaves them in agreement.
-/

namespace Moatd

open WriteHistory

/-! ### Syncs -/

/-- What runs of syncs are made of: all of `sync_all`, or `sync_rules` alone as the link
watcher calls it, for the list the daemon has by then. -/
inductive Sync
  | all (d : OnDisk) (env : Env)
  | rules (d : OnDisk) (env : Env)

/-- What the sync does, from a list and with faults of its own. -/
def Sync.outcome (s : DaemonState) : Sync → Outcome
  | .all d env => syncAll env { s with onDisk := d, writes := [] }
  | .rules d env => syncRules env { s with onDisk := d, writes := [] }

/-- The state a sync leaves, whether it succeeds or not; `writes` are its updates. -/
def Sync.step (s : DaemonState) (l : Sync) : DaemonState := (l.outcome s).2

/-- The list compiles, and the update that fails is the one of `CONFIG`, which comes after
`before` others and one for each slot. -/
def ConfigFails (before : Nat) (d : OnDisk) (env : Env) : Prop :=
  (∀ rule ∈ d.rules, rule.compiles = true) ∧
    env.failAt = some (before + min d.rules.length rulesMax)

/-- The sync gets as far as `CONFIG` and fails there. -/
def Sync.FailsAtConfig : Sync → Prop
  | .all d env => ConfigFails 2 d env
  | .rules d env => ConfigFails 0 d env

/-! ### Agreement -/

/-- The daemon's bank is the one `CONFIG` holds. -/
def DaemonState.BanksAgree (s : DaemonState) : Prop :=
  s.maps.config.activeBank = s.activeBank.byte

theorem DaemonState.BanksAgree.base {s : DaemonState} (h : s.BanksAgree) :
    s.maps.config.base = s.activeBank.base := by
  rw [GlobalConfig.base, h, Bank.base_of_byte]

/-- After the sync the banks agree, and none of its slot updates went into the bank that
`CONFIG` selected at that moment. -/
def Sync.Keeps (s : DaemonState) (l : Sync) : Prop :=
  (l.step s).BanksAgree ∧ StaysAside s.maps (l.step s).writes

theorem banksAgree_boot (attached : List String) (dir : RulesDir) (d : OnDisk) :
    (boot attached dir d).BanksAgree := rfl

theorem Bank.byte_injective {b c : Bank} (h : b.byte = c.byte) : b = c := by
  revert b c
  decide

/-! ### What a sync does to it -/

theorem staysAside_of_no_slot {m : Maps} {ws : List MapWrite}
    (h : ∀ w ∈ ws, ∀ slot r, w ≠ .rule slot r) : StaysAside m ws :=
  fun _ slot r _ hn _ => absurd rfl (h _ (List.mem_of_getElem? hn) slot r)

theorem StaysAside.take {m : Maps} {ws : List MapWrite} (h : StaysAside m ws) (k : Nat) :
    StaysAside m (ws.take k) := by
  intro n slot r i hn hi
  have hnk : n < k := by
    have := (List.getElem?_eq_some_iff.mp hn).1
    rw [List.length_take] at this
    omega
  rw [List.getElem?_take_of_lt hnk] at hn
  have hcontents : contents Maps.write m (ws.take k) n = contents Maps.write m ws n := by
    rw [contents, contents, List.take_take, Nat.min_eq_left (Nat.le_of_lt hnk)]
  rw [hcontents]
  exact h n slot r i hn hi

theorem config_foldl_bankWrites (m : Maps) (bank : Bank) (rules : List Rule) (k : Nat) :
    (((bankWrites bank rules).take k).foldl Maps.write m).config = m.config := by
  refine read_contents_of_spared (f := Maps.config) (fun w hw => spares_config ?_) k
  rintro c rfl
  obtain ⟨_, _, _, _, h⟩ := mem_bankWrites hw
  cases h

theorem config_foldl_defaultsWrites (m : Maps) (d : OnDisk) (k : Nat) :
    (((defaultsWrites d).take k).foldl Maps.write m).config = m.config := by
  refine read_contents_of_spared (f := Maps.config) (fun w hw => spares_config ?_) k
  rintro c rfl
  simp [defaultsWrites] at hw

/-- The slot updates of `sync_rules` stay aside if the banks agree before it. -/
theorem RulesSync.staysAside {env : Env} {s : DaemonState} {r : Outcome} (h : RulesSync env s r)
    (hs : s.BanksAgree) : ∃ ws, r.2.writes = s.writes ++ ws ∧ StaysAside s.maps ws := by
  have hall : ∀ rules, StaysAside s.maps (rulesWrites s.onDisk s.activeBank.other rules) :=
    fun rules => staysAside_rulesWrites (by rw [hs.base, Bank.other_other])
  -- a sync that stops has made an initial part of its updates
  have hpart : ∀ rules k, StaysAside s.maps ((bankWrites s.activeBank.other rules).take k) := by
    intro rules k
    have htake := (hall rules).take (min k (bankWrites s.activeBank.other rules).length)
    rwa [rulesWrites, List.take_append_of_le_length (Nat.min_le_right _ _),
      ← List.take_take, List.take_length] at htake
  cases h with
  | compileFail =>
    exact ⟨[], (List.append_nil _).symm, staysAside_of_no_slot fun w hw => by cases hw⟩
  | slotFail rules k => exact ⟨_, rfl, hpart rules k⟩
  | configFail rules =>
    have hbank := hpart rules (bankWrites s.activeBank.other rules).length
    rw [List.take_length] at hbank
    exact ⟨_, rfl, hbank⟩
  | done rules => exact ⟨_, rfl, hall rules⟩

/-- **Only a failure at `CONFIG` parts the banks.** -/
theorem RulesSync.banksAgree_iff {env : Env} {s : DaemonState} {r : Outcome}
    (h : RulesSync env s r) (hs : s.BanksAgree) :
    r.2.BanksAgree ↔ ¬ ConfigFails s.writes.length s.onDisk env := by
  have hlen : ∀ rules, compileRules env.net 0 s.onDisk.rules = .ok rules →
      (bankWrites s.activeBank.other rules).length = min s.onDisk.rules.length rulesMax := by
    intro rules hcompile
    rw [length_bankWrites, compileRules_length hcompile]
  unfold ConfigFails
  cases h with
  | compileFail e hcompile =>
    refine iff_of_true hs fun hfails => ?_
    exact (compileRules_isError_iff _ _ _).mp ⟨e, hcompile⟩ hfails.1
  | slotFail rules k w hcompile hfail hk =>
    have hagree : (s.applied ((bankWrites s.activeBank.other rules).take k)).BanksAgree := by
      unfold DaemonState.BanksAgree
      rw [DaemonState.applied_maps, config_foldl_bankWrites]
      exact hs
    refine iff_of_true hagree fun hfails => ?_
    have hlt := (List.getElem?_eq_some_iff.mp hk).1
    rw [hlen rules hcompile] at hlt
    have hat := hfail.symm.trans hfails.2
    rw [Option.some.injEq] at hat
    omega
  | configFail rules w hcompile hfail =>
    rw [hlen rules hcompile] at hfail
    refine iff_of_false (fun hagree => ?_) fun hnot =>
      hnot ⟨compiles_of_compileRules hcompile, hfail⟩
    have hconfig := config_foldl_bankWrites s.maps s.activeBank.other rules
      (bankWrites s.activeBank.other rules).length
    rw [List.take_length] at hconfig
    simp only [DaemonState.BanksAgree, DaemonState.applied_maps, hconfig] at hagree
    exact s.activeBank.other_ne (Bank.byte_injective (hagree.symm.trans hs))
  | done rules hcompile hfail =>
    refine iff_of_true ?_ fun hfails => hfail _ (Nat.le_refl _) ?_
    · simp only [DaemonState.BanksAgree, DaemonState.applied_maps, List.foldl_append,
        List.foldl_cons, List.foldl_nil, Maps.write_config_config]
      rfl
    · rw [hlen rules hcompile]
      exact hfails.2

/-- The same of a full sync: the defaults come first, and decide nothing about it. -/
theorem FullSync.keeps_iff {env : Env} {s : DaemonState} {r : Outcome} (h : FullSync env s r)
    (hs : s.BanksAgree) (hwrites : s.writes = []) :
    (r.2.BanksAgree ∧ StaysAside s.maps r.2.writes) ↔ ¬ ConfigFails 2 s.onDisk env := by
  have hdefaults : ∀ k, StaysAside s.maps ((defaultsWrites s.onDisk).take k) := by
    refine fun k => staysAside_of_no_slot fun w hw slot r h => ?_
    have hmem := List.mem_of_mem_take hw
    rw [h] at hmem
    simp [defaultsWrites] at hmem
  cases h with
  | defaultFail k w hk hfail =>
    have hagree : (s.applied ((defaultsWrites s.onDisk).take k)).BanksAgree := by
      unfold DaemonState.BanksAgree
      rw [DaemonState.applied_maps, config_foldl_defaultsWrites]
      exact hs
    refine iff_of_true ⟨hagree, ?_⟩ fun hfails => ?_
    · rw [DaemonState.applied_writes, hwrites, List.nil_append]
      exact hdefaults k
    · have hat := hfail.symm.trans hfails.2
      rw [Option.some.injEq, hwrites, List.length_nil] at hat
      omega
  | rules hfail h =>
    have hall : (defaultsWrites s.onDisk).take 2 = defaultsWrites s.onDisk := rfl
    have hagree : (s.applied (defaultsWrites s.onDisk)).BanksAgree := by
      unfold DaemonState.BanksAgree
      rw [DaemonState.applied_maps, ← hall, config_foldl_defaultsWrites]
      exact hs
    obtain ⟨ws, hws, haside⟩ := h.staysAside hagree
    have hbefore : (s.applied (defaultsWrites s.onDisk)).writes.length = 2 := by
      rw [DaemonState.applied_writes, hwrites]
      rfl
    have hiff := h.banksAgree_iff hagree
    rw [hbefore, DaemonState.applied_onDisk] at hiff
    rw [← hiff, and_iff_left]
    rw [hws, DaemonState.applied_writes, hwrites, List.nil_append]
    exact StaysAside.append (hdefaults 2) haside

/-- **One sync keeps the agreement unless it fails at `CONFIG`.** -/
theorem Sync.keeps_iff {s : DaemonState} (hs : s.BanksAgree) (l : Sync) :
    l.Keeps s ↔ ¬ l.FailsAtConfig := by
  cases l with
  | all d env => exact (syncAll_cases env { s with onDisk := d, writes := [] }).keeps_iff hs rfl
  | rules d env =>
    have hcase := syncRules_cases env { s with onDisk := d, writes := [] }
    obtain ⟨ws, hws, haside⟩ := hcase.staysAside hs
    rw [List.nil_append] at hws
    exact (and_iff_left (hws ▸ haside)).trans (hcase.banksAgree_iff hs)

/-- **The bank in use is never written into, as long as no sync fails at `CONFIG`.**  In a
run from startup the daemon and `CONFIG` agree on the bank after every sync, and every slot
update stays out of the bank `CONFIG` selects, exactly if no sync of the run gets as far as
the update of `CONFIG` and fails there. -/
theorem along_keeps_iff (attached : List String) (dir : RulesDir) (d : OnDisk)
    (run : List Sync) :
    Runs.Along Sync.step (fun s l => l.Keeps s) (boot attached dir d) run ↔
      ∀ l ∈ run, ¬ l.FailsAtConfig := by
  rw [← Runs.along_label]
  refine Runs.along_congr_of_invariant (I := DaemonState.BanksAgree) (fun s l hs hl => ?_)
    (fun s l hs => l.keeps_iff hs) run (banksAgree_boot attached dir d)
  exact ((l.keeps_iff hs).mpr hl).1

/-- A list is put in force, the update of `CONFIG` fails for the next one, and a third
follows. -/
def lostFlip : List Sync :=
  [.all { rules := [sshRule] } { net := noNet },
    .all { rules := [sshRule], loggingEnabled := true } { failAt := some 3, net := noNet },
    .all { rules := [{ sshRule with action := .deny }] } { net := noNet }]

/-- The third list overwrites the first, which is still in force. -/
theorem lostFlip_not_keeps :
    ¬ Runs.Along Sync.step (fun s l => l.Keeps s) (boot [] noFile {}) lostFlip ∧
      ∃ s, s = Runs.after Sync.step (boot [] noFile {}) (lostFlip.take 2) ∧
        s.maps.config.activeBank = 1 ∧ s.activeBank.byte = 0 ∧
        ∃ l rule, lostFlip[2]? = some l ∧ (l.step s).writes[2]? = some (.rule 256 rule) ∧
          s.maps.rules 256 ≠ rule := by
  refine ⟨fun h => ?_, _, rfl, rfl, rfl, _, _, rfl, rfl, by decide⟩
  obtain ⟨-, ⟨hagree, -⟩, -⟩ := h
  have hdiffer : (1 : UInt8) ≠ 0 := by decide
  exact hdiffer hagree

end Moatd
