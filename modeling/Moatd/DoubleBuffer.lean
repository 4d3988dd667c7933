import Moatd.Enforcement
import Mathlib.Tactic.IntervalCases

/-!
# What double buffering protects a walk from

Each sync fills the bank that is not in use and then flips.  So the bank a walk
found in `CONFIG` is left alone by the sync in progress, but the next one writes
into it, and nothing keeps that one from starting before the walk is done.  The
walk sees one published list exactly as long as no such overwrite with a
different rule reaches a slot before the walk does.
-/

namespace Moatd

open WriteHistory

/-! ### Updates that stay out of the live bank -/

/-- No update goes to a slot of the bank that `CONFIG` selects when it is made. -/
def StaysAside (m : Maps) (ws : List MapWrite) : Prop :=
  ∀ n slot r i, ws[n]? = some (.rule slot r) → i < rulesMax →
    slot ≠ (contents Maps.write m ws n).config.base + i

theorem StaysAside.append {m : Maps} {ws vs : List MapWrite} (hws : StaysAside m ws)
    (hvs : StaysAside (ws.foldl Maps.write m) vs) : StaysAside m (ws ++ vs) := by
  intro n slot r i hn hi
  rcases Nat.lt_or_ge n ws.length with hlt | hge
  · rw [List.getElem?_append_left hlt] at hn
    rw [contents_append_left Maps.write (Nat.le_of_lt hlt)]
    exact hws n slot r i hn hi
  · obtain ⟨k, rfl⟩ := Nat.exists_eq_add_of_le hge
    rw [List.getElem?_append_right hge, Nat.add_sub_cancel_left] at hn
    rw [contents_append_right]
    exact hvs k slot r i hn hi

/-- No update goes to a slot of the bank that is live when it is made, and no rule
carries the action that the walk takes for "nothing chosen". -/
structure Disciplined (m : Maps) (ws : List MapWrite) : Prop where
  aside : ∀ n slot r i, ws[n]? = some (.rule slot r) → i < rulesMax →
    slot ≠ (contents Maps.write m ws n).config.base + i
  chosen : ∀ slot r, .rule slot r ∈ ws → r.action ≠ unchosen

theorem disciplined_nil (m : Maps) : Disciplined m [] :=
  ⟨fun n slot r i h => by simp at h, fun slot r h => by simp at h⟩

theorem Disciplined.append {m : Maps} {ws vs : List MapWrite} (hws : Disciplined m ws)
    (hvs : Disciplined (ws.foldl Maps.write m) vs) : Disciplined m (ws ++ vs) := by
  refine ⟨StaysAside.append hws.aside hvs.aside, ?_⟩
  intro slot r hmem
  rcases List.mem_append.mp hmem with hmem | hmem
  · exact hws.chosen slot r hmem
  · exact hvs.chosen slot r hmem

/-- A sync into the bank that is not live stays aside: until its last update, `CONFIG`
is the old one. -/
theorem staysAside_rulesWrites {m : Maps} {d : OnDisk} {bank : Bank} {rules : List Rule}
    (hbank : m.config.base = bank.other.base) : StaysAside m (rulesWrites d bank rules) := by
  intro n slot r i hn hi
  rcases getElem?_rulesWrites.mp hn with ⟨hn, r', hr', heq⟩ | ⟨-, heq⟩
  · rw [MapWrite.rule.injEq] at heq
    -- `CONFIG` is the last update, so it is the old one while slots are written
    have hconfig : (contents Maps.write m (rulesWrites d bank rules) n).config = m.config := by
      refine read_contents_of_spares (f := Maps.config) (n := 0) (Nat.zero_le n)
        fun k w _ hk hw => spares_config ?_
      rintro c rfl
      rcases getElem?_rulesWrites.mp hw with ⟨-, r'', -, h⟩ | ⟨h, -⟩
      · cases h
      · have := (List.getElem?_eq_some_iff.mp hr').1
        omega
    rw [heq.1, hconfig, hbank]
    exact Bank.base_add_ne bank.other_ne.symm hn hi
  · cases heq

theorem disciplined_rulesWrites {m : Maps} {d : OnDisk} {bank : Bank} {rules : List Rule}
    (hbank : m.config.base = bank.other.base) (hchosen : ∀ r ∈ rules, r.action ≠ unchosen) :
    Disciplined m (rulesWrites d bank rules) := by
  refine ⟨staysAside_rulesWrites hbank, ?_⟩
  intro slot r hmem
  obtain ⟨k, hk⟩ := List.mem_iff_getElem?.mp hmem
  rcases getElem?_rulesWrites.mp hk with ⟨-, r', hr', heq⟩ | ⟨-, heq⟩
  · rw [MapWrite.rule.injEq] at heq
    rw [heq.2]
    exact hchosen r' (List.mem_of_getElem? hr')
  · cases heq

/-! ### What a configuration published -/

/-- How many updates had been made when the configuration was written that is in
force after `n` of them. -/
def flipBefore (ws : List MapWrite) : Nat → Nat
  | 0 => 0
  | n + 1 =>
    match ws[n]? with
    | some (.config _) => n + 1
    | _ => flipBefore ws n

/-- The rule that the configuration in force after `n` updates published at index
`i`: what slot `i` of its bank held when it was written. -/
def publishedRule (m : Maps) (ws : List MapWrite) (n i : Nat) : Rule :=
  (contents Maps.write m ws (flipBefore ws n)).rules
    ((contents Maps.write m ws (flipBefore ws n)).config.base + i)

theorem flipBefore_le (ws : List MapWrite) (n : Nat) : flipBefore ws n ≤ n := by
  induction n with
  | zero => exact Nat.le_refl 0
  | succ n ih =>
    rw [flipBefore]
    split
    · exact Nat.le_refl _
    · omega

theorem not_config_since_flip {ws : List MapWrite} {n k : Nat} {c : GlobalConfig}
    (hk : flipBefore ws n ≤ k) (hkn : k < n) : ws[k]? ≠ some (.config c) := by
  induction n with
  | zero => omega
  | succ n ih =>
    rw [flipBefore] at hk
    intro hw
    split at hk
    · omega
    · rename_i hno
      rcases Nat.lt_or_eq_of_le (Nat.le_of_lt_succ hkn) with hkn | rfl
      · exact ih hk hkn hw
      · exact hno c hw

theorem config_since_flip (m : Maps) (ws : List MapWrite) {n k : Nat}
    (hk : flipBefore ws n ≤ k) (hkn : k ≤ n) :
    (contents Maps.write m ws k).config =
      (contents Maps.write m ws (flipBefore ws n)).config := by
  refine read_contents_of_spares (f := Maps.config) hk
    fun j w hj hjk hw => spares_config ?_
  rintro c rfl
  exact not_config_since_flip hj (by omega) hw

/-- **The live bank does not change between two flips.** -/
theorem Disciplined.live {m : Maps} {ws : List MapWrite} (h : Disciplined m ws) (n : Nat) {i : Nat}
    (hi : i < rulesMax) :
    (contents Maps.write m ws n).rules ((contents Maps.write m ws n).config.base + i) =
      publishedRule m ws n i := by
  rw [publishedRule, config_since_flip m ws (flipBefore_le ws n) (Nat.le_refl n)]
  generalize hslot : (contents Maps.write m ws (flipBefore ws n)).config.base + i = slot
  refine read_contents_of_spares (f := fun m : Maps => m.rules slot) (flipBefore_le ws n)
    fun k w hk hkn hw => spares_slot ?_
  rintro r rfl
  refine h.aside k slot r i hw hi ?_
  rw [config_since_flip m ws hk (Nat.le_of_lt hkn), hslot]

/-! ### A walk beside the updates -/

section Walk
variable (m : Maps) (ws : List MapWrite) (moments : Nat → Nat) (direction : UInt8)
  (ifindex : UInt32) (p : Parsed)

/-- Every slot the walk examines holds, when it is read, the rule that the
configuration the walk read had published there. -/
def SeesPublished : Prop :=
  ∀ i < slotsExamined (viewAt m ws moments) direction ifindex p,
    (viewAt m ws moments (i + 1)).rules ((viewAt m ws moments 0).config.base + i) =
      publishedRule m ws (moments 0) i

/-- Between the walk's reading of `CONFIG` and its reading of slot `i`, that slot of
the bank is not overwritten, or the last time with the published rule again. -/
def SlotKept (i : Nat) : Prop :=
  ∀ k r, moments 0 ≤ k → k < moments (i + 1) →
    ws[k]? = some (.rule ((viewAt m ws moments 0).config.base + i) r) →
    (∀ k' r', k < k' → k' < moments (i + 1) →
      ws[k']? ≠ some (.rule ((viewAt m ws moments 0).config.base + i) r')) →
    r = publishedRule m ws (moments 0) i

/-- The published slots are kept, up to the first rule that matches. -/
def SlotsKept : Prop :=
  ∀ i < min (viewAt m ws moments 0).config.ruleCount rulesMax,
    (∀ j < i, (publishedRule m ws (moments 0) j).matches direction ifindex p = false) →
    SlotKept m ws moments i

variable {m ws moments}

/-- The actions found in the slots are those of compiled rules, at every moment. -/
theorem Disciplined.action_ne (h : Disciplined m ws)
    (hm : ∀ slot, (m.rules slot).action ≠ unchosen) (n slot : Nat) :
    ((contents Maps.write m ws n).rules slot).action ≠ unchosen := by
  rcases exists_last (fun w => ∃ r, w = MapWrite.rule slot r) ws 0 n with
    hnone | ⟨k, w, -, hk, hw, ⟨r, rfl⟩, hlater⟩
  · have hkeep : (contents Maps.write m ws n).rules slot = m.rules slot :=
      read_contents_of_spares (f := fun m : Maps => m.rules slot) (Nat.zero_le n)
        fun k w hk hkn hw => spares_slot fun r hr => hnone k w hk hkn hw ⟨r, hr⟩
    rw [hkeep]
    exact hm slot
  · have hset : (contents Maps.write m ws n).rules slot = r :=
      read_contents_of_sets (f := fun m : Maps => m.rules slot) hw (sets_slot slot r) hk
        fun k' w' hk' hkn hw' => spares_slot fun r' hr' => hlater k' w' hk' hkn hw' ⟨r', hr'⟩
    rw [hset]
    exact h.chosen slot r (List.mem_of_getElem? hw)

/-- A slot is kept exactly if the walk finds the published rule in it. -/
theorem Disciplined.slotKept_iff (h : Disciplined m ws) (hmono : Monotone moments) {i : Nat}
    (hi : i < rulesMax) :
    SlotKept m ws moments i ↔
      (viewAt m ws moments (i + 1)).rules ((viewAt m ws moments 0).config.base + i) =
        publishedRule m ws (moments 0) i := by
  have hlive := h.live (moments 0) hi
  rw [← viewAt_apply] at hlive
  unfold SlotKept
  generalize (viewAt m ws moments 0).config.base + i = slot at hlive ⊢
  have hle : moments 0 ≤ moments (i + 1) := hmono (Nat.zero_le _)
  rcases exists_last (fun w => ∃ r, w = MapWrite.rule slot r) ws (moments 0) (moments (i + 1)) with
    hnone | ⟨k, w, hk, hki, hw, ⟨r, rfl⟩, hlater⟩
  · have hkeep : (viewAt m ws moments (i + 1)).rules slot = (viewAt m ws moments 0).rules slot :=
      read_contents_of_spares (f := fun m : Maps => m.rules slot) hle
        fun k w hk hkn hw => spares_slot fun r hr => hnone k w hk hkn hw ⟨r, hr⟩
    rw [hkeep, hlive]
    exact iff_of_true (fun k r hk hki hw _ => absurd ⟨r, rfl⟩ (hnone k _ hk hki hw)) rfl
  · have hset : (viewAt m ws moments (i + 1)).rules slot = r :=
      read_contents_of_sets (f := fun m : Maps => m.rules slot) hw (sets_slot slot r) hki
        fun k' w' hk' hkn hw' => spares_slot fun r' hr' => hlater k' w' hk' hkn hw' ⟨r', hr'⟩
    rw [hset]
    constructor
    · intro hkept
      exact hkept k r hk hki hw fun k' r' hk' hki' hw' => hlater k' _ hk' hki' hw' ⟨r', rfl⟩
    · rintro hr k' r' - hki' hw' hlast'
      -- both are the last overwrite, so they are the same one
      rcases Nat.lt_trichotomy k k' with hlt | rfl | hlt
      · exact absurd ⟨r', rfl⟩ (hlater k' _ hlt hki' hw')
      · rw [hw, Option.some.injEq, MapWrite.rule.injEq] at hw'
        rw [← hw'.2, hr]
      · exact absurd hw (hlast' k r hlt hki)

/-- While `CONFIG` is the one the walk has read, its slots are kept. -/
theorem Disciplined.slotKept_of_no_flip (h : Disciplined m ws) {i : Nat} (hi : i < rulesMax)
    (hflip : ∀ k c, moments 0 ≤ k → k < moments (i + 1) → ws[k]? ≠ some (.config c)) :
    SlotKept m ws moments i := by
  intro k r hk hki hw _
  refine absurd ?_ (h.aside k _ r i hw hi)
  have hconfig : (contents Maps.write m ws k).config = (viewAt m ws moments 0).config := by
    refine read_contents_of_spares (f := Maps.config) hk
      fun j w hj hjk hw => spares_config ?_
    rintro c rfl
    exact hflip j c hj (by omega) hw
  rw [hconfig]

/-- A walk sees one published list exactly if the slots it needs are kept. -/
theorem Disciplined.seesPublished_iff (h : Disciplined m ws)
    (hm : ∀ slot, (m.rules slot).action ≠ unchosen) (hmono : Monotone moments) :
    SeesPublished m ws moments direction ifindex p ↔
      SlotsKept m ws moments direction ifindex p := by
  have hfinds : Finds (viewAt m ws moments) (foundRules (viewAt m ws moments)) :=
    finds_foundRules fun j slot => h.action_ne hm (moments j) slot
  have hexamined : ∀ i, i < slotsExamined (viewAt m ws moments) direction ifindex p ↔
      i < min (viewAt m ws moments 0).config.ruleCount rulesMax ∧ ∀ j < i,
        ((viewAt m ws moments (j + 1)).rules
          ((viewAt m ws moments 0).config.base + j)).matches direction ifindex p = false := by
    intro i
    rw [lt_slotsExamined_iff hfinds, hfinds.length]
    refine and_congr_right fun hi => ?_
    constructor
    · intro hbefore j hj
      exact hbefore j _ hj (getElem?_foundRules (by omega))
    · intro hbefore j r hj hr
      rw [getElem?_foundRules (by omega), Option.some.injEq] at hr
      rw [← hr]
      exact hbefore j hj
  constructor
  · -- by induction, the slots before `i` are examined and hold what was published
    intro hsees i hi hbefore
    rw [h.slotKept_iff hmono (by omega)]
    refine hsees i ((hexamined i).mpr ⟨hi, fun j hj => ?_⟩)
    induction j using Nat.strongRecOn with
    | ind j ih =>
      have hj' := hsees j ((hexamined j).mpr ⟨by omega, fun k hk => ih k hk (by omega)⟩)
      rw [hj']
      exact hbefore j hj
  · intro hkept i hi
    obtain ⟨hcount, hbefore⟩ := (hexamined i).mp hi
    induction i using Nat.strongRecOn with
    | ind i ih =>
      rw [← h.slotKept_iff hmono (by omega)]
      refine hkept i hcount fun j hj => ?_
      have hlt : j < slotsExamined (viewAt m ws moments) direction ifindex p := by omega
      have hj' := ih j hj hlt (by omega) fun k hk => hbefore k (by omega)
      rw [← hj']
      exact hbefore j hj

end Walk

/-! ### Successive syncs -/

/-- One run of `sync_rules`, for the list the daemon has by then. -/
def resync (s : DaemonState) (l : OnDisk × Env) : DaemonState :=
  (syncRules l.2 { s with onDisk := l.1 }).2

/-- It succeeds. -/
def Resyncs (s : DaemonState) (l : OnDisk × Env) : Prop :=
  (syncRules l.2 { s with onDisk := l.1 }).1 = .ok ()

/-- The daemon and the maps are in step: all updates so far were disciplined, and
`CONFIG` selects the daemon's bank. -/
structure InStep (m : Maps) (s : DaemonState) : Prop where
  maps : s.maps = s.writes.foldl Maps.write m
  bank : s.maps.config.base = s.activeBank.base
  disciplined : Disciplined m s.writes

theorem inStep_boot (attached : List String) (dir : RulesDir) (d : OnDisk) :
    InStep Maps.zeroed (boot attached dir d) := by
  refine ⟨rfl, ?_, disciplined_nil _⟩
  simp [boot, Maps.zeroed, GlobalConfig.zeroed, GlobalConfig.base, Bank.base]

theorem zeroed_action_ne (slot : Nat) : (Maps.zeroed.rules slot).action ≠ unchosen := by
  change (0 : UInt8) ≠ unchosen
  decide

/-- **A sync that succeeds keeps daemon and maps in step.** -/
theorem InStep.resync {m : Maps} {s : DaemonState} (h : InStep m s) {l : OnDisk × Env}
    (hl : Resyncs s l) : InStep m (resync s l) := by
  obtain ⟨d, env⟩ := l
  obtain ⟨rules, hcompile, hstate⟩ := (syncRules_cases env { s with onDisk := d }).of_ok hl
  have hvs : Disciplined s.maps (rulesWrites d s.activeBank.other rules) :=
    disciplined_rulesWrites (by rw [h.bank, Bank.other_other])
      fun r hr => action_ne_unchosen hcompile hr
  rw [Moatd.resync, hstate]
  refine ⟨?_, ?_, h.disciplined.append ?_⟩
  · simp only [DaemonState.applied, List.foldl_append, h.maps]
  · simp only [DaemonState.applied, rulesWrites, List.foldl_append, List.foldl_cons,
      List.foldl_nil, Maps.write_config_config]
    exact s.activeBank.other.base_of_byte
  · rw [← h.maps]
    exact hvs

/-- **What a walk beside any number of syncs sees.**  It sees the list its
configuration published exactly if, up to the first rule of that list that matches,
no slot is overwritten with a different rule before the walk has read it. -/
theorem seesPublished_iff_slotsKept {attached : List String} {dir : RulesDir} {d : OnDisk}
    {syncs : List (OnDisk × Env)} (hsyncs : Runs.Along resync Resyncs (boot attached dir d) syncs)
    {moments : Nat → Nat} (hmono : Monotone moments) (direction : UInt8) (ifindex : UInt32)
    (p : Parsed) :
    SeesPublished Maps.zeroed (Runs.after resync (boot attached dir d) syncs).writes moments
        direction ifindex p ↔
      SlotsKept Maps.zeroed (Runs.after resync (boot attached dir d) syncs).writes moments
        direction ifindex p := by
  have hstep : InStep Maps.zeroed (Runs.after resync (boot attached dir d) syncs) :=
    hsyncs.invariant (fun _ _ h hl => h.resync hl) (inStep_boot attached dir d)
  exact hstep.disciplined.seesPublished_iff direction ifindex p zeroed_action_ne hmono

/-- Three lists one after another: port 22 allowed, nothing, port 22 denied. -/
def overtaking : List (OnDisk × Env) :=
  [({ rules := [sshRule] }, { net := noNet }), ({}, { net := noNet }),
    ({ rules := [{ sshRule with action := .deny }] }, { net := noNet })]

/-- A connection to port 22. -/
def sshPacket : Parsed := ⟨familyV4, protoTcp, 0, Addr.zero, Addr.zero, 40000, 22⟩

/-- Rules of both directions; the only rule of port 22; and the first list again, with
every action turned. -/
def pursuing : List (OnDisk × Env) :=
  [({ rules := [denyTelnetIn, { sshRule with direction := .outbound, action := .deny },
      sshRule] }, { net := noNet }),
    ({ rules := [sshRule] }, { net := noNet }),
    ({ rules := [{ denyTelnetIn with action := .allow },
      { sshRule with direction := .outbound }, { sshRule with action := .deny }] },
        { net := noNet })]

/-- `CONFIG` is read after the first sync, the first slot during the second sync, and the
two others during the third. -/
def pursuedMoments : Nat → Nat
  | 0 => 4
  | 1 => 5
  | 2 => 7
  | _ => 8

theorem pursuedMoments_mono : Monotone pursuedMoments := by
  refine monotone_nat_of_le_succ fun n => ?_
  rcases n with _ | _ | _ | n <;> simp [pursuedMoments]

/-- A walk that two syncs overtake: the third list is written slot by slot into the bank
it reads, each time just behind it. -/
theorem sshRule_seesPublished :
    Runs.Along resync Resyncs (boot [] noFile {}) pursuing ∧
      slotsExamined (viewAt Maps.zeroed (Runs.after resync (boot [] noFile {}) pursuing).writes
        pursuedMoments) dirIn 2 sshPacket = 3 ∧
      SeesPublished Maps.zeroed (Runs.after resync (boot [] noFile {}) pursuing).writes
        pursuedMoments dirIn 2 sshPacket := by
  have hsyncs : Runs.Along resync Resyncs (boot [] noFile {}) pursuing := ⟨rfl, rfl, rfl, trivial⟩
  refine ⟨hsyncs, by decide +kernel, ?_⟩
  rw [seesPublished_iff_slotsKept hsyncs pursuedMoments_mono dirIn 2 sshPacket]
  intro i hi _ k r hk hki hwrite _
  have hi : i < 3 := Nat.lt_of_lt_of_le hi (Nat.min_le_left _ _)
  exfalso
  interval_cases i <;> simp only [pursuedMoments] at hk hki <;> interval_cases k <;>
    cases hwrite

/-- A walk that reads `CONFIG` after the first sync and its one slot during the
third: it finds the rule that denies what its list allows. -/
theorem sshRule_overtaken :
    Runs.Along resync Resyncs (boot [] noFile {}) overtaking ∧
      ¬ SeesPublished Maps.zeroed (Runs.after resync (boot [] noFile {}) overtaking).writes
        (fun j => if j = 0 then 2 else 4) dirIn 2 sshPacket := by
  refine ⟨⟨rfl, rfl, rfl, trivial⟩, fun hsees => ?_⟩
  have h := hsees 0 (by decide)
  revert h
  decide

end Moatd
