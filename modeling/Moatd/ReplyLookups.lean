import Moatd.Enforcement

/-!
# Reply lookups and inbound restrictions

The data path looks replies up only while `CONFIG` says so, and a sync writes the
defaults first and `CONFIG` last.  A request that tightens the inbound default
therefore restricts inbound traffic before the lookups are on, and if the sync
stops in between it stays that way.  The other way for a restriction to come
early is a sync into the live bank, which only a failed update of `CONFIG` makes
possible.  Everything else is safe at every instant.
-/

namespace Moatd

open WriteHistory

/-! ### The policy in force and the flag -/

/-- A rule that keeps inbound traffic out. -/
def Rule.restrictsInbound (r : Rule) : Bool :=
  decide (r.direction = dirIn) && decide (r.action ≠ actAllow)

/-- The rule does not allow, and it is about inbound traffic. -/
def UserRule.restrictsInbound (user : UserRule) : Bool :=
  decide (user.direction = .inbound) && decide (user.action ≠ .allow)

/-- The policy the data path enforces restricts inbound traffic. -/
def Maps.RestrictsInbound (m : Maps) : Prop :=
  m.defaultPolicy policyIn ≠ actAllow ∨ ∃ r ∈ m.liveRules, r.restrictsInbound = true

/-- If it does, reply lookups are on. -/
def Maps.LooksUpReplies (m : Maps) : Prop :=
  m.RestrictsInbound → m.config.conntrackEnabled = 1

theorem mem_liveRules {m : Maps} {r : Rule} :
    r ∈ m.liveRules ↔
      ∃ i < min m.config.ruleCount rulesMax, m.rules (m.config.base + i) = r := by
  simp [Maps.liveRules]

theorem actionByte_eq_allow_iff (a : Action) : actionByte a = actAllow ↔ a = .allow := by
  cases a <;> decide

/-- A compiled rule restricts inbound traffic exactly if the user's does. -/
theorem buildWireRule_restrictsInbound {user : UserRule} {i : UInt32} {r : Rule}
    (h : buildWireRule user i = .ok r) : r.restrictsInbound = user.restrictsInbound := by
  obtain ⟨src, dst, family, srcPorts, dstPorts, -, -, -, -, -, -, rfl⟩ := buildWireRule_ok h
  rw [Rule.restrictsInbound, UserRule.restrictsInbound]
  cases user.direction <;> cases user.action <;> rfl

theorem needsConntrack_iff (d : OnDisk) :
    needsConntrack d = true ↔
      d.defaultIn ≠ .allow ∨ ∃ user ∈ d.rules, user.restrictsInbound = true := by
  simp [needsConntrack, UserRule.restrictsInbound]

/-- **Maps that publish a list look up replies whenever they must.** -/
theorem Maps.Publishes.looksUpReplies {m : Maps} {d : OnDisk} {bank : Bank} {rules : List Rule}
    (h : m.Publishes d bank rules) {net : Nat → SysNet}
    (hcompile : compileRules net 0 d.rules = .ok rules) : m.LooksUpReplies := by
  intro hrestricts
  have hneeds : needsConntrack d = true := by
    rw [needsConntrack_iff]
    rcases hrestricts with hdefault | ⟨r, hr, hr'⟩
    · left
      rw [h.defaults.1] at hdefault
      exact fun heq => hdefault ((actionByte_eq_allow_iff _).mpr heq)
    · right
      obtain ⟨i, hi, rfl⟩ := mem_liveRules.mp hr
      have hlen : i < rules.length := by
        rw [compileRules_length hcompile]
        rw [h.config] at hi
        simp only [configOf] at hi
        omega
      have hrule : rules[i]? = some rules[i] := List.getElem?_eq_getElem hlen
      obtain ⟨user, huser, hbuild⟩ := compileRules_rule hcompile hrule
      have hslot : m.rules (m.config.base + i) = rules[i] := by
        rw [h.config]
        exact (congrArg (fun b => m.rules (b + i)) bank.base_of_byte).trans
          (h.slot i _ (by omega) hrule)
      rw [hslot, buildWireRule_restrictsInbound hbuild] at hr'
      exact ⟨user, List.mem_of_getElem? huser, hr'⟩
  rw [h.config]
  simp [configOf, flagByte, hneeds]

/-! ### The instants of a sync -/

/-- Replies are looked up at every instant between these updates. -/
def LooksUpThroughout (m : Maps) (ws : List MapWrite) : Prop :=
  ∀ n, (contents Maps.write m ws n).LooksUpReplies

/-- The sync of this list makes its first `n` updates: none of them fails, and
those after the defaults only follow if the list compiles. -/
def UpdatesMade (env : Env) (d : OnDisk) (n : Nat) : Prop :=
  (∀ k < n, env.failAt ≠ some k) ∧ (2 < n → ∀ rule ∈ d.rules, rule.compiles = true)

/-- The compiled list, or nothing if it does not compile. -/
def compiledOrNone (env : Env) (d : OnDisk) : List Rule :=
  match compileRules env.net 0 d.rules with
  | .ok rules => rules
  | .error _ => []

/-- The updates of a sync whose slots hold the compiled list. -/
def plannedWrites (env : Env) (s : DaemonState) : List MapWrite :=
  syncWrites s.onDisk s.activeBank.other (compiledOrNone env s.onDisk)

theorem take_defaultsWrites (d : OnDisk) (bank : Bank) (rules : List Rule) {k : Nat} (hk : k ≤ 2) :
    (defaultsWrites d).take k = (syncWrites d bank rules).take k := by
  rw [syncWrites, List.take_append_of_le_length (by simpa [defaultsWrites] using hk)]

theorem take_bankWrites (d : OnDisk) (bank : Bank) (rules : List Rule) {k : Nat}
    (hk : k ≤ min rules.length rulesMax) :
    defaultsWrites d ++ (bankWrites bank rules).take k =
      (syncWrites d bank rules).take (2 + k) := by
  rw [syncWrites, show 2 + k = (defaultsWrites d).length + k from rfl,
    List.take_length_add_append, rulesWrites,
    List.take_append_of_le_length (by rw [length_bankWrites]; exact hk)]

theorem compiledOrNone_of_ok {env : Env} {d : OnDisk} {rules : List Rule}
    (h : compileRules env.net 0 d.rules = .ok rules) : compiledOrNone env d = rules := by
  rw [compiledOrNone, h]

/-- Where update `N` fails, the ones before it are made. -/
theorem updatesMade_iff_of_fail {env : Env} {d : OnDisk} {N n : Nat} (hfail : env.failAt = some N)
    (hcompiles : 2 < N → ∀ rule ∈ d.rules, rule.compiles = true) :
    UpdatesMade env d n ↔ n ≤ N := by
  constructor
  · intro h
    exact Nat.le_of_not_lt fun hlt => h.1 N hlt hfail
  · intro hn
    refine ⟨fun k hk hfail' => ?_, fun h2 => hcompiles (by omega)⟩
    rw [hfail, Option.some.injEq] at hfail'
    omega

/-- A sync makes the first `N` of its planned updates, and these are the ones that
can be made. -/
theorem FullSync.writes_eq {env : Env} {s : DaemonState} {r : Outcome} (h : FullSync env s r)
    (hs : s.writes = []) :
    ∃ N, r.2.writes = (plannedWrites env s).take N ∧ (∀ n ≤ N, UpdatesMade env s.onDisk n) ∧
      ∀ n, UpdatesMade env s.onDisk n → n ≤ N ∨ (plannedWrites env s).length ≤ N := by
  cases h with
  | defaultFail k w hk hfail =>
    rw [hs, List.length_nil, Nat.zero_add] at hfail
    have hmade := fun n => updatesMade_iff_of_fail (d := s.onDisk) (n := n) hfail (by omega)
    refine ⟨k, ?_, fun n hn => (hmade n).mpr hn, fun n hn => Or.inl ((hmade n).mp hn)⟩
    rw [DaemonState.applied_writes, hs, List.nil_append]
    exact take_defaultsWrites _ _ _ (by omega)
  | rules hfail h =>
    have hlen : (s.applied (defaultsWrites s.onDisk)).writes.length = 2 := by
      rw [DaemonState.applied_writes, hs]
      rfl
    rw [hs, List.length_nil] at hfail
    cases h with
    | compileFail e hcompile =>
      have hbad : ¬ ∀ rule ∈ s.onDisk.rules, rule.compiles = true :=
        (compileRules_isError_iff env.net 0 s.onDisk.rules).mp ⟨e, hcompile⟩
      refine ⟨2, ?_, fun n hn => ⟨fun j hj => ?_, fun h2 => by omega⟩, fun n hn => Or.inl ?_⟩
      · rw [DaemonState.applied_writes, hs, List.nil_append]
        exact take_defaultsWrites _ _ _ (Nat.le_refl 2)
      · have := hfail j (by omega)
        rwa [Nat.zero_add] at this
      · exact Nat.le_of_not_lt fun hlt => hbad (hn.2 hlt)
    | slotFail rules k w hcompile hslot hk =>
      have hcompiles := compiles_of_compileRules hcompile
      have hplan : compiledOrNone env s.onDisk = rules := compiledOrNone_of_ok hcompile
      have hkle := (List.getElem?_eq_some_iff.mp hk).1
      rw [length_bankWrites] at hkle
      rw [hlen] at hslot
      -- two defaults and `k` slots are written, and then the update fails
      have hmade := fun n => updatesMade_iff_of_fail (n := n) hslot fun _ => hcompiles
      refine ⟨2 + k, ?_, fun n hn => (hmade n).mpr hn, fun n hn => Or.inl ((hmade n).mp hn)⟩
      rw [plannedWrites, hplan, DaemonState.applied_writes, DaemonState.applied_writes, hs,
        List.nil_append]
      exact take_bankWrites _ _ _ (Nat.le_of_lt hkle)
    | configFail rules w hcompile hconfig =>
      have hcompiles := compiles_of_compileRules hcompile
      have hplan : compiledOrNone env s.onDisk = rules := compiledOrNone_of_ok hcompile
      rw [hlen, length_bankWrites] at hconfig
      -- all updates but the last one are made
      have hmade := fun n => updatesMade_iff_of_fail (n := n) hconfig fun _ => hcompiles
      refine ⟨_, ?_, fun n hn => (hmade n).mpr hn, fun n hn => Or.inl ((hmade n).mp hn)⟩
      rw [plannedWrites, hplan, ← take_bankWrites _ _ _ (Nat.le_refl _),
        List.take_of_length_le (by rw [length_bankWrites])]
      simp only [DaemonState.applied, hs, List.nil_append]
    | done rules hcompile hdone =>
      have hcompiles := compiles_of_compileRules hcompile
      have hplan : compiledOrNone env s.onDisk = rules := compiledOrNone_of_ok hcompile
      refine ⟨(plannedWrites env s).length, ?_, fun n hn => ⟨fun k hk => ?_, fun _ => hcompiles⟩,
        fun n _ => Or.inr (Nat.le_refl _)⟩
      · rw [List.take_length, plannedWrites, hplan]
        simp only [DaemonState.applied, hs, List.nil_append]
        rfl
      · rw [plannedWrites, hplan, length_syncWrites] at hn
        rcases Nat.lt_or_ge k 2 with hk2 | hk2
        · have := hfail k hk2
          rwa [Nat.zero_add] at this
        · have := hdone (k - 2) (by rw [DaemonState.applied_activeBank, length_bankWrites]; omega)
          rwa [hlen, Nat.add_sub_cancel' hk2] at this

/-- Replies are looked up throughout a sync exactly if they are after every number
of updates it can make. -/
theorem FullSync.looksUpThroughout_iff {env : Env} {s : DaemonState} {r : Outcome}
    (h : FullSync env s r) (hs : s.writes = []) (m : Maps) :
    LooksUpThroughout m r.2.writes ↔
      ∀ n, UpdatesMade env s.onDisk n →
        (contents Maps.write m (plannedWrites env s) n).LooksUpReplies := by
  obtain ⟨N, hwrites, hmade, hmade'⟩ := h.writes_eq hs
  have hcontents : ∀ n, contents Maps.write m r.2.writes n =
      contents Maps.write m (plannedWrites env s) (min n N) := by
    intro n
    rw [hwrites, contents, contents, List.take_take]
  constructor
  · intro hthroughout n hn
    have := hthroughout n
    rw [hcontents] at this
    rcases hmade' n hn with hle | hle
    · rwa [Nat.min_eq_left hle] at this
    · -- past the last update nothing changes any more
      rcases Nat.le_total n N with hle' | hle'
      · rwa [Nat.min_eq_left hle'] at this
      · rw [Nat.min_eq_right hle', contents_of_length_le Maps.write hle] at this
        rwa [contents_of_length_le Maps.write (by omega)]
  · intro hinstants n
    rw [hcontents]
    exact hinstants _ (hmade _ (Nat.min_le_right n N))

/-! ### When a sync is safe -/

/-- The condition on a sync of this list: lookups are on already; or no update is
made; or the inbound default stays open, and what it writes into the live bank, if
the daemon has lost track of it, restricts nothing. -/
def SafeToSync (s : DaemonState) (env : Env) (d : OnDisk) : Prop :=
  s.maps.config.conntrackEnabled = 1 ∨ env.failAt = some 0 ∨
    (d.defaultIn = .allow ∧
      (s.maps.config.base = s.activeBank.base ∨
        ∀ i user, i < s.maps.config.ruleCount → i < rulesMax → UpdatesMade env d (3 + i) →
          d.rules[i]? = some user → user.restrictsInbound = false))

theorem UpdatesMade.mono {env : Env} {d : OnDisk} {n k : Nat} (h : UpdatesMade env d n)
    (hk : k ≤ n) : UpdatesMade env d k :=
  ⟨fun j hj => h.1 j (by omega), fun h2 => h.2 (by omega)⟩

theorem UpdatesMade.compiled {env : Env} {d : OnDisk} {n : Nat} (h : UpdatesMade env d n)
    (hn : 2 < n) : compileRules env.net 0 d.rules = .ok (compiledOrNone env d) := by
  obtain ⟨rules, hcompile⟩ := (compileRules_isOk_iff env.net 0 d.rules).mpr (h.2 hn)
  rw [compiledOrNone_of_ok hcompile, hcompile]

section Sync
variable {s : DaemonState} {env : Env}

/-- A slot of the live bank is as it was, or the daemon has lost track of the bank
and has written the slot. -/
theorem liveSlot_contents (s : DaemonState) (env : Env) (n : Nat) {i : Nat} (hi : i < rulesMax) :
    (contents Maps.write s.maps (plannedWrites env s) n).rules (s.maps.config.base + i) =
        s.maps.rules (s.maps.config.base + i) ∨
      s.maps.config.base ≠ s.activeBank.base ∧ 2 + i < n ∧
        (compiledOrNone env s.onDisk)[i]? =
          some ((contents Maps.write s.maps (plannedWrites env s) n).rules
            (s.maps.config.base + i)) := by
  rw [plannedWrites]
  rcases s.maps.config.base_cases s.activeBank with haligned | hlost
  · left
    rw [haligned]
    have hother := otherSlot_contents_sync s.maps s.onDisk s.activeBank.other
      (compiledOrNone env s.onDisk) n hi
    rwa [Bank.other_other] at hother
  · have hne : s.activeBank.other.base ≠ s.activeBank.base := by
      have := Bank.base_add_ne (i := 0) (j := 0) s.activeBank.other_ne (by decide) (by decide)
      rwa [Nat.add_zero, Nat.add_zero] at this
    rw [hlost]
    cases hrule : (compiledOrNone env s.onDisk)[i]? with
    | none => exact Or.inl (slot_contents_sync_of_none _ _ _ _ _ hrule)
    | some rule =>
      rw [slot_contents_sync _ _ _ _ _ hi hrule]
      split
      · exact Or.inl rfl
      · exact Or.inr ⟨hne, by omega, rfl⟩

/-- A safe sync keeps lookups on whenever they must be. -/
theorem looksUpReplies_of_safe (hs : s.maps.LooksUpReplies) (hsafe : SafeToSync s env s.onDisk)
    {n : Nat} (hn : UpdatesMade env s.onDisk n) :
    (contents Maps.write s.maps (plannedWrites env s) n).LooksUpReplies := by
  by_cases hflip : n ≤ 2 + min (compiledOrNone env s.onDisk).length rulesMax
  · have hconfig : (contents Maps.write s.maps (plannedWrites env s) n).config =
        s.maps.config := by
      rw [plannedWrites, config_contents_sync, if_pos hflip]
    intro hrestricts
    rw [hconfig]
    rcases Nat.eq_zero_or_pos n with rfl | hpos
    · exact hs hrestricts
    rcases hsafe with hon | hfail | ⟨hdefault, hbank⟩
    · exact hon
    · exact absurd hfail (hn.1 0 hpos)
    -- the restriction can only be a live rule, and it was there before
    rcases hrestricts with hin | ⟨r, hr, hr'⟩
    · rw [plannedWrites, policyIn_contents_sync, if_neg (by omega), hdefault] at hin
      exact absurd rfl hin
    · obtain ⟨i, hi, rfl⟩ := mem_liveRules.mp hr
      rw [hconfig] at hi hr'
      rcases liveSlot_contents s env n (i := i) (by omega) with
        hkeep | ⟨hlost, hin, hrule⟩
      · rw [hkeep] at hr'
        exact hs (Or.inr ⟨_, mem_liveRules.mpr ⟨i, hi, rfl⟩, hr'⟩)
      · have hmade : UpdatesMade env s.onDisk (3 + i) := hn.mono (by omega)
        obtain ⟨user, huser, hbuild⟩ := compileRules_rule (hmade.compiled (by omega)) hrule
        rcases hbank with haligned | hfree
        · exact absurd haligned hlost
        · rw [buildWireRule_restrictsInbound hbuild,
            hfree i user (by omega) (by omega) hmade huser] at hr'
          cases hr'
  · have hcompile := hn.compiled (by omega)
    rw [plannedWrites, contents_of_length_le Maps.write (by rw [length_syncWrites]; omega)]
    exact (publishes_sync _ _ _ _).looksUpReplies hcompile

/-- A sync that keeps lookups on whenever they must be is safe. -/
theorem safe_of_looksUpReplies
    (h : ∀ n, UpdatesMade env s.onDisk n →
      (contents Maps.write s.maps (plannedWrites env s) n).LooksUpReplies) :
    SafeToSync s env s.onDisk := by
  by_cases hon : s.maps.config.conntrackEnabled = 1
  · exact Or.inl hon
  by_cases hfail : env.failAt = some 0
  · exact Or.inr (Or.inl hfail)
  -- before the flip lookups are off, so nothing may restrict
  have hopen : ∀ n, UpdatesMade env s.onDisk n →
      n ≤ 2 + min (compiledOrNone env s.onDisk).length rulesMax →
      ¬ (contents Maps.write s.maps (plannedWrites env s) n).RestrictsInbound := by
    intro n hn hflip hrestricts
    have := h n hn hrestricts
    rw [plannedWrites, config_contents_sync, if_pos hflip] at this
    exact hon this
  refine Or.inr (Or.inr ⟨?_, ?_⟩)
  · -- after one update the new inbound default is in force
    have hone : UpdatesMade env s.onDisk 1 := by
      refine ⟨fun k hk => ?_, by omega⟩
      obtain rfl : k = 0 := by omega
      exact hfail
    have hin : (contents Maps.write s.maps (plannedWrites env s) 1).defaultPolicy policyIn =
        actAllow := Classical.not_not.mp fun hne => hopen 1 hone (by omega) (Or.inl hne)
    rw [plannedWrites, policyIn_contents_sync, if_neg (by omega)] at hin
    exact (actionByte_eq_allow_iff _).mp hin
  · rcases s.maps.config.base_cases s.activeBank with haligned | hlost
    · exact Or.inl haligned
    · -- the sync writes into the live bank, and slot `i` is there after `3 + i` updates
      refine Or.inr fun i user hcount hi hmade huser => ?_
      have hcompile := hmade.compiled (by omega)
      obtain ⟨rule, hrule, hbuild⟩ := compileRules_user hcompile huser
      have hlen := (List.getElem?_eq_some_iff.mp hrule).1
      have hclosed := hopen (3 + i) hmade (by omega)
      have hconfig : (contents Maps.write s.maps (plannedWrites env s) (3 + i)).config =
          s.maps.config := by
        rw [plannedWrites, config_contents_sync, if_pos (by omega)]
      have hslot : (contents Maps.write s.maps (plannedWrites env s) (3 + i)).rules
          (s.maps.config.base + i) = rule := by
        rw [hlost, plannedWrites, slot_contents_sync _ _ _ _ _ hi hrule, if_neg (by omega)]
      rw [← buildWireRule_restrictsInbound hbuild, ← Bool.not_eq_true]
      intro hrestricts
      refine hclosed (Or.inr ⟨rule, mem_liveRules.mpr ⟨i, ?_, ?_⟩, hrestricts⟩)
      · rw [hconfig]
        omega
      · rw [hconfig, hslot]

/-- **A sync keeps lookups on whenever they must be exactly if it is safe.** -/
theorem FullSync.looksUpThroughout_iff_safe {r : Outcome} (h : FullSync env s r)
    (hwrites : s.writes = []) (hs : s.maps.LooksUpReplies) :
    LooksUpThroughout s.maps r.2.writes ↔ SafeToSync s env s.onDisk := by
  rw [h.looksUpThroughout_iff hwrites]
  exact ⟨safe_of_looksUpReplies, fun hsafe n hn => looksUpReplies_of_safe hs hsafe hn⟩

end Sync

/-! ### Runs -/

variable (toml : Toml)

/-- Replies are looked up whenever they must be, at every instant of the request. -/
def ServesSafely (s : DaemonState) (l : Request × Env) : Prop :=
  LooksUpThroughout s.maps (serve toml s l).writes

/-- The condition on a request: the list it gets as far as syncing is safe to sync. -/
def SyncsSafely (s : DaemonState) (l : Request × Env) : Prop :=
  l.1.mutates = true → ∀ d, l.1.edit s.onDisk = .ok d → saves toml l.2.saveFault d = true →
    SafeToSync s l.2 d

theorem servesSafely_iff {s : DaemonState} (hs : s.maps.LooksUpReplies) (l : Request × Env) :
    ServesSafely toml s l ↔ SyncsSafely toml s l := by
  obtain ⟨req, env⟩ := l
  unfold ServesSafely SyncsSafely serve
  have hcase := dispatch_cases toml env s req
  generalize dispatch toml env s req = out at hcase
  -- a request that makes no update has one instant
  have hnone : LooksUpThroughout s.maps [] := fun n => by
    rw [contents_of_length_le Maps.write (Nat.zero_le n)]
    exact hs
  cases hcase with
  | query resp hmut =>
    refine iff_of_true hnone fun h => ?_
    rw [hmut] at h
    cases h
  | refused e _ hedit =>
    refine iff_of_true hnone fun _ d hd => ?_
    rw [hedit] at hd
    cases hd
  | saveFail d e tmp _ hedit hsave =>
    refine iff_of_true hnone fun _ d' hd' hsave' => ?_
    rw [hedit, Except.ok.injEq] at hd'
    rw [← hd', hsave] at hsave'
    cases hsave'
  | synced d text r hmut hedit hsave _ hsync =>
    rw [toResponse_snd, hsync.looksUpThroughout_iff_safe rfl hs]
    constructor
    · intro hsafe _ d' hd' _
      rw [hedit, Except.ok.injEq] at hd'
      exact hd' ▸ hsafe
    · intro hsafe
      exact hsafe hmut d hedit hsave

theorem looksUpReplies_zeroed : Maps.zeroed.LooksUpReplies := by
  rintro (hin | ⟨r, hr, -⟩)
  · exact absurd rfl hin
  · obtain ⟨i, hi, -⟩ := mem_liveRules.mp hr
    simp [Maps.zeroed, GlobalConfig.zeroed] at hi

/-- After a request that was safe at every instant, the next one starts safely. -/
theorem looksUpReplies_serve {s : DaemonState} {l : Request × Env} (h : ServesSafely toml s l) :
    (serve toml s l).maps.LooksUpReplies := by
  have := h (serve toml s l).writes.length
  rwa [contents_of_length_le Maps.write (Nat.le_refl _), ← serve_maps] at this

section Startup
variable (env : Env) (unreadable : Bool) (attached : List String) (dir : RulesDir)

theorem looksUpReplies_runDaemon
    (h : LooksUpThroughout Maps.zeroed (runDaemon toml env unreadable attached dir).2.writes) :
    (runDaemon toml env unreadable attached dir).2.maps.LooksUpReplies := by
  obtain ⟨ws, hwrites, hmaps⟩ :=
    (syncAll_cases env (boot attached dir (loadOrDefault toml unreadable dir))).updates
  have := h ws.length
  rw [runDaemon, hwrites] at this
  rw [runDaemon, hmaps]
  rwa [show (boot attached dir (loadOrDefault toml unreadable dir)).writes ++ ws = ws from rfl,
    contents_of_length_le Maps.write (Nat.le_refl _)] at this

/-- **Replies are looked up whenever they must be, at every instant from startup on,
exactly if startup and every request of the run sync safely.** -/
theorem along_servesSafely_iff (run : List (Request × Env)) :
    LooksUpThroughout Maps.zeroed (runDaemon toml env unreadable attached dir).2.writes ∧
        Runs.Along (serve toml) (ServesSafely toml)
          (runDaemon toml env unreadable attached dir).2 run ↔
      SafeToSync (boot attached dir (loadOrDefault toml unreadable dir)) env
          (loadOrDefault toml unreadable dir) ∧
        Runs.Along (serve toml) (SyncsSafely toml)
          (runDaemon toml env unreadable attached dir).2 run := by
  have hstart := (syncAll_cases env
    (boot attached dir (loadOrDefault toml unreadable dir))).looksUpThroughout_iff_safe rfl
    looksUpReplies_zeroed
  rw [show (boot attached dir (loadOrDefault toml unreadable dir)).onDisk =
    loadOrDefault toml unreadable dir from rfl] at hstart
  rw [← hstart]
  refine and_congr_right fun hthroughout => ?_
  exact Runs.along_congr_of_invariant (I := fun s => s.maps.LooksUpReplies)
    (fun s l hs hl => looksUpReplies_serve toml ((servesSafely_iff toml hs l).mpr hl))
    (fun s l hs => servesSafely_iff toml hs l) run
    (looksUpReplies_runDaemon toml env unreadable attached dir hthroughout)

end Startup

/-- `moatd default deny incoming` on a fresh daemon: the default is written before
the lookups are on. -/
theorem setDefaultDeny_not_servesSafely :
    ¬ (LooksUpThroughout Maps.zeroed freshDaemon.writes ∧
      Runs.Along (serve (sampleToml sampleLists)) (ServesSafely (sampleToml sampleLists))
        freshDaemon [(.setDefault .inbound .deny, { net := noNet })]) := by
  rintro ⟨hstart, hdeny, -⟩
  have hs := looksUpReplies_runDaemon (sampleToml sampleLists) { net := noNet } false [] noFile
    hstart
  have hsafe := (servesSafely_iff (sampleToml sampleLists) hs _).mp hdeny rfl _ rfl
    (sampleToml_saves _ _)
  rcases hsafe with hon | hfail | ⟨hdefault, -⟩
  · revert hon
    decide
  · cases hfail
  · cases hdefault

end Moatd
