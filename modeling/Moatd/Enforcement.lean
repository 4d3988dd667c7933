import Moatd.Runs
import Moatd.Samples
import Moatd.SyncHistory
import Moatd.Verdict

/-!
# The kernel enforces the stored list

After a request answered `Ok` the maps publish the whole list, whatever earlier
syncs that stopped halfway have left in the banks: the sync writes every slot the
new count covers, and the walk looks at no other.  So the walk gives the verdict
of the user's list.
-/

namespace Moatd

/-! ### What maps publish -/

/-- `CONFIG` and the slots publish this list, compiled to `rules`, in this bank. -/
structure Maps.PublishesRules (m : Maps) (d : OnDisk) (bank : Bank) (rules : List Rule) :
    Prop where
  config : m.config = configOf d bank
  slot : ∀ i r, i < rulesMax → rules[i]? = some r → m.rules (bank.base + i) = r

/-- The maps publish the list with its defaults. -/
structure Maps.Publishes (m : Maps) (d : OnDisk) (bank : Bank) (rules : List Rule) : Prop
    extends m.PublishesRules d bank rules where
  defaults : m.HasDefaults d

/-- The maps after all updates of `sync_rules`. -/
theorem publishesRules_sync (m : Maps) (d : OnDisk) (bank : Bank) (rules : List Rule) :
    ((rulesWrites d bank rules).foldl Maps.write m).PublishesRules d bank rules := by
  refine ⟨?_, ?_⟩
  · simp [rulesWrites, List.foldl_append]
  · intro i r hi hr
    have hlt := (List.getElem?_eq_some_iff.mp hr).1
    rw [← WriteHistory.contents_of_length_le Maps.write (Nat.le_refl _)]
    refine WriteHistory.read_contents_of_sets (f := fun m : Maps => m.rules (bank.base + i))
      (getElem?_rulesWrites.mpr (Or.inl ⟨hi, r, hr, rfl⟩)) (sets_slot _ _)
      (by rw [length_rulesWrites]; omega) fun k w hk _ hw => spares_slot ?_
    rintro r' rfl
    rcases getElem?_rulesWrites.mp hw with ⟨-, r'', -, h⟩ | ⟨-, h⟩
    · rw [MapWrite.rule.injEq] at h
      omega
    · cases h

/-- The maps after all updates of `sync_all`. -/
theorem publishes_sync (m : Maps) (d : OnDisk) (bank : Bank) (rules : List Rule) :
    ((syncWrites d bank rules).foldl Maps.write m).Publishes d bank rules := by
  refine ⟨?_, ?_, ?_⟩
  · rw [syncWrites, List.foldl_append]
    exact publishesRules_sync _ d bank rules
  · rw [← WriteHistory.contents_of_length_le Maps.write (Nat.le_refl _), policyIn_contents_sync,
      if_neg (by rw [length_syncWrites]; omega)]
  · rw [← WriteHistory.contents_of_length_le Maps.write (Nat.le_refl _), policyOut_contents_sync,
      if_neg (by rw [length_syncWrites]; omega)]

/-- The default of one direction. -/
def OnDisk.default (d : OnDisk) : Direction → Action
  | .inbound => d.defaultIn
  | .outbound => d.defaultOut

theorem Maps.HasDefaults.policySlot {m : Maps} {d : OnDisk} (h : m.HasDefaults d)
    (direction : Direction) :
    m.defaultPolicy (policySlot (directionByte direction)) = actionByte (d.default direction) := by
  cases direction with
  | inbound => exact h.1
  | outbound => exact h.2

theorem actionByte_ne_unchosen (a : Action) : actionByte a ≠ unchosen := by
  cases a <;> decide

/-- A compiled rule keeps the user's action. -/
theorem buildWireRule_action {user : UserRule} {i : UInt32} {r : Rule}
    (h : buildWireRule user i = .ok r) : r.action = actionByte user.action := by
  obtain ⟨src, dst, family, srcPorts, dstPorts, -, -, -, -, -, -, rfl⟩ := buildWireRule_ok h
  rfl

theorem action_ne_unchosen {net : Nat → SysNet} {users : List UserRule} {rules : List Rule}
    (h : compileRules net 0 users = .ok rules) {r : Rule} (hr : r ∈ rules) :
    r.action ≠ unchosen := by
  obtain ⟨k, hk⟩ := List.mem_iff_getElem?.mp hr
  obtain ⟨user, -, hbuild⟩ := compileRules_rule h hk
  rw [buildWireRule_action hbuild]
  exact actionByte_ne_unchosen _

/-- A walk on maps that publish a list finds it. -/
theorem Maps.Publishes.finds {m : Maps} {d : OnDisk} {bank : Bank} {rules : List Rule}
    (h : m.Publishes d bank rules) {net : Nat → SysNet}
    (hcompile : compileRules net 0 d.rules = .ok rules) :
    Finds (fun _ => m) (rules.take rulesMax) := by
  refine ⟨?_, ?_, ?_⟩
  · rw [List.length_take, compileRules_length hcompile, h.config]
    simp only [configOf]
    omega
  · intro i r hr
    obtain ⟨hi, hr⟩ : i < rulesMax ∧ rules[i]? = some r := by
      rw [List.getElem?_take] at hr
      split at hr
      · exact ⟨‹_›, hr⟩
      · cases hr
    have hbase : m.config.base = bank.base := by
      rw [h.config]
      exact bank.base_of_byte
    rw [hbase]
    exact h.slot i r hi hr
  · intro r hr
    exact action_ne_unchosen hcompile (List.mem_of_mem_take hr)

/-- **A walk on maps that publish a list gives the list's verdict.** -/
theorem Maps.Publishes.walkRules {m : Maps} {d : OnDisk} {bank : Bank} {rules : List Rule}
    (h : m.Publishes d bank rules) {net : Nat → SysNet}
    (hcompile : compileRules net 0 d.rules = .ok rules) (direction : UInt8) (ifindex : UInt32)
    (p : Parsed) :
    walkRules m direction ifindex p =
      verdict (rules.take rulesMax) (m.defaultPolicy (policySlot direction)) direction ifindex p :=
  walkRulesAt_eq_verdict (h.finds hcompile)

/-! ### The verdict of the user's list -/

/-- Rule `i` of the list, compiled with its interface as `net i` shows it, passes all
match tests for the packet. -/
def OnDisk.Hits (d : OnDisk) (net : Nat → SysNet) (direction : Direction) (ifindex : UInt32)
    (p : Parsed) (i : Nat) : Prop :=
  ∃ user rule, d.rules[i]? = some user ∧
    buildWireRule user (resolveIface (net i) user.iface) = .ok rule ∧
    rule.matches (directionByte direction) ifindex p = true

/-- The maps enforce the list: the walk returns the action and the number of its
first rule that hits, and the default of the direction if none does. -/
structure Enforces (net : Nat → SysNet) (m : Maps) (d : OnDisk) : Prop where
  compiles : ∀ i user, d.rules[i]? = some user →
    ∃ rule, buildWireRule user (resolveIface (net i) user.iface) = .ok rule
  byRule : ∀ direction ifindex p i user, d.rules[i]? = some user →
    d.Hits net direction ifindex p i → (∀ j < i, ¬ d.Hits net direction ifindex p j) →
    walkRules m (directionByte direction) ifindex p = (actionByte user.action, i)
  byDefault : ∀ direction ifindex p, (∀ i, ¬ d.Hits net direction ifindex p i) →
    walkRules m (directionByte direction) ifindex p =
      (actionByte (d.default direction), ruleIdDefault)

/-- A compiled rule matches exactly if the user's rule hits. -/
theorem hits_iff {net : Nat → SysNet} {d : OnDisk} {rules : List Rule}
    (hcompile : compileRules net 0 d.rules = .ok rules) {direction : Direction}
    {ifindex : UInt32} {p : Parsed} {i : Nat} {r : Rule} (hr : rules[i]? = some r) :
    d.Hits net direction ifindex p i ↔ r.matches (directionByte direction) ifindex p = true := by
  obtain ⟨user, huser, hbuild⟩ := compileRules_rule hcompile hr
  constructor
  · rintro ⟨user', rule, huser', hbuild', hmatch⟩
    rw [huser, Option.some.injEq] at huser'
    subst huser'
    rw [hbuild, Except.ok.injEq] at hbuild'
    rwa [hbuild']
  · intro hmatch
    exact ⟨user, r, huser, hbuild, hmatch⟩

/-- Maps that publish a list of at most `rulesMax` rules enforce it. -/
theorem Maps.Publishes.enforces {m : Maps} {d : OnDisk} {bank : Bank} {rules : List Rule}
    (h : m.Publishes d bank rules) {net : Nat → SysNet}
    (hcompile : compileRules net 0 d.rules = .ok rules) (hlen : d.rules.length ≤ rulesMax) :
    Enforces net m d := by
  have htake : rules.take rulesMax = rules :=
    List.take_of_length_le (by rw [compileRules_length hcompile]; exact hlen)
  have hwalk := fun direction => h.walkRules hcompile (directionByte direction)
  simp only [htake] at hwalk
  refine ⟨?_, ?_, ?_⟩
  · intro i user huser
    obtain ⟨rule, -, hbuild⟩ := compileRules_user hcompile huser
    exact ⟨rule, hbuild⟩
  · intro direction ifindex p i user huser hhits hfirst
    obtain ⟨r, hr, hbuild⟩ := compileRules_user hcompile huser
    have hisFirst : FirstMatch.IsFirst
        (fun r => r.matches (directionByte direction) ifindex p) rules r i := by
      refine ⟨hr, (hits_iff hcompile hr).mp hhits, fun j r' hj hr' => ?_⟩
      have := hfirst j hj
      rwa [hits_iff hcompile hr', Bool.not_eq_true] at this
    rw [hwalk, verdict, FirstMatch.decide_of_isFirst hisFirst, buildWireRule_action hbuild]
  · intro direction ifindex p hnone
    have hmiss : ∀ r ∈ rules, r.matches (directionByte direction) ifindex p = false := by
      intro r hr
      obtain ⟨i, hi⟩ := List.mem_iff_getElem?.mp hr
      have := hnone i
      rwa [hits_iff hcompile hi, Bool.not_eq_true] at this
    rw [hwalk, verdict, FirstMatch.decide_of_none hmiss, h.defaults.policySlot]

/-- What a walk returns on maps that publish a list: the first of its rules in the bank that
hits, or the default. -/
theorem Maps.Publishes.walk_cases {m : Maps} {d : OnDisk} {bank : Bank} {rules : List Rule}
    (h : m.Publishes d bank rules) {net : Nat → SysNet}
    (hcompile : compileRules net 0 d.rules = .ok rules) (direction : Direction)
    (ifindex : UInt32) (p : Parsed) :
    (∃ i user, i < rulesMax ∧ d.rules[i]? = some user ∧ d.Hits net direction ifindex p i ∧
      (∀ j < i, ¬ d.Hits net direction ifindex p j) ∧
      Moatd.walkRules m (directionByte direction) ifindex p = (actionByte user.action, i)) ∨
    ((∀ i < rulesMax, ¬ d.Hits net direction ifindex p i) ∧
      Moatd.walkRules m (directionByte direction) ifindex p =
        (actionByte (d.default direction), ruleIdDefault)) := by
  have hget {j : Nat} (hj : j < rulesMax) : (rules.take rulesMax)[j]? = rules[j]? := by
    rw [List.getElem?_take, if_pos hj]
  -- a rule that hits matches in its slot
  have hmatches {j : Nat} (hj : j < rulesMax) (hhits : d.Hits net direction ifindex p j) :
      ∃ r, (rules.take rulesMax)[j]? = some r ∧
        r.matches (directionByte direction) ifindex p = true := by
    obtain ⟨user, -, huser, -⟩ := id hhits
    obtain ⟨r, hr, -⟩ := compileRules_user hcompile huser
    exact ⟨r, (hget hj).trans hr, (hits_iff hcompile hr).mp hhits⟩
  rw [h.walkRules hcompile, verdict, h.defaults.policySlot]
  rcases FirstMatch.isFirst_or_none (fun r => r.matches (directionByte direction) ifindex p)
    (rules.take rulesMax) with ⟨r, i, hfirst⟩ | hnone
  · left
    have hi : i < rulesMax := by
      have hlt := (List.getElem?_eq_some_iff.mp hfirst.getElem?).1
      rw [List.length_take] at hlt
      omega
    have hr : rules[i]? = some r := (hget hi).symm.trans hfirst.getElem?
    obtain ⟨user, huser, hbuild⟩ := compileRules_rule hcompile hr
    refine ⟨i, user, hi, huser, (hits_iff hcompile hr).mpr hfirst.hits, fun j hj hhits => ?_, ?_⟩
    · obtain ⟨r', hr', hmatch⟩ := hmatches (Nat.lt_trans hj hi) hhits
      rw [hfirst.before j r' hj hr'] at hmatch
      cases hmatch
    · rw [FirstMatch.decide_of_isFirst hfirst, buildWireRule_action hbuild]
  · right
    refine ⟨fun i hi hhits => ?_, FirstMatch.decide_of_none hnone⟩
    obtain ⟨r', hr', hmatch⟩ := hmatches hi hhits
    rw [hnone r' (List.mem_of_getElem? hr')] at hmatch
    cases hmatch

/-! ### Runs of requests -/

variable (toml : Toml)

/-- A request leaves the list as it is, or puts its edit in place. -/
theorem serve_onDisk (s : DaemonState) (l : Request × Env) :
    (serve toml s l).onDisk = s.onDisk ∨ l.1.edit s.onDisk = .ok (serve toml s l).onDisk := by
  obtain ⟨req, env⟩ := l
  unfold serve
  have hcase := dispatch_cases toml env s req
  generalize dispatch toml env s req = out at hcase
  cases hcase with
  | query | refused => exact Or.inl rfl
  | saveFail d e tmp _ hedit => exact Or.inr hedit
  | synced d text r _ hedit _ _ hsync =>
    right
    rw [toResponse_snd, hsync.frame.1]
    exact hedit

/-- The checks of `add_rule` keep the list within its limit. -/
theorem edit_length {req : Request} {d d' : OnDisk} (h : req.edit d = .ok d')
    (hd : d.rules.length ≤ rulesMax) : d'.rules.length ≤ rulesMax := by
  cases edit_cases h with
  | added rule hlimit =>
    rw [List.length_append, List.length_singleton]
    omega
  | deleted => exact Nat.le_trans (List.length_eraseIdx_le _ _) hd
  | reset => exact Nat.zero_le _
  | defaultIn | defaultOut | logging | query => exact hd

theorem serve_length {s : DaemonState} (l : Request × Env)
    (hs : s.onDisk.rules.length ≤ rulesMax) : (serve toml s l).onDisk.rules.length ≤ rulesMax := by
  rcases serve_onDisk toml s l with h | h
  · rwa [h]
  · exact edit_length h hs

/-- **After a request answered `Ok`, the file holds the list and the data path
enforces it**, whatever the requests before it have met. -/
theorem enforces_of_ok {s : DaemonState} (hs : s.onDisk.rules.length ≤ rulesMax)
    (run : List (Request × Env)) {req : Request} {env : Env}
    (hok : (dispatch toml env (Runs.after (serve toml) s run) req).1 = .ok) :
    (serve toml (Runs.after (serve toml) s run) (req, env)).dir.Holds toml
        (serve toml (Runs.after (serve toml) s run) (req, env)).onDisk ∧
      Enforces env.net (serve toml (Runs.after (serve toml) s run) (req, env)).maps
        (serve toml (Runs.after (serve toml) s run) (req, env)).onDisk := by
  have hlen : (Runs.after (serve toml) s run).onDisk.rules.length ≤ rulesMax :=
    Runs.invariant_after (I := fun s : DaemonState => s.onDisk.rules.length ≤ rulesMax)
      (fun _ l h => serve_length toml l h) run hs
  have hlen' := serve_length toml (req, env) hlen
  obtain ⟨d, text, rules, -, htext, hcompile, hstate⟩ := dispatch_ok hok
  rw [serve, hstate] at hlen' ⊢
  exact ⟨⟨text, htext, rfl⟩, (publishes_sync _ _ _ _).enforces hcompile hlen'⟩

/-- `moatd allow 22/tcp`, answered with an error because the file was not renamed. -/
noncomputable def sshUnsaved : DaemonState :=
  Runs.after (serve (sampleToml sampleLists)) (boot [] noFile {})
    [(.addRule sshRule, { saveFault := some .rename, net := noNet })]

/-- The rule whose save failed is in force after the next request. -/
theorem sshRule_enforced :
    (dispatch (sampleToml sampleLists) { net := noNet } sshUnsaved (.setLogging true)).1 = .ok ∧
      Enforces noNet
        (serve (sampleToml sampleLists) sshUnsaved (.setLogging true, { net := noNet })).maps
        { rules := [sshRule], loggingEnabled := true } := by
  have hstate : sshUnsaved.onDisk = { rules := [sshRule] } := rfl
  have hedit : (Request.setLogging true).edit sshUnsaved.onDisk =
      .ok { rules := [sshRule], loggingEnabled := true } := by
    rw [hstate]
    rfl
  have hok : (dispatch (sampleToml sampleLists) { net := noNet } sshUnsaved
      (.setLogging true)).1 = .ok :=
    dispatch_ok_of_compiles rfl hedit (sampleToml_saves sampleLists _) (by simp [sshRule_compiles])
  have henforces := (enforces_of_ok (sampleToml sampleLists) (s := boot [] noFile {}) (by decide)
    [(.addRule sshRule, { saveFault := some .rename, net := noNet })] hok).2
  obtain ⟨d, text, rules, hd, -, -, hserve⟩ := dispatch_ok hok
  rw [hedit, Except.ok.injEq] at hd
  have honDisk : (serve (sampleToml sampleLists) sshUnsaved
      (.setLogging true, { net := noNet })).onDisk =
      { rules := [sshRule], loggingEnabled := true } := by
    rw [serve, hserve]
    exact hd.symm
  refine ⟨hok, ?_⟩
  rw [← honDisk]
  exact henforces

end Moatd
