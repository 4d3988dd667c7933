import Moatd.CompiledList

/-!
# What a sync and a request can do

Every argument about the daemon goes through the case analyses of this module
instead of unfolding the code again.  A sync is a fixed sequence of map updates
that may stop anywhere: `RulesSync` and `FullSync` list where it can stop and what
has been written by then.  A request is an edit of the list, a save and a full
sync: `Dispatched` lists its four endings.
-/

namespace Moatd

/-! ### A batch of map updates -/

/-- The state with these map updates made. -/
def DaemonState.applied (s : DaemonState) (ws : List MapWrite) : DaemonState :=
  { s with maps := ws.foldl Maps.write s.maps, writes := s.writes ++ ws }

section Applied
variable (s : DaemonState) (ws ws' : List MapWrite)

@[simp] theorem DaemonState.applied_nil : s.applied [] = s := by
  simp [DaemonState.applied]

@[simp] theorem DaemonState.applied_onDisk : (s.applied ws).onDisk = s.onDisk := rfl

@[simp] theorem DaemonState.applied_activeBank : (s.applied ws).activeBank = s.activeBank := rfl

@[simp] theorem DaemonState.applied_maps :
    (s.applied ws).maps = ws.foldl Maps.write s.maps := rfl

@[simp] theorem DaemonState.applied_writes : (s.applied ws).writes = s.writes ++ ws := rfl

theorem DaemonState.applied_append : s.applied (ws ++ ws') = (s.applied ws).applied ws' := by
  simp [DaemonState.applied, List.foldl_append]

end Applied

/-- The updates one after another, up to the first that fails. -/
def runWrites (env : Env) : List MapWrite → DaemonState → Outcome
  | [], s => (.ok (), s)
  | w :: ws, s => (s.set env w).andThen (runWrites env ws)

/-- A batch is done completely, or up to the update at which the environment
makes it fail. -/
theorem runWrites_cases (env : Env) {ws : List MapWrite} (hws : ∀ w ∈ ws, w.inBounds = true)
    (s : DaemonState) :
    ((∀ k < ws.length, env.failAt ≠ some (s.writes.length + k)) ∧
        runWrites env ws s = (.ok (), s.applied ws)) ∨
      ∃ k w, env.failAt = some (s.writes.length + k) ∧ ws[k]? = some w ∧
        runWrites env ws s = (.error (.map w), s.applied (ws.take k)) := by
  induction ws generalizing s with
  | nil => exact Or.inl ⟨by simp, by simp [runWrites]⟩
  | cons w ws ih =>
    have hw : w.inBounds = true := hws w List.mem_cons_self
    by_cases hfail : env.failAt = some s.writes.length
    · exact Or.inr ⟨0, w, hfail, rfl, by simp [runWrites, DaemonState.set, hfail, Outcome.andThen]⟩
    · have hset : s.set env w = (.ok (), s.applied [w]) := by
        simp [DaemonState.set, hw, hfail, DaemonState.applied]
      have hlen : (s.applied [w]).writes.length = s.writes.length + 1 := by simp
      rw [runWrites, hset, Outcome.andThen]
      rcases ih (fun v hv => hws v (List.mem_cons_of_mem _ hv)) (s.applied [w]) with
        ⟨hnone, hrun⟩ | ⟨k, v, hk, hv, hrun⟩
      · refine Or.inl ⟨fun k hk => ?_, by rw [hrun, ← s.applied_append]; rfl⟩
        cases k with
        | zero => exact hfail
        | succ k =>
          have := hnone k (by simpa using hk)
          rwa [hlen, Nat.add_assoc, Nat.add_comm 1 k] at this
      · refine Or.inr ⟨k + 1, v, ?_, hv, by rw [hrun, ← s.applied_append]; rfl⟩
        rwa [hlen, Nat.add_assoc, Nat.add_comm 1 k] at hk

/-! ### The updates of a sync -/

/-- The updates of `sync_defaults`. -/
def defaultsWrites (d : OnDisk) : List MapWrite :=
  [.defaultPolicy policyIn (actionByte d.defaultIn),
    .defaultPolicy policyOut (actionByte d.defaultOut)]

/-- The default policy is the one of this list. -/
def Maps.HasDefaults (m : Maps) (d : OnDisk) : Prop :=
  m.defaultPolicy policyIn = actionByte d.defaultIn ∧
    m.defaultPolicy policyOut = actionByte d.defaultOut

/-- Slot `base + i` and the following ones. -/
def slotWrites (base : Nat) : Nat → List Rule → List MapWrite
  | _, [] => []
  | i, rule :: rest => .rule (base + i) rule :: slotWrites base (i + 1) rest

/-- The slot updates of a sync into this bank. -/
def bankWrites (bank : Bank) (rules : List Rule) : List MapWrite :=
  slotWrites bank.base 0 (rules.take rulesMax)

theorem length_slotWrites (base i : Nat) (rules : List Rule) :
    (slotWrites base i rules).length = rules.length := by
  induction rules generalizing i with
  | nil => rfl
  | cons r rules ih => simp [slotWrites, ih]

theorem length_bankWrites (bank : Bank) (rules : List Rule) :
    (bankWrites bank rules).length = min rules.length rulesMax := by
  rw [bankWrites, length_slotWrites, List.length_take, Nat.min_comm]

theorem getElem?_slotWrites (base i k : Nat) (rules : List Rule) :
    (slotWrites base i rules)[k]? = rules[k]?.map fun r => .rule (base + (i + k)) r := by
  induction rules generalizing i k with
  | nil => simp [slotWrites]
  | cons r rules ih =>
    cases k with
    | zero => simp [slotWrites]
    | succ k =>
      simp only [slotWrites, List.getElem?_cons_succ, ih]
      rw [Nat.add_assoc i 1 k, Nat.add_comm 1 k]

/-- The `k`-th update of a bank writes rule `k` to slot `k` of the bank. -/
theorem getElem?_bankWrites {bank : Bank} {rules : List Rule} {k : Nat} {w : MapWrite} :
    (bankWrites bank rules)[k]? = some w ↔
      k < rulesMax ∧ ∃ r, rules[k]? = some r ∧ w = .rule (bank.base + k) r := by
  rw [bankWrites, getElem?_slotWrites, List.getElem?_take]
  by_cases hk : k < rulesMax
  · cases rules[k]? <;> simp [hk, eq_comm]
  · simp [hk]

theorem mem_bankWrites {bank : Bank} {rules : List Rule} {w : MapWrite}
    (h : w ∈ bankWrites bank rules) :
    ∃ k r, k < rulesMax ∧ rules[k]? = some r ∧ w = .rule (bank.base + k) r := by
  obtain ⟨k, hk⟩ := List.mem_iff_getElem?.mp h
  obtain ⟨hlt, r, hr, rfl⟩ := getElem?_bankWrites.mp hk
  exact ⟨k, r, hlt, hr, rfl⟩

theorem inBounds_bankWrites {bank : Bank} {rules : List Rule} {w : MapWrite}
    (h : w ∈ bankWrites bank rules) : w.inBounds = true := by
  obtain ⟨k, r, hk, -, rfl⟩ := mem_bankWrites h
  simpa [MapWrite.inBounds] using bank.base_add_lt hk

theorem inBounds_defaultsWrites {d : OnDisk} {w : MapWrite} (h : w ∈ defaultsWrites d) :
    w.inBounds = true := by
  simp only [defaultsWrites, List.mem_cons, List.not_mem_nil, or_false] at h
  rcases h with rfl | rfl <;> rfl

theorem syncDefaults_eq (env : Env) (s : DaemonState) :
    syncDefaults env s = runWrites env (defaultsWrites s.onDisk) s := by
  unfold syncDefaults
  cases h : s.set env (.defaultPolicy policyIn (actionByte s.onDisk.defaultIn)) with
  | mk result t =>
    have honDisk : t.onDisk = s.onDisk := by
      unfold DaemonState.set at h
      split at h <;> cases h <;> rfl
    cases result with
    | error e => simp [runWrites, defaultsWrites, h, Outcome.andThen]
    | ok =>
      simp only [runWrites, defaultsWrites, h, Outcome.andThen, honDisk]
      split <;> simp_all

theorem writeSlots_eq (env : Env) (base i : Nat) (rules : List Rule) (s : DaemonState) :
    writeSlots env base i rules s = runWrites env (slotWrites base i rules) s := by
  induction rules generalizing i s with
  | nil => rfl
  | cons r rules ih => simp [writeSlots, slotWrites, runWrites, ih]

/-! ### The endings of a sync -/

/-- The five endings of `sync_rules`: a rule does not compile; a slot update fails;
the update of `CONFIG` fails, and the daemon has already moved to the new bank;
or everything is done. -/
inductive RulesSync (env : Env) (s : DaemonState) : Outcome → Prop
  | compileFail (e : WireError) (hcompile : compileRules env.net 0 s.onDisk.rules = .error e) :
      RulesSync env s (.error (.wire e), s)
  | slotFail (rules : List Rule) (k : Nat) (w : MapWrite)
      (hcompile : compileRules env.net 0 s.onDisk.rules = .ok rules)
      (hfail : env.failAt = some (s.writes.length + k))
      (hk : (bankWrites s.activeBank.other rules)[k]? = some w) :
      RulesSync env s (.error (.map w), s.applied ((bankWrites s.activeBank.other rules).take k))
  | configFail (rules : List Rule) (w : MapWrite)
      (hcompile : compileRules env.net 0 s.onDisk.rules = .ok rules)
      (hfail : env.failAt =
        some (s.writes.length + (bankWrites s.activeBank.other rules).length)) :
      RulesSync env s (.error (.map w),
        { s.applied (bankWrites s.activeBank.other rules) with activeBank := s.activeBank.other })
  | done (rules : List Rule)
      (hcompile : compileRules env.net 0 s.onDisk.rules = .ok rules)
      (hfail : ∀ k ≤ (bankWrites s.activeBank.other rules).length,
        env.failAt ≠ some (s.writes.length + k)) :
      RulesSync env s (.ok (),
        { s.applied (bankWrites s.activeBank.other rules ++
            [.config (configOf s.onDisk s.activeBank.other)]) with
          activeBank := s.activeBank.other })

theorem syncRules_cases (env : Env) (s : DaemonState) : RulesSync env s (syncRules env s) := by
  unfold syncRules
  cases hcompile : compileRules env.net 0 s.onDisk.rules with
  | error e => exact .compileFail e hcompile
  | ok rules =>
    simp only [writeSlots_eq]
    rw [show slotWrites s.activeBank.other.base 0 (rules.take rulesMax) =
      bankWrites s.activeBank.other rules from rfl]
    rcases runWrites_cases env (fun w => inBounds_bankWrites) s with
      ⟨hnone, hrun⟩ | ⟨k, w, hfail, hk, hrun⟩
    · rw [hrun, Outcome.andThen]
      by_cases hlast : env.failAt =
          some (s.writes.length + (bankWrites s.activeBank.other rules).length)
      · have hwrite : writeConfig env { s.applied (bankWrites s.activeBank.other rules) with
            activeBank := s.activeBank.other } =
            (.error (.map (.config (configOf s.onDisk s.activeBank.other))),
              { s.applied (bankWrites s.activeBank.other rules) with
                activeBank := s.activeBank.other }) := by
          simp [writeConfig, DaemonState.set, hlast]
        rw [hwrite]
        exact .configFail rules _ hcompile hlast
      · have hwrite : writeConfig env { s.applied (bankWrites s.activeBank.other rules) with
            activeBank := s.activeBank.other } =
            (.ok (), { s.applied (bankWrites s.activeBank.other rules ++
                [.config (configOf s.onDisk s.activeBank.other)]) with
              activeBank := s.activeBank.other }) := by
          simp [writeConfig, DaemonState.set, MapWrite.inBounds, hlast, DaemonState.applied]
        rw [hwrite]
        refine .done rules hcompile fun k hk => ?_
        rcases Nat.lt_or_eq_of_le hk with hlt | rfl
        · exact hnone k hlt
        · exact hlast
    · rw [hrun, Outcome.andThen]
      exact .slotFail rules k w hcompile hfail hk

/-- The endings of `sync_all`: a default-policy update fails, or both are done and
`sync_rules` ends in one of its own ways. -/
inductive FullSync (env : Env) (s : DaemonState) : Outcome → Prop
  | defaultFail (k : Nat) (w : MapWrite) (hk : k < 2)
      (hfail : env.failAt = some (s.writes.length + k)) :
      FullSync env s (.error (.map w), s.applied ((defaultsWrites s.onDisk).take k))
  | rules {r : Outcome} (hfail : ∀ k < 2, env.failAt ≠ some (s.writes.length + k))
      (h : RulesSync env (s.applied (defaultsWrites s.onDisk)) r) : FullSync env s r

theorem syncAll_cases (env : Env) (s : DaemonState) : FullSync env s (syncAll env s) := by
  unfold syncAll
  rw [syncDefaults_eq]
  rcases runWrites_cases env (fun w => inBounds_defaultsWrites) s with
    ⟨hnone, hrun⟩ | ⟨k, w, hfail, hk, hrun⟩
  · rw [hrun]
    exact .rules hnone (syncRules_cases env _)
  · rw [hrun]
    exact .defaultFail k w (List.getElem?_eq_some_iff.mp hk).1 hfail

/-- A sync leaves the list and the file alone. -/
theorem RulesSync.frame {env : Env} {s : DaemonState} {r : Outcome} (h : RulesSync env s r) :
    r.2.onDisk = s.onDisk ∧ r.2.dir = s.dir := by
  cases h <;> exact ⟨rfl, rfl⟩

theorem FullSync.frame {env : Env} {s : DaemonState} {r : Outcome} (h : FullSync env s r) :
    r.2.onDisk = s.onDisk ∧ r.2.dir = s.dir := by
  cases h with
  | defaultFail => exact ⟨rfl, rfl⟩
  | rules _ h => exact h.frame

/-- The maps a sync leaves are the ones it found, with its updates made. -/
theorem RulesSync.updates {env : Env} {s : DaemonState} {r : Outcome} (h : RulesSync env s r) :
    ∃ ws, r.2.writes = s.writes ++ ws ∧ r.2.maps = ws.foldl Maps.write s.maps := by
  cases h with
  | compileFail => exact ⟨[], (List.append_nil _).symm, rfl⟩
  | slotFail | configFail | done => exact ⟨_, rfl, rfl⟩

theorem FullSync.updates {env : Env} {s : DaemonState} {r : Outcome} (h : FullSync env s r) :
    ∃ ws, r.2.writes = s.writes ++ ws ∧ r.2.maps = ws.foldl Maps.write s.maps := by
  cases h with
  | defaultFail => exact ⟨_, rfl, rfl⟩
  | rules _ h =>
    obtain ⟨ws, hwrites, hmaps⟩ := h.updates
    refine ⟨defaultsWrites s.onDisk ++ ws, ?_, ?_⟩
    · rw [hwrites, DaemonState.applied_writes, List.append_assoc]
    · rw [hmaps, DaemonState.applied_maps, List.foldl_append]

@[simp] theorem toResponse_snd (r : Outcome) : (toResponse r).2 = r.2 := by
  obtain ⟨result, s⟩ := r
  cases result <;> rfl

theorem toResponse_fst_ok {r : Outcome} (h : r.1 = .ok ()) : (toResponse r).1 = .ok := by
  obtain ⟨result, s⟩ := r
  cases h
  rfl

/-! ### The endings of a request -/

/-- The request is one that changes the list. -/
def Request.mutates : Request → Bool
  | .ping | .status | .listRules => false
  | _ => true

/-- The checks a request makes before it touches the list, and its edit. -/
def Request.edit : Request → OnDisk → Except Error OnDisk
  | .addRule rule, d =>
    if rulesMax ≤ d.rules.length then .error .ruleLimit
    else
      match rule.iface with
      | some name =>
        if validIfaceName name then .ok { d with rules := d.rules ++ [rule] }
        else .error (.invalidIfaceName name)
      | none => .ok { d with rules := d.rules ++ [rule] }
  | .deleteRule idx, d =>
    if idx = 0 then .error .indexZero
    else if d.rules.length ≤ (idx - 1).toNat then .error (.noRule idx)
    else .ok { d with rules := d.rules.eraseIdx (idx - 1).toNat }
  | .setDefault .inbound action, d => .ok { d with defaultIn := action }
  | .setDefault .outbound action, d => .ok { d with defaultOut := action }
  | .setLogging enabled, d => .ok { d with loggingEnabled := enabled }
  | .reset, _ => .ok {}
  | _, d => .ok d

theorem Request.edit_addRule (rule : UserRule) (d : OnDisk) :
    (Request.addRule rule).edit d =
      if rulesMax ≤ d.rules.length then .error .ruleLimit
      else
        match rule.iface with
        | some name =>
          if validIfaceName name then .ok { d with rules := d.rules ++ [rule] }
          else .error (.invalidIfaceName name)
        | none => .ok { d with rules := d.rules ++ [rule] } := rfl

theorem Request.edit_deleteRule (idx : UInt32) (d : OnDisk) :
    (Request.deleteRule idx).edit d =
      if idx = 0 then .error .indexZero
      else if d.rules.length ≤ (idx - 1).toNat then .error (.noRule idx)
      else .ok { d with rules := d.rules.eraseIdx (idx - 1).toNat } := rfl

/-- What gets past the checks, and the list it makes of `d`. -/
inductive Edited (d : OnDisk) : Request → OnDisk → Prop
  | added (rule : UserRule) (hlimit : d.rules.length < rulesMax)
      (hname : ∀ name, rule.iface = some name → validIfaceName name = true) :
      Edited d (.addRule rule) { d with rules := d.rules ++ [rule] }
  | deleted (idx : UInt32) (hzero : idx ≠ 0) (hidx : (idx - 1).toNat < d.rules.length) :
      Edited d (.deleteRule idx) { d with rules := d.rules.eraseIdx (idx - 1).toNat }
  | defaultIn (action : Action) :
      Edited d (.setDefault .inbound action) { d with defaultIn := action }
  | defaultOut (action : Action) :
      Edited d (.setDefault .outbound action) { d with defaultOut := action }
  | logging (enabled : Bool) : Edited d (.setLogging enabled) { d with loggingEnabled := enabled }
  | reset : Edited d .reset {}
  | query (req : Request) (hmut : req.mutates = false) : Edited d req d

theorem edit_cases {req : Request} {d d' : OnDisk} (h : req.edit d = .ok d') : Edited d req d' := by
  cases req with
  | addRule rule =>
    rw [Request.edit_addRule] at h
    split at h
    · cases h
    · rename_i hlimit
      have hlt : d.rules.length < rulesMax := Nat.lt_of_not_le hlimit
      split at h
      · rename_i name hname
        split at h <;> cases h
        rename_i hvalid
        refine .added rule hlt fun name' hname' => ?_
        cases hname.symm.trans hname'
        exact hvalid
      · rename_i hname
        cases h
        exact .added rule hlt fun name' hname' => by cases hname.symm.trans hname'
  | deleteRule idx =>
    rw [Request.edit_deleteRule] at h
    split at h
    · cases h
    · rename_i hzero
      split at h <;> cases h
      rename_i hidx
      exact .deleted idx hzero (Nat.lt_of_not_le hidx)
  | setDefault dir action =>
    cases dir <;> cases h
    · exact .defaultIn action
    · exact .defaultOut action
  | setLogging enabled =>
    cases h
    exact .logging enabled
  | reset =>
    cases h
    exact .reset
  | ping | status | listRules =>
    cases h
    exact .query _ rfl

/-- The endings of a request: a query changes nothing; a request may be refused
before the edit; its save may fail, with the edit left in memory; or the edited
list is saved and synced. -/
inductive Dispatched (toml : Toml) (env : Env) (s : DaemonState) (req : Request) :
    Response × DaemonState → Prop
  | query (resp : Response) (hmut : req.mutates = false) (hok : resp ≠ .ok)
      (herr : ∀ e, resp ≠ .err e) : Dispatched toml env s req (resp, { s with writes := [] })
  | refused (e : Error) (hmut : req.mutates = true) (hedit : req.edit s.onDisk = .error e) :
      Dispatched toml env s req (.err e, { s with writes := [] })
  | saveFail (d : OnDisk) (e : SaveError) (tmp : Option String) (hmut : req.mutates = true)
      (hedit : req.edit s.onDisk = .ok d) (hsave : saves toml env.saveFault d = false) :
      Dispatched toml env s req (.err (.save e),
        { s with onDisk := d, dir := { s.dir with tmpFile := tmp }, writes := [] })
  | synced (d : OnDisk) (text : String) (r : Outcome) (hmut : req.mutates = true)
      (hedit : req.edit s.onDisk = .ok d) (hsave : saves toml env.saveFault d = true)
      (htext : toml.toStringPretty d = .ok text)
      (hsync : FullSync env { s with onDisk := d, dir := ⟨some text, none⟩, writes := [] } r) :
      Dispatched toml env s req (toResponse r)

theorem dispatch_eq (toml : Toml) (env : Env) (s : DaemonState) {req : Request}
    (hmut : req.mutates = true) :
    dispatch toml env s req =
      match req.edit s.onDisk with
      | .error e => (.err e, { s with writes := [] })
      | .ok d => toResponse (persistAndSync toml env { s with onDisk := d, writes := [] }) := by
  cases req with
  | ping | status | listRules => cases hmut
  | addRule rule =>
    simp only [dispatch, addRule, Request.edit_addRule]
    split
    · rfl
    · cases rule.iface with
      | none => rfl
      | some name => by_cases hname : validIfaceName name = true <;> simp [hname, toResponse]
  | deleteRule idx =>
    simp only [dispatch, deleteRule, Request.edit_deleteRule]
    split
    · rfl
    · split <;> rfl
  | setDefault dir action => cases dir <;> rfl
  | setLogging enabled => rfl
  | reset => rfl

theorem dispatch_cases (toml : Toml) (env : Env) (s : DaemonState) (req : Request) :
    Dispatched toml env s req (dispatch toml env s req) := by
  cases hmut : req.mutates with
  | false =>
    cases req with
    | ping | status | listRules => exact .query _ hmut (by simp) (by simp)
    | _ => cases hmut
  | true =>
    rw [dispatch_eq toml env s hmut]
    cases hedit : req.edit s.onDisk with
    | error e => exact .refused e hmut hedit
    | ok d =>
      simp only [persistAndSync]
      rcases save_cases toml env.saveFault s.dir d with
        ⟨hsave, text, htext, heq⟩ | ⟨hsave, e, tmp, heq⟩
      · rw [heq]
        exact .synced d text _ hmut hedit hsave htext (syncAll_cases env _)
      · rw [heq]
        exact .saveFail d e tmp hmut hedit hsave

/-- The maps after a request are the ones before it, with its updates made. -/
theorem serve_maps (toml : Toml) (s : DaemonState) (l : Request × Env) :
    (serve toml s l).maps = (serve toml s l).writes.foldl Maps.write s.maps := by
  obtain ⟨req, env⟩ := l
  unfold serve
  have hcase := dispatch_cases toml env s req
  generalize dispatch toml env s req = out at hcase
  cases hcase with
  | query | refused | saveFail => rfl
  | synced d text r _ _ _ _ hsync =>
    obtain ⟨ws, hwrites, hmaps⟩ := hsync.updates
    rw [toResponse_snd, hmaps, hwrites, List.nil_append]

/-! ### Success -/

/-- Number of map updates of a full sync. -/
def syncLength (d : OnDisk) : Nat := 2 + min d.rules.length rulesMax + 1

/-- **When a sync succeeds**: its list compiles, and none of its updates fails. -/
theorem syncAll_ok_iff (env : Env) (s : DaemonState) :
    (syncAll env s).1 = .ok () ↔ (∀ rule ∈ s.onDisk.rules, rule.compiles = true) ∧
      ∀ k < syncLength s.onDisk, env.failAt ≠ some (s.writes.length + k) := by
  rw [← compileRules_isOk_iff env.net 0 s.onDisk.rules]
  have hlen : ∀ {rules}, compileRules env.net 0 s.onDisk.rules = .ok rules →
      (bankWrites s.activeBank.other rules).length + 3 = syncLength s.onDisk := by
    intro rules hcompile
    rw [length_bankWrites, compileRules_length hcompile, syncLength]
    omega
  have hcase := syncAll_cases env s
  generalize syncAll env s = out at hcase
  cases hcase with
  | defaultFail k w hk hfail =>
    refine iff_of_false (fun h => by cases h) fun h => h.2 k ?_ hfail
    unfold syncLength
    omega
  | rules hdefaults h =>
    cases h with
    | compileFail e hcompile =>
      rw [show compileRules env.net 0 s.onDisk.rules = .error e from hcompile]
      exact iff_of_false (fun h => by cases h) (by simp)
    | slotFail rules k w hcompile hfail hk =>
      have hlt := (List.getElem?_eq_some_iff.mp hk).1
      have := hlen hcompile
      rw [DaemonState.applied_writes, List.length_append, Nat.add_assoc] at hfail
      refine iff_of_false (fun h => by cases h) fun h => h.2 (2 + k) ?_ hfail
      rw [DaemonState.applied_activeBank] at hlt
      omega
    | configFail rules w hcompile hfail =>
      have := hlen hcompile
      rw [DaemonState.applied_writes, List.length_append, Nat.add_assoc] at hfail
      refine iff_of_false (fun h => by cases h) fun h => h.2 _ ?_ hfail
      simp only [DaemonState.applied_activeBank, defaultsWrites, List.length_cons, List.length_nil]
      omega
    | done rules hcompile hfail =>
      refine iff_of_true rfl ⟨⟨rules, hcompile⟩, fun k hk => ?_⟩
      rcases Nat.lt_or_ge k 2 with hlow | hhigh
      · exact hdefaults k hlow
      · have := hlen hcompile
        have hnot := hfail (k - 2) (by rw [DaemonState.applied_activeBank]; omega)
        rw [DaemonState.applied_writes, List.length_append, Nat.add_assoc] at hnot
        rwa [show (defaultsWrites s.onDisk).length + (k - 2) = k by
          simp only [defaultsWrites, List.length_cons, List.length_nil]; omega] at hnot

/-- Without faults it is enough that the list compiles. -/
theorem syncAll_ok_iff_compiles (net : Nat → SysNet) (s : DaemonState) :
    (syncAll { net } s).1 = .ok () ↔ ∀ rule ∈ s.onDisk.rules, rule.compiles = true := by
  rw [syncAll_ok_iff]
  exact and_iff_left fun k _ h => by cases h

/-- Without faults, a mutating request that passes its checks is answered `Ok` as
soon as its list compiles. -/
theorem dispatch_ok_of_compiles {toml : Toml} {net : Nat → SysNet} {s : DaemonState}
    {req : Request} {d : OnDisk} (hmut : req.mutates = true) (hedit : req.edit s.onDisk = .ok d)
    (hsave : saves toml none d = true) (hcompiles : ∀ rule ∈ d.rules, rule.compiles = true) :
    (dispatch toml { net } s req).1 = .ok := by
  rw [dispatch_eq toml { net } s hmut, hedit]
  simp only [persistAndSync]
  rcases save_cases toml none s.dir d with ⟨-, text, -, heq⟩ | ⟨hfail, -⟩
  · rw [heq]
    have hsync := (syncAll_ok_iff_compiles net
      { s with onDisk := d, dir := ⟨some text, none⟩, writes := [] }).mpr hcompiles
    rw [toResponse_fst_ok hsync]
  · rw [hsave] at hfail
    cases hfail

end Moatd
