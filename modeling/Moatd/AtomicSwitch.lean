import Moatd.Enforcement

/-!
# One request switches the policy in one step

The defaults and the rules are published by separate updates, and a walk reads
`CONFIG`, the slots and the default policy at separate moments.  It sees one rule
list, since the sync leaves the bank alone that the walk found in `CONFIG`; but it
may put the new default behind the old rules.  No request makes a third verdict of
this mixture: each leaves the defaults or the rules alone, or empties the list.
-/

namespace Moatd

open FirstMatch WriteHistory

/-- The maps reflect the daemon's list, with its interfaces as `net` shows them. -/
def DaemonState.Reflects (s : DaemonState) (net : SysNet) : Prop :=
  ∃ rules, compileRules (fun _ => net) 0 s.onDisk.rules = .ok rules ∧
    s.maps.Publishes s.onDisk s.activeBank rules

/-- No edit changes both the rules and the defaults, except for the one that leaves
no rules. -/
theorem edit_switch {req : Request} {d d' : OnDisk} (h : req.edit d = .ok d') :
    d'.rules = d.rules ∨ d'.rules = [] ∨ d'.default = d.default := by
  have hdefault : ∀ {a b : OnDisk}, a.defaultIn = b.defaultIn → a.defaultOut = b.defaultOut →
      a.default = b.default := by
    intro a b hin hout
    funext direction
    cases direction
    · exact hin
    · exact hout
  cases edit_cases h with
  | added | deleted => exact Or.inr (Or.inr (hdefault rfl rfl))
  | defaultIn | defaultOut | logging | query => exact Or.inl rfl
  | reset => exact Or.inr (Or.inl rfl)

/-- What a rule's interface resolves to is all the compilation takes from the
network. -/
theorem compileRules_congr {net net' : Nat → SysNet}
    (h : ∀ i iface, resolveIface (net i) iface = resolveIface (net' i) iface) (i : Nat)
    (users : List UserRule) : compileRules net i users = compileRules net' i users := by
  induction users generalizing i with
  | nil => rfl
  | cons user users ih => rw [compileRules, compileRules, h, ih]

/-- A default read beside a sync is the old one or the new one. -/
theorem policy_contents_sync (m : Maps) (d : OnDisk) (bank : Bank) (rules : List Rule) (n : Nat)
    (direction : UInt8) :
    (contents Maps.write m (syncWrites d bank rules) n).defaultPolicy (policySlot direction) =
        m.defaultPolicy (policySlot direction) ∨
      (contents Maps.write m (syncWrites d bank rules) n).defaultPolicy (policySlot direction) =
        ((syncWrites d bank rules).foldl Maps.write m).defaultPolicy (policySlot direction) := by
  have hnew := (publishes_sync m d bank rules).defaults
  rw [policySlot]
  split
  · rw [policyIn_contents_sync, hnew.1]
    split
    · exact Or.inl rfl
    · exact Or.inr rfl
  · rw [policyOut_contents_sync, hnew.2]
    split
    · exact Or.inl rfl
    · exact Or.inr rfl

section Request
variable {toml : Toml} {s : DaemonState} {net : SysNet} {req : Request} {env : Env}

/-- A walk that has read the old `CONFIG` finds the old rules. -/
theorem finds_old {d : OnDisk} {rules rules' : List Rule} {moments : Nat → Nat}
    (hcompile : compileRules (fun _ => net) 0 s.onDisk.rules = .ok rules)
    (hs : s.maps.Publishes s.onDisk s.activeBank rules)
    (hconfig : moments 0 ≤ 2 + min rules'.length rulesMax) :
    Finds (viewAt s.maps (syncWrites d s.activeBank.other rules') moments)
      (rules.take rulesMax) := by
  have hfinds := hs.finds hcompile
  have hold : (viewAt s.maps (syncWrites d s.activeBank.other rules') moments 0).config =
      s.maps.config := by
    rw [viewAt_apply, config_contents_sync, if_pos hconfig]
  have hbase : s.maps.config.base = s.activeBank.other.other.base := by
    rw [hs.config, Bank.other_other]
    exact s.activeBank.base_of_byte
  refine ⟨?_, ?_, hfinds.chosen⟩
  · rw [hold]
    exact hfinds.length
  · intro i r hr
    have hi : i < rulesMax := by
      have hlt := (List.getElem?_eq_some_iff.mp hr).1
      rw [List.length_take] at hlt
      omega
    rw [hold, hbase, viewAt_apply, otherSlot_contents_sync _ _ _ _ _ hi, ← hbase]
    exact hfinds.slot i r hr

/-- Every slot that the walk may ask for is that of a direction. -/
theorem exists_policySlot_eq (direction : UInt8) :
    ∃ dir : Direction, policySlot direction = policySlot (directionByte dir) := by
  unfold policySlot
  split
  · exact ⟨.inbound, rfl⟩
  · exact ⟨.outbound, rfl⟩

/-- **A walk beside a request returns what it returns before it or after it**, at
whatever moments between the request's updates it makes its reads. -/
theorem walk_atomic (hs : s.Reflects net)
    (hnet : ∀ i iface, resolveIface (env.net i) iface = resolveIface net iface)
    (hok : (dispatch toml env s req).1 = .ok) {moments : Nat → Nat} (hmono : Monotone moments)
    (direction : UInt8) (ifindex : UInt32) (p : Parsed) :
    walkRulesAt (viewAt s.maps (serve toml s (req, env)).writes moments) direction ifindex p =
        walkRules s.maps direction ifindex p ∨
      walkRulesAt (viewAt s.maps (serve toml s (req, env)).writes moments) direction ifindex p =
        walkRules (serve toml s (req, env)).maps direction ifindex p := by
  obtain ⟨rules, hcompile, hpub⟩ := hs
  obtain ⟨d, text, rules', hedit, -, hcompile', hserve⟩ := dispatch_ok hok
  rw [compileRules_congr hnet] at hcompile'
  have hpub' := publishes_sync s.maps d s.activeBank.other rules'
  rw [serve, hserve]
  by_cases hconfig : moments 0 ≤ 2 + min rules'.length rulesMax
  · rw [walkRulesAt_eq_verdict (finds_old hcompile hpub hconfig), viewAt_apply,
      hpub.walkRules hcompile, hpub'.walkRules hcompile']
    rcases policy_contents_sync s.maps d s.activeBank.other rules'
        (moments ((rules.take rulesMax).length + 1)) direction with hdef | hdef
    · exact Or.inl (by rw [hdef])
    · -- the new default behind the old rules
      rw [hdef]
      rcases edit_switch hedit with hsame | hnil | hdefault
      · obtain rfl : rules' = rules := by
          rw [hsame, hcompile, Except.ok.injEq] at hcompile'
          exact hcompile'.symm
        exact Or.inr rfl
      · have hrules' : rules' = [] := by
          rw [hnil, compileRules, Except.ok.injEq] at hcompile'
          exact hcompile'.symm
        exact decide_mixed (Or.inr (by rw [hrules', List.take_nil]))
      · left
        -- the defaults are the same before and after
        obtain ⟨dir, hslot⟩ := exists_policySlot_eq direction
        rw [hslot, hpub'.defaults.policySlot, hpub.defaults.policySlot, hdefault]
  · -- `CONFIG` is the last update, so every later read finds the new maps
    right
    have hview : viewAt s.maps (syncWrites d s.activeBank.other rules') moments =
        fun _ => (syncWrites d s.activeBank.other rules').foldl Maps.write s.maps := by
      funext j
      have hj : moments 0 ≤ moments j := hmono (Nat.zero_le j)
      exact contents_of_length_le Maps.write (by rw [length_syncWrites]; omega)
    rw [hview]
    rfl

/-- The maps reflect the list after every request answered `Ok`. -/
theorem reflects_of_ok
    (hnet : ∀ i iface, resolveIface (env.net i) iface = resolveIface net iface)
    (hok : (dispatch toml env s req).1 = .ok) : (serve toml s (req, env)).Reflects net := by
  obtain ⟨d, text, rules, -, -, hcompile, hserve⟩ := dispatch_ok hok
  rw [compileRules_congr hnet] at hcompile
  rw [serve, hserve]
  exact ⟨rules, hcompile, publishes_sync _ _ _ _⟩

end Request

/-- The daemon after `moatd allow 22/tcp`. -/
noncomputable def sshAllowed : DaemonState :=
  serve (sampleToml sampleLists) (boot [] noFile {}) (.addRule sshRule, { net := noNet })

/-- Packets between the updates of a `Reset` that removes the rule. -/
theorem sshAllowed_walk_atomic :
    sshAllowed.Reflects [] ∧
      ∀ p, walkRulesAt (viewAt sshAllowed.maps
            (serve (sampleToml sampleLists) sshAllowed (.reset, { net := noNet })).writes id)
          dirIn 2 p = walkRules sshAllowed.maps dirIn 2 p ∨
        walkRulesAt (viewAt sshAllowed.maps
            (serve (sampleToml sampleLists) sshAllowed (.reset, { net := noNet })).writes id)
          dirIn 2 p =
          walkRules (serve (sampleToml sampleLists) sshAllowed (.reset, { net := noNet })).maps
            dirIn 2 p := by
  have hedit : (Request.addRule sshRule).edit {} = .ok { rules := [sshRule] } := rfl
  have hadd : (dispatch (sampleToml sampleLists) { net := noNet } (boot [] noFile {})
      (.addRule sshRule)).1 = .ok :=
    dispatch_ok_of_compiles rfl hedit (sampleToml_saves sampleLists _) (by simp [sshRule_compiles])
  have hreset : (dispatch (sampleToml sampleLists) { net := noNet } sshAllowed .reset).1 = .ok :=
    dispatch_ok_of_compiles rfl rfl (sampleToml_saves sampleLists _) (by simp)
  have hreflects : sshAllowed.Reflects [] := reflects_of_ok (fun _ _ => rfl) hadd
  exact ⟨hreflects, walk_atomic hreflects (fun _ _ => rfl) hreset monotone_id dirIn 2⟩

end Moatd
