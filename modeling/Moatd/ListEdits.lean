import Moatd.Tightening

/-!
# What an edit of the list changes

How a request that has been answered `Ok` changes the verdict on a packet, as far as the
rules decide it.  A rule is added behind all others, so it decides only what the default
has decided.  A rule that is deleted hands the packets for which it was the first to hit to
the next one; all others keep their verdict, and the numbers behind it move up.
-/

namespace Moatd

open FirstMatch Runs

/-! ### Changes of a verdict -/

/-- The rule, compiled as the interfaces are, matches the packet. -/
def UserRule.HitsOn (user : UserRule) (net : SysNet) (direction : Direction) (ifindex : UInt32)
    (p : Parsed) : Prop :=
  ∃ rule, buildWireRule user (resolveIface net user.iface) = .ok rule ∧
    rule.matches (directionByte direction) ifindex p = true

/-- From the number on, rule `j` is the first to hit. -/
structure OnDisk.HitsNext (d : OnDisk) (hits : UserRule → Prop) (number j : Nat)
    (user : UserRule) : Prop where
  behind : number ≤ j
  getElem? : d.rules[j]? = some user
  hit : hits user
  between : ∀ m user', number ≤ m → m < j → d.rules[m]? = some user' → ¬ hits user'

/-- The verdict on a packet before a request and after it: `hits` says which rules hit
the packet. -/
inductive OnDisk.Changes (d : OnDisk) (hits : UserRule → Prop) (direction : Direction) :
    Request → UInt8 × Nat → UInt8 × Nat → Prop
  | query (req : Request) (v : UInt8 × Nat) (h : req.mutates = false) :
    Changes d hits direction req v v
  | logging (enabled : Bool) (v : UInt8 × Nat) : Changes d hits direction (.setLogging enabled) v v
  | reset (v : UInt8 × Nat) : Changes d hits direction .reset v (actAllow, ruleIdDefault)
  | default (action : Action) (v : UInt8 × Nat) (h : v.2 = ruleIdDefault) :
    Changes d hits direction (.setDefault direction action) v (actionByte action, ruleIdDefault)
  | byRule (direction' : Direction) (action : Action) (v : UInt8 × Nat)
      (h : direction' ≠ direction ∨ v.2 ≠ ruleIdDefault) :
    Changes d hits direction (.setDefault direction' action) v v
  | added (rule : UserRule) (v : UInt8 × Nat) (h : v.2 = ruleIdDefault) (hhits : hits rule) :
    Changes d hits direction (.addRule rule) v (actionByte rule.action, d.rules.length)
  | addedBehind (rule : UserRule) (v : UInt8 × Nat) (h : v.2 ≠ ruleIdDefault ∨ ¬ hits rule) :
    Changes d hits direction (.addRule rule) v v
  | deletedBehind (idx : UInt32) (v : UInt8 × Nat)
      (h : v.2 = ruleIdDefault ∨ v.2 + 1 < idx.toNat) :
    Changes d hits direction (.deleteRule idx) v v
  | deletedBefore (idx : UInt32) (v : UInt8 × Nat) (h : v.2 ≠ ruleIdDefault)
      (hidx : idx.toNat < v.2 + 1) :
    Changes d hits direction (.deleteRule idx) v (v.1, v.2 - 1)
  | deletedNext (idx : UInt32) (v : UInt8 × Nat) (h : v.2 + 1 = idx.toNat) (j : Nat)
      (user : UserRule) (hnext : d.HitsNext hits idx.toNat j user) :
    Changes d hits direction (.deleteRule idx) v (actionByte user.action, j - 1)
  | deletedLast (idx : UInt32) (v : UInt8 × Nat) (h : v.2 + 1 = idx.toNat)
      (hnone : ∀ j user, idx.toNat ≤ j → d.rules[j]? = some user → ¬ hits user) :
    Changes d hits direction (.deleteRule idx) v
      (actionByte (d.default direction), ruleIdDefault)

/-! ### The compiled lists -/

section Compiled
variable {net : SysNet} {users : List UserRule} {rules : List Rule}

/-- With the interfaces as they are, a list without one of its rules compiles to the
compiled list without it. -/
theorem compileRules_eraseIdx (h : compileRules (fun _ => net) 0 users = .ok rules) {k : Nat}
    {rules' : List Rule} (h' : compileRules (fun _ => net) 0 (users.eraseIdx k) = .ok rules') :
    rules' = rules.eraseIdx k := by
  apply List.ext_getElem?
  intro j
  rw [List.getElem?_eraseIdx]
  have hsame {m : Nat} (hget : (users.eraseIdx k)[j]? = users[m]?) : rules'[j]? = rules[m]? := by
    cases huser : users[m]? with
    | none =>
      rw [huser, List.getElem?_eq_none_iff, ← compileRules_length h'] at hget
      rw [List.getElem?_eq_none_iff, ← compileRules_length h] at huser
      rw [List.getElem?_eq_none hget, List.getElem?_eq_none huser]
    | some user =>
      obtain ⟨r, hr, hbuild⟩ := compileRules_user h huser
      obtain ⟨r', hr', hbuild'⟩ := compileRules_user h' (hget.trans huser)
      cases hbuild.symm.trans hbuild'
      rw [hr, hr']
  split
  · rename_i hjk
    exact hsame (by rw [List.getElem?_eraseIdx, if_pos hjk])
  · rename_i hjk
    exact hsame (by rw [List.getElem?_eraseIdx, if_neg hjk])

/-- A compiled rule matches exactly if its user's rule hits. -/
theorem hitsOn_iff (h : compileRules (fun _ => net) 0 users = .ok rules) {direction : Direction}
    {ifindex : UInt32} {p : Parsed} {i : Nat} {user : UserRule} {r : Rule}
    (huser : users[i]? = some user) (hr : rules[i]? = some r) :
    user.HitsOn net direction ifindex p ↔
      r.matches (directionByte direction) ifindex p = true := by
  obtain ⟨r', hr', hbuild⟩ := compileRules_user h huser
  cases hr.symm.trans hr'
  constructor
  · rintro ⟨rule, hbuild', hmatch⟩
    cases hbuild.symm.trans hbuild'
    exact hmatch
  · exact fun hmatch => ⟨r, hbuild, hmatch⟩

theorem not_hitsOn (h : compileRules (fun _ => net) 0 users = .ok rules) {direction : Direction}
    {ifindex : UInt32} {p : Parsed} {i : Nat} {user : UserRule} (huser : users[i]? = some user)
    (hmiss : ∀ r, rules[i]? = some r → r.matches (directionByte direction) ifindex p = false) :
    ¬ user.HitsOn net direction ifindex p := by
  obtain ⟨r, hr, -⟩ := compileRules_user h huser
  rw [hitsOn_iff h huser hr, hmiss r hr]
  exact Bool.false_ne_true

end Compiled

/-! ### One edit -/

section Edit
variable {net : SysNet} {d : OnDisk} {rules rules' : List Rule} {direction : Direction}
  {ifindex : UInt32} {p : Parsed}

/-- The verdict of a list of rules with its default. -/
def OnDisk.verdict (d : OnDisk) (rules : List Rule) (direction : Direction) (ifindex : UInt32)
    (p : Parsed) : UInt8 × Nat :=
  Moatd.verdict rules (actionByte (d.default direction)) (directionByte direction) ifindex p

/-- The number of a rule is not that of the default. -/
theorem ne_ruleIdDefault {r : Rule} {i : Nat} (hlength : rules.length ≤ rulesMax)
    {hit : Rule → Bool} (hfirst : IsFirst hit rules r i) : i ≠ ruleIdDefault := by
  have hi := (List.getElem?_eq_some_iff.mp hfirst.getElem?).1
  have hmax : rulesMax < ruleIdDefault := by decide
  omega

/-- The first rule that matches, or none. -/
theorem OnDisk.verdict_cases (d : OnDisk) (rules : List Rule) (direction : Direction)
    (ifindex : UInt32) (p : Parsed) :
    (∃ r i, IsFirst (fun r => r.matches (directionByte direction) ifindex p) rules r i ∧
      d.verdict rules direction ifindex p = (r.action, i)) ∨
    ((∀ r ∈ rules, r.matches (directionByte direction) ifindex p = false) ∧
      d.verdict rules direction ifindex p =
        (actionByte (d.default direction), ruleIdDefault)) := by
  rcases isFirst_or_none (fun r => r.matches (directionByte direction) ifindex p) rules with
    ⟨r, i, hfirst⟩ | hnone
  · exact Or.inl ⟨r, i, hfirst, decide_of_isFirst hfirst⟩
  · exact Or.inr ⟨hnone, decide_of_none hnone⟩

theorem changes_added {rule : UserRule} (hlength : d.rules.length ≤ rulesMax)
    (h : compileRules (fun _ => net) 0 d.rules = .ok rules)
    (h' : compileRules (fun _ => net) 0 (d.rules ++ [rule]) = .ok rules') :
    d.Changes (fun user => user.HitsOn net direction ifindex p) direction (.addRule rule)
      (d.verdict rules direction ifindex p) (d.verdict rules' direction ifindex p) := by
  obtain ⟨rules₀, r, hcompile, hbuild, rfl⟩ := compileRules_append_singleton h'
  cases h.symm.trans hcompile
  have hlast : (d.rules ++ [rule])[d.rules.length]? = some rule := by simp
  have hr : (rules ++ [r])[d.rules.length]? = some r := by simp [← compileRules_length h]
  have hhits : rule.HitsOn net direction ifindex p ↔
      r.matches (directionByte direction) ifindex p = true := hitsOn_iff h' hlast hr
  have hverdict : d.verdict (rules ++ [r]) direction ifindex p =
      FirstMatch.decide (fun r => r.matches (directionByte direction) ifindex p) rules
        (if r.matches (directionByte direction) ifindex p = true then (r.action, rules.length)
          else (actionByte (d.default direction), ruleIdDefault)) fun r i => (r.action, i) :=
    decide_append_singleton r
  rcases d.verdict_cases rules direction ifindex p with ⟨r', i, hfirst, hv⟩ | ⟨hnone, hv⟩
  · rw [hverdict, decide_of_isFirst hfirst, hv]
    refine .addedBehind rule _ (Or.inl (ne_ruleIdDefault ?_ hfirst))
    rw [compileRules_length h]
    exact hlength
  · rw [hverdict, decide_of_none hnone, hv]
    by_cases hmatch : r.matches (directionByte direction) ifindex p = true
    · rw [if_pos hmatch, buildWireRule_action hbuild, compileRules_length h]
      exact .added rule _ rfl (hhits.mpr hmatch)
    · rw [if_neg hmatch]
      exact .addedBehind rule _ (Or.inr fun hit => hmatch (hhits.mp hit))

/-- The position of a rule is its number less one. -/
theorem toNat_eq_pred {idx : UInt32} (hzero : idx ≠ 0) : idx.toNat = (idx - 1).toNat + 1 := by
  have hpos : 0 < idx.toNat := by
    rw [Nat.pos_iff_ne_zero, Ne, ← UInt32.toNat_zero, UInt32.toNat_inj]
    exact hzero
  have hone : (1 : UInt32) ≤ idx := UInt32.le_iff_toNat_le.mpr hpos
  rw [UInt32.toNat_sub_of_le _ _ hone]
  show idx.toNat = idx.toNat - 1 + 1
  omega

theorem changes_deleted {idx : UInt32} (hzero : idx ≠ 0) (hlength : d.rules.length ≤ rulesMax)
    (h : compileRules (fun _ => net) 0 d.rules = .ok rules)
    (h' : compileRules (fun _ => net) 0 (d.rules.eraseIdx (idx - 1).toNat) = .ok rules') :
    d.Changes (fun user => user.HitsOn net direction ifindex p) direction (.deleteRule idx)
      (d.verdict rules direction ifindex p) (d.verdict rules' direction ifindex p) := by
  obtain rfl := compileRules_eraseIdx h h'
  have hidx := toNat_eq_pred hzero
  generalize (idx - 1).toNat = k at hidx
  rcases d.verdict_cases rules direction ifindex p with ⟨r, i, hfirst, hv⟩ | ⟨hnone, hv⟩
  · rw [hv]
    have hne : i ≠ ruleIdDefault := by
      refine ne_ruleIdDefault ?_ hfirst
      rw [compileRules_length h]
      exact hlength
    rcases Nat.lt_trichotomy i k with hik | rfl | hki
    · rw [OnDisk.verdict, Moatd.verdict, decide_of_isFirst (hfirst.eraseIdx_of_lt hik)]
      exact .deletedBehind idx _ (Or.inr (by rw [hidx]; exact Nat.succ_lt_succ hik))
    · rw [OnDisk.verdict, Moatd.verdict]
      rcases decide_eraseIdx_self (actionByte (d.default direction), ruleIdDefault)
        (fun r i => (r.action, i)) hfirst with ⟨r', j, hnext, hdecide⟩ | ⟨hlast, hdecide⟩
      · rw [hdecide]
        obtain ⟨user, huser, hbuild⟩ := compileRules_rule h hnext.getElem?
        rw [buildWireRule_action hbuild]
        refine .deletedNext idx _ hidx.symm j user ⟨?_, huser, ?_, ?_⟩
        · rw [hidx]
          exact hnext.behind
        · exact (hitsOn_iff h huser hnext.getElem?).mpr hnext.hits
        · intro m user' hm hmj huser'
          exact not_hitsOn h huser' fun r'' hr'' => hnext.between m r'' (by omega) hmj hr''
      · rw [hdecide]
        refine .deletedLast idx _ hidx.symm fun j user hj huser => ?_
        exact not_hitsOn h huser fun r' hr' => hlast j r' (by omega) hr'
    · rw [OnDisk.verdict, Moatd.verdict, decide_of_isFirst (hfirst.eraseIdx_of_gt hki)]
      exact .deletedBefore idx (r.action, i) hne (by rw [hidx]; exact Nat.succ_lt_succ hki)
  · rw [hv, OnDisk.verdict, Moatd.verdict, decide_of_none (forall_eraseIdx hnone k)]
    exact .deletedBehind idx _ (Or.inl rfl)

/-- A new default decides what the default has decided. -/
theorem changes_default {d' : OnDisk} {direction' : Direction} {action : Action}
    (hlength : rules.length ≤ rulesMax)
    (hdefault : d'.default direction' = action)
    (hother : direction ≠ direction' → d'.default direction = d.default direction) :
    d.Changes (fun user => user.HitsOn net direction ifindex p) direction
      (.setDefault direction' action) (d.verdict rules direction ifindex p)
      (d'.verdict rules direction ifindex p) := by
  by_cases hsame : direction = direction'
  · subst hsame
    rcases d.verdict_cases rules direction ifindex p with ⟨r, i, hfirst, hv⟩ | ⟨hnone, hv⟩
    · rw [hv, OnDisk.verdict, Moatd.verdict, decide_of_isFirst hfirst]
      exact .byRule direction action _ (Or.inr (ne_ruleIdDefault hlength hfirst))
    · rw [hv, OnDisk.verdict, Moatd.verdict, decide_of_none hnone, hdefault]
      exact .default action _ rfl
  · rw [OnDisk.verdict, OnDisk.verdict, hother hsame]
    exact .byRule direction' action _ (Or.inl (Ne.symm hsame))

/-- **One edit**, by the requests that make it. -/
theorem changes_of_edited {d' : OnDisk} {req : Request} (hedit : Edited d req d')
    (hlength : d.rules.length ≤ rulesMax)
    (h : compileRules (fun _ => net) 0 d.rules = .ok rules)
    (h' : compileRules (fun _ => net) 0 d'.rules = .ok rules') :
    d.Changes (fun user => user.HitsOn net direction ifindex p) direction req
      (d.verdict rules direction ifindex p) (d'.verdict rules' direction ifindex p) := by
  have hrules : rules.length ≤ rulesMax := by
    rw [compileRules_length h]
    exact hlength
  cases hedit with
  | added rule hlimit hname => exact changes_added hlength h h'
  | deleted idx hzero hidx => exact changes_deleted hzero hlength h h'
  | defaultIn action =>
    cases h.symm.trans h'
    refine changes_default hrules rfl fun hne => ?_
    cases direction with
    | inbound => exact absurd rfl hne
    | outbound => rfl
  | defaultOut action =>
    cases h.symm.trans h'
    refine changes_default hrules rfl fun hne => ?_
    cases direction with
    | inbound => rfl
    | outbound => exact absurd rfl hne
  | logging enabled =>
    cases h.symm.trans h'
    exact .logging enabled _
  | reset =>
    cases h'
    have hallow : OnDisk.verdict {} [] direction ifindex p = (actAllow, ruleIdDefault) := by
      cases direction <;> rfl
    rw [hallow]
    exact .reset _
  | query req hmut =>
    cases h.symm.trans h'
    exact .query req _ hmut

end Edit

/-- **What a request answered `Ok` changes.**  The data path has the daemon's list, which is
no longer than the maps can hold.  Once the updates of the request have landed, every packet
has the verdict that the edit gives it from its verdict before, as long as the interfaces are
the same. -/
theorem verdict_changes (toml : Toml) {w w' : World} {req : Request} {env : Env} {net : SysNet}
    (hnet : env.net = fun _ => net) (hidle : w.pending = []) (hforce : w.InForce env.net)
    (hlength : w.daemon.onDisk.rules.length ≤ rulesMax)
    (hok : (dispatch toml env w.daemon req).1 = .ok) (hserves : w.Serves toml req env w')
    (direction : Direction) (ifindex : UInt32) (p : Parsed) :
    w.daemon.onDisk.Changes (fun user => user.HitsOn net direction ifindex p) direction req
      (walkRules w.path.maps (directionByte direction) ifindex p)
      (walkRules w'.path.maps (directionByte direction) ifindex p) := by
  obtain ⟨bank, rules, hcompile, hpublishes⟩ := hforce
  obtain ⟨d, maps, bank', rules', hedit, hpath, hcompile', hpublishes'⟩ :=
    hserves.of_ok toml hidle hok
  have hlength' := edit_length hedit hlength
  have htake {d : OnDisk} {rules : List Rule} (h : compileRules env.net 0 d.rules = .ok rules)
      (hlength : d.rules.length ≤ rulesMax) : rules.take rulesMax = rules :=
    List.take_of_length_le (by rw [compileRules_length h]; exact hlength)
  have hwalk := hpublishes.walkRules hcompile (directionByte direction) ifindex p
  have hwalk' := hpublishes'.walkRules hcompile' (directionByte direction) ifindex p
  rw [htake hcompile hlength, hpublishes.defaults.policySlot] at hwalk
  rw [htake hcompile' hlength', hpublishes'.defaults.policySlot] at hwalk'
  rw [hpath, hwalk, hwalk']
  rw [hnet] at hcompile hcompile'
  exact changes_of_edited (edit_cases hedit) hlength hcompile hcompile'

/-- `moatd allow out proto tcp`. -/
def allowTcpOut : UserRule := { direction := .outbound, action := .allow, proto := some .tcp }

/-- Startup without a rules file, and outbound traffic denied, but for TCP to other ports
than 22. -/
def startDenySshOut : List Event :=
  startDenyOutgoing ++ served (.addRule denySshOut) 4 ++ served (.addRule allowTcpOut) 5

theorem startDenySshOut_settles :
    Along (World.step (sampleToml sampleLists)) (World.Settles (sampleToml sampleLists) noNet)
      (World.start (sampleToml sampleLists) { net := noNet } false [] noFile fun _ => none)
      startDenySshOut := by
  refine along_append.mpr ⟨along_append.mpr ⟨startDenyOutgoing_settles, ?_⟩, ?_⟩
  all_goals exact settles_served _ rfl _

/-- The first rule, which denies a connection to port 22, is deleted: the rule behind it
allows the connection, and is the first one now. -/
theorem denySshOut_deleted :
    ∃ w w', w = after (World.step (sampleToml sampleLists)) (World.start (sampleToml sampleLists)
        { net := noNet } false [] noFile fun _ => none) startDenySshOut ∧
      w.Serves (sampleToml sampleLists) (.deleteRule 1) { net := noNet } w' ∧
      w.daemon.onDisk.Changes (fun user => user.HitsOn [] .outbound 2 syn.parsed) .outbound
        (.deleteRule 1) (walkRules w.path.maps dirOut 2 syn.parsed)
        (walkRules w'.path.maps dirOut 2 syn.parsed) ∧
      walkRules w.path.maps dirOut 2 syn.parsed = (actDeny, 0) ∧
      walkRules w'.path.maps dirOut 2 syn.parsed = (actAllow, 0) := by
  have hstart : (World.start (sampleToml sampleLists) { net := noNet } false [] noFile
      fun _ => none).Settled (Env.net { net := noNet }) :=
    settled_start (sampleToml sampleLists) rfl fun _ => none
  have hsettled := startDenySshOut_settles.invariant (I := World.Settled noNet)
    (fun w e h he => h.step (sampleToml sampleLists) he) hstart
  refine ⟨_, _, rfl, ⟨4, rfl, rfl⟩, ?_, rfl, rfl⟩
  exact verdict_changes (sampleToml sampleLists) rfl rfl
    (hsettled.inForce rfl) (by decide) rfl ⟨4, rfl, rfl⟩ .outbound 2 syn.parsed

end Moatd
