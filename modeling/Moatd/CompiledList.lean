import Moatd.Daemon

/-! # Compiling a rule list

`sync_rules` compiles the whole list before it writes anything.  The list
compiles exactly when each of its rules does, whatever the interfaces are, and
compiled rule `i` is the compilation of rule `i`. -/

namespace Moatd

theorem compileRules_getElem? {net : Nat → SysNet} {i : Nat} {users : List UserRule}
    {rules : List Rule} (h : compileRules net i users = .ok rules) (k : Nat) :
    (users[k]? = none ∧ rules[k]? = none) ∨
      ∃ user rule, users[k]? = some user ∧ rules[k]? = some rule ∧
        buildWireRule user (resolveIface (net (i + k)) user.iface) = .ok rule := by
  induction users generalizing i rules k with
  | nil =>
    cases h
    exact Or.inl ⟨rfl, rfl⟩
  | cons user users ih =>
    rw [compileRules] at h
    cases hrule : buildWireRule user (resolveIface (net i) user.iface) with
    | error e => simp [hrule] at h
    | ok rule =>
    cases hrest : compileRules net (i + 1) users with
    | error e => simp [hrule, hrest] at h
    | ok rest =>
    simp only [hrule, hrest, Except.ok.injEq] at h
    subst h
    cases k with
    | zero => exact Or.inr ⟨user, rule, rfl, rfl, hrule⟩
    | succ k =>
      rcases ih hrest k with hnone | ⟨u, r, hu, hr, hb⟩
      · exact Or.inl hnone
      · exact Or.inr ⟨u, r, hu, hr, by rwa [Nat.add_assoc, Nat.add_comm 1 k] at hb⟩

theorem compileRules_length {net : Nat → SysNet} {i : Nat} {users : List UserRule}
    {rules : List Rule} (h : compileRules net i users = .ok rules) :
    rules.length = users.length := by
  refine Nat.le_antisymm ?_ ?_ <;> refine Nat.le_of_not_lt fun hlt => ?_
  · rcases compileRules_getElem? h users.length with ⟨-, hnone⟩ | ⟨u, r, hu, -, -⟩
    · rw [List.getElem?_eq_none_iff] at hnone
      omega
    · simp at hu
  · rcases compileRules_getElem? h rules.length with ⟨hnone, -⟩ | ⟨u, r, -, hr, -⟩
    · rw [List.getElem?_eq_none_iff] at hnone
      omega
    · simp at hr

/-- Rule `k` of the user's list and rule `k` of the compiled list belong together. -/
theorem compileRules_rule {net : Nat → SysNet} {users : List UserRule} {rules : List Rule}
    (h : compileRules net 0 users = .ok rules) {k : Nat} {rule : Rule}
    (hk : rules[k]? = some rule) :
    ∃ user, users[k]? = some user ∧
      buildWireRule user (resolveIface (net k) user.iface) = .ok rule := by
  rcases compileRules_getElem? h k with ⟨-, hnone⟩ | ⟨user, r, hu, hr, hb⟩
  · rw [hk] at hnone
    cases hnone
  · rw [hk, Option.some.injEq] at hr
    subst hr
    exact ⟨user, hu, by rwa [Nat.zero_add] at hb⟩

theorem compileRules_user {net : Nat → SysNet} {users : List UserRule} {rules : List Rule}
    (h : compileRules net 0 users = .ok rules) {k : Nat} {user : UserRule}
    (hk : users[k]? = some user) :
    ∃ rule, rules[k]? = some rule ∧
      buildWireRule user (resolveIface (net k) user.iface) = .ok rule := by
  rcases compileRules_getElem? h k with ⟨hnone, -⟩ | ⟨u, rule, hu, hr, hb⟩
  · rw [hk] at hnone
    cases hnone
  · rw [hk, Option.some.injEq] at hu
    subst hu
    exact ⟨rule, hr, by rwa [Nat.zero_add] at hb⟩

/-- A list with one more rule compiles to one compiled rule more. -/
theorem compileRules_append_singleton {net : Nat → SysNet} {i : Nat} {users : List UserRule}
    {user : UserRule} {rules' : List Rule}
    (h : compileRules net i (users ++ [user]) = .ok rules') :
    ∃ rules rule, compileRules net i users = .ok rules ∧
      buildWireRule user (resolveIface (net (i + users.length)) user.iface) = .ok rule ∧
      rules' = rules ++ [rule] := by
  induction users generalizing i rules' with
  | nil =>
    rw [List.nil_append, compileRules] at h
    cases hrule : buildWireRule user (resolveIface (net i) user.iface) with
    | error e => simp [hrule] at h
    | ok rule =>
      simp only [hrule, compileRules, Except.ok.injEq] at h
      exact ⟨[], rule, rfl, rfl, h.symm⟩
  | cons first users ih =>
    rw [List.cons_append, compileRules] at h
    cases hfirst : buildWireRule first (resolveIface (net i) first.iface) with
    | error e => simp [hfirst] at h
    | ok rule₀ =>
    cases hrest : compileRules net (i + 1) (users ++ [user]) with
    | error e => simp [hfirst, hrest] at h
    | ok rest =>
    simp only [hfirst, hrest, Except.ok.injEq] at h
    obtain ⟨rules, rule, hcompile, hrule, rfl⟩ := ih hrest
    refine ⟨rule₀ :: rules, rule, ?_, ?_, h.symm⟩
    · rw [compileRules, hfirst]
      simp only [hcompile]
    · rwa [List.length_cons, Nat.add_comm users.length 1, ← Nat.add_assoc]

/-- **Only the texts decide whether a list compiles.** -/
theorem compileRules_isOk_iff (net : Nat → SysNet) (i : Nat) (users : List UserRule) :
    (∃ rules, compileRules net i users = .ok rules) ↔ ∀ user ∈ users, user.compiles = true := by
  induction users generalizing i with
  | nil => simp [compileRules]
  | cons user users ih =>
    rw [List.forall_mem_cons, ← ih (i + 1),
      user.compiles_iff (resolveIface (net i) user.iface), compileRules]
    cases buildWireRule user (resolveIface (net i) user.iface) with
    | error e => simp
    | ok rule => cases compileRules net (i + 1) users <;> simp

theorem compiles_of_compileRules {net : Nat → SysNet} {users : List UserRule} {rules : List Rule}
    (h : compileRules net 0 users = .ok rules) : ∀ user ∈ users, user.compiles = true :=
  (compileRules_isOk_iff net 0 users).mp ⟨rules, h⟩

/-- A list with a rule that does not compile is rejected as a whole. -/
theorem compileRules_isError_iff (net : Nat → SysNet) (i : Nat) (users : List UserRule) :
    (∃ e, compileRules net i users = .error e) ↔ ¬ ∀ user ∈ users, user.compiles = true := by
  rw [← compileRules_isOk_iff net i users]
  cases compileRules net i users <;> simp

end Moatd
