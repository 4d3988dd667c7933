import Moatd.RuleWalk
import Moatd.FirstMatch

/-!
# The walk is first match

`walk_rules` counts slots, carries a chosen action and breaks out of its loop;
what it returns is the first match of the list it finds in the slots, with the
default policy behind it.  The theorem holds for a walk beside a writer too, as
long as its reads find one list (`Finds`).
-/

namespace Moatd

open FirstMatch

/-- What a list of compiled rules with this default says about a packet. -/
def verdict (rules : List Rule) (otherwise : UInt8) (direction : UInt8) (ifindex : UInt32)
    (p : Parsed) : UInt8 × Nat :=
  FirstMatch.decide (fun r => r.matches direction ifindex p) rules (otherwise, ruleIdDefault)
    fun r i => (r.action, i)

/-- The reads of the walk find this list: as many slots as its configuration
counts, each holding its rule when it is read. -/
structure Finds (view : Nat → Maps) (rules : List Rule) : Prop where
  length : rules.length = min (view 0).config.ruleCount rulesMax
  slot : ∀ i r, rules[i]? = some r → (view (i + 1)).rules ((view 0).config.base + i) = r
  chosen : ∀ r ∈ rules, r.action ≠ unchosen

theorem GlobalConfig.base_add_lt (c : GlobalConfig) {i : Nat} (hi : i < rulesMax) :
    c.base + i < rulesSlots := by
  have hbit : (c.activeBank &&& 1).toNat ≤ 1 := by
    rw [UInt8.toNat_and]
    exact Nat.and_le_right
  have hbase : c.base ≤ 1 * rulesMax := Nat.mul_le_mul_right _ hbit
  simp only [rulesSlots, ruleBanks]
  omega

section Walk
variable {view : Nat → Maps} {direction : UInt8} {ifindex : UInt32} {p : Parsed}

/-- Once an action is chosen the loop stops. -/
theorem walkSlots_of_chosen {base count fuel i matchedId : Nat} {chosen : UInt8}
    (h : chosen ≠ unchosen) :
    walkSlots view base count direction ifindex p fuel i chosen matchedId =
      (chosen, matchedId, i) := by
  cases fuel with
  | zero => rfl
  | succ fuel => rw [walkSlots, if_pos (Or.inl h)]

/-- The loop past slots none of which matches: it finds the first match among the
rest, one slot after which it stops. -/
theorem walkSlots_of_finds {rules : List Rule} (h : Finds view rules) {fuel i : Nat}
    (hfuel : i + fuel = rulesMax) (hi : i ≤ rules.length)
    (hbefore : ∀ j r, j < i → rules[j]? = some r → r.matches direction ifindex p = false) :
    walkSlots view (view 0).config.base (view 0).config.ruleCount direction ifindex p fuel i
        unchosen ruleIdDefault =
      FirstMatch.decide (fun r => r.matches direction ifindex p) rules
        (unchosen, ruleIdDefault, rules.length) fun r i => (r.action, i, i + 1) := by
  have hlen := h.length
  induction fuel generalizing i with
  | zero =>
    rw [walkSlots, decide_of_before (by omega) hbefore]
    rw [show rules.length = i by omega]
  | succ fuel ih =>
    rw [walkSlots]
    by_cases hcount : (view 0).config.ruleCount ≤ i
    · rw [if_pos (Or.inr hcount), decide_of_before (by omega) hbefore]
      rw [show rules.length = i by omega]
    · rw [if_neg (by simp [hcount])]
      have hilt : i < rules.length := by omega
      have hr : rules[i]? = some rules[i] := List.getElem?_eq_getElem hilt
      have hget : (view (i + 1)).getRule ((view 0).config.base + i) = some rules[i] := by
        rw [Maps.getRule, if_pos ((view 0).config.base_add_lt (by omega)), h.slot i _ hr]
      rw [hget]
      by_cases hmatch : rules[i].matches direction ifindex p = true
      · have hfirst : IsFirst (fun r => r.matches direction ifindex p) rules rules[i] i :=
          ⟨hr, hmatch, hbefore⟩
        simp only [hmatch, if_true]
        rw [walkSlots_of_chosen (h.chosen _ (List.getElem_mem hilt)), decide_of_isFirst hfirst]
      · rw [Bool.not_eq_true] at hmatch
        simp only [hmatch, Bool.false_eq_true, if_false]
        refine ih (by omega) hilt fun j r hj hjr => ?_
        rcases Nat.lt_or_eq_of_le (Nat.le_of_lt_succ hj) with hj | rfl
        · exact hbefore j r hj hjr
        · rw [hr, Option.some.injEq] at hjr
          rw [← hjr, hmatch]

/-- **The walk returns the first match of the list it finds.**  The default policy
is read after all the slots. -/
theorem walkRulesAt_eq_verdict {rules : List Rule} (h : Finds view rules) :
    walkRulesAt view direction ifindex p =
      verdict rules ((view (rules.length + 1)).defaultPolicy (policySlot direction)) direction
        ifindex p := by
  have hloop : walkLoop view direction ifindex p = _ :=
    walkSlots_of_finds h (Nat.zero_add _) (Nat.zero_le _) (by omega)
  rw [walkRulesAt, hloop, verdict]
  rcases isFirst_or_none (fun r : Rule => r.matches direction ifindex p) rules with
    ⟨r, i, hfirst⟩ | hnone
  · have haction := h.chosen r (List.mem_of_getElem? hfirst.getElem?)
    simp only [decide_of_isFirst hfirst, if_neg haction]
  · simp only [decide_of_none hnone, if_true]

/-- The slots examined are those up to the first match. -/
theorem lt_slotsExamined_iff {rules : List Rule} (h : Finds view rules) {i : Nat} :
    i < slotsExamined view direction ifindex p ↔
      i < rules.length ∧
        ∀ j r, j < i → rules[j]? = some r → r.matches direction ifindex p = false := by
  have hloop : walkLoop view direction ifindex p = _ :=
    walkSlots_of_finds h (Nat.zero_add _) (Nat.zero_le _) (by omega)
  rw [slotsExamined, hloop]
  rcases isFirst_or_none (fun r : Rule => r.matches direction ifindex p) rules with
    ⟨r, k, hfirst⟩ | hnone
  · have hk := (List.getElem?_eq_some_iff.mp hfirst.getElem?).1
    rw [decide_of_isFirst hfirst]
    constructor
    · intro hi
      have hi : i < k + 1 := hi
      exact ⟨by omega, fun j r hj => hfirst.before j r (by omega)⟩
    · rintro ⟨-, hbefore⟩
      refine Nat.lt_succ_of_le (Nat.le_of_not_lt fun hki => ?_)
      have := hbefore k r hki hfirst.getElem?
      rw [hfirst.hits] at this
      cases this
  · rw [decide_of_none hnone]
    exact ⟨fun hi => ⟨hi, fun j r _ hr => hnone r (List.mem_of_getElem? hr)⟩, fun hi => hi.1⟩

end Walk

/-- The rules the reads of a walk give, one slot after another. -/
def foundRules (view : Nat → Maps) : List Rule :=
  (List.range (min (view 0).config.ruleCount rulesMax)).map fun i =>
    (view (i + 1)).rules ((view 0).config.base + i)

theorem getElem?_foundRules {view : Nat → Maps} {i : Nat}
    (hi : i < min (view 0).config.ruleCount rulesMax) :
    (foundRules view)[i]? = some ((view (i + 1)).rules ((view 0).config.base + i)) := by
  simp [foundRules, List.getElem?_range hi]

theorem finds_foundRules {view : Nat → Maps}
    (h : ∀ j slot, ((view j).rules slot).action ≠ unchosen) : Finds view (foundRules view) := by
  have hlen : (foundRules view).length = min (view 0).config.ruleCount rulesMax := by
    simp [foundRules]
  refine ⟨hlen, ?_, ?_⟩
  · intro i r hr
    have hi := (List.getElem?_eq_some_iff.mp hr).1
    rw [getElem?_foundRules (by omega), Option.some.injEq] at hr
    exact hr
  · intro r hr
    obtain ⟨i, -, rfl⟩ := List.mem_map.mp hr
    exact h _ _

/-! ### The action of a walk -/

/-- The rule stops the walk on this packet. -/
def Rule.decides (rule : Rule) (direction : UInt8) (ifindex : UInt32) (p : Parsed) : Bool :=
  rule.matches direction ifindex p && decide (rule.action ≠ unchosen)

theorem walkSlots_fst (m : Maps) (direction : UInt8) (ifindex : UInt32) (p : Parsed)
    (matchedId : Nat) {fuel i : Nat} (hfuel : i + fuel = rulesMax) :
    (walkSlots (fun _ => m) m.config.base m.config.ruleCount direction ifindex p fuel i unchosen
        matchedId).1 =
      ((((List.range' i (min m.config.ruleCount rulesMax - i)).map fun i =>
        m.rules (m.config.base + i)).find? fun r => r.decides direction ifindex p).map
          Rule.action).getD unchosen := by
  induction fuel generalizing i matchedId with
  | zero =>
    rw [walkSlots, show min m.config.ruleCount rulesMax - i = 0 by omega]
    rfl
  | succ fuel ih =>
    rw [walkSlots]
    by_cases hcount : m.config.ruleCount ≤ i
    · rw [if_pos (Or.inr hcount), show min m.config.ruleCount rulesMax - i = 0 by omega]
      rfl
    · have hget : m.getRule (m.config.base + i) = some (m.rules (m.config.base + i)) :=
        if_pos (m.config.base_add_lt (by omega))
      rw [if_neg (by simp [hcount]), hget,
        show min m.config.ruleCount rulesMax - i =
          min m.config.ruleCount rulesMax - (i + 1) + 1 by omega,
        List.range'_succ, List.map_cons, List.find?_cons]
      generalize m.rules (m.config.base + i) = rule
      cases hmatch : rule.matches direction ifindex p with
      | false =>
        simp only [Rule.decides, hmatch, Bool.false_and, Bool.false_eq_true, if_false]
        exact ih _ (by omega)
      | true =>
        by_cases haction : rule.action = unchosen
        · -- a rule that chooses nothing lets the walk go on
          simp only [Rule.decides, hmatch, haction, if_true]
          simpa [Rule.decides] using ih i (by omega)
        · simp only [Rule.decides, hmatch, if_true]
          rw [walkSlots_of_chosen haction]
          simp [haction]

/-- The action of the walk is that of the first rule which decides, or the default. -/
theorem walkRules_fst (m : Maps) (direction : UInt8) (ifindex : UInt32) (p : Parsed) :
    (walkRules m direction ifindex p).1 =
      ((m.liveRules.find? fun r => r.decides direction ifindex p).map Rule.action).getD
        (m.defaultPolicy (policySlot direction)) := by
  have hloop : (walkLoop (fun _ => m) direction ifindex p).1 =
      ((m.liveRules.find? fun r => r.decides direction ifindex p).map Rule.action).getD
        unchosen := by
    have hslots := walkSlots_fst m direction ifindex p ruleIdDefault (Nat.zero_add rulesMax)
    rwa [Nat.sub_zero, ← List.range_eq_range'] at hslots
  rw [walkRules, walkRulesAt]
  cases hfind : m.liveRules.find? fun r => r.decides direction ifindex p with
  | none =>
    rw [hfind] at hloop
    simp only [show (walkLoop (fun _ => m) direction ifindex p).1 = unchosen from hloop, if_true]
    rfl
  | some r =>
    have hdecides := List.find?_some hfind
    simp only [Rule.decides, Bool.and_eq_true, decide_eq_true_eq] at hdecides
    rw [hfind] at hloop
    have haction : (walkLoop (fun _ => m) direction ifindex p).1 = r.action := hloop
    simp only [haction, if_neg hdecides.2]
    rfl

end Moatd
