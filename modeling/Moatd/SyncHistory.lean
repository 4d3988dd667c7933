import Moatd.SyncOutcome
import Moatd.WriteHistory

/-!
# The maps at every moment of a sync

A full sync makes its updates in one fixed order: the two defaults, the slots of
the bank that is not in use, `CONFIG`.  Every element of the maps is touched by at
most one of them, so what a read finds depends only on whether that update has
been made yet.  All arguments about walks and packets that run beside a sync
start from the theorems of this module.
-/

namespace Moatd

open WriteHistory

/-- What a walk finds that makes its read `j` once `moments j` of the updates are
done. -/
def viewAt (m : Maps) (ws : List MapWrite) (moments : Nat → Nat) : Nat → Maps :=
  fun j => contents Maps.write m ws (moments j)

theorem viewAt_apply (m : Maps) (ws : List MapWrite) (moments : Nat → Nat) (j : Nat) :
    viewAt m ws moments j = contents Maps.write m ws (moments j) := rfl

/-! ### Which updates a read sees -/

theorem spares_config {w : MapWrite} (h : ∀ c, w ≠ .config c) :
    Spares Maps.write Maps.config w := by
  intro m
  cases w with
  | defaultPolicy slot a => rfl
  | rule slot r => rfl
  | config c => exact absurd rfl (h c)

theorem sets_config (c : GlobalConfig) : Sets Maps.write Maps.config (.config c) c :=
  fun _ => rfl

theorem spares_slot {slot : Nat} {w : MapWrite} (h : ∀ r, w ≠ .rule slot r) :
    Spares Maps.write (fun m : Maps => m.rules slot) w := by
  intro m
  cases w with
  | defaultPolicy slot' a => rfl
  | rule slot' r =>
    have hne : slot ≠ slot' := fun heq => h r (by rw [heq])
    exact m.write_rule_ne r hne
  | config c => rfl

theorem sets_slot (slot : Nat) (r : Rule) :
    Sets Maps.write (fun m : Maps => m.rules slot) (.rule slot r) r :=
  fun m : Maps => m.write_rule_self slot r

theorem spares_policy {slot : Nat} {w : MapWrite} (h : ∀ a, w ≠ .defaultPolicy slot a) :
    Spares Maps.write (fun m : Maps => m.defaultPolicy slot) w := by
  intro m
  cases w with
  | defaultPolicy slot' a =>
    have hne : slot ≠ slot' := fun heq => h a (by rw [heq])
    simp [Maps.write, hne]
  | rule slot' r => rfl
  | config c => rfl

theorem sets_policy (slot : Nat) (a : UInt8) :
    Sets Maps.write (fun m : Maps => m.defaultPolicy slot) (.defaultPolicy slot a) a := by
  intro m
  simp [Maps.write]

/-! ### The updates of a sync, by number -/

/-- The updates of `sync_rules` that go into this bank. -/
def rulesWrites (d : OnDisk) (bank : Bank) (rules : List Rule) : List MapWrite :=
  bankWrites bank rules ++ [.config (configOf d bank)]

/-- The updates of `sync_all`. -/
def syncWrites (d : OnDisk) (bank : Bank) (rules : List Rule) : List MapWrite :=
  defaultsWrites d ++ rulesWrites d bank rules

section ByNumber
variable {d : OnDisk} {bank : Bank} {rules : List Rule}

theorem length_rulesWrites :
    (rulesWrites d bank rules).length = min rules.length rulesMax + 1 := by
  rw [rulesWrites, List.length_append, length_bankWrites, List.length_singleton]

theorem length_syncWrites :
    (syncWrites d bank rules).length = min rules.length rulesMax + 3 := by
  rw [syncWrites, List.length_append, length_rulesWrites, defaultsWrites]
  simp only [List.length_cons, List.length_nil]
  omega

theorem getElem?_rulesWrites {k : Nat} {w : MapWrite} :
    (rulesWrites d bank rules)[k]? = some w ↔
      (k < rulesMax ∧ ∃ r, rules[k]? = some r ∧ w = .rule (bank.base + k) r) ∨
        (k = min rules.length rulesMax ∧ w = .config (configOf d bank)) := by
  rw [rulesWrites]
  rcases Nat.lt_trichotomy k (min rules.length rulesMax) with hk | hk | hk
  · rw [List.getElem?_append_left (by rw [length_bankWrites]; exact hk), getElem?_bankWrites]
    simp [Nat.ne_of_lt hk]
  · have hnone : ¬ (k < rulesMax ∧ ∃ r, rules[k]? = some r ∧ w = .rule (bank.base + k) r) := by
      rintro ⟨hlt, r, hr, -⟩
      have := (List.getElem?_eq_some_iff.mp hr).1
      omega
    rw [or_iff_right hnone, List.getElem?_append_right (by rw [length_bankWrites]; omega),
      length_bankWrites, hk, Nat.sub_self]
    simp [eq_comm]
  · have hnone : ¬ (k < rulesMax ∧ ∃ r, rules[k]? = some r ∧ w = .rule (bank.base + k) r) := by
      rintro ⟨hlt, r, hr, -⟩
      have := (List.getElem?_eq_some_iff.mp hr).1
      omega
    rw [or_iff_right hnone, List.getElem?_eq_none (by
      rw [List.length_append, length_bankWrites, List.length_singleton]; omega)]
    simp [Nat.ne_of_gt hk]

/-- The update of `sync_all` with number `k`: the defaults come first, rule `i` is
number `2 + i`, and `CONFIG` is the last. -/
theorem getElem?_syncWrites {k : Nat} {w : MapWrite} :
    (syncWrites d bank rules)[k]? = some w ↔
      (k = 0 ∧ w = .defaultPolicy policyIn (actionByte d.defaultIn)) ∨
      (k = 1 ∧ w = .defaultPolicy policyOut (actionByte d.defaultOut)) ∨
      (∃ i r, k = 2 + i ∧ i < rulesMax ∧ rules[i]? = some r ∧ w = .rule (bank.base + i) r) ∨
      (k = 2 + min rules.length rulesMax ∧ w = .config (configOf d bank)) := by
  rw [syncWrites]
  match k with
  | 0 =>
    constructor
    · intro h
      exact Or.inl ⟨rfl, (Option.some.inj h).symm⟩
    · rintro (⟨-, rfl⟩ | ⟨hk, -⟩ | ⟨i, r, hk, -⟩ | ⟨hk, -⟩)
      · rfl
      all_goals omega
  | 1 =>
    constructor
    · intro h
      exact Or.inr (Or.inl ⟨rfl, (Option.some.inj h).symm⟩)
    · rintro (⟨hk, -⟩ | ⟨-, rfl⟩ | ⟨i, r, hk, -⟩ | ⟨hk, -⟩)
      · omega
      · rfl
      all_goals omega
  | k + 2 =>
    rw [List.getElem?_append_right (by simp [defaultsWrites])]
    rw [show k + 2 - (defaultsWrites d).length = k by simp [defaultsWrites], getElem?_rulesWrites]
    constructor
    · rintro (⟨hk, r, hr, hw⟩ | ⟨hk, hw⟩)
      · exact Or.inr (Or.inr (Or.inl ⟨k, r, by omega, hk, hr, hw⟩))
      · exact Or.inr (Or.inr (Or.inr ⟨by omega, hw⟩))
    · rintro (⟨hk, -⟩ | ⟨hk, -⟩ | ⟨i, r, hk, hi, hr, hw⟩ | ⟨hk, hw⟩)
      · omega
      · omega
      · obtain rfl : k = i := by omega
        exact Or.inl ⟨hi, r, hr, hw⟩
      · exact Or.inr ⟨by omega, hw⟩

end ByNumber

/-! ### What a read finds after `n` updates -/

section Contents
variable (m : Maps) (d : OnDisk) (bank : Bank) (rules : List Rule) (n : Nat)

/-- `CONFIG` changes at the last update. -/
theorem config_contents_sync :
    (contents Maps.write m (syncWrites d bank rules) n).config =
      if n ≤ 2 + min rules.length rulesMax then m.config else configOf d bank := by
  refine read_contents_of_single (f := Maps.config)
    (getElem?_syncWrites.mpr (Or.inr (Or.inr (Or.inr ⟨rfl, rfl⟩)))) (sets_config _) ?_ n
  intro j w hj hw
  refine spares_config ?_
  rintro c rfl
  rcases getElem?_syncWrites.mp hw with ⟨-, h⟩ | ⟨-, h⟩ | ⟨i, r, -, -, -, h⟩ | ⟨hk, -⟩
  · cases h
  · cases h
  · cases h
  · exact hj hk

theorem policyIn_contents_sync :
    (contents Maps.write m (syncWrites d bank rules) n).defaultPolicy policyIn =
      if n ≤ 0 then m.defaultPolicy policyIn else actionByte d.defaultIn := by
  refine read_contents_of_single (f := fun m : Maps => m.defaultPolicy policyIn)
    (getElem?_syncWrites.mpr (Or.inl ⟨rfl, rfl⟩)) (sets_policy _ _) ?_ n
  intro j w hj hw
  refine spares_policy ?_
  rintro a rfl
  rcases getElem?_syncWrites.mp hw with ⟨hk, -⟩ | ⟨-, h⟩ | ⟨i, r, -, -, -, h⟩ | ⟨-, h⟩
  · exact hj hk
  · cases h
  · cases h
  · cases h

theorem policyOut_contents_sync :
    (contents Maps.write m (syncWrites d bank rules) n).defaultPolicy policyOut =
      if n ≤ 1 then m.defaultPolicy policyOut else actionByte d.defaultOut := by
  refine read_contents_of_single (f := fun m : Maps => m.defaultPolicy policyOut)
    (getElem?_syncWrites.mpr (Or.inr (Or.inl ⟨rfl, rfl⟩))) (sets_policy _ _) ?_ n
  intro j w hj hw
  refine spares_policy ?_
  rintro a rfl
  rcases getElem?_syncWrites.mp hw with ⟨-, h⟩ | ⟨hk, -⟩ | ⟨i, r, -, -, -, h⟩ | ⟨-, h⟩
  · cases h
  · exact hj hk
  · cases h
  · cases h

/-- Slot `i` of the bank changes at the update that writes rule `i`. -/
theorem slot_contents_sync {i : Nat} {r : Rule} (hi : i < rulesMax) (hr : rules[i]? = some r) :
    (contents Maps.write m (syncWrites d bank rules) n).rules (bank.base + i) =
      if n ≤ 2 + i then m.rules (bank.base + i) else r := by
  refine read_contents_of_single (f := fun m : Maps => m.rules (bank.base + i))
    (getElem?_syncWrites.mpr (Or.inr (Or.inr (Or.inl ⟨i, r, rfl, hi, hr, rfl⟩))))
    (sets_slot _ _) ?_ n
  intro j w hj hw
  refine spares_slot ?_
  rintro r' rfl
  rcases getElem?_syncWrites.mp hw with ⟨-, h⟩ | ⟨-, h⟩ | ⟨i', r'', hk, -, -, h⟩ | ⟨-, h⟩
  · cases h
  · cases h
  · rw [MapWrite.rule.injEq] at h
    omega
  · cases h

/-- A slot past the end of the list is left alone. -/
theorem slot_contents_sync_of_none {i : Nat} (hr : rules[i]? = none) :
    (contents Maps.write m (syncWrites d bank rules) n).rules (bank.base + i) =
      m.rules (bank.base + i) := by
  refine read_contents_of_spared (f := fun m : Maps => m.rules (bank.base + i)) ?_ n
  intro w hw
  obtain ⟨k, hk⟩ := List.mem_iff_getElem?.mp hw
  refine spares_slot ?_
  rintro r rfl
  rcases getElem?_syncWrites.mp hk with ⟨-, h⟩ | ⟨-, h⟩ | ⟨i', r', -, -, hr', h⟩ | ⟨-, h⟩
  · cases h
  · cases h
  · rw [MapWrite.rule.injEq] at h
    obtain rfl : i = i' := by omega
    rw [hr] at hr'
    cases hr'
  · cases h

/-- The other bank is left alone. -/
theorem otherSlot_contents_sync {i : Nat} (hi : i < rulesMax) :
    (contents Maps.write m (syncWrites d bank rules) n).rules (bank.other.base + i) =
      m.rules (bank.other.base + i) := by
  refine read_contents_of_spared (f := fun m : Maps => m.rules (bank.other.base + i)) ?_ n
  intro w hw
  obtain ⟨k, hk⟩ := List.mem_iff_getElem?.mp hw
  refine spares_slot ?_
  rintro r rfl
  rcases getElem?_syncWrites.mp hk with ⟨-, h⟩ | ⟨-, h⟩ | ⟨i', r', -, hi', -, h⟩ | ⟨-, h⟩
  · cases h
  · cases h
  · rw [MapWrite.rule.injEq] at h
    exact Bank.base_add_ne bank.other_ne hi hi' h.1
  · cases h

end Contents

/-! ### A sync that succeeds -/

theorem RulesSync.of_ok {env : Env} {s : DaemonState} {r : Outcome} (h : RulesSync env s r)
    (hok : r.1 = .ok ()) :
    ∃ rules, compileRules env.net 0 s.onDisk.rules = .ok rules ∧
      r.2 = { s.applied (rulesWrites s.onDisk s.activeBank.other rules) with
        activeBank := s.activeBank.other } := by
  cases h with
  | compileFail => cases hok
  | slotFail => cases hok
  | configFail => cases hok
  | done rules hcompile => exact ⟨rules, hcompile, rfl⟩

/-- A full sync that succeeds has made all its updates and moved to the other
bank. -/
theorem FullSync.of_ok {env : Env} {s : DaemonState} {r : Outcome} (h : FullSync env s r)
    (hok : r.1 = .ok ()) :
    ∃ rules, compileRules env.net 0 s.onDisk.rules = .ok rules ∧
      r.2 = { s.applied (syncWrites s.onDisk s.activeBank.other rules) with
        activeBank := s.activeBank.other } := by
  cases h with
  | defaultFail => cases hok
  | rules hfail h =>
    obtain ⟨rules, hcompile, hstate⟩ := h.of_ok hok
    refine ⟨rules, hcompile, ?_⟩
    rw [hstate, syncWrites, s.applied_append]
    rfl

/-- A mutating request answered `Ok` has saved its list and synced all of it. -/
theorem dispatch_ok {toml : Toml} {env : Env} {s : DaemonState} {req : Request}
    (hok : (dispatch toml env s req).1 = .ok) :
    ∃ d text rules, req.edit s.onDisk = .ok d ∧ toml.toStringPretty d = .ok text ∧
      compileRules env.net 0 d.rules = .ok rules ∧
      (dispatch toml env s req).2 =
        { s with
          onDisk := d
          dir := ⟨some text, none⟩
          maps := (syncWrites d s.activeBank.other rules).foldl Maps.write s.maps
          activeBank := s.activeBank.other
          writes := syncWrites d s.activeBank.other rules } := by
  have hcase := dispatch_cases toml env s req
  generalize dispatch toml env s req = out at hcase hok
  cases hcase with
  | query resp _ hresp => exact absurd hok hresp
  | refused => cases hok
  | saveFail => cases hok
  | synced d text r _ hedit _ htext hsync =>
    obtain ⟨result, t⟩ := r
    cases result with
    | error e => cases hok
    | ok =>
      obtain ⟨rules, hcompile, ht⟩ := hsync.of_ok rfl
      refine ⟨d, text, rules, hedit, htext, hcompile, ?_⟩
      rw [toResponse_snd, ht]
      rfl

end Moatd
