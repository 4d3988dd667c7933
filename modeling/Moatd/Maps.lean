import Moatd.Common

/-!
# The maps between the daemon and the data path

`RULES`, `DEFAULT_POLICY` and `CONFIG` are BPF arrays: created zeroed, written by
the daemon one element at a time, read by the data path one element at a time.
`RULES` holds two banks of `rulesMax` slots.  The daemon fills the bank that is
not in use and then publishes it by writing `CONFIG`.
-/

namespace Moatd

/-- The maps that the daemon writes, by slot. -/
structure Maps where
  rules : Nat → Rule
  defaultPolicy : Nat → UInt8
  config : GlobalConfig

/-- The maps as the kernel creates them. -/
def Maps.zeroed : Maps := ⟨fun _ => Rule.zeroed, fun _ => 0, GlobalConfig.zeroed⟩

/-- `RULES.get`. -/
def Maps.getRule (m : Maps) (slot : Nat) : Option Rule :=
  if slot < rulesSlots then some (m.rules slot) else none

/-! ### Writing -/

/-- One `bpf_map_update_elem`. -/
inductive MapWrite
  | defaultPolicy (slot : Nat) (action : UInt8)
  | rule (slot : Nat) (rule : Rule)
  | config (cfg : GlobalConfig)
  deriving DecidableEq, Repr

/-- One map update. -/
def Maps.write (m : Maps) : MapWrite → Maps
  | .defaultPolicy slot a =>
    { m with defaultPolicy := fun s => if s = slot then a else m.defaultPolicy s }
  | .rule slot r => { m with rules := fun s => if s = slot then r else m.rules s }
  | .config c => { m with config := c }

/-- The index is inside the array, as `Array::set` checks. -/
def MapWrite.inBounds : MapWrite → Bool
  | .defaultPolicy slot _ => decide (slot < 3)
  | .rule slot _ => decide (slot < rulesSlots)
  | .config _ => true

/-! ### Banks -/

/-- The daemon's `active_bank`: 0 or 1. -/
abbrev Bank := Fin 2

/-- First slot of the bank. -/
def Bank.base (b : Bank) : Nat := b.val * rulesMax

/-- The bank that is not this one. -/
def Bank.other (b : Bank) : Bank := 1 - b

/-- The bank as the byte `CONFIG` carries. -/
def Bank.byte (b : Bank) : UInt8 := UInt8.ofNat b.val

/-- First slot of the bank the data path reads under this configuration. -/
def GlobalConfig.base (c : GlobalConfig) : Nat := (c.activeBank &&& 1).toNat * rulesMax

/-- The rule list the data path enforces: the first `rule_count` slots of the
live bank. -/
def Maps.liveRules (m : Maps) : List Rule :=
  (List.range (min m.config.ruleCount rulesMax)).map fun i => m.rules (m.config.base + i)

/-! ### Reading what was written -/

section Write
variable (m : Maps)

@[simp] theorem Maps.write_config_config (c : GlobalConfig) :
    (m.write (.config c)).config = c := rfl

theorem Maps.write_rule_self (s : Nat) (r : Rule) : (m.write (.rule s r)).rules s = r := by
  simp [Maps.write]

theorem Maps.write_rule_ne {s s' : Nat} (r : Rule) (h : s' ≠ s) :
    (m.write (.rule s r)).rules s' = m.rules s' := by
  simp [Maps.write, h]

end Write

@[simp] theorem Bank.base_of_byte (b : Bank) : (b.byte &&& 1).toNat * rulesMax = b.base := by
  revert b
  decide

@[simp] theorem Bank.other_other (b : Bank) : b.other.other = b := by
  revert b
  decide

theorem Bank.other_ne (b : Bank) : b.other ≠ b := by
  revert b
  decide

theorem GlobalConfig.base_cases (c : GlobalConfig) (b : Bank) :
    c.base = b.base ∨ c.base = b.other.base := by
  have hbit : (c.activeBank &&& 1).toNat ≤ 1 := by
    rw [UInt8.toNat_and]
    exact Nat.and_le_right
  have hb : b.val = 0 ∨ b.val = 1 := by omega
  have hother : b.other.val = 1 - b.val := by
    revert b
    decide
  simp only [GlobalConfig.base, Bank.base, hother]
  rcases hb with hb | hb <;> rcases Nat.le_one_iff_eq_zero_or_eq_one.mp hbit with h | h <;>
    simp [hb, h]

theorem Bank.base_add_lt (b : Bank) {i : Nat} (hi : i < rulesMax) : b.base + i < rulesSlots := by
  have hb : b.val ≤ 1 := by omega
  have : b.val * rulesMax ≤ 1 * rulesMax := Nat.mul_le_mul_right _ hb
  simp only [Bank.base, rulesSlots, ruleBanks]
  omega

/-- Slots of different banks are different. -/
theorem Bank.base_add_ne {b c : Bank} (hbc : b ≠ c) {i j : Nat} (hi : i < rulesMax)
    (hj : j < rulesMax) : b.base + i ≠ c.base + j := by
  simp only [Bank.base, rulesMax] at *
  have hne : b.val ≠ c.val := fun h => hbc (Fin.ext h)
  omega

end Moatd
