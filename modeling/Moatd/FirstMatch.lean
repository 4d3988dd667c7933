import Mathlib.Data.List.Basic
import Mathlib.Tactic.Common

/-!
# First match

An ordered list of rules is consulted from the front: the first rule that hits
decides, together with its number, and when none does a default decides.  Which
rules hit is a parameter.  The general facts are what the first hit is
(`firstHit_eq_some_iff`, `firstHit_eq_none_iff`), how the decision is read off it
(`decide_of_isFirst`, `decide_of_none`), when the default plays no part
(`decide_congr_default`), and who decides once a rule is erased (`decide_eraseIdx_self`).
-/

namespace FirstMatch

variable {ρ β : Type*} (hit : ρ → Bool)

/-- The first rule that hits, with its number. -/
def firstHit (rules : List ρ) : Option (ρ × Nat) := rules.zipIdx.find? fun e => hit e.1

/-- What the list decides: `chosen` of the first rule that hits, or `otherwise`. -/
def decide (rules : List ρ) (otherwise : β) (chosen : ρ → Nat → β) : β :=
  match firstHit hit rules with
  | some (r, i) => chosen r i
  | none => otherwise

/-- Rule `r` is number `i` of the list, it hits, and none before it does. -/
structure IsFirst (rules : List ρ) (r : ρ) (i : Nat) : Prop where
  getElem? : rules[i]? = some r
  hits : hit r = true
  before : ∀ j r', j < i → rules[j]? = some r' → hit r' = false

variable {hit} {rules : List ρ}

theorem firstHit_eq_some_iff {r : ρ} {i : Nat} :
    firstHit hit rules = some (r, i) ↔ IsFirst hit rules r i := by
  rw [firstHit, List.find?_eq_some_iff_getElem]
  constructor
  · rintro ⟨hhit, k, hk, heq, hbefore⟩
    rw [List.getElem_zipIdx, Prod.mk.injEq, Nat.zero_add] at heq
    obtain ⟨hr, rfl⟩ := heq
    have hk' : k < rules.length := by simpa using hk
    refine ⟨by rw [List.getElem?_eq_getElem hk', hr], hhit, ?_⟩
    intro j r' hj hr'
    obtain ⟨hjlen, rfl⟩ := List.getElem?_eq_some_iff.mp hr'
    simpa using hbefore j hj
  · rintro ⟨hr, hhit, hbefore⟩
    obtain ⟨hi, rfl⟩ := List.getElem?_eq_some_iff.mp hr
    refine ⟨hhit, i, by simpa using hi, by simp, ?_⟩
    intro j hj
    have := hbefore j rules[j] hj (List.getElem?_eq_getElem (by omega))
    simpa using this

theorem firstHit_eq_none_iff : firstHit hit rules = none ↔ ∀ r ∈ rules, hit r = false := by
  rw [firstHit, List.find?_eq_none]
  constructor
  · intro h r hr
    obtain ⟨i, hi, rfl⟩ := List.mem_iff_getElem.mp hr
    have hmem : (rules[i], i) ∈ rules.zipIdx := by
      rw [List.mem_zipIdx_iff_getElem?]
      exact List.getElem?_eq_getElem hi
    simpa using h _ hmem
  · rintro h ⟨r, i⟩ hmem
    rw [List.mem_zipIdx_iff_getElem?] at hmem
    have hr : hit r = false := h r (List.mem_of_getElem? hmem)
    rw [hr]
    exact Bool.false_ne_true

/-- Either some rule is the first to hit, or none hits. -/
theorem isFirst_or_none (hit : ρ → Bool) (rules : List ρ) :
    (∃ r i, IsFirst hit rules r i) ∨ ∀ r ∈ rules, hit r = false := by
  cases h : firstHit hit rules with
  | some e => exact Or.inl ⟨e.1, e.2, firstHit_eq_some_iff.mp h⟩
  | none => exact Or.inr (firstHit_eq_none_iff.mp h)

section Decide
variable {otherwise : β} {chosen : ρ → Nat → β}

theorem decide_of_isFirst {r : ρ} {i : Nat} (h : IsFirst hit rules r i) :
    decide hit rules otherwise chosen = chosen r i := by
  rw [decide, firstHit_eq_some_iff.mpr h]

theorem decide_of_none (h : ∀ r ∈ rules, hit r = false) :
    decide hit rules otherwise chosen = otherwise := by
  rw [decide, firstHit_eq_none_iff.mpr h]

/-- A list gone through to its end without a hit. -/
theorem decide_of_before {i : Nat} (hi : rules.length ≤ i)
    (hbefore : ∀ j r, j < i → rules[j]? = some r → hit r = false) :
    decide hit rules otherwise chosen = otherwise := by
  refine decide_of_none fun r hr => ?_
  obtain ⟨j, hj⟩ := List.mem_iff_getElem?.mp hr
  have hlt := (List.getElem?_eq_some_iff.mp hj).1
  exact hbefore j r (by omega) hj

/-- Where a rule hits, the default plays no part. -/
theorem decide_congr_default {r : ρ} {i : Nat} (h : IsFirst hit rules r i) (otherwise' : β) :
    decide hit rules otherwise chosen = decide hit rules otherwise' chosen := by
  rw [decide_of_isFirst h, decide_of_isFirst h]

/-- **The default of one list with the rules of another.**  Where the other list
has no rules, or the same ones, the mixture decides like one of the two. -/
theorem decide_mixed {rules' : List ρ} {otherwise' : β} (h : rules' = rules ∨ rules' = []) :
    decide hit rules otherwise' chosen = decide hit rules otherwise chosen ∨
      decide hit rules otherwise' chosen = decide hit rules' otherwise' chosen := by
  rcases h with rfl | rfl
  · exact Or.inr rfl
  · rcases isFirst_or_none hit rules with ⟨r, i, hfirst⟩ | hnone
    · exact Or.inl (decide_congr_default hfirst otherwise)
    · right
      rw [decide_of_none hnone, decide_of_none (by simp)]

/-- A rule at the end of the list decides like a default. -/
theorem decide_append_singleton (r : ρ) :
    decide hit (rules ++ [r]) otherwise chosen =
      decide hit rules (if hit r = true then chosen r rules.length else otherwise) chosen := by
  have hlast : (rules ++ [r])[rules.length]? = some r := by simp
  have hfront : ∀ j, j < rules.length → (rules ++ [r])[j]? = rules[j]? :=
    fun j hj => List.getElem?_append_left hj
  rcases isFirst_or_none hit rules with ⟨r', i, hfirst⟩ | hnone
  · have hi := (List.getElem?_eq_some_iff.mp hfirst.getElem?).1
    have hfirst' : IsFirst hit (rules ++ [r]) r' i :=
      ⟨by rw [hfront i hi, hfirst.getElem?], hfirst.hits,
        fun j r'' hj hr'' => hfirst.before j r'' hj (by rwa [hfront j (by omega)] at hr'')⟩
    rw [decide_of_isFirst hfirst', decide_of_isFirst hfirst]
  · rw [decide_of_none hnone]
    by_cases hhit : hit r = true
    · have hfirst : IsFirst hit (rules ++ [r]) r rules.length :=
        ⟨hlast, hhit, fun j r' hj hr' =>
          hnone r' (List.mem_of_getElem? (by rwa [hfront j hj] at hr'))⟩
      rw [decide_of_isFirst hfirst, if_pos hhit]
    · rw [if_neg hhit, decide_of_none]
      intro r' hr'
      rcases List.mem_append.mp hr' with hr' | hr'
      · exact hnone r' hr'
      · rw [List.mem_singleton.mp hr', Bool.eq_false_iff]
        exact hhit

/-- What the list decides is monotone in the default. -/
theorem decide_mono_default {P : β → Prop} {otherwise' : β} (h : P otherwise → P otherwise')
    (hdecide : P (decide hit rules otherwise chosen)) :
    P (decide hit rules otherwise' chosen) := by
  rcases isFirst_or_none hit rules with ⟨r, i, hfirst⟩ | hnone
  · rwa [decide_congr_default hfirst otherwise] at *
  · rw [decide_of_none hnone] at *
    exact h hdecide

end Decide

/-! ### A list without one of its rules -/

section Erase
variable {r : ρ} {i k : Nat}

/-- A rule goes from behind the first hit. -/
theorem IsFirst.eraseIdx_of_lt (h : IsFirst hit rules r i) (hik : i < k) :
    IsFirst hit (rules.eraseIdx k) r i := by
  have hsame : ∀ j ≤ i, (rules.eraseIdx k)[j]? = rules[j]? := by
    intro j hj
    rw [List.getElem?_eraseIdx, if_pos (Nat.lt_of_le_of_lt hj hik)]
  refine ⟨by rw [hsame i (Nat.le_refl i), h.getElem?], h.hits, fun j r' hj hr' => ?_⟩
  rw [hsame j (Nat.le_of_lt hj)] at hr'
  exact h.before j r' hj hr'

/-- A rule goes from in front of the first hit. -/
theorem IsFirst.eraseIdx_of_gt (h : IsFirst hit rules r i) (hki : k < i) :
    IsFirst hit (rules.eraseIdx k) r (i - 1) := by
  refine ⟨?_, h.hits, fun j r' hj hr' => ?_⟩
  · rw [List.getElem?_eraseIdx, if_neg (by omega), Nat.sub_add_cancel (by omega), h.getElem?]
  · rw [List.getElem?_eraseIdx] at hr'
    split at hr'
    · exact h.before j r' (by omega) hr'
    · exact h.before (j + 1) r' (by omega) hr'

/-- Behind number `k`, rule `r` is the next to hit, at number `i`. -/
structure IsNext (hit : ρ → Bool) (rules : List ρ) (k : Nat) (r : ρ) (i : Nat) : Prop where
  behind : k < i
  getElem? : rules[i]? = some r
  hits : hit r = true
  between : ∀ j r', k < j → j < i → rules[j]? = some r' → hit r' = false

/-- **Without the first hit the next one decides**, under a number that is less by one. -/
theorem decide_eraseIdx_self (otherwise : β) (chosen : ρ → Nat → β) (h : IsFirst hit rules r k) :
    (∃ r' j, IsNext hit rules k r' j ∧
      decide hit (rules.eraseIdx k) otherwise chosen = chosen r' (j - 1)) ∨
    ((∀ j r', k < j → rules[j]? = some r' → hit r' = false) ∧
      decide hit (rules.eraseIdx k) otherwise chosen = otherwise) := by
  rcases isFirst_or_none hit (rules.eraseIdx k) with ⟨r', j, hfirst⟩ | hnone
  · left
    have hj : k ≤ j := by
      by_contra hjk
      have hget := hfirst.getElem?
      rw [List.getElem?_eraseIdx, if_pos (Nat.not_le.mp hjk)] at hget
      have hmiss := h.before j r' (Nat.not_le.mp hjk) hget
      rw [hfirst.hits] at hmiss
      cases hmiss
    refine ⟨r', j + 1, ⟨Nat.lt_succ_of_le hj, ?_, hfirst.hits, fun m r'' hkm hmj hr'' => ?_⟩, ?_⟩
    · rw [← hfirst.getElem?, List.getElem?_eraseIdx, if_neg (Nat.not_lt.mpr hj)]
    · refine hfirst.before (m - 1) r'' (by omega) ?_
      rw [List.getElem?_eraseIdx, if_neg (by omega), Nat.sub_add_cancel (by omega), hr'']
    · rw [decide_of_isFirst hfirst, Nat.add_sub_cancel]
  · right
    refine ⟨fun j r' hkj hr' => hnone r' (List.mem_of_getElem? (i := j - 1) ?_),
      decide_of_none hnone⟩
    rw [List.getElem?_eraseIdx, if_neg (by omega), Nat.sub_add_cancel (by omega), hr']

/-- A rule that does not hit may go. -/
theorem forall_eraseIdx (hnone : ∀ r ∈ rules, hit r = false) (k : Nat) :
    ∀ r ∈ rules.eraseIdx k, hit r = false :=
  fun r hr => hnone r (List.mem_of_mem_eraseIdx hr)

end Erase

end FirstMatch
