import Mathlib.Data.List.Induction
import Moatd.Runs

/-!
# Soft state

An entry that is kept alive by use: it carries the time of a past use, a use finds
it live for `ttl` after that time, and a use that finds it live may stamp it anew.
What is to be known of such an entry is where it comes from.  `Backed` says so of
the use a history ends with: it was admitted by itself, or it came within `ttl` of
an earlier use that is backed.  Refreshing may be throttled, so the stamp can lag
behind the last use, and then the entry lives shorter than `ttl` from that use on,
but not by more than the throttle.
-/

namespace Runs

variable {σ ℓ : Type*} (step : σ → ℓ → σ)

/-- The last step of the history is a use at this time that was admitted, or that
continues a chain of uses, each less than `ttl` after the one before, back to a use
that was admitted. -/
inductive Backed (ttl : Nat) (Uses : σ → ℓ → Nat → Prop) (Admits : σ → ℓ → Prop) (s : σ) :
    List ℓ → Nat → Prop
  | admitted {pre l t} (huses : Uses (after step s pre) l t)
      (hadmits : Admits (after step s pre) l) : Backed ttl Uses Admits s (pre ++ [l]) t
  | renewed {pre t' mid l t} (hprev : Backed ttl Uses Admits s pre t')
      (huses : Uses (after step s (pre ++ mid)) l t) (hlive : t < t' + ttl) :
      Backed ttl Uses Admits s (pre ++ mid ++ [l]) t

variable {step} {ttl : Nat} {Uses : σ → ℓ → Nat → Prop} {Admits : σ → ℓ → Prop}
  {entry : σ → Option Nat}

/-- What is backed is a use. -/
theorem Backed.uses {s : σ} {run : List ℓ} {t : Nat} (h : Backed step ttl Uses Admits s run t) :
    ∃ pre l, run = pre ++ [l] ∧ Uses (after step s pre) l t := by
  cases h with
  | admitted huses => exact ⟨_, _, rfl, huses⟩
  | renewed _ huses => exact ⟨_, _, rfl, huses⟩

/-- An entry only changes by a use that was admitted or found it live. -/
def Stamps (step : σ → ℓ → σ) (ttl : Nat) (Uses : σ → ℓ → Nat → Prop) (Admits : σ → ℓ → Prop)
    (entry : σ → Option Nat) : Prop :=
  ∀ s l t, entry (step s l) = some t → entry s = some t ∨
    (Uses s l t ∧ (Admits s l ∨ ∃ t', entry s = some t' ∧ t < t' + ttl))

/-- **Provenance.**  If there was no entry at first, every entry has the time of a
backed use in its past. -/
theorem Stamps.backed (h : Stamps step ttl Uses Admits entry) {s : σ} (hs : entry s = none)
    (run : List ℓ) {t : Nat} (ht : entry (after step s run) = some t) :
    ∃ pre mid, run = pre ++ mid ∧ Backed step ttl Uses Admits s pre t := by
  induction run using List.reverseRecOn generalizing t with
  | nil =>
    rw [after_nil, hs] at ht
    cases ht
  | append_singleton run l ih =>
    rw [after_append] at ht
    -- the last step has left the entry alone, or it is the use whose time it bears
    rcases h _ l t ht with hkept | ⟨huses, hadmits | ⟨t', ht', hlive⟩⟩
    · obtain ⟨pre, mid, rfl, hbacked⟩ := ih hkept
      exact ⟨pre, mid ++ [l], List.append_assoc _ _ _, hbacked⟩
    · exact ⟨run ++ [l], [], (List.append_nil _).symm, .admitted huses hadmits⟩
    · obtain ⟨pre, mid, rfl, hbacked⟩ := ih ht'
      exact ⟨pre ++ mid ++ [l], [], (List.append_nil _).symm, .renewed hbacked huses hlive⟩

/-- The stamp lags less than `refresh` behind this time. -/
def Covers (refresh : Nat) (entry : σ → Option Nat) (t : Nat) (s : σ) : Prop :=
  ∃ v, entry s = some v ∧ t < v + refresh

/-- **The lag rule.**  Steps that leave the entry alone or stamp it at this time or
later keep it covering that time. -/
theorem Covers.after {refresh t : Nat} {P : σ → ℓ → Prop}
    (hstep : ∀ s l, P s l → entry (step s l) = entry s ∨
      ∃ v, entry (step s l) = some v ∧ t ≤ v)
    (hrefresh : 0 < refresh) {s : σ} {run : List ℓ} (hrun : Along step P s run)
    (hs : Covers refresh entry t s) : Covers refresh entry t (Runs.after step s run) := by
  refine hrun.invariant (I := Covers refresh entry t) (fun s l hcovers hP => ?_) hs
  rcases hstep s l hP with hkept | ⟨v, hv, hle⟩
  · obtain ⟨v, hv, hlag⟩ := hcovers
    exact ⟨v, hkept.trans hv, hlag⟩
  · exact ⟨v, hv, by omega⟩

/-- A covered time is at most `ttl` less the throttle away from where the entry is
still live. -/
theorem Covers.live {refresh t t₂ : Nat} {s : σ} (h : Covers refresh entry t s)
    (ht₂ : t₂ + refresh ≤ t + ttl) : ∃ v, entry s = some v ∧ t₂ < v + ttl := by
  obtain ⟨v, hv, hlag⟩ := h
  exact ⟨v, hv, by omega⟩

end Runs
