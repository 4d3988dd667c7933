import Mathlib.Data.List.Basic
import Mathlib.Tactic.Common

/-!
# Runs of a deterministic step

A step function takes a state and a label, where the label carries everything
the step does not decide by itself.  A run is a list of labels.  A property of
steps speaks of the state before the step and of its label; `Along` says that
every step of a run has it.  The two rules are the ones every argument over runs
uses: an invariant carried along a run (`Along.invariant`), and the exchange of
one property of steps for another that agrees with it wherever an invariant
holds (`along_congr_of_invariant`).
-/

namespace Runs

variable {σ ℓ : Type*} (step : σ → ℓ → σ)

/-- The state a run ends in. -/
def after (s : σ) (run : List ℓ) : σ := run.foldl step s

@[simp] theorem after_nil (s : σ) : after step s [] = s := rfl

@[simp] theorem after_cons (s : σ) (l : ℓ) (run : List ℓ) :
    after step s (l :: run) = after step (step s l) run := rfl

theorem after_append (s : σ) (run run' : List ℓ) :
    after step s (run ++ run') = after step (after step s run) run' :=
  List.foldl_append

/-- Every step of the run has the property, at the state it is taken from. -/
def Along (P : σ → ℓ → Prop) : σ → List ℓ → Prop
  | _, [] => True
  | s, l :: run => P s l ∧ Along P (step s l) run

variable {step} {P Q : σ → ℓ → Prop} {I : σ → Prop}

theorem along_append {s : σ} {run run' : List ℓ} :
    Along step P s (run ++ run') ↔ Along step P s run ∧ Along step P (after step s run) run' := by
  induction run generalizing s with
  | nil => simp [Along]
  | cons l run ih => simp [Along, ih, and_assoc]

/-- `Along` says the same of every way to split the run at a step. -/
theorem along_iff_split {s : σ} {run : List ℓ} :
    Along step P s run ↔ ∀ pre l post, run = pre ++ l :: post → P (after step s pre) l := by
  constructor
  · rintro h pre l post rfl
    exact (along_append.mp h).2.1
  · intro h
    induction run generalizing s with
    | nil => trivial
    | cons l run ih =>
      refine ⟨h [] l run rfl, ih fun pre l' post hsplit => ?_⟩
      have := h (l :: pre) l' post (by rw [hsplit]; rfl)
      simpa using this

theorem Along.of_forall (h : ∀ s l, P s l) (s : σ) (run : List ℓ) : Along step P s run := by
  induction run generalizing s with
  | nil => trivial
  | cons l run ih => exact ⟨h s l, ih _⟩

/-- A property of the labels alone holds along a run if it holds of each label. -/
theorem along_label {P : ℓ → Prop} {s : σ} {run : List ℓ} :
    Along step (fun _ l => P l) s run ↔ ∀ l ∈ run, P l := by
  induction run generalizing s with
  | nil => simp [Along]
  | cons l run ih => simp [Along, ih]

theorem along_and {s : σ} {run : List ℓ} :
    Along step (fun s l => P s l ∧ Q s l) s run ↔ Along step P s run ∧ Along step Q s run := by
  induction run generalizing s with
  | nil => simp [Along]
  | cons l run ih => simp only [Along, ih, and_assoc, and_left_comm]

/-- **The invariant rule.**  What every step having the property preserves holds
at the end of a run of such steps. -/
theorem Along.invariant (hstep : ∀ s l, I s → P s l → I (step s l)) {s : σ} {run : List ℓ}
    (hrun : Along step P s run) (hs : I s) : I (after step s run) := by
  induction run generalizing s with
  | nil => exact hs
  | cons l run ih => exact ih hrun.2 (hstep s l hs hrun.1)

/-- An invariant of all steps holds at the end of every run. -/
theorem invariant_after (hstep : ∀ s l, I s → I (step s l)) {s : σ} (run : List ℓ)
    (hs : I s) : I (after step s run) :=
  Along.invariant (P := fun _ _ => True) (fun s l h _ => hstep s l h)
    (Along.of_forall (fun _ _ => trivial) s run) hs

/-- What holds at the end of a run and not at its start comes to hold at some step. -/
theorem exists_step_of_after {s : σ} {run : List ℓ} (hs : ¬ I s) (h : I (after step s run)) :
    ∃ pre l post, run = pre ++ l :: post ∧ ¬ I (after step s pre) ∧
      I (step (after step s pre) l) := by
  induction run generalizing s with
  | nil => exact absurd h hs
  | cons l run ih =>
    by_cases hl : I (step s l)
    · exact ⟨[], l, run, rfl, hs, hl⟩
    · obtain ⟨pre, l', post, rfl, hpre, hl'⟩ := ih hl h
      exact ⟨l :: pre, l', post, rfl, hpre, hl'⟩

/-- A run without the property has a first step without it. -/
theorem exists_first_of_not_along {s : σ} {run : List ℓ} (h : ¬ Along step P s run) :
    ∃ pre l post, run = pre ++ l :: post ∧ Along step P s pre ∧ ¬ P (after step s pre) l := by
  induction run generalizing s with
  | nil => exact absurd trivial h
  | cons l run ih =>
    by_cases hl : P s l
    · obtain ⟨pre, l', post, rfl, hpre, hl'⟩ := ih fun hrun => h ⟨hl, hrun⟩
      exact ⟨l :: pre, l', post, rfl, ⟨hl, hpre⟩, hl'⟩
    · exact ⟨[], l, run, rfl, trivial, hl⟩

/-- Along a run that stays inside an invariant, a property may be weakened to
one that follows from it there. -/
theorem Along.mono_of_invariant (hstep : ∀ s l, I s → P s l → I (step s l))
    (hPQ : ∀ s l, I s → P s l → Q s l) {s : σ} {run : List ℓ} (hrun : Along step P s run)
    (hs : I s) : Along step Q s run := by
  induction run generalizing s with
  | nil => trivial
  | cons l run ih => exact ⟨hPQ s l hs hrun.1, ih hrun.2 (hstep s l hs hrun.1)⟩

/-- **The exchange rule.**  Two properties of steps that agree wherever an
invariant holds, one of which keeps it, hold along the same runs. -/
theorem along_congr_of_invariant (hstep : ∀ s l, I s → Q s l → I (step s l))
    (hPQ : ∀ s l, I s → (P s l ↔ Q s l)) {s : σ} (run : List ℓ) (hs : I s) :
    Along step P s run ↔ Along step Q s run :=
  ⟨fun h => h.mono_of_invariant (fun s l hi hp => hstep s l hi ((hPQ s l hi).mp hp))
      (fun s l hi => (hPQ s l hi).mp) hs,
    fun h => h.mono_of_invariant hstep (fun s l hi => (hPQ s l hi).mpr) hs⟩

/-- The exchange rule for runs whose steps are known to keep the invariant. -/
theorem along_congr_of_along {R : σ → ℓ → Prop} (hstep : ∀ s l, I s → R s l → I (step s l))
    (hPQ : ∀ s l, I s → R s l → (P s l ↔ Q s l)) {s : σ} {run : List ℓ}
    (hrun : Along step R s run) (hs : I s) : Along step P s run ↔ Along step Q s run := by
  induction run generalizing s with
  | nil => exact Iff.rfl
  | cons l run ih =>
    exact and_congr (hPQ s l hs hrun.1) (ih hrun.2 (hstep s l hs hrun.1))

/-! ### Two runs -/

/-- Two states side by side, each with a label of its own. -/
def sideBySide (step : σ → ℓ → σ) (s : σ × σ) (l : ℓ × ℓ) : σ × σ :=
  (step s.1 l.1, step s.2 l.2)

/-- Side by side each run goes as it would alone. -/
theorem after_sideBySide (s s' : σ) (run : List (ℓ × ℓ)) :
    after (sideBySide step) (s, s') run =
      (after step s (run.map Prod.fst), after step s' (run.map Prod.snd)) := by
  induction run generalizing s s' with
  | nil => rfl
  | cons l run ih => exact ih (step s l.1) (step s' l.2)

end Runs
