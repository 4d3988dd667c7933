import Mathlib.Data.List.InsertIdx
import Mathlib.Tactic.Common

/-!
# Following elements of a list through edits

A list is edited by adding at its end, taking out what stands at a position, and emptying
it.  Each element carries the position that it had at the start, or none if it was added
later.  An element is still at its first position exactly as long as nothing at it or
before it has been taken out: nothing ever moves back.
-/

namespace Tracking

variable {α : Type*}

/-- What can happen to a list. -/
inductive Edit (α : Type*)
  | push (x : α)
  | erase (k : Nat)
  | clear

/-- The list after it. -/
def Edit.apply (xs : List α) : Edit α → List α
  | .push x => xs ++ [x]
  | .erase k => xs.eraseIdx k
  | .clear => []

/-- An element, with the position that it had at the start. -/
abbrev Tagged (α : Type*) := α × Option Nat

/-- The elements with their positions. -/
def tagged (xs : List α) : List (Tagged α) := xs.mapIdx fun i x => (x, some i)

/-- What is added later has no position at the start. -/
def Edit.untagged : Edit α → Edit (Tagged α)
  | .push x => .push (x, none)
  | .erase k => .erase k
  | .clear => .clear

/-- The edit leaves the first `i + 1` elements alone. -/
def Edit.Spares (i : Nat) : Edit α → Prop
  | .push _ => True
  | .erase k => i < k
  | .clear => False

/-- The element that was at this position is there, and nowhere else. -/
structure At (ts : List (Tagged α)) (i : Nat) : Prop where
  here : ∃ x, ts[i]? = some (x, some i)
  only : ∀ j x, ts[j]? = some (x, some i) → j = i

/-- The element that was at this position is in front of it, if anywhere. -/
def Ahead (ts : List (Tagged α)) (i : Nat) : Prop := ∀ j x, ts[j]? = some (x, some i) → j < i

theorem map_tagged (xs : List α) : (tagged xs).map Prod.fst = xs := by
  apply List.ext_getElem?
  intro i
  rw [tagged, List.getElem?_map, List.getElem?_mapIdx, Option.map_map]
  cases xs[i]? <;> rfl

theorem map_apply (ts : List (Tagged α)) (e : Edit α) :
    (e.untagged.apply ts).map Prod.fst = e.apply (ts.map Prod.fst) := by
  cases e with
  | push x => exact List.map_append
  | erase k => exact (List.eraseIdx_map ..).symm
  | clear => rfl

theorem at_tagged {xs : List α} {i : Nat} (hi : i < xs.length) : At (tagged xs) i := by
  refine ⟨⟨xs[i], ?_⟩, fun j x hx => ?_⟩
  · rw [tagged, List.getElem?_mapIdx, List.getElem?_eq_getElem hi]
    rfl
  · rw [tagged, List.getElem?_mapIdx, Option.map_eq_some_iff] at hx
    obtain ⟨y, -, hy⟩ := hx
    rw [Prod.mk.injEq, Option.some.injEq] at hy
    exact hy.2

/-- Where the edit moves the element at a position, if it leaves it in the list. -/
def Edit.moved : Edit α → Nat → Nat
  | .erase k, j => if j < k then j else j - 1
  | _, j => j

theorem Edit.moved_le (e : Edit α) (j : Nat) : e.moved j ≤ j := by
  cases e with
  | push x => exact Nat.le_refl j
  | erase k =>
    rw [moved]
    split
    · exact Nat.le_refl j
    · exact Nat.sub_le j 1
  | clear => exact Nat.le_refl j

theorem Edit.Spares.moved {e : Edit α} {i : Nat} (h : e.Spares i) : e.moved i = i := by
  cases e with
  | push x => rfl
  | erase k => exact if_pos h
  | clear => exact absurd h not_false

/-- Where an element of the edited list was. -/
theorem exists_of_getElem?_apply {ts : List (Tagged α)} {e : Edit α} {i j : Nat} {x : α}
    (h : (e.untagged.apply ts)[j]? = some (x, some i)) :
    ∃ j', ts[j']? = some (x, some i) ∧ j = e.moved j' ∧ e ≠ .clear ∧ e ≠ .erase j' := by
  cases e with
  | push y =>
    simp only [Edit.untagged, Edit.apply] at h
    by_cases hlt : j < ts.length
    · rw [List.getElem?_append_left hlt] at h
      exact ⟨j, h, rfl, by simp, by simp⟩
    · -- the new element has no first position
      rw [List.getElem?_append_right (Nat.not_lt.mp hlt)] at h
      have hmem := List.mem_of_getElem? h
      rw [List.mem_singleton, Prod.mk.injEq] at hmem
      cases hmem.2
  | erase k =>
    simp only [Edit.untagged, Edit.apply, List.getElem?_eraseIdx] at h
    by_cases hlt : j < k
    · rw [if_pos hlt] at h
      refine ⟨j, h, (if_pos hlt).symm, by simp, ?_⟩
      rintro ⟨⟩
      exact Nat.lt_irrefl _ hlt
    · rw [if_neg hlt] at h
      refine ⟨j + 1, h, ?_, by simp, ?_⟩
      · rw [Edit.moved, if_neg (by omega)]
        rfl
      · rintro ⟨⟩
        exact hlt (Nat.lt_succ_self j)
  | clear => cases h

/-- **Step**: what is ahead of its first position stays ahead of it. -/
theorem Ahead.apply {ts : List (Tagged α)} {i : Nat} (h : Ahead ts i) (e : Edit α) :
    Ahead (e.untagged.apply ts) i := by
  intro j x hx
  obtain ⟨j', hx', rfl, -, -⟩ := exists_of_getElem?_apply hx
  exact Nat.lt_of_le_of_lt (e.moved_le j') (h j' x hx')

/-- **Step**: an edit that spares an element leaves it where it is. -/
theorem At.apply {ts : List (Tagged α)} {i : Nat} (h : At ts i) {e : Edit α}
    (he : e.Spares i) : At (e.untagged.apply ts) i := by
  obtain ⟨⟨x, hx⟩, honly⟩ := h
  refine ⟨⟨x, ?_⟩, fun j y hy => ?_⟩
  · cases e with
    | push y =>
      have hlt : i < ts.length := (List.getElem?_eq_some_iff.mp hx).1
      exact (List.getElem?_append_left hlt).trans hx
    | erase k =>
      simp only [Edit.untagged, Edit.apply, List.getElem?_eraseIdx]
      rw [if_pos (show i < k from he)]
      exact hx
    | clear => exact absurd he not_false
  · obtain ⟨j', hy', rfl, -, -⟩ := exists_of_getElem?_apply hy
    obtain rfl := honly j' y hy'
    exact he.moved

/-- Any other edit takes it out, or moves it ahead. -/
theorem At.ahead_apply {ts : List (Tagged α)} {i : Nat} (h : At ts i) {e : Edit α}
    (he : ¬ e.Spares i) : Ahead (e.untagged.apply ts) i := by
  intro j x hx
  obtain ⟨j', hx', rfl, hclear, herase⟩ := exists_of_getElem?_apply hx
  obtain rfl := h.only j' x hx'
  cases e with
  | push y => exact absurd trivial he
  | erase k =>
    have hle : k ≤ j' := Nat.not_lt.mp he
    have hne : k ≠ j' := fun hk => herase (by rw [hk])
    rw [Edit.moved, if_neg (Nat.not_lt.mpr hle)]
    omega
  | clear => exact absurd rfl hclear

end Tracking
