import Mathlib.Data.List.Basic
import Mathlib.Data.Nat.Init
import Mathlib.Tactic.Common

/-!
# A store under successive writes

A store is written one element at a time; `contents s ws n` is what it holds once
the first `n` of the writes `ws` are done.  A write *spares* a read when the read
gives the same before and after it, and *sets* it to a value when the read gives
that value after it whatever was there.  What a read finds is decided by the last
write that does not spare it.

A reader that interleaves with the writer makes its reads at a non-decreasing
sequence of moments, so an interleaving is a monotone function from the number of
the read to the number of writes done before it.
-/

namespace WriteHistory

variable {σ ω β : Type*} (write : σ → ω → σ)

/-- The store once the first `n` writes are done. -/
def contents (s : σ) (ws : List ω) (n : Nat) : σ := (ws.take n).foldl write s

/-- The write does not show in the read. -/
def Spares (f : σ → β) (w : ω) : Prop := ∀ s, f (write s w) = f s

/-- The read finds `v` right after the write. -/
def Sets (f : σ → β) (w : ω) (v : β) : Prop := ∀ s, f (write s w) = v

theorem contents_of_length_le {s : σ} {ws : List ω} {n : Nat} (h : ws.length ≤ n) :
    contents write s ws n = ws.foldl write s := by
  rw [contents, List.take_of_length_le h]

theorem contents_succ {s : σ} {ws : List ω} {n : Nat} {w : ω} (h : ws[n]? = some w) :
    contents write s ws (n + 1) = write (contents write s ws n) w := by
  rw [contents, List.take_add_one, h, List.foldl_append]
  rfl

theorem contents_succ_of_none {s : σ} {ws : List ω} {n : Nat} (h : ws[n]? = none) :
    contents write s ws (n + 1) = contents write s ws n := by
  rw [contents, List.take_add_one, h]
  simp [contents]

/-- Later writes do not change what was there before them. -/
theorem contents_append_left {s : σ} {ws vs : List ω} {n : Nat} (h : n ≤ ws.length) :
    contents write s (ws ++ vs) n = contents write s ws n := by
  rw [contents, List.take_append_of_le_length h, contents]

/-- Once the first batch of writes is done, the second starts from its result. -/
theorem contents_append_right (s : σ) (ws vs : List ω) (n : Nat) :
    contents write s (ws ++ vs) (ws.length + n) = contents write (ws.foldl write s) vs n := by
  rw [contents, List.take_length_add_append, List.foldl_append, contents]

variable {write} {f : σ → β}

/-- **Frame rule.**  Writes that spare a read leave it where it was. -/
theorem read_contents_of_spares {s : σ} {ws : List ω} {n m : Nat} (hnm : n ≤ m)
    (h : ∀ k w, n ≤ k → k < m → ws[k]? = some w → Spares write f w) :
    f (contents write s ws m) = f (contents write s ws n) := by
  induction m, hnm using Nat.le_induction with
  | base => rfl
  | succ m hnm ih =>
    have hprev := ih fun k w hk hkm => h k w hk (by omega)
    cases hw : ws[m]? with
    | none => rw [contents_succ_of_none write hw, hprev]
    | some w => rw [contents_succ write hw, h m w hnm (by omega) hw, hprev]

/-- **The last write decides.**  A write that sets a read, followed only by writes
that spare it, is what the read finds. -/
theorem read_contents_of_sets {s : σ} {ws : List ω} {n m : Nat} {w : ω} {v : β}
    (hn : ws[n]? = some w) (hset : Sets write f w v) (hnm : n < m)
    (h : ∀ k w, n < k → k < m → ws[k]? = some w → Spares write f w) :
    f (contents write s ws m) = v := by
  rw [read_contents_of_spares (n := n + 1) hnm fun k w hk => h k w hk, contents_succ write hn]
  exact hset _

/-- A read that only one write shows in changes at that write and at no other. -/
theorem read_contents_of_single {s : σ} {ws : List ω} {k : Nat} {w : ω} {v : β}
    (hk : ws[k]? = some w) (hset : Sets write f w v)
    (h : ∀ j w', j ≠ k → ws[j]? = some w' → Spares write f w') (n : Nat) :
    f (contents write s ws n) = if n ≤ k then f s else v := by
  split
  · rename_i hnk
    exact read_contents_of_spares (n := 0) (Nat.zero_le n)
      fun j w' _ hj hw' => h j w' (by omega) hw'
  · rename_i hnk
    exact read_contents_of_sets hk hset (by omega)
      fun j w' hj _ hw' => h j w' (by omega) hw'

/-- A read that no write shows in never changes. -/
theorem read_contents_of_spared {s : σ} {ws : List ω}
    (h : ∀ w ∈ ws, Spares write f w) (n : Nat) : f (contents write s ws n) = f s :=
  read_contents_of_spares (n := 0) (Nat.zero_le n)
    fun _ _ _ _ hw => h _ (List.mem_of_getElem? hw)

/-- Among the writes `n`, …, `m - 1` there is a last one with the property, or none
has it. -/
theorem exists_last (T : ω → Prop) (ws : List ω) (n m : Nat) :
    (∀ k w, n ≤ k → k < m → ws[k]? = some w → ¬ T w) ∨
      ∃ k w, n ≤ k ∧ k < m ∧ ws[k]? = some w ∧ T w ∧
        ∀ k' w', k < k' → k' < m → ws[k']? = some w' → ¬ T w' := by
  induction m with
  | zero => exact Or.inl fun k w _ hk => by omega
  | succ m ih =>
    by_cases hlast : n ≤ m ∧ ∃ w, ws[m]? = some w ∧ T w
    · obtain ⟨hnm, w, hw, hT⟩ := hlast
      exact Or.inr ⟨m, w, hnm, by omega, hw, hT, fun k' w' hk hk' => by omega⟩
    · -- nothing at `m`, so what holds up to `m` holds up to `m + 1`
      have hm : ∀ w, n ≤ m → ws[m]? = some w → ¬ T w :=
        fun w hnm hw hT => hlast ⟨hnm, w, hw, hT⟩
      rcases ih with hnone | ⟨k, w, hnk, hkm, hw, hT, hlater⟩
      · refine Or.inl fun k w hnk hk hw => ?_
        rcases Nat.lt_or_eq_of_le (Nat.le_of_lt_succ hk) with hk | rfl
        · exact hnone k w hnk hk hw
        · exact hm w hnk hw
      · refine Or.inr ⟨k, w, hnk, by omega, hw, hT, fun k' w' hk hk' hw' => ?_⟩
        rcases Nat.lt_or_eq_of_le (Nat.le_of_lt_succ hk') with hk' | rfl
        · exact hlater k' w' hk hk' hw'
        · exact hm w' (by omega) hw'

end WriteHistory
