import Mathlib.Data.List.AList

/-!
# Maps with room for so many entries

A hash map of a fixed capacity.  An insert replaces the value of a key the map has, and
takes a new key in as long as there is room; into a full map a new key cannot be inserted
(`insert_eq_none_iff`).
-/

/-- A map of at most `cap` entries. -/
structure BoundedMap (κ ν : Type) (cap : Nat) where
  entries : AList fun _ : κ => ν
  hsize : entries.keys.length ≤ cap

namespace BoundedMap

variable {κ ν : Type} {cap : Nat}

/-- No entries. -/
def empty : BoundedMap κ ν cap := ⟨∅, Nat.zero_le _⟩

/-- How many entries there are. -/
def size (m : BoundedMap κ ν cap) : Nat := m.entries.keys.length

variable [DecidableEq κ]

/-- The value of a key. -/
def get (m : BoundedMap κ ν cap) (key : κ) : Option ν := m.entries.lookup key

/-- A key that is there stays one entry; a new one takes the place of nothing. -/
theorem length_keys_insert (m : BoundedMap κ ν cap) (key : κ) (value : ν)
    (h : m.get key ≠ none ∨ m.size < cap) :
    (m.entries.insert key value).keys.length ≤ cap := by
  rw [AList.keys_insert, List.length_cons]
  by_cases hkey : key ∈ m.entries.keys
  · rw [List.length_erase_of_mem hkey]
    have hpos := List.length_pos_of_mem hkey
    have hsize := m.hsize
    omega
  · rw [List.erase_of_not_mem hkey]
    rcases h with hget | hroom
    · exact absurd (AList.mem_keys.mp (by_contra fun h => hget (AList.lookup_eq_none.mpr h))) hkey
    · exact hroom

/-- `none` is a failed insert. -/
def insert (m : BoundedMap κ ν cap) (key : κ) (value : ν) : Option (BoundedMap κ ν cap) :=
  if h : m.get key ≠ none ∨ m.size < cap then
    some ⟨m.entries.insert key value, m.length_keys_insert key value h⟩
  else none

variable {m m' : BoundedMap κ ν cap} {key : κ} {value : ν}

theorem insert_eq_none_iff : m.insert key value = none ↔ m.get key = none ∧ m.size = cap := by
  have hsize : m.size ≤ cap := m.hsize
  unfold insert
  split
  · rename_i h
    refine iff_of_false (by simp) ?_
    rintro ⟨hget, hfull⟩
    rcases h with h | h
    · exact h hget
    · omega
  · rename_i h
    rw [not_or, not_not] at h
    exact iff_of_true rfl ⟨h.1, by omega⟩

/-- A new key is one entry more. -/
theorem size_insert (hnew : m.get key = none) (h : m.insert key value = some m') :
    m'.size = m.size + 1 := by
  have hkey : key ∉ m.entries.keys := fun hmem =>
    AList.lookup_eq_none.mp hnew (AList.mem_keys.mpr hmem)
  unfold insert at h
  split at h
  · cases h
    rw [size, AList.keys_insert, List.length_cons, List.erase_of_not_mem hkey]
    rfl
  · cases h

theorem get_insert (h : m.insert key value = some m') : m'.get key = some value := by
  unfold insert at h
  split at h
  · cases h
    exact AList.lookup_insert m.entries
  · cases h

theorem get_insert_ne (h : m.insert key value = some m') {other : κ} (hne : other ≠ key) :
    m'.get other = m.get other := by
  unfold insert at h
  split at h
  · cases h
    exact AList.lookup_insert_ne hne
  · cases h

end BoundedMap
