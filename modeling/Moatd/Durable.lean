import Moatd.Runs
import Mathlib.Data.List.Infix

/-!
# A store that may be killed

A store holds a value in memory and one on disk.  An edit changes the one in memory, saving
it makes it the one on disk, and only then the edit may be acknowledged.  The store may give
up on an edit before or behind its save, and it may be killed at any moment: the memory is
then lost, and read back from disk.

What is on disk is then always made by some of the edits, in their order, and among them is
every edit that was acknowledged.
-/

namespace Durable

open Runs

variable {α β : Type*}

/-- How far the edit at hand has come. -/
inductive Phase (β : Type*)
  | idle
  | editing (b : β)
  | saved (b : β)

/-- What can happen to the store. -/
inductive Move (β : Type*)
  | edit (b : β)
  | save
  | giveUp
  | acknowledge
  | kill

/-- The store, with the edits behind either value, all edits made, and the acknowledged ones. -/
structure Store (α β : Type*) where
  memory : α
  disk : α
  phase : Phase β
  inMemory : List β
  onDisk : List β
  made : List β
  acknowledged : List β

/-- A store whose memory and disk agree. -/
def Store.start (x : α) : Store α β where
  memory := x
  disk := x
  phase := .idle
  inMemory := []
  onDisk := []
  made := []
  acknowledged := []

variable (apply : α → β → α)

/-- One move. -/
def Store.step (s : Store α β) : Move β → Store α β
  | .edit b =>
    match s.phase with
    | .idle => { s with
        memory := apply s.memory b
        phase := .editing b
        inMemory := s.inMemory ++ [b]
        made := s.made ++ [b] }
    | _ => s
  | .save =>
    match s.phase with
    | .editing b => { s with disk := s.memory, phase := .saved b, onDisk := s.inMemory }
    | _ => s
  | .giveUp => { s with phase := .idle }
  | .acknowledge =>
    match s.phase with
    | .saved b => { s with phase := .idle, acknowledged := s.acknowledged ++ [b] }
    | _ => s
  | .kill => { s with memory := s.disk, phase := .idle, inMemory := s.onDisk }

/-- Where the edits of either value stand, as far as the edit at hand has come. -/
def Phase.Accounts (s : Store α β) : Phase β → Prop
  | .idle => s.acknowledged.Sublist s.onDisk ∧ s.onDisk <+: s.inMemory
  | .editing b => s.acknowledged.Sublist s.onDisk ∧
      ∃ edits, s.inMemory = edits ++ [b] ∧ s.onDisk <+: edits
  | .saved b => ∃ edits, s.inMemory = edits ++ [b] ∧ s.onDisk = s.inMemory ∧
      s.acknowledged.Sublist edits

/-- **The invariant**: both values are made by the edits behind them. -/
structure Store.Accounts (x : α) (s : Store α β) : Prop where
  memory : s.memory = s.inMemory.foldl apply x
  disk : s.disk = s.onDisk.foldl apply x
  made : s.inMemory.Sublist s.made
  phase : s.phase.Accounts s

variable {apply} {x : α} {s : Store α β}

/-- The edits on disk begin those in memory, and the acknowledged ones are among them. -/
theorem Phase.Accounts.idle {phase : Phase β} (h : phase.Accounts s) :
    s.acknowledged.Sublist s.onDisk ∧ s.onDisk <+: s.inMemory := by
  cases phase with
  | idle => exact h
  | editing b =>
    obtain ⟨hacked, edits, hmemory, hdisk⟩ := h
    refine ⟨hacked, hdisk.trans ?_⟩
    rw [hmemory]
    exact List.prefix_append edits [b]
  | saved b =>
    obtain ⟨edits, hmemory, hdisk, hacked⟩ := h
    refine ⟨hacked.trans ?_, ?_⟩
    · rw [hdisk, hmemory]
      exact List.sublist_append_left edits [b]
    · rw [hdisk]

/-- **Step.** -/
theorem Store.Accounts.step (h : s.Accounts apply x) (move : Move β) :
    (s.step apply move).Accounts apply x := by
  have hphase := h.phase
  obtain ⟨hacked, hdisk⟩ := hphase.idle
  cases move with
  | edit b =>
    unfold Store.step
    cases hs : s.phase with
    | idle =>
      refine ⟨?_, h.disk, h.made.append (List.Sublist.refl [b]), ?_⟩
      · rw [h.memory, List.foldl_append]
        rfl
      · exact ⟨hacked, s.inMemory, rfl, hdisk⟩
    | _ => exact h
  | save =>
    unfold Store.step
    cases hs : s.phase with
    | editing b =>
      rw [hs] at hphase
      obtain ⟨-, edits, hmemory, hbefore⟩ := hphase
      exact ⟨h.memory, h.memory, h.made, edits, hmemory, rfl, hacked.trans hbefore.sublist⟩
    | _ => exact h
  | giveUp => exact ⟨h.memory, h.disk, h.made, hacked, hdisk⟩
  | acknowledge =>
    unfold Store.step
    cases hs : s.phase with
    | saved b =>
      rw [hs] at hphase
      obtain ⟨edits, hmemory, hsaved, hbefore⟩ := hphase
      refine ⟨h.memory, h.disk, h.made, ?_, hdisk⟩
      show (s.acknowledged ++ [b]).Sublist s.onDisk
      rw [hsaved, hmemory]
      exact hbefore.append (List.Sublist.refl [b])
    | _ => exact h
  | kill => exact ⟨h.disk, h.disk, hdisk.sublist.trans h.made, hacked, List.prefix_refl _⟩

end Durable
