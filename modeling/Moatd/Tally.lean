import Mathlib.Algebra.Order.Ring.Nat
import Mathlib.Data.List.Basic
import Mathlib.Data.List.Perm.Basic
import Mathlib.Tactic.Common

/-!
# Counting events by key

A stream of events is cut into windows, and each window is summed up: for every key that
occurs, how many events have it and which is the first.  The entries of a summary come in
any order.

On their way to the summaries the events wait in a queue and then in the window that is
still open (`Pipe`).  No step loses an event, doubles one or changes their order
(`Pipe.events_after`).
-/

namespace Tally

/-! ### Summaries -/

/-- How many events have the key, and the first of them. -/
structure Entry (ε κ : Type*) where
  key : κ
  count : Nat
  first : ε

section Summaries
variable {ε κ : Type*} [DecidableEq κ] (key : ε → κ)

/-- The entries sum up the events. -/
structure Summarises (entries : List (Entry ε κ)) (events : List ε) : Prop where
  nodup : (entries.map Entry.key).Nodup
  count : ∀ e ∈ entries, e.count = events.countP fun x => decide (key x = e.key)
  first : ∀ e ∈ entries, (events.find? fun x => decide (key x = e.key)) = some e.first
  covers : ∀ x ∈ events, key x ∈ entries.map Entry.key

/-- One more event: its entry counts on, or it gets one. -/
def add (event : ε) : List (Entry ε κ) → List (Entry ε κ)
  | [] => [⟨key event, 1, event⟩]
  | e :: rest =>
    if e.key = key event then { e with count := e.count + 1 } :: rest else e :: add event rest

variable {key} {entries : List (Entry ε κ)} {events : List ε}

theorem Summarises.nil : Summarises key [] [] := by
  constructor <;> simp

/-- The order of the entries says nothing. -/
theorem Summarises.perm {entries' : List (Entry ε κ)} (h : Summarises key entries events)
    (hperm : entries'.Perm entries) : Summarises key entries' events where
  nodup := (hperm.map Entry.key).nodup_iff.mpr h.nodup
  count e he := h.count e (hperm.mem_iff.mp he)
  first e he := h.first e (hperm.mem_iff.mp he)
  covers x hx := (hperm.map Entry.key).mem_iff.mpr (h.covers x hx)

/-- Only an empty window has no entries. -/
theorem Summarises.eq_nil_iff (h : Summarises key entries events) : entries = [] ↔ events = [] := by
  constructor
  · rintro rfl
    by_contra hne
    obtain ⟨x, hx⟩ := List.exists_mem_of_ne_nil events hne
    exact List.not_mem_nil (h.covers x hx)
  · rintro rfl
    by_contra hne
    obtain ⟨e, he⟩ := List.exists_mem_of_ne_nil entries hne
    cases h.first e he

/-! ### One more event -/

section Add
variable {event : ε}

theorem mem_keys_add {k : κ} :
    k ∈ (add key event entries).map Entry.key ↔ k = key event ∨ k ∈ entries.map Entry.key := by
  induction entries with
  | nil => simp [add]
  | cons e rest ih =>
    rw [add]
    split
    · rename_i hkey
      simp only [List.map_cons, List.mem_cons, hkey]
      exact ⟨Or.inr, fun h => h.elim Or.inl id⟩
    · rw [List.map_cons, List.mem_cons, List.map_cons, List.mem_cons, ih]
      exact or_left_comm

theorem nodup_add (h : (entries.map Entry.key).Nodup) :
    ((add key event entries).map Entry.key).Nodup := by
  induction entries with
  | nil => simp [add]
  | cons e rest ih =>
    rw [List.map_cons, List.nodup_cons] at h
    rw [add]
    split
    · exact List.nodup_cons.mpr h
    · rename_i hkey
      rw [List.map_cons, List.nodup_cons, mem_keys_add, not_or]
      exact ⟨⟨hkey, h.1⟩, ih h.2⟩

/-- An entry afterwards: the one of the new event, or one from before. -/
theorem mem_add {e : Entry ε κ} (hnodup : (entries.map Entry.key).Nodup)
    (h : e ∈ add key event entries) :
    (e.key ≠ key event ∧ e ∈ entries) ∨
      (e.key = key event ∧ ∃ e' ∈ entries, e'.key = key event ∧
        e = { e' with count := e'.count + 1 }) ∨
      (key event ∉ entries.map Entry.key ∧ e = ⟨key event, 1, event⟩) := by
  induction entries with
  | nil => exact Or.inr (Or.inr ⟨List.not_mem_nil, List.mem_singleton.mp h⟩)
  | cons e' rest ih =>
    rw [List.map_cons, List.nodup_cons] at hnodup
    rw [add] at h
    split at h
    · rename_i hkey
      rcases List.mem_cons.mp h with rfl | hrest
      · exact Or.inr (Or.inl ⟨hkey, e', List.mem_cons_self, hkey, rfl⟩)
      · refine Or.inl ⟨fun heq => hnodup.1 ?_, List.mem_cons_of_mem _ hrest⟩
        rw [hkey, ← heq]
        exact List.mem_map_of_mem hrest
    · rename_i hkey
      rcases List.mem_cons.mp h with rfl | hrest
      · exact Or.inl ⟨hkey, List.mem_cons_self⟩
      · rcases ih hnodup.2 hrest with ⟨hne, hmem⟩ | ⟨heq, e₀, hmem, hrest⟩ | ⟨hnot, rfl⟩
        · exact Or.inl ⟨hne, List.mem_cons_of_mem _ hmem⟩
        · exact Or.inr (Or.inl ⟨heq, e₀, List.mem_cons_of_mem _ hmem, hrest⟩)
        · refine Or.inr (Or.inr ⟨?_, rfl⟩)
          rw [List.map_cons, List.mem_cons, not_or]
          exact ⟨fun heq => hkey heq.symm, hnot⟩

/-- **A summary grows with its window.** -/
theorem Summarises.add (h : Summarises key entries events) (event : ε) :
    Summarises key (Tally.add key event entries) (events ++ [event]) where
  nodup := nodup_add h.nodup
  covers x hx := by
    rw [mem_keys_add]
    rcases List.mem_append.mp hx with hx | hx
    · exact Or.inr (h.covers x hx)
    · rw [List.mem_singleton.mp hx]
      exact Or.inl rfl
  count e he := by
    rw [List.countP_append, List.countP_singleton]
    rcases mem_add h.nodup he with ⟨hne, hmem⟩ | ⟨heq, e', hmem, hkey, rfl⟩ | ⟨hnot, rfl⟩
    · rw [h.count e hmem, if_neg (by simpa using Ne.symm hne)]
      rfl
    · rw [if_pos (by simpa using hkey.symm), ← h.count e' hmem]
    · rw [if_pos (by simp), List.countP_eq_zero.mpr]
      intro x hx hkey
      have hkey : key x = key event := of_decide_eq_true hkey
      exact hnot (hkey ▸ h.covers x hx)
  first e he := by
    rw [List.find?_append]
    rcases mem_add h.nodup he with ⟨hne, hmem⟩ | ⟨heq, e', hmem, hkey, rfl⟩ | ⟨hnot, rfl⟩
    · rw [h.first e hmem]
      rfl
    · rw [h.first e' hmem]
      rfl
    · have hnone : (events.find? fun x => decide (key x = key event)) = none := by
        rw [List.find?_eq_none]
        intro x hx hkey
        have hkey : key x = key event := of_decide_eq_true hkey
        exact hnot (hkey ▸ h.covers x hx)
      rw [hnone]
      simp

end Add
end Summaries

/-! ### From the queue to the windows -/

/-- The windows closed so far, the open one, and the events that wait. -/
structure Pipe (ε : Type*) where
  closed : List (List ε)
  pending : List ε
  queue : List ε

variable {ε : Type*}

/-- What happens to the pipe. -/
inductive Op (ε : Type*)
  | push (event : ε)
  /-- The event at the front of the queue goes into the open window. -/
  | pull
  /-- The open window is closed, unless it is empty. -/
  | close

/-- No events so far. -/
def Pipe.empty : Pipe ε := ⟨[], [], []⟩

/-- One operation. -/
def Pipe.step (p : Pipe ε) : Op ε → Pipe ε
  | .push event => { p with queue := p.queue ++ [event] }
  | .pull =>
    match p.queue with
    | [] => p
    | event :: rest => { p with pending := p.pending ++ [event], queue := rest }
  | .close =>
    match p.pending with
    | [] => p
    | _ => { p with closed := p.closed ++ [p.pending], pending := [] }

/-- The event that comes in, if one does. -/
def Op.pushed : Op ε → List ε
  | .push event => [event]
  | _ => []

/-- All events in it, in the order in which they came. -/
def Pipe.events (p : Pipe ε) : List ε := p.closed.flatten ++ p.pending ++ p.queue

theorem Pipe.events_step (p : Pipe ε) (op : Op ε) : (p.step op).events = p.events ++ op.pushed := by
  cases op with
  | push event => simp [Pipe.step, Pipe.events, Op.pushed]
  | pull =>
    rw [Pipe.step]
    split
    · exact (List.append_nil _).symm
    · rename_i event rest hqueue
      simp [Pipe.events, Op.pushed, hqueue]
  | close =>
    rw [Pipe.step]
    split
    · exact (List.append_nil _).symm
    · simp [Pipe.events, Op.pushed]

/-- **Nothing is lost, doubled or reordered.** -/
theorem Pipe.events_after (p : Pipe ε) (ops : List (Op ε)) :
    (ops.foldl Pipe.step p).events = p.events ++ (ops.map Op.pushed).flatten := by
  induction ops generalizing p with
  | nil => simp
  | cons op ops ih =>
    rw [List.foldl_cons, ih, events_step, List.append_assoc]
    rfl

/-- No window is closed empty. -/
theorem Pipe.closed_ne_nil {p : Pipe ε} (h : ∀ window ∈ p.closed, window ≠ []) (op : Op ε) :
    ∀ window ∈ (p.step op).closed, window ≠ [] := by
  cases op with
  | push event => exact h
  | pull =>
    rw [Pipe.step]
    split <;> exact h
  | close =>
    rw [Pipe.step]
    split
    · exact h
    · rename_i hpending
      intro window hwindow
      rcases List.mem_append.mp hwindow with hwindow | hwindow
      · exact h window hwindow
      · rw [List.mem_singleton.mp hwindow]
        exact hpending

end Tally
