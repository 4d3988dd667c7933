import Moatd.AddressText
import Moatd.DropEvents
import Moatd.Runs
import Moatd.Tally
import Mathlib.Data.List.Forall2

/-!
# The block log

`drain_events`: the daemon takes the records off the ring buffer, counts them by their
`DedupeKey`, and once a second writes one line for each key and starts again.  The records
come in at any time, in the middle of a drain too; a tick does not.

The drop events go through a pipe (`Tally.Pipe`), and the lines are the summaries of its
windows, their counts cut to 32 bits.  The entries of the hash map come out in any order,
so the order is an argument of the tick, and so are the names the interfaces have then.
-/

namespace Moatd

open Runs Tally

/-! ### The dedupe window -/

/-- What the drop events of one line have in common. -/
structure DedupeKey where
  family : UInt8
  proto : UInt8
  src : Addr
  dstPort : UInt16
  ifindex : UInt32
  ruleId : UInt32
  deriving DecidableEq, Repr

/-- What the window keeps of a key: its number of events, and the first one. -/
structure DedupeAccum where
  count : UInt32
  sample : DropEvent
  deriving DecidableEq, Repr

/-- `DedupeWindow`: the entries of its hash map. -/
abbrev DedupeWindow := List (DedupeKey × DedupeAccum)

/-- The key under which `record` files the event. -/
def DropEvent.dedupeKey (event : DropEvent) : DedupeKey where
  family := event.family
  proto := event.proto
  src := event.src
  dstPort := event.dstPort
  ifindex := event.ifindex
  ruleId := event.ruleId

/-- `DedupeWindow::record`.  In a release build the count wraps around. -/
def DedupeWindow.record (event : DropEvent) : DedupeWindow → DedupeWindow
  | [] => [(event.dedupeKey, ⟨1, event⟩)]
  | (key, accum) :: rest =>
    if key = event.dedupeKey then (key, { accum with count := accum.count + 1 }) :: rest
    else (key, accum) :: DedupeWindow.record event rest

/-! ### The lines -/

/-- `proto_name`. -/
def protoName (proto : UInt8) : String :=
  if proto = protoTcp then "tcp"
  else if proto = protoUdp then "udp"
  else if proto = protoIcmp then "icmp"
  else if proto = protoIcmpv6 then "icmpv6"
  else "any"

/-- The rule as a line names it. -/
def ruleLabel (ruleId : UInt32) : String :=
  if ruleId.toNat = ruleIdDefault then "default" else "rule #" ++ toString (ruleId + 1).toNat

/-- One line of `DedupeWindow::flush`. -/
def blockLine (ifaceName : UInt32 → Option String) (accum : DedupeAccum) : String :=
  let e := accum.sample
  let iface := (ifaceName e.ifindex).getD ("if" ++ toString e.ifindex.toNat)
  let plural := if accum.count = 1 then "" else "s"
  "BLOCK src=" ++ formatAddr e.family e.src ++ " dst=" ++ formatAddr e.family e.dst ++ ":" ++
    toString e.dstPort.toNat ++ "/" ++ protoName e.proto ++ " on " ++ iface ++ " (" ++
    ruleLabel e.ruleId ++ ", " ++ toString accum.count.toNat ++ " hit" ++ plural ++ " in 1s)"

/-! ### The system -/

/-- Data path and daemon, with the reports on their way.  `draining` says that the daemon
is in the loop that empties the ring buffer; the journal has one list of lines for each
flush that wrote any. -/
structure LogWorld where
  world : World
  log : LogMaps
  draining : Bool
  dedupe : DedupeWindow
  journal : List (List String)

/-- No events so far, and none printed. -/
def LogWorld.start (world : World) : LogWorld := ⟨world, LogMaps.zeroed, false, [], []⟩

/-- What happens, one at a time. -/
inductive LogEvent
  /-- A packet, with what its report meets, or something else that happens to the maps. -/
  | data (e : Event) (call : LogCall)
  /-- The ring buffer is readable: the drain begins. -/
  | readable
  /-- One turn of its loop. -/
  | next
  | tick (order : DedupeWindow) (ifaceName : UInt32 → Option String)

/-- The report maps after the event. -/
def LogMaps.after (log : LogMaps) (s : DataPath) (e : Event) (call : LogCall) : LogMaps :=
  match e with
  | .ingress now ifindex packet => (ingressReporting s log call now ifindex packet).2
  | .egress now ifindex packet insertOk =>
    (egressReporting s log call now ifindex packet insertOk).2
  | _ => log

/-- The entries in the order in which the hash map gives them. -/
def DedupeWindow.drained (window order : DedupeWindow) : DedupeWindow :=
  if order.isPerm window then order else window

/-- One event. -/
def LogWorld.step (toml : Toml) (w : LogWorld) : LogEvent → LogWorld
  | .data e call =>
    { w with world := w.world.step toml e, log := w.log.after w.world.path e call }
  | .readable => { w with draining := true }
  | .next =>
    if w.draining then
      match w.log.events with
      | [] => { w with draining := false }
      | item :: rest =>
        let w := { w with log := { w.log with events := rest } }
        if item.length ≠ dropEventSize then w
        else { w with dedupe := w.dedupe.record (DropEvent.read item) }
    else w
  | .tick order ifaceName =>
    -- the loop of the drain has no room for a tick
    if w.draining then w
    else if w.dedupe = [] then w
    else
      { w with
        dedupe := []
        journal := w.journal ++
          [(w.dedupe.drained order).map fun e => blockLine ifaceName e.2] }

/-! ### What is submitted -/

/-- The packet that the rules drop, with its interface and the number of the rule. -/
def Event.dropped (s : DataPath) : Event → Option (UInt32 × Parsed × Nat)
  | .ingress now ifindex packet =>
    match parsePacket packet (s.l2OffFor ifindex), tryIngress s now ifindex packet with
    | .ok (some p), .ok .drop => some (ifindex, p, (walkRules s.maps dirIn ifindex p).2)
    | _, _ => none
  | .egress now ifindex packet insertOk =>
    match parsePacket packet (s.l2OffFor ifindex), (tryEgress s now ifindex packet insertOk).1 with
    | .ok (some p), .ok .shot => some (ifindex, p, (walkRules s.maps dirOut ifindex p).2)
    | _, _ => none
  | _ => none

/-- The drop event that the step submits. -/
def LogWorld.submitted (w : LogWorld) : LogEvent → Option DropEvent
  | .data e call =>
    match e.dropped w.world.path with
    | some (ifindex, p, ruleId) =>
      if w.log.submits w.world.path.maps call then some (dropEvent call.now ifindex p ruleId)
      else none
    | none => none
  | _ => none

/-- The drop events of a run, in the order in which they are submitted. -/
def submittedAlong (toml : Toml) : LogWorld → List LogEvent → List DropEvent
  | _, [] => []
  | w, e :: run => (w.submitted e).toList ++ submittedAlong toml (w.step toml e) run

theorem LogMaps.after_eq (log : LogMaps) (s : DataPath) (e : Event) (call : LogCall) :
    log.after s e call =
      match e.dropped s with
      | some (ifindex, p, ruleId) => log.emitDrop s.maps call ifindex p ruleId
      | none => log := by
  cases e with
  | ingress now ifindex packet =>
    have hcase := ingressReporting_cases s log call now ifindex packet
    rw [LogMaps.after, Event.dropped]
    generalize (ingressReporting s log call now ifindex packet).2 = log' at hcase
    cases hcase with
    | silent h =>
      split
      · rename_i hsome
        split at hsome
        · rename_i hdrop
          exact absurd hdrop h
        · cases hsome
      · rfl
    | report p ruleId h hdrops =>
      rw [hdrops.parsed, h]
      dsimp only
      rw [hdrops.number]
  | egress now ifindex packet insertOk =>
    have hcase := egressReporting_cases s log call now ifindex packet insertOk
    rw [LogMaps.after, Event.dropped]
    generalize (egressReporting s log call now ifindex packet insertOk).2 = log' at hcase
    cases hcase with
    | silent h =>
      split
      · rename_i hsome
        split at hsome
        · rename_i hdrop
          exact absurd hdrop h
        · cases hsome
      · rfl
    | report p ruleId h hdrops =>
      rw [hdrops.parsed, h]
      dsimp only
      rw [hdrops.number]
  | request | update | evict | attach => rfl

/-- A step puts what it submits into the ring buffer. -/
theorem LogMaps.after_events (w : LogWorld) (e : Event) (call : LogCall) :
    (w.log.after w.world.path e call).events =
      w.log.events ++ ((w.submitted (.data e call)).toList.map DropEvent.bytes) := by
  rw [LogMaps.after_eq, LogWorld.submitted]
  cases e.dropped w.world.path with
  | none => simp
  | some drop =>
    obtain ⟨ifindex, p, ruleId⟩ := drop
    dsimp only
    rw [LogMaps.emitDrop_events]
    by_cases hsubmits : w.log.submits w.world.path.maps call = true
    · rw [if_pos hsubmits, if_pos hsubmits]
      rfl
    · rw [if_neg hsubmits, if_neg hsubmits]
      rfl

/-! ### The pipe behind the log -/

/-- The entry as the daemon keeps it, its count cut to 32 bits. -/
def accumOf (entry : Entry DropEvent DedupeKey) : DedupeKey × DedupeAccum :=
  (entry.key, ⟨UInt32.ofNat entry.count, entry.first⟩)

/-- The window counts these events. -/
def DedupeWindow.Counts (window : DedupeWindow) (events : List DropEvent) : Prop :=
  ∃ entries, Summarises DropEvent.dedupeKey entries events ∧ window = entries.map accumOf

/-- The lines of a flush say how often each key occurs among the events. -/
def PrintedFrom (lines : List String) (events : List DropEvent) : Prop :=
  ∃ window ifaceName, DedupeWindow.Counts window events ∧
    lines = window.map fun e => blockLine ifaceName e.2

theorem record_map_accumOf (event : DropEvent) (entries : List (Entry DropEvent DedupeKey)) :
    DedupeWindow.record event (entries.map accumOf) =
      (add DropEvent.dedupeKey event entries).map accumOf := by
  induction entries with
  | nil => rfl
  | cons entry entries ih =>
    rw [List.map_cons, accumOf, DedupeWindow.record, add]
    by_cases hkey : entry.key = event.dedupeKey
    · rw [if_pos hkey, if_pos hkey, List.map_cons, accumOf, UInt32.ofNat_add]
      rfl
    · rw [if_neg hkey, if_neg hkey, List.map_cons, ih, accumOf]

theorem DedupeWindow.Counts.record {window : DedupeWindow} {events : List DropEvent}
    (h : window.Counts events) (event : DropEvent) :
    (DedupeWindow.record event window).Counts (events ++ [event]) := by
  obtain ⟨entries, hentries, rfl⟩ := h
  exact ⟨_, hentries.add event, record_map_accumOf event entries⟩

/-- The order in which the entries come does not matter. -/
theorem DedupeWindow.Counts.drained {window : DedupeWindow} {events : List DropEvent}
    (h : window.Counts events) (order : DedupeWindow) : (window.drained order).Counts events := by
  unfold DedupeWindow.drained
  split
  · rename_i hperm
    obtain ⟨entries, hentries, rfl⟩ := h
    have hcomp := congrFun (congrFun (List.eq_map_comp_perm accumOf) order) entries
    obtain ⟨entries', hmap, hperm'⟩ := hcomp.mpr (List.isPerm_iff.mp hperm)
    exact ⟨entries', hentries.perm hperm', hmap⟩
  · exact h

/-- What the log has of the pipe. -/
structure LogWorld.Follows (w : LogWorld) (pipe : Pipe DropEvent) : Prop where
  queue : w.log.events = pipe.queue.map DropEvent.bytes
  pending : w.dedupe.Counts pipe.pending
  closed : List.Forall₂ PrintedFrom w.journal pipe.closed

theorem LogWorld.follows_start (world : World) : (LogWorld.start world).Follows Pipe.empty where
  queue := rfl
  pending := ⟨[], Summarises.nil, rfl⟩
  closed := .nil

/-- What the event does to the pipe. -/
def LogWorld.ops (w : LogWorld) : LogEvent → List (Op DropEvent)
  | .data e call => (w.submitted (.data e call)).toList.map Op.push
  | .readable => []
  | .next => if w.draining then [.pull] else []
  | .tick .. => if w.draining then [] else [.close]

theorem LogWorld.pushed_ops (w : LogWorld) (e : LogEvent) :
    ((w.ops e).map Op.pushed).flatten = (w.submitted e).toList := by
  cases e with
  | data e call =>
    rw [LogWorld.ops]
    cases w.submitted (.data e call) <;> rfl
  | readable => rfl
  | next =>
    rw [LogWorld.ops]
    split <;> rfl
  | tick order ifaceName =>
    rw [LogWorld.ops]
    split <;> rfl

section Follows
variable {toml : Toml} {w : LogWorld} {pipe : Pipe DropEvent}

theorem LogWorld.Follows.data (h : w.Follows pipe) (e : Event) (call : LogCall) :
    (w.step toml (.data e call)).Follows ((w.ops (.data e call)).foldl Pipe.step pipe) := by
  have hevents := LogMaps.after_events w e call
  rw [LogWorld.ops]
  cases hsubmitted : w.submitted (.data e call) with
  | none =>
    rw [hsubmitted] at hevents
    exact ⟨by simpa [LogWorld.step, h.queue] using hevents, h.pending, h.closed⟩
  | some event =>
    rw [hsubmitted] at hevents
    refine ⟨?_, h.pending, h.closed⟩
    rw [LogWorld.step, hevents, h.queue]
    exact List.map_append.symm

/-- A turn of the drain takes one event into the open window. -/
theorem LogWorld.Follows.next (h : w.Follows pipe) :
    (w.step toml .next).Follows ((w.ops .next).foldl Pipe.step pipe) := by
  have hqueue := h.queue
  rw [LogWorld.step, LogWorld.ops]
  by_cases hdraining : w.draining = true
  · rw [if_pos hdraining, if_pos hdraining, List.foldl_cons, List.foldl_nil, Pipe.step]
    cases hpipe : pipe.queue with
    | nil =>
      rw [hpipe, List.map_nil] at hqueue
      rw [hqueue]
      exact ⟨h.queue, h.pending, h.closed⟩
    | cons event rest =>
      rw [hpipe, List.map_cons] at hqueue
      rw [hqueue]
      dsimp only
      rw [if_neg (by rw [DropEvent.length_bytes]; exact fun hne => hne rfl), DropEvent.read_bytes]
      exact ⟨rfl, h.pending.record event, h.closed⟩
  · rw [if_neg hdraining, if_neg hdraining]
    exact h

/-- A tick closes the window, and its lines sum it up. -/
theorem LogWorld.Follows.tick (h : w.Follows pipe) (order : DedupeWindow)
    (ifaceName : UInt32 → Option String) :
    (w.step toml (.tick order ifaceName)).Follows
      ((w.ops (.tick order ifaceName)).foldl Pipe.step pipe) := by
  rw [LogWorld.step, LogWorld.ops]
  by_cases hdraining : w.draining = true
  · rw [if_pos hdraining, if_pos hdraining]
    exact h
  rw [if_neg hdraining, if_neg hdraining, List.foldl_cons, List.foldl_nil, Pipe.step]
  have hempty : w.dedupe = [] ↔ pipe.pending = [] := by
    obtain ⟨entries, hentries, hdedupe⟩ := h.pending
    rw [hdedupe, List.map_eq_nil_iff]
    exact hentries.eq_nil_iff
  cases hpending : pipe.pending with
  | nil =>
    rw [if_pos (hempty.mpr hpending)]
    exact h
  | cons event rest =>
    have hne : w.dedupe ≠ [] := fun hnil => by cases hpending.symm.trans (hempty.mp hnil)
    rw [if_neg hne]
    refine ⟨h.queue, ⟨[], Summarises.nil, rfl⟩, ?_⟩
    have hpended := h.pending
    rw [hpending] at hpended
    exact List.rel_append h.closed (.cons ⟨_, ifaceName, hpended.drained order, rfl⟩ .nil)

/-- **The log follows the pipe.** -/
theorem LogWorld.Follows.step (h : w.Follows pipe) (e : LogEvent) :
    (w.step toml e).Follows ((w.ops e).foldl Pipe.step pipe) := by
  cases e with
  | data e call => exact h.data e call
  | readable => exact ⟨h.queue, h.pending, h.closed⟩
  | next => exact h.next
  | tick order ifaceName => exact h.tick order ifaceName

end Follows

/-- The pipe along a run: it holds what was submitted. -/
theorem LogWorld.Follows.after (toml : Toml) {w : LogWorld} {pipe : Pipe DropEvent}
    (h : w.Follows pipe) (hclosed : ∀ window ∈ pipe.closed, window ≠ []) (run : List LogEvent) :
    ∃ pipe', (after (LogWorld.step toml) w run).Follows pipe' ∧
      (∀ window ∈ pipe'.closed, window ≠ []) ∧
      pipe'.events = pipe.events ++ submittedAlong toml w run := by
  induction run generalizing w pipe with
  | nil => exact ⟨pipe, h, hclosed, (List.append_nil _).symm⟩
  | cons e run ih =>
    have hclosed' : ∀ window ∈ ((w.ops e).foldl Pipe.step pipe).closed, window ≠ [] :=
      invariant_after (I := fun p : Pipe DropEvent => ∀ window ∈ p.closed, window ≠ [])
        (fun _ op hp => Pipe.closed_ne_nil hp op) (w.ops e) hclosed
    obtain ⟨pipe', hfollows, hne, hevents⟩ := ih (h.step e) hclosed'
    refine ⟨pipe', hfollows, hne, ?_⟩
    rw [hevents, Pipe.events_after, LogWorld.pushed_ops, List.append_assoc]
    rfl

/-- **The block log counts every drop event once.**  Whatever packets, requests, drains and
ticks come in whatever order: the submitted events are, in their order, those that the
flushes so far have written, those in the dedupe window and those in the ring buffer.  Each
flush has written one line for each key among its events, with the first event of the key
and their number, cut to 32 bits. -/
theorem journal_accounts (toml : Toml) (world : World) (run : List LogEvent) :
    let w := after (LogWorld.step toml) (LogWorld.start world) run
    ∃ windows pending waiting,
      submittedAlong toml (LogWorld.start world) run = windows.flatten ++ pending ++ waiting ∧
      (∀ window ∈ windows, window ≠ []) ∧ List.Forall₂ PrintedFrom w.journal windows ∧
      w.dedupe.Counts pending ∧ w.log.events = waiting.map DropEvent.bytes := by
  obtain ⟨pipe, hfollows, hne, hevents⟩ := (LogWorld.follows_start world).after toml
    (fun window hwindow => absurd hwindow List.not_mem_nil) run
  exact ⟨pipe.closed, pipe.pending, pipe.queue, hevents.symm, hne, hfollows.closed,
    hfollows.pending, hfollows.queue⟩

end Moatd
