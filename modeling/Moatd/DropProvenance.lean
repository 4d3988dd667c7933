import Moatd.BlockLog
import Moatd.RuleListing
import Moatd.Tightening

/-!
# Where a line of the block log comes from

A line of the block log is about a packet that was dropped, and it names the rule that
dropped it by a number.  That number is the one which `list` prints in front of the rule
and which `delete` takes, as long as the packet met the list that the daemon holds.
-/

namespace Moatd

open FirstMatch Runs Tally

variable (toml : Toml)

/-! ### Dropped packets -/

/-- The event is this packet, and it is dropped. -/
inductive DataPath.DropsAt (s : DataPath) : Event → Direction → UInt32 → List UInt8 → Prop
  | ingress (now : Nat) (ifindex : UInt32) (packet : List UInt8)
      (h : tryIngress s now ifindex packet = .ok .drop) :
      DropsAt s (.ingress now ifindex packet) .inbound ifindex packet
  | egress (now : Nat) (ifindex : UInt32) (packet : List UInt8) (insertOk : Bool)
      (h : (tryEgress s now ifindex packet insertOk).1 = .ok .shot) :
      DropsAt s (.egress now ifindex packet insertOk) .outbound ifindex packet

/-- What is dropped is denied by the rules or by the default. -/
theorem Event.dropped_cases {s : DataPath} {e : Event} {ifindex : UInt32} {p : Parsed}
    {ruleId : Nat} (h : e.dropped s = some (ifindex, p, ruleId)) :
    ∃ direction packet, s.DropsAt e direction ifindex packet ∧
      s.Drops (directionByte direction) ifindex packet p ruleId := by
  cases e with
  | ingress now ifindex packet =>
    rw [Event.dropped] at h
    split at h
    · rename_i p hparse hdrop
      cases h
      refine ⟨.inbound, packet, .ingress now _ packet hdrop, ?_⟩
      rw [tryIngress, hparse] at hdrop
      dsimp only at hdrop
      split_ifs at hdrop with hndp hreply hwalk
      · cases hdrop
      · cases hdrop
      · cases hdrop
      · exact ⟨hparse, Bool.eq_false_iff.mpr hndp, hwalk, rfl⟩
    · cases h
  | egress now ifindex packet insertOk =>
    rw [Event.dropped] at h
    split at h
    · rename_i p hparse hdrop
      cases h
      refine ⟨.outbound, packet, .egress now _ packet insertOk hdrop, ?_⟩
      rw [tryEgress_fst, hparse] at hdrop
      dsimp only at hdrop
      split_ifs at hdrop with hpass
      · cases hdrop
      · rw [not_or, not_or] at hpass
        exact ⟨hparse, Bool.eq_false_iff.mpr hpass.1, hpass.2.2, rfl⟩
    · cases h
  | request | update | evict | attach => cases h

/-! ### The rule that is named -/

/-- The rule that stands at this number, counted from 1, for `list` and for `delete`. -/
structure OnDisk.Numbers (d : OnDisk) (number : Nat) (user : UserRule) : Prop where
  listed : (listLines d.rules)[number - 1]? =
    some ("[" ++ toString number ++ "] " ++ renderRule user)
  deletes : (Request.deleteRule (UInt32.ofNat number)).edit d =
    .ok { d with rules := d.rules.eraseIdx (number - 1) }

theorem OnDisk.numbers_of_getElem? {d : OnDisk} {i : Nat} {user : UserRule}
    (huser : d.rules[i]? = some user) (hi : i < rulesMax) : d.Numbers (i + 1) user := by
  have hlt := (List.getElem?_eq_some_iff.mp huser).1
  have hsmall : i < 256 := hi
  refine ⟨?_, ?_⟩
  · have hne : d.rules ≠ [] := List.ne_nil_of_length_pos (Nat.lt_of_le_of_lt (Nat.zero_le i) hlt)
    rw [listLines, if_neg hne, Nat.add_sub_cancel, List.getElem?_mapIdx, huser]
    rfl
  · have hnumber : (UInt32.ofNat (i + 1)).toNat = i + 1 := by
      rw [UInt32.toNat_ofNat']
      omega
    have hzero : UInt32.ofNat (i + 1) ≠ 0 := by
      intro h
      rw [h] at hnumber
      exact absurd hnumber.symm (Nat.succ_ne_zero i)
    have hindex : (UInt32.ofNat (i + 1) - 1).toNat = i := by
      rw [UInt32.toNat_sub_of_le, hnumber]
      · rfl
      · rw [UInt32.le_iff_toNat_le, hnumber]
        exact Nat.succ_le_succ (Nat.zero_le i)
    rw [Request.edit_deleteRule, if_neg hzero, hindex, if_neg (Nat.not_le.mpr hlt),
      Nat.add_sub_cancel]

/-- The label names what denies the packet: the first rule that hits it, by the rule's
number, or the default if none of the rules that the maps hold does. -/
inductive OnDisk.Blames (d : OnDisk) (net : Nat → SysNet) (direction : Direction)
    (ifindex : UInt32) (p : Parsed) : String → Prop
  | rule (i : Nat) (user : UserRule) (huser : d.rules[i]? = some user)
      (hhits : d.Hits net direction ifindex p i)
      (hfirst : ∀ j < i, ¬ d.Hits net direction ifindex p j) (haction : user.action ≠ .allow)
      (hnumber : d.Numbers (i + 1) user) :
      Blames d net direction ifindex p ("rule #" ++ toString (i + 1))
  | default (hnone : ∀ i < rulesMax, ¬ d.Hits net direction ifindex p i)
      (haction : d.default direction ≠ .allow) : Blames d net direction ifindex p "default"

theorem ruleLabel_default : ruleLabel (UInt32.ofNat ruleIdDefault) = "default" := by decide

theorem ruleLabel_rule {i : Nat} (hi : i < rulesMax) :
    ruleLabel (UInt32.ofNat i) = "rule #" ++ toString (i + 1) := by
  have hsmall : i < 256 := hi
  have hnat : (UInt32.ofNat i).toNat = i := by
    rw [UInt32.toNat_ofNat']
    omega
  have hnext : (UInt32.ofNat i + 1).toNat = i + 1 := by
    rw [UInt32.toNat_add, hnat]
    show (i + 1) % 4294967296 = i + 1
    omega
  have hne : i ≠ ruleIdDefault := by
    unfold ruleIdDefault
    omega
  rw [ruleLabel, hnat, if_neg hne, hnext]

/-- **Maps that publish a list drop by it**, and the number they report is the rule's. -/
theorem Maps.Publishes.blames {m : Maps} {d : OnDisk} {bank : Bank} {rules : List Rule}
    (h : m.Publishes d bank rules) {net : Nat → SysNet}
    (hcompile : compileRules net 0 d.rules = .ok rules) {direction : Direction}
    {ifindex : UInt32} {p : Parsed}
    (hdenied : (Moatd.walkRules m (directionByte direction) ifindex p).1 ≠ actAllow) :
    d.Blames net direction ifindex p
      (ruleLabel (UInt32.ofNat (Moatd.walkRules m (directionByte direction) ifindex p).2)) := by
  rcases h.walk_cases hcompile direction ifindex p with
    ⟨i, user, hi, huser, hhits, hfirst, hwalk⟩ | ⟨hnone, hwalk⟩
  · rw [hwalk, Ne, actionByte_eq_allow_iff] at hdenied
    rw [hwalk, ruleLabel_rule hi]
    exact .rule i user huser hhits hfirst hdenied (OnDisk.numbers_of_getElem? huser hi)
  · rw [hwalk, Ne, actionByte_eq_allow_iff] at hdenied
    rw [hwalk, ruleLabel_default]
    exact .default hnone hdenied

/-! ### Along a run -/

/-- What is submitted is submitted at some step. -/
theorem mem_submittedAlong {w : LogWorld} {run : List LogEvent} {event : DropEvent}
    (h : event ∈ submittedAlong toml w run) :
    ∃ pre e post, run = pre ++ e :: post ∧
      (after (LogWorld.step toml) w pre).submitted e = some event := by
  induction run generalizing w with
  | nil => cases h
  | cons e run ih =>
    rw [submittedAlong, List.mem_append, Option.mem_toList] at h
    rcases h with h | h
    · exact ⟨[], e, run, rfl, h⟩
    · obtain ⟨pre, e', post, rfl, hsubmitted⟩ := ih h
      exact ⟨e :: pre, e', post, rfl, hsubmitted⟩

/-- A line is about the first event of its key. -/
theorem PrintedFrom.mem {lines : List String} {events : List DropEvent}
    (h : PrintedFrom lines events) {line : String} (hline : line ∈ lines) :
    ∃ ifaceName count, ∃ event ∈ events, line = blockLine ifaceName ⟨count, event⟩ := by
  obtain ⟨window, ifaceName, ⟨entries, hentries, rfl⟩, rfl⟩ := h
  rw [List.map_map, List.mem_map] at hline
  obtain ⟨entry, hentry, rfl⟩ := hline
  exact ⟨ifaceName, _, entry.first, List.mem_of_find?_eq_some (hentries.first entry hentry), rfl⟩

theorem exists_mem_of_forall₂ {α β : Type} {R : α → β → Prop} {as : List α} {bs : List β}
    (h : List.Forall₂ R as bs) {a : α} (ha : a ∈ as) : ∃ b ∈ bs, R a b := by
  induction h with
  | nil => cases ha
  | cons hab _ ih =>
    rcases List.mem_cons.mp ha with rfl | ha
    · exact ⟨_, List.mem_cons_self, hab⟩
    · obtain ⟨b, hb, hr⟩ := ih ha
      exact ⟨b, List.mem_cons_of_mem _ hb, hr⟩

/-- A printed line is about a drop event that was submitted. -/
theorem submitted_of_line {world : World} {run : List LogEvent} {lines : List String}
    (hlines : lines ∈ (after (LogWorld.step toml) (LogWorld.start world) run).journal)
    {line : String} (hline : line ∈ lines) :
    ∃ ifaceName count, ∃ event ∈ submittedAlong toml (LogWorld.start world) run,
      line = blockLine ifaceName ⟨count, event⟩ := by
  obtain ⟨pipe, hfollows, -, hevents⟩ := (LogWorld.follows_start world).after toml
    (fun window hwindow => absurd hwindow List.not_mem_nil) run
  obtain ⟨window, hwindow, hprinted⟩ := exists_mem_of_forall₂ hfollows.closed hlines
  obtain ⟨ifaceName, count, event, hevent, rfl⟩ := hprinted.mem hline
  refine ⟨ifaceName, count, event, ?_, rfl⟩
  have hmem : event ∈ pipe.events := by
    rw [Pipe.events, List.append_assoc]
    exact List.mem_append_left _ (List.mem_flatten.mpr ⟨window, hwindow, hevent⟩)
  rw [hevents] at hmem
  exact hmem

/-- The requests among the events settle. -/
def LogWorld.Settles (net : Nat → SysNet) (w : LogWorld) : LogEvent → Prop
  | .data e _ => w.world.Settles toml net e
  | _ => True

theorem LogWorld.settles_data {net : Nat → SysNet} (call : LogCall) (run : List Event)
    (w : LogWorld) (h : Along (World.step toml) (World.Settles toml net) w.world run) :
    Along (LogWorld.step toml) (LogWorld.Settles toml net) w (run.map fun e => .data e call) := by
  induction run generalizing w with
  | nil => trivial
  | cons e run ih => exact ⟨h.1, ih (w.step toml (.data e call)) h.2⟩

theorem LogWorld.settled_step {net : Nat → SysNet} {w : LogWorld} (h : w.world.Settled net)
    {e : LogEvent} (he : w.Settles toml net e) : (w.step toml e).world.Settled net := by
  cases e with
  | data e call => exact World.Settled.step toml h he
  | readable => exact h
  | next =>
    rw [LogWorld.step]
    split
    · split
      · exact h
      · dsimp only
        split <;> exact h
    · exact h
  | tick order ifaceName =>
    rw [LogWorld.step]
    split_ifs <;> exact h

/-- The line is about a packet that some step of the run has dropped.  If no updates were
on their way, the line names what denies the packet in the list that the daemon had. -/
def LogWorld.Traces (net : Nat → SysNet) (start : LogWorld) (run : List LogEvent)
    (line : String) : Prop :=
  ∃ pre e call post direction ifindex packet p ruleId ifaceName count,
    run = pre ++ .data e call :: post ∧
    line = blockLine ifaceName ⟨count, dropEvent call.now ifindex p ruleId⟩ ∧
    let w := (after (LogWorld.step toml) start pre).world
    w.path.DropsAt e direction ifindex packet ∧
    parsePacket packet (w.path.l2OffFor ifindex) = .ok (some p) ∧
    (w.pending = [] →
      w.daemon.onDisk.Blames net direction ifindex p (ruleLabel (UInt32.ofNat ruleId)))

/-- **Every line of the block log is about a dropped packet, and names what dropped it.**
In a run from startup in which no request fails halfway, a line has the fields of a packet
that some step dropped.  If that packet met no updates on their way, the line names the
first rule of the daemon's list that hits it, by its number for `list` and `delete`, or the
default if none of those within `rulesMax` does. -/
theorem line_provenance {env : Env} {unreadable : Bool} {attached : List String} {dir : RulesDir}
    {ifaceL2 : UInt32 → Option UInt8}
    (hok : (runDaemon toml env unreadable attached dir).1 = .ok ()) {run : List LogEvent}
    (hsettles : Along (LogWorld.step toml) (LogWorld.Settles toml env.net)
      (LogWorld.start (World.start toml env unreadable attached dir ifaceL2)) run) :
    let start := LogWorld.start (World.start toml env unreadable attached dir ifaceL2)
    ∀ lines ∈ (after (LogWorld.step toml) start run).journal, ∀ line ∈ lines,
      LogWorld.Traces toml env.net start run line := by
  intro start lines hlines line hline
  obtain ⟨ifaceName, count, event, hevent, rfl⟩ := submitted_of_line toml hlines hline
  obtain ⟨pre, e, post, rfl, hsubmitted⟩ := mem_submittedAlong toml hevent
  have hpre := (along_append.mp hsettles).1
  have hsettled := hpre.invariant (I := fun w : LogWorld => w.world.Settled env.net)
    (fun w e h he => LogWorld.settled_step toml h he) (settled_start toml hok ifaceL2)
  cases e with
  | readable | next | tick => cases hsubmitted
  | data e call =>
    rw [LogWorld.submitted] at hsubmitted
    split at hsubmitted
    · rename_i ifindex p ruleId hdropped
      split_ifs at hsubmitted
      cases hsubmitted
      obtain ⟨direction, packet, hdrops, hrule⟩ := Event.dropped_cases hdropped
      refine ⟨pre, e, call, post, direction, ifindex, packet, p, ruleId, ifaceName, count, rfl, rfl,
        hdrops, hrule.parsed, fun hidle => ?_⟩
      obtain ⟨bank, rules, hcompile, hpublishes⟩ := hsettled.inForce hidle
      rw [← hrule.number]
      exact hpublishes.blames hcompile hrule.denied
    · cases hsubmitted

/-- The processor and the clock of a report; the ring buffer has room. -/
def callAt (now : UInt64) : LogCall := ⟨0, now, true⟩

/-- Logging is turned on and outbound traffic to port 22 denied; the first packet of a
connection is dropped, drained and written to the journal. -/
def loggedDrop : List LogEvent :=
  let events : List Event := List.replicate 3 .update ++ served (.setLogging true) 3 ++
    served (.addRule denySshOut) 4 ++ [.egress 200 2 syn.bytes true]
  events.map (fun e => .data e (callAt 5000000000)) ++
    [.readable, .next, .next, .tick [] fun _ => none]

theorem loggedDrop_journal :
    (after (LogWorld.step (sampleToml sampleLists)) (LogWorld.start (World.start
      (sampleToml sampleLists) { net := noNet } false [] noFile fun _ => none))
        loggedDrop).journal =
      [["BLOCK src=10.0.0.2 dst=10.0.0.1:22/tcp on if2 (rule #1, 1 hit in 1s)"]] := by
  decide +kernel

theorem loggedDrop_traces :
    LogWorld.Traces (sampleToml sampleLists) noNet (LogWorld.start (World.start
        (sampleToml sampleLists) { net := noNet } false [] noFile fun _ => none)) loggedDrop
      "BLOCK src=10.0.0.2 dst=10.0.0.1:22/tcp on if2 (rule #1, 1 hit in 1s)" := by
  have hrun : Along (LogWorld.step (sampleToml sampleLists))
      (LogWorld.Settles (sampleToml sampleLists) noNet) (LogWorld.start (World.start
        (sampleToml sampleLists) { net := noNet } false [] noFile fun _ => none)) loggedDrop := by
    refine along_append.mpr ⟨?_, trivial, trivial, trivial, trivial, trivial⟩
    apply LogWorld.settles_data
    refine along_append.mpr ⟨along_append.mpr ⟨along_append.mpr ⟨?_, ?_⟩, ?_⟩, trivial, trivial⟩
    · exact settles_updates _ noNet _ 3
    all_goals exact settles_served _ rfl _
  refine line_provenance (sampleToml sampleLists) rfl hrun _ ?_ _ (List.mem_singleton_self _)
  rw [loggedDrop_journal]
  exact List.mem_singleton_self _

end Moatd
