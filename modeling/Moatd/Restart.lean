import Moatd.PacketFates
import Moatd.WholeFile

/-!
# Starting again

A request that was answered `Ok` left its list in the file and in the maps.  The daemon that
starts from that file, with the same interfaces, publishes the same list, in whichever bank:
what is lost is the recorded flows.
-/

namespace Moatd

variable {toml : Toml}

/-- Two publications of one list give every packet the same verdict, whatever the banks. -/
theorem Maps.Publishes.walkRules_congr {m m' : Maps} {d : OnDisk} {bank bank' : Bank}
    {rules : List Rule} (h : m.Publishes d bank rules) (h' : m'.Publishes d bank' rules)
    {net : Nat → SysNet} (hcompile : compileRules net 0 d.rules = .ok rules)
    (direction : Direction) (ifindex : UInt32) (p : Parsed) :
    Moatd.walkRules m (directionByte direction) ifindex p =
      Moatd.walkRules m' (directionByte direction) ifindex p := by
  rw [h.walkRules hcompile, h'.walkRules hcompile, h.defaults.policySlot, h'.defaults.policySlot]

/-- What the two let through differs by the flows that one of them has recorded. -/
theorem DataPath.letsThrough_iff_or_knowsFlow {s t : DataPath} (hl2 : s.ifaceL2 = t.ifaceL2)
    (hempty : t.conntrack = fun _ => none) {direction : Direction} {ifindex : UInt32}
    (hwalk : ∀ p, Moatd.walkRules s.maps (directionByte direction) ifindex p =
      Moatd.walkRules t.maps (directionByte direction) ifindex p)
    (now : Nat) (insertOk : Bool) (packet : List UInt8) :
    s.LetsThrough direction now insertOk ifindex packet ↔
      t.LetsThrough direction now insertOk ifindex packet ∨
        ∃ p, parsePacket packet (s.l2OffFor ifindex) = .ok (some p) ∧
          s.knowsFlow direction now p = true := by
  have hoff : t.l2OffFor ifindex = s.l2OffFor ifindex := by
    rw [DataPath.l2OffFor, DataPath.l2OffFor, hl2]
  cases hparse : parsePacket packet (s.l2OffFor ifindex) with
  | error e =>
    refine iff_of_false (not_letsThrough_of_error hparse) ?_
    rintro (h | ⟨p, hp, -⟩)
    · exact not_letsThrough_of_error (hoff ▸ hparse) h
    · cases hp
  | ok parsed =>
    cases parsed with
    | none =>
      exact iff_of_true (letsThrough_of_none hparse) (Or.inl (letsThrough_of_none (hoff ▸ hparse)))
    | some p =>
      rw [letsThrough_iff hparse, letsThrough_iff (hoff ▸ hparse), knowsFlow_of_empty hempty, hwalk]
      constructor
      · rintro (h | h | h)
        · exact Or.inl (Or.inl h)
        · exact Or.inr ⟨p, rfl, h⟩
        · exact Or.inl (Or.inr (Or.inr h))
      · rintro ((h | h | h) | ⟨p', hp, h⟩)
        · exact Or.inl h
        · cases h
        · exact Or.inr (Or.inr h)
        · cases hp
          exact Or.inr (Or.inl h)

/-- **A restart forgets the recorded flows and nothing else.**  Behind a request that was
answered `Ok` the daemon can be started again; it then has the list it had, the maps differ
in no flag but the bank, and every packet fares as before unless its flow was recorded. -/
theorem restart_forgets_flows (hrt : toml.RoundTrips) (env : Env) (s : DaemonState)
    (req : Request) (hok : (dispatch toml env s req).1 = .ok) (attached : List String)
    (ifaceL2 : UInt32 → Option UInt8) (conntrack : ConnKey → Option ConnVal) :
    let before := (dispatch toml env s req).2
    let start := runDaemon toml { net := env.net } false attached before.dir
    let running : DataPath := ⟨before.maps, ifaceL2, conntrack⟩
    let restarted : DataPath := ⟨start.2.maps, ifaceL2, fun _ => none⟩
    start.1 = .ok () ∧ start.2.onDisk = before.onDisk ∧
      (∃ bank, start.2.maps.config = { before.maps.config with activeBank := bank }) ∧
      ∀ direction now insertOk ifindex packet,
        running.LetsThrough direction now insertOk ifindex packet ↔
          restarted.LetsThrough direction now insertOk ifindex packet ∨
            ∃ p, parsePacket packet (running.l2OffFor ifindex) = .ok (some p) ∧
              running.knowsFlow direction now p = true := by
  intro before start running restarted
  obtain ⟨d, text, rules, -, htext, hcompile, hstate⟩ := dispatch_ok hok
  have hbefore : before.maps.Publishes d s.activeBank.other rules := by
    show (dispatch toml env s req).2.maps.Publishes d _ rules
    rw [hstate]
    exact publishes_sync _ _ _ _
  have hlist : before.onDisk = d := by
    show (dispatch toml env s req).2.onDisk = d
    rw [hstate]
  have hload : load toml false before.dir = .ok d := by
    show load toml false (dispatch toml env s req).2.dir = .ok d
    rw [hstate]
    exact load_of_roundTrips toml hrt htext none
  have hstart : start = syncAll { net := env.net } (boot attached before.dir d) :=
    runDaemon_eq hload
  have hok' : start.1 = .ok () := by
    rw [hstart, syncAll_ok_iff_compiles]
    exact compiles_of_compileRules hcompile
  obtain ⟨rules', hcompile', hpublishes⟩ := runDaemon_publishes hload hok'
  obtain rfl : rules = rules' := Except.ok.inj (hcompile.symm.trans hcompile')
  refine ⟨hok', ?_, ⟨(boot attached before.dir d).activeBank.other.byte, ?_⟩, ?_⟩
  · rw [hstart, hlist]
    exact (syncAll_cases _ _).frame.1
  · rw [hpublishes.config, hbefore.config]
    rfl
  · intro direction now insertOk ifindex packet
    exact DataPath.letsThrough_iff_or_knowsFlow (s := running) (t := restarted) rfl rfl
      (hbefore.walkRules_congr hpublishes hcompile direction ifindex) now insertOk packet

/-- A rule is added, and the daemon started again. -/
theorem sshRule_restarted :
    let before := (dispatch (sampleToml sampleLists) { net := noNet } freshDaemon
      (.addRule sshRule)).2
    let start := runDaemon (sampleToml sampleLists) { net := noNet } false [] before.dir
    let running : DataPath := ⟨before.maps, fun _ => none, fun _ => some ⟨0⟩⟩
    let restarted : DataPath := ⟨start.2.maps, fun _ => none, fun _ => none⟩
    start.1 = .ok () ∧ start.2.onDisk = before.onDisk ∧
      (∃ bank, start.2.maps.config = { before.maps.config with activeBank := bank }) ∧
      ∀ direction now insertOk ifindex packet,
        running.LetsThrough direction now insertOk ifindex packet ↔
          restarted.LetsThrough direction now insertOk ifindex packet ∨
            ∃ p, parsePacket packet (running.l2OffFor ifindex) = .ok (some p) ∧
              running.knowsFlow direction now p = true :=
  have hedit : (Request.addRule sshRule).edit freshDaemon.onDisk = .ok { rules := [sshRule] } := by
    rw [freshDaemon_onDisk]
    rfl
  restart_forgets_flows sampleLists_roundTrip { net := noNet } freshDaemon (.addRule sshRule)
    (dispatch_ok_of_compiles rfl hedit (sampleToml_saves sampleLists _)
      (by simp [sshRule_compiles])) [] (fun _ => none) fun _ => some ⟨0⟩

end Moatd
