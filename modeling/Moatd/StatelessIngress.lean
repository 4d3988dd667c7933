import Moatd.Tightening

/-!
# Ingress without connection tracking

`write_config` turns connection tracking off when the list has neither an inbound rule
that denies or rejects nor a default to it.  The decision is made on the user's rules; the
data path acts on the compiled ones.  It is not to be noticed on ingress: whatever the
table holds, an inbound packet has the verdict it would have with the lookup.
-/

namespace Moatd

/-! ### Maps synced from a list -/

/-- The daemon has synced its maps from the list: by `sync_all`, and perhaps by the watcher's
`sync_rules` since. -/
inductive Synced (d : OnDisk) : DaemonState → Prop
  | all {env : Env} {s t : DaemonState} (hlist : s.onDisk = d) (h : syncAll env s = (.ok (), t)) :
    Synced d t
  | rules {env : Env} {s t : DaemonState} (hs : Synced d s) (h : syncRules env s = (.ok (), t)) :
    Synced d t

/-- `sync_rules` leaves the defaults alone. -/
theorem defaultPolicy_rulesWrites (m : Maps) (d : OnDisk) (bank : Bank) (rules : List Rule) :
    ((rulesWrites d bank rules).foldl Maps.write m).defaultPolicy = m.defaultPolicy := by
  refine List.foldlRecOn _ _ (motive := fun m' : Maps => m'.defaultPolicy = m.defaultPolicy) rfl ?_
  intro m' hkept w hw
  rw [rulesWrites, List.mem_append, List.mem_singleton] at hw
  rcases hw with hw | rfl
  · obtain ⟨-, -, -, -, rfl⟩ := mem_bankWrites hw
    exact hkept
  · exact hkept

/-- **Synced maps publish the list.** -/
theorem Synced.publishes {d : OnDisk} {t : DaemonState} (h : Synced d t) :
    t.onDisk = d ∧ ∃ (net : Nat → SysNet) (bank : Bank) (rules : List Rule),
      compileRules net 0 d.rules = .ok rules ∧ t.maps.Publishes d bank rules := by
  induction h with
  | @all env s t hlist h =>
    obtain ⟨rules, hcompile, hstate⟩ := (syncAll_cases env s).of_ok (congrArg Prod.fst h)
    rw [h] at hstate
    subst hlist hstate
    exact ⟨rfl, env.net, _, rules, hcompile, publishes_sync _ _ _ _⟩
  | @rules env s t hs h ih =>
    obtain ⟨hlist, _, _, _, -, hbefore⟩ := ih
    obtain ⟨rules, hcompile, hstate⟩ := (syncRules_cases env s).of_ok (congrArg Prod.fst h)
    rw [h] at hstate
    subst hlist hstate
    refine ⟨rfl, env.net, _, rules, hcompile, publishesRules_sync _ _ _ _, ?_⟩
    have hkept := hbefore.defaults
    rw [Maps.HasDefaults, ← defaultPolicy_rulesWrites _ s.onDisk s.activeBank.other rules] at hkept
    exact hkept

/-! ### The lookup -/

/-- The same maps with connection tracking on. -/
def Maps.withConntrack (m : Maps) : Maps :=
  { m with config := { m.config with conntrackEnabled := 1 } }

/-- The rules do not look at it. -/
theorem walkRules_withConntrack (m : Maps) (direction : UInt8) (ifindex : UInt32) (p : Parsed) :
    (walkRules m.withConntrack direction ifindex p).1 = (walkRules m direction ifindex p).1 := by
  rw [walkRules_fst, walkRules_fst]
  rfl

/-- Where the rules let everything in, ingress passes every packet it can parse. -/
theorem tryIngress_of_open {s : DataPath} {ifindex : UInt32}
    (hopen : ∀ p, (walkRules s.maps dirIn ifindex p).1 = actAllow) (now : Nat)
    (packet : List UInt8) :
    tryIngress s now ifindex packet =
      (parsePacket packet (s.l2OffFor ifindex)).map fun _ => .pass := by
  rw [tryIngress]
  cases parsePacket packet (s.l2OffFor ifindex) with
  | error e => rfl
  | ok parsed =>
    cases parsed with
    | none => rfl
    | some p => simp [Except.map, hopen p]

/-- **Skipping the lookup is invisible on ingress.**  Where `write_config` turns connection
tracking off for a list, the verdict on an inbound packet is the one it would have with
connection tracking on, whatever the table holds. -/
theorem tryIngress_withConntrack {d : OnDisk} {t : DaemonState} (hsynced : Synced d t)
    (hoff : (configOf d t.activeBank).conntrackEnabled = 0) (ifaceL2 : UInt32 → Option UInt8)
    (conntrack : ConnKey → Option ConnVal) (now : Nat) (ifindex : UInt32) (packet : List UInt8) :
    tryIngress ⟨t.maps, ifaceL2, conntrack⟩ now ifindex packet =
      tryIngress ⟨t.maps.withConntrack, ifaceL2, conntrack⟩ now ifindex packet := by
  obtain ⟨-, net, bank, rules, hcompile, hpublishes⟩ := hsynced.publishes
  have hdisabled : t.maps.conntrackEnabled = false := by
    rw [hpublishes.conntrackEnabled]
    cases hneeds : needsConntrack d with
    | false => rfl
    | true =>
      simp only [configOf, hneeds, flagByte, if_true] at hoff
      exact absurd hoff (by decide)
  have hopen := walkRules_dirIn_of_off hpublishes hcompile hdisabled ifindex
  rw [tryIngress_of_open hopen, tryIngress_of_open]
  · rfl
  · intro p
    rw [walkRules_withConntrack, hopen]

/-- `moatd default deny outgoing` on an empty list, synced at startup. -/
def outgoingDenied : DaemonState :=
  (syncAll { net := noNet } (boot [] noFile { defaultOut := .deny })).2

/-- It leaves connection tracking off, and the reply to a recorded connection passes as it
would with the lookup. -/
theorem outgoingDenied_withConntrack :
    tryIngress ⟨outgoingDenied.maps, fun _ => none, fun _ => some ⟨100⟩⟩ 200 2 synAck.bytes =
      tryIngress ⟨outgoingDenied.maps.withConntrack, fun _ => none, fun _ => some ⟨100⟩⟩ 200 2
        synAck.bytes := by
  have hsync : syncAll { net := noNet } (boot [] noFile { defaultOut := .deny }) =
      (.ok (), outgoingDenied) := rfl
  exact tryIngress_withConntrack (.all rfl hsync) rfl _ _ _ _ _

end Moatd
