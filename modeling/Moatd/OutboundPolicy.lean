import Moatd.Tightening

/-!
# Outbound filtering under two inbound policies

Inbound policy decides whether connections are tracked, and egress lets packets of
established flows out without a rule walk.  So two machines with the same outbound policy
may treat a packet differently; this module says exactly which packets, and how a flow
comes to be established.  The two run side by side: the same packets at the same times,
with requests of their own.
-/

namespace Moatd

open Runs

/-! ### The outbound policy -/

/-- The outbound policy the data path enforces: its rules for outbound traffic, and the
default behind them. -/
def Maps.outbound (m : Maps) : List Rule × UInt8 :=
  (m.liveRules.filter fun r => decide (r.direction = dirOut), m.defaultPolicy policyOut)

/-- What egress makes of a packet by the rules depends on the outbound policy alone. -/
theorem walkRules_dirOut_congr {m m' : Maps} (h : m.outbound = m'.outbound) (ifindex : UInt32)
    (p : Parsed) : (walkRules m dirOut ifindex p).1 = (walkRules m' dirOut ifindex p).1 := by
  have hfind : ∀ m : Maps, (m.liveRules.find? fun r => r.decides dirOut ifindex p) =
      m.outbound.1.find? fun r => r.decides dirOut ifindex p := by
    intro m
    rw [Maps.outbound, List.find?_filter]
    congr 1
    funext r
    -- a rule that decides is one for outbound traffic
    by_cases hdecides : r.decides dirOut ifindex p = true
    · have hmatch : r.matches dirOut ifindex p = true := by
        simp only [Rule.decides, Bool.and_eq_true] at hdecides
        exact hdecides.1
      simp [hdecides, (Rule.matches_iff.mp hmatch).1]
    · simp [hdecides]
  have hdefault : ∀ m : Maps, m.defaultPolicy (policySlot dirOut) = m.outbound.2 := fun _ => rfl
  rw [walkRules_fst, walkRules_fst, hfind, hfind, hdefault, hdefault, h]

/-! ### Two runs over the same packets -/

/-- The event is on the control side. -/
def Event.isControl : Event → Bool
  | .request .. | .update => true
  | _ => false

/-- The same packet or attachment in both runs, or something on the control side of each. -/
inductive Event.Alike : Event × Event → Prop
  | ingress (now : Nat) (ifindex : UInt32) (packet : List UInt8) :
    Alike (.ingress now ifindex packet, .ingress now ifindex packet)
  | egress (now : Nat) (ifindex : UInt32) (packet : List UInt8) (insertOk : Bool) :
    Alike (.egress now ifindex packet insertOk, .egress now ifindex packet insertOk)
  | attach (ifindex : UInt32) (l2Len : UInt8) :
    Alike (.attach ifindex l2Len, .attach ifindex l2Len)
  | control (e e' : Event) (he : e.isControl = true) (he' : e'.isControl = true) : Alike (e, e')

/-- Where a packet goes out, both have the same outbound policy in force. -/
def SameOutbound (w : World × World) (l : Event × Event) : Prop :=
  ∀ now ifindex packet insertOk, l.1 = .egress now ifindex packet insertOk →
    w.1.path.maps.outbound = w.2.path.maps.outbound

variable (toml : Toml)

theorem step_ifaceL2_of_isControl {w : World} {e : Event} (he : e.isControl = true) :
    (w.step toml e).path.ifaceL2 = w.path.ifaceL2 := by
  cases e with
  | request => rfl
  | update =>
    rw [World.step]
    split <;> rfl
  | _ => cases he

theorem tryEgress_ifaceL2 (s : DataPath) (now : Nat) (ifindex : UInt32) (packet : List UInt8)
    (insertOk : Bool) : (tryEgress s now ifindex packet insertOk).2.ifaceL2 = s.ifaceL2 := by
  have hinsert : ∀ key, (s.insert insertOk key now).ifaceL2 = s.ifaceL2 := by
    intro key
    cases insertOk <;> rfl
  have hcase := tryEgress_cases s now ifindex packet insertOk
  generalize tryEgress s now ifindex packet insertOk = out at hcase
  cases hcase with
  | untracked | current | denied => rfl
  | refreshed | allowed => exact hinsert _

/-- Both know the same L2 offsets. -/
theorem Event.Alike.ifaceL2 {l : Event × Event} (h : Event.Alike l) {w : World × World}
    (hw : w.1.path.ifaceL2 = w.2.path.ifaceL2) :
    (sideBySide (World.step toml) w l).1.path.ifaceL2 =
      (sideBySide (World.step toml) w l).2.path.ifaceL2 := by
  unfold sideBySide
  cases h with
  | ingress => exact hw
  | egress =>
    simp only [World.step, tryEgress_ifaceL2]
    exact hw
  | attach =>
    simp only [World.step, hw]
  | control e e' he he' =>
    simp only [step_ifaceL2_of_isControl toml he, step_ifaceL2_of_isControl toml he']
    exact hw

/-- One packet under one outbound policy: the verdicts differ exactly if the rules deny it
and its flow is established for one of the two. -/
theorem tryEgress_fst_eq_iff {s s' : DataPath} (hl2 : s.ifaceL2 = s'.ifaceL2)
    (hpolicy : s.maps.outbound = s'.maps.outbound) (now : Nat) (ifindex : UInt32)
    (packet : List UInt8) (insertOk : Bool) :
    (tryEgress s now ifindex packet insertOk).1 = (tryEgress s' now ifindex packet insertOk).1 ↔
      ∀ p, parsePacket packet (s.l2OffFor ifindex) = .ok (some p) → isNdp p = false →
        (walkRules s.maps dirOut ifindex p).1 ≠ actAllow →
        s.established now p = s'.established now p := by
  have hoff : s'.l2OffFor ifindex = s.l2OffFor ifindex := by rw [DataPath.l2OffFor,
    DataPath.l2OffFor, hl2]
  rw [tryEgress_fst, tryEgress_fst, hoff]
  cases hparse : parsePacket packet (s.l2OffFor ifindex) with
  | error e => simp
  | ok parsed =>
  cases parsed with
  | none => simp
  | some p =>
    have hwalk := walkRules_dirOut_congr hpolicy ifindex p
    by_cases hndp : isNdp p = true
    · simp [hndp]
    · by_cases hallow : (walkRules s.maps dirOut ifindex p).1 = actAllow
      · simp [hallow, ← hwalk]
      · cases hs : s.established now p <;> cases hs' : s'.established now p <;>
          simp [hndp, hallow, ← hwalk, hs, hs']

/-! ### Established flows -/

theorem DataPath.lastSeen_of_established {s : DataPath} {now : Nat} {p : Parsed}
    (h : s.established now p = true) :
    ∃ t, s.conntrack (forwardKey p) = some ⟨t⟩ ∧ now < t + conntrackTtlNs := by
  unfold DataPath.established at h
  cases hentry : s.conntrack (forwardKey p) with
  | none => simp [hentry] at h
  | some v =>
    simp only [hentry, Bool.and_eq_true, decide_eq_true_eq] at h
    exact ⟨v.lastSeenNs, rfl, by unfold conntrackTtlNs at *; omega⟩

/-- In this run a packet of the flow has got out less than `conntrackTtlNs` before `now`, and
it comes from one the outbound rules allowed, in steps shorter than that. -/
def WentOut (w : World) (run : List Event) (key : ConnKey) (now : Nat) : Prop :=
  ∃ pre e post t, run = pre ++ e :: post ∧ World.Sends key (after (World.step toml) w pre) e t ∧
    now < t + conntrackTtlNs ∧
    Backed (World.step toml) conntrackTtlNs (World.Sends key) World.AllowedOut w (pre ++ [e]) t

theorem wentOut_of_established {w : World} (hempty : ∀ key, w.path.conntrack key = none)
    {run : List Event} {now : Nat} {p : Parsed}
    (h : (after (World.step toml) w run).path.established now p = true) :
    WentOut toml w run (forwardKey p) now := by
  obtain ⟨t, hentry, hlive⟩ := DataPath.lastSeen_of_established h
  obtain ⟨pre, e, post, hrun, hsends, hbacked⟩ := sends_of_lastSeen toml hempty hentry
  exact ⟨pre, e, post, t, hrun, hsends, hlive, hbacked⟩

/-- **Outbound filtering depends on inbound policy through established flows only.**  In two
runs over the same packets that have the same outbound policy in force, a packet gets the
same verdict unless the outbound rules deny it and its flow is established in one of the
runs and not in the other; and a flow is established only where a packet of it got out
before. -/
theorem verdict_differs_iff {w₁ w₂ : World} (hempty₁ : ∀ key, w₁.path.conntrack key = none)
    (hempty₂ : ∀ key, w₂.path.conntrack key = none) (hl2 : w₁.path.ifaceL2 = w₂.path.ifaceL2)
    {run : List (Event × Event)} (halike : ∀ l ∈ run, Event.Alike l)
    (hpolicy : Along (sideBySide (World.step toml)) SameOutbound (w₁, w₂) run)
    {pre post : List (Event × Event)} {now : Nat} {ifindex : UInt32} {packet : List UInt8}
    {insertOk : Bool} (hrun : run = pre ++ (.egress now ifindex packet insertOk,
      .egress now ifindex packet insertOk) :: post) {v₁ v₂ : DataPath}
    (hv₁ : v₁ = (after (World.step toml) w₁ (pre.map Prod.fst)).path)
    (hv₂ : v₂ = (after (World.step toml) w₂ (pre.map Prod.snd)).path) :
    ((tryEgress v₁ now ifindex packet insertOk).1 ≠ (tryEgress v₂ now ifindex packet insertOk).1 ↔
      ∃ p, parsePacket packet (v₁.l2OffFor ifindex) = .ok (some p) ∧ isNdp p = false ∧
        (walkRules v₁.maps dirOut ifindex p).1 ≠ actAllow ∧
        v₁.established now p ≠ v₂.established now p) ∧
      ∀ p, (v₁.established now p = true →
          WentOut toml w₁ (pre.map Prod.fst) (forwardKey p) now) ∧
        (v₂.established now p = true →
          WentOut toml w₂ (pre.map Prod.snd) (forwardKey p) now) := by
  subst hv₁ hv₂ hrun
  refine ⟨?_, fun p => ⟨wentOut_of_established toml hempty₁, wentOut_of_established toml hempty₂⟩⟩
  have hsides : after (sideBySide (World.step toml)) (w₁, w₂) pre =
      (after (World.step toml) w₁ (pre.map Prod.fst),
        after (World.step toml) w₂ (pre.map Prod.snd)) :=
    after_sideBySide w₁ w₂ pre
  have hsame := along_iff_split.mp hpolicy pre _ post rfl now ifindex packet insertOk rfl
  have hoffsets : Along (sideBySide (World.step toml)) (fun _ l => Event.Alike l) (w₁, w₂) pre :=
    along_label.mpr fun l hl => halike l (List.mem_append_left _ hl)
  have hl2' := hoffsets.invariant (I := fun w => w.1.path.ifaceL2 = w.2.path.ifaceL2)
    (fun w l hw hl => hl.ifaceL2 toml hw) hl2
  rw [hsides] at hsame hl2'
  rw [ne_eq, tryEgress_fst_eq_iff hl2' hsame]
  push Not
  rfl

/-! ### One outbound policy, two inbound ones -/

/-- A connection to port 22 goes out, then outbound traffic to port 22 is denied, and the
connection goes on; one machine restricts inbound traffic, the other does not. -/
def twoInboundPolicies : List (Event × Event) :=
  (served (.setDefault .inbound .deny) 3).zip (served (.setDefault .inbound .allow) 3) ++
    (.egress 100 2 syn.bytes true, .egress 100 2 syn.bytes true) ::
    (served (.addRule denySshOut) 4).zip (served (.addRule denySshOut) 4)

theorem twoInboundPolicies_alike :
    ∀ l ∈ twoInboundPolicies ++ [(.egress 200 2 syn.bytes true, .egress 200 2 syn.bytes true)],
      Event.Alike l := by
  have hcontrol : ∀ req req' n, ∀ l ∈ (served req n).zip (served req' n), Event.Alike l := by
    intro req req' n l hl
    have hserved : ∀ req, ∀ e ∈ served req n, e.isControl = true := by
      intro req e he
      rcases List.mem_cons.mp he with rfl | he
      · rfl
      · rw [List.eq_of_mem_replicate he]
        rfl
    obtain ⟨he, he'⟩ := List.of_mem_zip hl
    exact .control l.1 l.2 (hserved req _ he) (hserved req' _ he')
  intro l hl
  simp only [twoInboundPolicies, List.append_assoc, List.cons_append, List.mem_append,
    List.mem_cons, List.not_mem_nil, or_false] at hl
  rcases hl with hl | rfl | hl | rfl
  · exact hcontrol _ _ _ l hl
  · exact .egress ..
  · exact hcontrol _ _ _ l hl
  · exact .egress ..

/-- Both have the same outbound policy in force at both packets. -/
theorem twoInboundPolicies_sameOutbound :
    Along (sideBySide (World.step (sampleToml sampleLists))) SameOutbound (freshWorld, freshWorld)
      (twoInboundPolicies ++
        [(.egress 200 2 syn.bytes true, .egress 200 2 syn.bytes true)]) := by
  have hquiet : ∀ {w : World × World} {l : Event × Event}, l.1.isControl = true →
      SameOutbound w l := by
    rintro w ⟨e, e'⟩ he now ifindex packet insertOk rfl
    cases he
  have hsame : ∀ {w : World × World} {l : Event × Event},
      w.1.path.maps.outbound = w.2.path.maps.outbound → SameOutbound w l :=
    fun h _ _ _ _ _ => h
  exact ⟨hquiet rfl, hquiet rfl, hquiet rfl, hquiet rfl, hsame (by decide), hquiet rfl,
    hquiet rfl, hquiet rfl, hquiet rfl, hquiet rfl, hsame (by decide), trivial⟩

theorem twoInboundPolicies_verdicts :
    (tryEgress (after (World.step (sampleToml sampleLists)) freshWorld
      (twoInboundPolicies.map Prod.fst)).path 200 2 syn.bytes true).1 = .ok .pipe ∧
    (tryEgress (after (World.step (sampleToml sampleLists)) freshWorld
      (twoInboundPolicies.map Prod.snd)).path 200 2 syn.bytes true).1 = .ok .shot := ⟨rfl, rfl⟩

/-- The packet gets out where inbound traffic is restricted, and is dropped where it is
not. -/
theorem twoInboundPolicies_differ :
    (∀ l ∈ twoInboundPolicies ++ [(.egress 200 2 syn.bytes true, .egress 200 2 syn.bytes true)],
      Event.Alike l) ∧
    Along (sideBySide (World.step (sampleToml sampleLists))) SameOutbound (freshWorld, freshWorld)
      (twoInboundPolicies ++
        [(.egress 200 2 syn.bytes true, .egress 200 2 syn.bytes true)]) ∧
    (tryEgress (after (World.step (sampleToml sampleLists)) freshWorld
      (twoInboundPolicies.map Prod.fst)).path 200 2 syn.bytes true).1 = .ok .pipe ∧
    (tryEgress (after (World.step (sampleToml sampleLists)) freshWorld
      (twoInboundPolicies.map Prod.snd)).path 200 2 syn.bytes true).1 = .ok .shot :=
  ⟨twoInboundPolicies_alike, twoInboundPolicies_sameOutbound, twoInboundPolicies_verdicts⟩

/-- It is the packet at 100 that keeps the flow going on the first machine. -/
theorem twoInboundPolicies_wentOut :
    WentOut (sampleToml sampleLists) freshWorld (twoInboundPolicies.map Prod.fst)
        (forwardKey syn.parsed) 200 ∧
      ∃ p, isNdp p = false ∧
        (after (World.step (sampleToml sampleLists)) freshWorld
          (twoInboundPolicies.map Prod.fst)).path.established 200 p ≠
        (after (World.step (sampleToml sampleLists)) freshWorld
          (twoInboundPolicies.map Prod.snd)).path.established 200 p := by
  have hempty : ∀ key, freshWorld.path.conntrack key = none := fun _ => rfl
  have hrun : twoInboundPolicies ++
      [(.egress 200 2 syn.bytes true, .egress 200 2 syn.bytes true)] =
    twoInboundPolicies ++ (.egress 200 2 syn.bytes true, .egress 200 2 syn.bytes true) :: [] := rfl
  obtain ⟨hdiffer, hwentOut⟩ := verdict_differs_iff (sampleToml sampleLists) hempty hempty rfl
    twoInboundPolicies_alike twoInboundPolicies_sameOutbound hrun rfl rfl
  rw [twoInboundPolicies_verdicts.1, twoInboundPolicies_verdicts.2] at hdiffer
  obtain ⟨p, -, hndp, -, hest⟩ := hdiffer.mp (by simp)
  exact ⟨(hwentOut syn.parsed).1 rfl, p, hndp, hest⟩

end Moatd
