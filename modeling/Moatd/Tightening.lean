import Moatd.Conntrack
import Moatd.ReplyLookups

/-!
# What tightening the policy can open

Adding a rule that denies or rejects, or setting a default to it, takes away from what
the rules let through.  The packets of established flows are another matter: they pass
without a rule walk, and a request that restricts inbound traffic turns connection
tracking on.  Flows recorded when it was last on are established again by that, whatever
the outbound rules have come to say about them meanwhile.
-/

namespace Moatd

open FirstMatch Runs

/-! ### Requests that tighten -/

/-- An `AddRule` that denies or rejects, or a `SetDefault` to it. -/
def Request.Tightens : Request → Prop
  | .addRule rule => rule.action ≠ .allow
  | .setDefault _ action => action ≠ .allow
  | _ => False

/-- What a request that tightens can make of a list. -/
theorem Edited.of_tightens {d d' : OnDisk} {req : Request} (h : Edited d req d')
    (htight : req.Tightens) :
    (∃ rule, rule.action ≠ .allow ∧ d.rules.length < rulesMax ∧
      d' = { d with rules := d.rules ++ [rule] }) ∨
    (d'.rules = d.rules ∧ ∀ direction,
      d'.default direction = d.default direction ∨ d'.default direction ≠ .allow) := by
  cases h with
  | added rule hlimit => exact Or.inl ⟨rule, htight, hlimit, rfl⟩
  | defaultIn action =>
    refine Or.inr ⟨rfl, fun direction => ?_⟩
    cases direction with
    | inbound => exact Or.inr htight
    | outbound => exact Or.inl rfl
  | defaultOut action =>
    refine Or.inr ⟨rfl, fun direction => ?_⟩
    cases direction with
    | inbound => exact Or.inl rfl
    | outbound => exact Or.inr htight
  | deleted | logging | reset => exact htight.elim
  | query req hmut =>
    cases req with
    | addRule | setDefault => cases hmut
    | _ => exact htight.elim

/-! ### The rules -/

/-- **Tightening takes away from what the rules allow.** -/
theorem walkRules_of_tightens {m m' : Maps} {d d' : OnDisk} {bank bank' : Bank}
    {rules rules' : List Rule} {net : Nat → SysNet} {req : Request}
    (hm : m.Publishes d bank rules) (hcompile : compileRules net 0 d.rules = .ok rules)
    (hm' : m'.Publishes d' bank' rules') (hcompile' : compileRules net 0 d'.rules = .ok rules')
    (hedit : Edited d req d') (htight : req.Tightens) (direction : Direction) (ifindex : UInt32)
    (p : Parsed) (hallow : (walkRules m' (directionByte direction) ifindex p).1 = actAllow) :
    (walkRules m (directionByte direction) ifindex p).1 = actAllow := by
  rw [hm'.walkRules hcompile', hm'.defaults.policySlot, verdict] at hallow
  rw [hm.walkRules hcompile, hm.defaults.policySlot, verdict]
  rcases hedit.of_tightens htight with ⟨rule, haction, hlimit, rfl⟩ | ⟨hrules, hdefault⟩
  · obtain ⟨rules₀, r, hcompile₀, hbuild, rfl⟩ := compileRules_append_singleton hcompile'
    cases hcompile.symm.trans hcompile₀
    have hlen := compileRules_length hcompile
    rw [List.take_of_length_le (by rw [List.length_append, List.length_singleton]; omega),
      decide_append_singleton] at hallow
    rw [List.take_of_length_le (by omega)]
    refine decide_mono_default (P := fun v : UInt8 × Nat => v.1 = actAllow) (fun hlast => ?_) hallow
    -- the new rule, where it hits, does not allow
    split at hlast
    · rw [buildWireRule_action hbuild] at hlast
      exact absurd ((actionByte_eq_allow_iff _).mp hlast) haction
    · exact hlast
  · rw [hrules] at hcompile'
    cases hcompile.symm.trans hcompile'
    refine decide_mono_default (P := fun v : UInt8 × Nat => v.1 = actAllow) (fun hlast => ?_) hallow
    rcases hdefault direction with hsame | htighter
    · rwa [hsame] at hlast
    · exact absurd ((actionByte_eq_allow_iff _).mp hlast) htighter

/-! ### Connection tracking -/

/-- A request that tightens does not turn connection tracking off. -/
theorem needsConntrack_of_tightens {d d' : OnDisk} {req : Request} (hedit : Edited d req d')
    (htight : req.Tightens) (h : needsConntrack d = true) : needsConntrack d' = true := by
  rw [needsConntrack_iff] at h ⊢
  rcases hedit.of_tightens htight with ⟨rule, -, -, rfl⟩ | ⟨hrules, hdefault⟩
  · refine h.imp_right fun ⟨user, hmem, hrestricts⟩ => ?_
    exact ⟨user, List.mem_append_left _ hmem, hrestricts⟩
  · rcases h with h | h
    · left
      rcases hdefault .inbound with hsame | htighter
      · exact fun h' => h (hsame.symm.trans h')
      · exact htighter
    · right
      rwa [hrules]

theorem Maps.Publishes.conntrackEnabled {m : Maps} {d : OnDisk} {bank : Bank} {rules : List Rule}
    (h : m.Publishes d bank rules) : m.conntrackEnabled = needsConntrack d := by
  rw [Maps.conntrackEnabled, h.config, configOf]
  cases needsConntrack d <;> rfl

/-- Without connection tracking inbound traffic is not restricted. -/
theorem walkRules_dirIn_of_off {m : Maps} {d : OnDisk} {bank : Bank} {rules : List Rule}
    {net : Nat → SysNet} (hm : m.Publishes d bank rules)
    (hcompile : compileRules net 0 d.rules = .ok rules) (hoff : m.conntrackEnabled = false)
    (ifindex : UInt32) (p : Parsed) : (walkRules m dirIn ifindex p).1 = actAllow := by
  have hopen : ¬ m.RestrictsInbound := by
    intro hrestricts
    have hon := hm.looksUpReplies hcompile hrestricts
    rw [Maps.conntrackEnabled, hon] at hoff
    cases hoff
  rw [Maps.RestrictsInbound, not_or] at hopen
  rw [walkRules_fst]
  cases hfind : m.liveRules.find? fun r => r.decides dirIn ifindex p with
  | none => exact Decidable.not_not.mp hopen.1
  | some r =>
    have hdecides := List.find?_some hfind
    simp only [Rule.decides, Bool.and_eq_true] at hdecides
    have hdirection : r.direction = dirIn := (Rule.matches_iff.mp hdecides.1).1
    by_contra haction
    refine hopen.2 ⟨r, List.mem_of_find?_eq_some hfind, ?_⟩
    simp only [Rule.restrictsInbound, hdirection, decide_true, Bool.true_and, decide_eq_true_eq]
    exact haction

/-! ### The list in force -/

variable (toml : Toml)

/-- The data path has the daemon's list, with the interfaces as `net` shows them. -/
def World.InForce (net : Nat → SysNet) (w : World) : Prop :=
  ∃ bank rules, compileRules net 0 w.daemon.onDisk.rules = .ok rules ∧
    w.path.maps.Publishes w.daemon.onDisk bank rules

/-- The same, once the updates on their way have landed. -/
structure World.Settled (net : Nat → SysNet) (w : World) : Prop where
  coherent : w.Coherent
  published : ∃ bank rules, compileRules net 0 w.daemon.onDisk.rules = .ok rules ∧
    w.daemon.maps.Publishes w.daemon.onDisk bank rules

/-- After startup: the programs are attached, and the updates of the initial sync are on
their way. -/
def World.start (env : Env) (unreadable : Bool) (attached : List String) (dir : RulesDir)
    (ifaceL2 : UInt32 → Option UInt8) : World :=
  let daemon := (runDaemon toml env unreadable attached dir).2
  { daemon, pending := daemon.writes, path := ⟨Maps.zeroed, ifaceL2, fun _ => none⟩ }

/-- A request sees the interfaces as `net` shows them, and if it fails then at the checks
before its edit. -/
def World.Settles (net : Nat → SysNet) (w : World) : Event → Prop
  | .request req env => env.net = net ∧
      ∀ e, (dispatch toml env w.daemon req).1 = .err e → req.edit w.daemon.onDisk = .error e
  | _ => True

theorem World.Settled.inForce {net : Nat → SysNet} {w : World} (h : w.Settled net)
    (hidle : w.pending = []) : w.InForce net := by
  have hmaps : w.path.maps = w.daemon.maps := by
    have hcoherent := h.coherent
    rwa [World.Coherent, hidle] at hcoherent
  rw [World.InForce, hmaps]
  exact h.published

theorem settled_start {env : Env} {unreadable : Bool} {attached : List String} {dir : RulesDir}
    (hok : (runDaemon toml env unreadable attached dir).1 = .ok ())
    (ifaceL2 : UInt32 → Option UInt8) :
    (World.start toml env unreadable attached dir ifaceL2).Settled env.net := by
  obtain ⟨rules, hcompile, hstate⟩ := (syncAll_cases env
    (boot attached dir (loadOrDefault toml unreadable dir))).of_ok hok
  rw [← runDaemon] at hstate
  simp only [World.start, hstate]
  exact ⟨rfl, _, rules, hcompile, publishes_sync _ _ _ _⟩

/-- **What a request that does not fail halfway leaves settled.** -/
theorem World.Settled.step {net : Nat → SysNet} {w : World} (h : w.Settled net) {e : Event}
    (he : w.Settles toml net e) : (w.step toml e).Settled net := by
  refine ⟨World.coherent_step toml h.coherent e, ?_⟩
  cases e with
  | ingress | egress | evict | attach => exact h.published
  | update =>
    rw [World.step]
    split <;> exact h.published
  | request req env =>
    obtain ⟨rfl, hrefused⟩ := he
    rw [World.step]
    simp only [serve]
    have hcase := dispatch_cases toml env w.daemon req
    have hanswer (hok : (dispatch toml env w.daemon req).1 = .ok) := dispatch_ok hok
    generalize dispatch toml env w.daemon req = out at hcase hrefused hanswer
    cases hcase with
    | query | refused => exact h.published
    | saveFail d e tmp _ hedit =>
      cases hedit.symm.trans (hrefused _ rfl)
    | synced d text r _ hedit _ _ hsync =>
      obtain ⟨result, t⟩ := r
      cases result with
      | error e => cases hedit.symm.trans (hrefused e rfl)
      | ok =>
        obtain ⟨d', text', rules, -, -, hcompile, hstate⟩ := hanswer rfl
        rw [hstate]
        exact ⟨_, rules, hcompile, publishes_sync _ _ _ _⟩

/-! ### A request and its updates -/

/-- The request is served, and all its updates have landed. -/
def World.Serves (w : World) (req : Request) (env : Env) (w' : World) : Prop :=
  ∃ k, w' = after (World.step toml) w (.request req env :: List.replicate k .update) ∧
    w'.pending = []

theorem after_updates (w : World) (k : Nat) :
    after (World.step toml) w (List.replicate k .update) =
      { w with
        path := { w.path with maps := (w.pending.take k).foldl Maps.write w.path.maps }
        pending := w.pending.drop k } := by
  induction k generalizing w with
  | zero => rfl
  | succ k ih =>
    rw [List.replicate_succ, after_cons, ih, World.step]
    cases hpending : w.pending with
    | nil => simp [hpending]
    | cons update rest => simp

/-- A request answered `Ok` puts its edit in force, and leaves `CONNTRACK` alone. -/
theorem World.Serves.of_ok {w w' : World} {req : Request} {env : Env}
    (h : w.Serves toml req env w') (hidle : w.pending = [])
    (hok : (dispatch toml env w.daemon req).1 = .ok) :
    ∃ d maps bank rules, req.edit w.daemon.onDisk = .ok d ∧ w'.path = { w.path with maps } ∧
      compileRules env.net 0 d.rules = .ok rules ∧ maps.Publishes d bank rules := by
  obtain ⟨k, rfl, hlanded⟩ := h
  obtain ⟨d, text, rules, hedit, -, hcompile, hstate⟩ := dispatch_ok hok
  rw [after_cons, after_updates] at hlanded ⊢
  simp only [World.step, serve, hidle, hstate, List.nil_append] at hlanded ⊢
  rw [List.drop_eq_nil_iff] at hlanded
  refine ⟨d, _, w.daemon.activeBank.other, rules, hedit, rfl, hcompile, ?_⟩
  rw [List.take_of_length_le hlanded]
  exact publishes_sync _ _ _ _

/-! ### Packets -/

/-- What egress drops and lets out once the rules let no more out than before. -/
theorem tryEgress_tightened {s : DataPath} {maps : Maps} {now : Nat} {ifindex : UInt32}
    {packet : List UInt8} {insertOk : Bool}
    (hwalk : ∀ p, (walkRules maps dirOut ifindex p).1 = actAllow →
      (walkRules s.maps dirOut ifindex p).1 = actAllow)
    (hon : s.maps.conntrackEnabled = true → maps.conntrackEnabled = true)
    (hdrop : (tryEgress s now ifindex packet insertOk).1 ≠ .ok .pipe) :
    (tryEgress { s with maps } now ifindex packet insertOk).1 ≠ .ok .pipe ↔
      ¬ (s.maps.conntrackEnabled = false ∧
        ∃ p, parsePacket packet (s.l2OffFor ifindex) = .ok (some p) ∧
          DataPath.established { s with maps } now p = true) := by
  rw [tryEgress_fst] at hdrop ⊢
  have hl2 : DataPath.l2OffFor { s with maps } ifindex = s.l2OffFor ifindex := rfl
  rw [hl2]
  cases hparse : parsePacket packet (s.l2OffFor ifindex) with
  | error e => simp
  | ok parsed =>
  cases parsed with
  | none => simp [hparse] at hdrop
  | some p =>
    simp only [hparse] at hdrop
    have hcond : ¬ (isNdp p = true ∨ s.established now p = true ∨
        (walkRules s.maps dirOut ifindex p).1 = actAllow) := by
      intro h
      rw [if_pos h] at hdrop
      exact hdrop rfl
    obtain ⟨hndp, hrest⟩ := not_or.mp hcond
    obtain ⟨hnot, hdenied⟩ := not_or.mp hrest
    -- with the lookups on before, the table has no live entry for the packet
    have hoff : DataPath.established { s with maps } now p = true →
        s.maps.conntrackEnabled = false := by
      intro h
      by_contra hson
      rw [Bool.not_eq_false] at hson
      simp only [DataPath.established, hson, hon hson, Bool.true_and] at h hnot
      exact hnot h
    have hdenied' : ¬ (walkRules maps dirOut ifindex p).1 = actAllow := fun h => hdenied (hwalk p h)
    by_cases hest : DataPath.established { s with maps } now p = true
    · simp [hest, hoff hest]
    · simp [hest, hndp, hdenied']

/-- Ingress goes on dropping. -/
theorem tryIngress_tightened {s : DataPath} {maps : Maps} {now : Nat} {ifindex : UInt32}
    {packet : List UInt8}
    (hwalk : ∀ p, (walkRules maps dirIn ifindex p).1 = actAllow →
      (walkRules s.maps dirIn ifindex p).1 = actAllow)
    (hopen : s.maps.conntrackEnabled = false →
      ∀ p, (walkRules s.maps dirIn ifindex p).1 = actAllow)
    (hon : s.maps.conntrackEnabled = true → maps.conntrackEnabled = true)
    (hdrop : tryIngress s now ifindex packet ≠ .ok .pass) :
    tryIngress { s with maps } now ifindex packet ≠ .ok .pass := by
  have hl2 : DataPath.l2OffFor { s with maps } ifindex = s.l2OffFor ifindex := rfl
  unfold tryIngress at hdrop ⊢
  rw [hl2]
  cases hparse : parsePacket packet (s.l2OffFor ifindex) with
  | error e => simp
  | ok parsed =>
  cases parsed with
  | none => simp [hparse] at hdrop
  | some p =>
    simp only [hparse] at hdrop ⊢
    by_cases hndp : isNdp p = true
    · simp [hndp] at hdrop
    · cases hson : s.maps.conntrackEnabled with
      | false => simp [hopen hson p] at hdrop
      | true =>
        have hsame : DataPath.admitsReply { s with maps } now p = s.admitsReply now p := by
          simp only [DataPath.admitsReply, hson, hon hson]
        rw [hsame]
        by_cases hadmits : s.admitsReply now p = true
        · simp [hadmits] at hdrop
        · have hdenied : ¬ (walkRules s.maps dirIn ifindex p).1 = actAllow := by
            intro h
            simp [h] at hdrop
          have hdenied' : ¬ (walkRules maps dirIn ifindex p).1 = actAllow :=
            fun h => hdenied (hwalk p h)
          simp [hndp, hadmits, hdenied']

/-! ### Tightening -/

/-- **What tightening can open.**  The data path has the daemon's list in every state that
is reached from startup by packets, evictions, attachments and requests that do not fail
halfway.  From such a state a request that tightens the policy lets in nothing that was
dropped; it lets out what was dropped exactly if it has turned connection tracking on and
the flow is established by that. -/
theorem tightening_drops :
    (∀ env unreadable attached dir ifaceL2,
      (runDaemon toml env unreadable attached dir).1 = .ok () →
      ∀ run w, Along (World.step toml) (World.Settles toml env.net)
          (World.start toml env unreadable attached dir ifaceL2) run →
        w = after (World.step toml) (World.start toml env unreadable attached dir ifaceL2) run →
        w.pending = [] → w.InForce env.net) ∧
      ∀ (w w' : World) req env, w.pending = [] → w.InForce env.net → req.Tightens →
        (dispatch toml env w.daemon req).1 = .ok → w.Serves toml req env w' →
        ∀ now ifindex packet insertOk,
          (tryIngress w.path now ifindex packet ≠ .ok .pass →
            tryIngress w'.path now ifindex packet ≠ .ok .pass) ∧
          ((tryEgress w.path now ifindex packet insertOk).1 ≠ .ok .pipe →
            ((tryEgress w'.path now ifindex packet insertOk).1 ≠ .ok .pipe ↔
              ¬ (w.path.maps.conntrackEnabled = false ∧
                ∃ p, parsePacket packet (w.path.l2OffFor ifindex) = .ok (some p) ∧
                  w'.path.established now p = true))) := by
  refine ⟨?_, ?_⟩
  · rintro env unreadable attached dir ifaceL2 hok run w hrun rfl hidle
    have hsettled := hrun.invariant (I := World.Settled env.net)
      (fun w e h he => h.step toml he) (settled_start toml hok ifaceL2)
    exact hsettled.inForce hidle
  · intro w w' req env hidle hforce htight hok hserves now ifindex packet insertOk
    obtain ⟨bank, rules, hcompile, hpublishes⟩ := hforce
    obtain ⟨d, maps, bank', rules', hedit, hpath, hcompile', hpublishes'⟩ :=
      hserves.of_ok toml hidle hok
    have hwalk := walkRules_of_tightens hpublishes hcompile hpublishes' hcompile'
      (edit_cases hedit) htight
    have hon : w.path.maps.conntrackEnabled = true → maps.conntrackEnabled = true := by
      rw [hpublishes.conntrackEnabled, hpublishes'.conntrackEnabled]
      exact needsConntrack_of_tightens (edit_cases hedit) htight
    rw [hpath]
    refine ⟨tryIngress_tightened (fun p => hwalk .inbound ifindex p) (fun hoff p => ?_) hon,
      tryEgress_tightened (fun p => hwalk .outbound ifindex p) hon⟩
    exact walkRules_dirIn_of_off hpublishes hcompile hoff ifindex p

/-- A request without faults, and as many updates. -/
def served (req : Request) (updates : Nat) : List Event :=
  .request req { net := noNet } :: List.replicate updates .update

theorem settles_updates (net : Nat → SysNet) (w : World) (n : Nat) :
    Along (World.step toml) (World.Settles toml net) w (List.replicate n .update) := by
  induction n generalizing w with
  | zero => trivial
  | succ n ih => exact ⟨trivial, ih _⟩

theorem settles_served {w : World} {req : Request}
    (hok : (dispatch toml { net := noNet } w.daemon req).1 = .ok) (updates : Nat) :
    Along (World.step toml) (World.Settles toml noNet) w (served req updates) :=
  ⟨⟨rfl, fun e he => by cases hok.symm.trans he⟩, settles_updates toml noNet _ updates⟩

/-- `moatd deny out port 22 proto tcp`. -/
def denySshOut : UserRule :=
  { direction := .outbound, action := .deny, proto := some .tcp, dstPort := some "22" }

/-- Startup without a rules file, its three updates, and `moatd default deny outgoing`. -/
def startDenyOutgoing : List Event :=
  List.replicate 3 .update ++ served (.setDefault .outbound .deny) 3

theorem startDenyOutgoing_settles :
    Along (World.step (sampleToml sampleLists)) (World.Settles (sampleToml sampleLists) noNet)
      (World.start (sampleToml sampleLists) { net := noNet } false [] noFile fun _ => none)
      startDenyOutgoing :=
  along_append.mpr ⟨settles_updates _ noNet _ 3, settles_served _ rfl 3⟩

/-- A connection that is not recorded is not let out when a rule for inbound traffic turns
connection tracking on. -/
theorem denyTelnetIn_drops :
    ∃ w w', w = after (World.step (sampleToml sampleLists)) (World.start (sampleToml sampleLists)
        { net := noNet } false [] noFile fun _ => none) startDenyOutgoing ∧
      w.Serves (sampleToml sampleLists) (.addRule denyTelnetIn) { net := noNet } w' ∧
      w'.path.maps.conntrackEnabled = true ∧
      (tryEgress w'.path 200 2 syn.bytes true).1 ≠ .ok .pipe := by
  obtain ⟨hinForce, hdrops⟩ := tightening_drops (sampleToml sampleLists)
  have hidle : (after (World.step (sampleToml sampleLists)) (World.start (sampleToml sampleLists)
      { net := noNet } false [] noFile fun _ => none) startDenyOutgoing).pending = [] := rfl
  have hforce := hinForce { net := noNet } false [] noFile (fun _ => none) rfl startDenyOutgoing _
    startDenyOutgoing_settles rfl hidle
  have hegress := (hdrops _ _ (.addRule denyTelnetIn) { net := noNet } hidle hforce
    (show Action.deny ≠ .allow by decide) rfl ⟨4, rfl, rfl⟩ 200 2 syn.bytes true).2
  refine ⟨_, _, rfl, ⟨4, rfl, rfl⟩, rfl, (hegress (fun h => by cases h)).mpr ?_⟩
  rintro ⟨-, p, hparse, hest⟩
  have hsyn : parsePacket syn.bytes 14 = .ok (some syn.parsed) :=
    parsePacket_layout syn.l2 syn.network syn.trailing (show (14 : Nat) ≠ 0 by decide)
  cases hsyn.symm.trans hparse
  cases hest

/-! ### A flow recorded earlier -/

/-- A connection to port 22 is recorded; inbound traffic is allowed again; then outbound
traffic to port 22 is denied. -/
def recordedThenDenied : List Event :=
  denyIncoming ++ .egress 100 2 syn.bytes true :: served (.setDefault .inbound .allow) 3 ++
    served (.addRule denySshOut) 4

/-- Inbound traffic is denied, and a request to allow it again is not saved. -/
def allowNotSaved : List Event :=
  denyIncoming ++ [.request (.setDefault .inbound .allow)
    { saveFault := some .rename, net := noNet }]

/-- Denying port 23 to inbound traffic lets the recorded connection out again, and puts an
edit in force whose own request had failed. -/
theorem denyTelnetIn_opens :
    (∃ w w', w = after (World.step (sampleToml sampleLists)) freshWorld recordedThenDenied ∧
      w.pending = [] ∧
      (dispatch (sampleToml sampleLists) { net := noNet } w.daemon (.addRule denyTelnetIn)).1 =
        .ok ∧
      w.Serves (sampleToml sampleLists) (.addRule denyTelnetIn) { net := noNet } w' ∧
      (tryEgress w.path 200 2 syn.bytes true).1 = .ok .shot ∧
      (tryEgress w'.path 200 2 syn.bytes true).1 = .ok .pipe) ∧
    ∃ w w', w = after (World.step (sampleToml sampleLists)) freshWorld allowNotSaved ∧
      w.pending = [] ∧
      (dispatch (sampleToml sampleLists) { net := noNet } w.daemon (.addRule denyTelnetIn)).1 =
        .ok ∧
      w.Serves (sampleToml sampleLists) (.addRule denyTelnetIn) { net := noNet } w' ∧
      tryIngress w.path 200 2 synAck.bytes = .ok .drop ∧
      tryIngress w'.path 200 2 synAck.bytes = .ok .pass := by
  exact ⟨⟨_, _, rfl, rfl, rfl, ⟨5, rfl, rfl⟩, rfl, rfl⟩,
    _, _, rfl, rfl, rfl, ⟨4, rfl, rfl⟩, rfl, rfl⟩

end Moatd
