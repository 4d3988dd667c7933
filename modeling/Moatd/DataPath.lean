import Moatd.Packet
import Moatd.SyncOutcome

/-!
# The data path

`try_ingress` and `try_egress`, and the system they run in.  A packet is handled in
one step; what it meets is an argument: the time `bpf_ktime_get_coarse_ns` gives and
whether the table takes an insert.  `CONNTRACK` is an LRU table, so the kernel may
evict any entry at any moment.  The map updates of a request land one by one, and
packets may come in between.  What is reported about drops is added in `DropEvents`.
-/

namespace Moatd

/-- The BPF maps. -/
structure DataPath where
  maps : Maps
  ifaceL2 : UInt32 → Option UInt8
  conntrack : ConnKey → Option ConnVal

/-- What `try_ingress` says of a packet. -/
inductive XdpAction
  | pass
  | drop
  deriving DecidableEq, Repr

/-- What `try_egress` says of a packet. -/
inductive TcAction
  | pipe
  | shot
  deriving DecidableEq, Repr

/-! ### Reading the maps -/

/-- `l2_off_for`: how long the link-layer header is on this interface. -/
def DataPath.l2OffFor (s : DataPath) (ifindex : UInt32) : Nat :=
  match s.ifaceL2 ifindex with
  | some v => v.toNat
  | none => ethHdrLen

/-- `conntrack_enabled`: the flag of `CONFIG`. -/
def Maps.conntrackEnabled (maps : Maps) : Bool := decide (maps.config.conntrackEnabled ≠ 0)

/-- `forward_key` of `try_egress`: the flow of the packet. -/
def forwardKey (p : Parsed) : ConnKey where
  proto := p.protoByte
  family := p.family
  srcAddr := p.srcAddr
  dstAddr := p.dstAddr
  srcPort := p.srcPort
  dstPort := p.dstPort

/-- `reverse_key` of `try_ingress`: the flow the packet would be a reply of. -/
def reverseKey (p : Parsed) : ConnKey where
  proto := p.protoByte
  family := p.family
  srcAddr := p.dstAddr
  dstAddr := p.srcAddr
  srcPort := p.dstPort
  dstPort := p.srcPort

/-- `CONNTRACK.insert` with this time; a full or contended table may refuse. -/
def DataPath.insert (s : DataPath) (insertOk : Bool) (key : ConnKey) (now : Nat) : DataPath :=
  if insertOk then
    { s with conntrack := fun k => if k = key then some ⟨now⟩ else s.conntrack k }
  else s

@[simp] theorem DataPath.insert_maps (s : DataPath) (insertOk : Bool) (key : ConnKey) (now : Nat) :
    (s.insert insertOk key now).maps = s.maps := by
  cases insertOk <;> rfl

theorem DataPath.insert_self (s : DataPath) (key : ConnKey) (now : Nat) :
    (s.insert true key now).conntrack key = some ⟨now⟩ := by
  simp [DataPath.insert]

/-- An insert stamps its own entry, if it does anything. -/
theorem DataPath.insert_cases (s : DataPath) (insertOk : Bool) (key k : ConnKey) (now : Nat) :
    (s.insert insertOk key now).conntrack k = s.conntrack k ∨
      (key = k ∧ (s.insert insertOk key now).conntrack k = some ⟨now⟩) := by
  cases insertOk with
  | false => exact Or.inl rfl
  | true =>
    by_cases hkey : k = key
    · exact Or.inr ⟨hkey.symm, hkey ▸ s.insert_self key now⟩
    · exact Or.inl (if_neg hkey)

/-! ### Ingress -/

/-- The conntrack branch of `try_ingress`. -/
def DataPath.admitsReply (s : DataPath) (now : Nat) (parsed : Parsed) : Bool :=
  s.maps.conntrackEnabled &&
    match s.conntrack (reverseKey parsed) with
    | some v => decide (now - v.lastSeenNs < conntrackTtlNs)
    | none => false

/-- `try_ingress`.  It writes nothing: only egress keeps an entry alive. -/
def tryIngress (s : DataPath) (now : Nat) (ifindex : UInt32) (packet : List UInt8) :
    Except Unit XdpAction :=
  match parsePacket packet (s.l2OffFor ifindex) with
  | .error () => .error ()
  | .ok none => .ok .pass
  | .ok (some parsed) =>
    if isNdp parsed then .ok .pass
    else if s.admitsReply now parsed then .ok .pass
    else if (walkRules s.maps dirIn ifindex parsed).1 = actAllow then .ok .pass
    else .ok .drop

/-! ### Egress -/

/-- The end of `try_egress`: a flow that is not established goes by the rules. -/
def DataPath.admitFlow (s : DataPath) (now : Nat) (ifindex : UInt32) (parsed : Parsed)
    (insertOk : Bool) : TcAction × DataPath :=
  if (walkRules s.maps dirOut ifindex parsed).1 = actAllow then
    (.pipe, s.insert insertOk (forwardKey parsed) now)
  else (.shot, s)

/-- `try_egress` with conntrack enabled.  An established flow is refreshed at most
every `conntrackRefreshNs`. -/
def DataPath.trackFlow (s : DataPath) (now : Nat) (ifindex : UInt32) (parsed : Parsed)
    (insertOk : Bool) : TcAction × DataPath :=
  match s.conntrack (forwardKey parsed) with
  | some v =>
    let age := now - v.lastSeenNs
    if age < conntrackTtlNs then
      if conntrackRefreshNs ≤ age then (.pipe, s.insert insertOk (forwardKey parsed) now)
      else (.pipe, s)
    else s.admitFlow now ifindex parsed insertOk
  | none => s.admitFlow now ifindex parsed insertOk

/-- `try_egress`, with the table it leaves. -/
def tryEgress (s : DataPath) (now : Nat) (ifindex : UInt32) (packet : List UInt8)
    (insertOk : Bool) : Except Unit TcAction × DataPath :=
  match parsePacket packet (s.l2OffFor ifindex) with
  | .error () => (.error (), s)
  | .ok none => (.ok .pipe, s)
  | .ok (some parsed) =>
    if isNdp parsed then (.ok .pipe, s)
    else if s.maps.conntrackEnabled = false then
      -- stateless: nothing is recorded
      if (walkRules s.maps dirOut ifindex parsed).1 = actAllow then (.ok .pipe, s)
      else (.ok .shot, s)
    else
      let (action, s') := s.trackFlow now ifindex parsed insertOk
      (.ok action, s')

/-- The flow of the packet is established: egress lets it out without a rule walk. -/
def DataPath.established (s : DataPath) (now : Nat) (parsed : Parsed) : Bool :=
  s.maps.conntrackEnabled &&
    match s.conntrack (forwardKey parsed) with
    | some v => decide (now - v.lastSeenNs < conntrackTtlNs)
    | none => false

/-- The packet has a key that `CONNTRACK` is looked up with. -/
structure DataPath.Tracks (s : DataPath) (ifindex : UInt32) (packet : List UInt8) (p : Parsed) :
    Prop where
  parsed : parsePacket packet (s.l2OffFor ifindex) = .ok (some p)
  notNdp : isNdp p = false
  enabled : s.maps.conntrackEnabled = true

/-- Everything `try_egress` can do. -/
inductive Egress (s : DataPath) (now : Nat) (ifindex : UInt32) (packet : List UInt8)
    (insertOk : Bool) : Except Unit TcAction × DataPath → Prop
  | untracked (result : Except Unit TcAction) (h : ∀ p, ¬ s.Tracks ifindex packet p) :
    Egress s now ifindex packet insertOk (result, s)
  /-- Established, and refreshed not long ago. -/
  | current (p : Parsed) (v : ConnVal) (h : s.Tracks ifindex packet p)
      (hentry : s.conntrack (forwardKey p) = some v)
      (hage : now < v.lastSeenNs + conntrackRefreshNs) :
    Egress s now ifindex packet insertOk (.ok .pipe, s)
  | refreshed (p : Parsed) (v : ConnVal) (h : s.Tracks ifindex packet p)
      (hentry : s.conntrack (forwardKey p) = some v)
      (hlive : now < v.lastSeenNs + conntrackTtlNs) :
    Egress s now ifindex packet insertOk (.ok .pipe, s.insert insertOk (forwardKey p) now)
  | allowed (p : Parsed) (h : s.Tracks ifindex packet p)
      (hwalk : (walkRules s.maps dirOut ifindex p).1 = actAllow) :
    Egress s now ifindex packet insertOk (.ok .pipe, s.insert insertOk (forwardKey p) now)
  | denied (p : Parsed) (h : s.Tracks ifindex packet p)
      (hwalk : (walkRules s.maps dirOut ifindex p).1 ≠ actAllow) :
    Egress s now ifindex packet insertOk (.ok .shot, s)

section Cases
variable (s : DataPath) (now : Nat) (ifindex : UInt32) (packet : List UInt8) (insertOk : Bool)

theorem DataPath.admitFlow_cases {p : Parsed} (h : s.Tracks ifindex packet p) :
    Egress s now ifindex packet insertOk
      (.ok (s.admitFlow now ifindex p insertOk).1, (s.admitFlow now ifindex p insertOk).2) := by
  unfold DataPath.admitFlow
  split
  · rename_i hwalk
    exact .allowed p h hwalk
  · rename_i hwalk
    exact .denied p h hwalk

theorem DataPath.trackFlow_cases {p : Parsed} (h : s.Tracks ifindex packet p) :
    Egress s now ifindex packet insertOk
      (.ok (s.trackFlow now ifindex p insertOk).1, (s.trackFlow now ifindex p insertOk).2) := by
  have hadmit := s.admitFlow_cases now ifindex packet insertOk h
  unfold DataPath.trackFlow
  split
  · rename_i v hentry
    dsimp only
    split
    · rename_i hlive
      split
      · exact .refreshed p v h hentry (by unfold conntrackTtlNs at *; omega)
      · exact .current p v h hentry (by omega)
    · exact hadmit
  · exact hadmit

theorem tryEgress_cases :
    Egress s now ifindex packet insertOk (tryEgress s now ifindex packet insertOk) := by
  unfold tryEgress
  split
  · rename_i hparse
    exact .untracked _ fun p h => by cases hparse.symm.trans h.parsed
  · rename_i hparse
    exact .untracked _ fun p h => by cases hparse.symm.trans h.parsed
  · rename_i parsed hparse
    split
    · rename_i hndp
      refine .untracked _ fun p h => ?_
      cases hparse.symm.trans h.parsed
      cases hndp.symm.trans h.notNdp
    · rename_i hndp
      split
      · rename_i hoff
        have hnot : ∀ p, ¬ s.Tracks ifindex packet p := fun p h => by
          cases hoff.symm.trans h.enabled
        split <;> exact .untracked _ hnot
      · rename_i hon
        exact s.trackFlow_cases now ifindex packet insertOk
          ⟨hparse, Bool.eq_false_iff.mpr hndp, Bool.not_eq_false _ ▸ hon⟩

/-- **The verdict of `try_egress`.**  A parsed packet gets out if it is neighbour
discovery, if its flow is established, or by the rules. -/
theorem tryEgress_fst :
    (tryEgress s now ifindex packet insertOk).1 =
      match parsePacket packet (s.l2OffFor ifindex) with
      | .error () => .error ()
      | .ok none => .ok .pipe
      | .ok (some p) =>
        if isNdp p = true ∨ s.established now p = true ∨
          (walkRules s.maps dirOut ifindex p).1 = actAllow then .ok .pipe
        else .ok .shot := by
  unfold tryEgress
  split
  · rfl
  · rfl
  · rename_i p hparse
    by_cases hndp : isNdp p = true
    · simp [hndp]
    · cases hon : s.maps.conntrackEnabled with
      | false => by_cases hwalk : (walkRules s.maps dirOut ifindex p).1 = actAllow <;>
          simp [hndp, hon, hwalk, DataPath.established]
      | true =>
        cases hentry : s.conntrack (forwardKey p) with
        | none => by_cases hwalk : (walkRules s.maps dirOut ifindex p).1 = actAllow <;>
            simp [hndp, hon, hwalk, hentry, DataPath.established, DataPath.trackFlow,
              DataPath.admitFlow]
        | some v =>
          by_cases hlive : now - v.lastSeenNs < conntrackTtlNs
          · by_cases hage : conntrackRefreshNs ≤ now - v.lastSeenNs <;>
              simp [hndp, hon, hentry, hlive, hage, DataPath.established, DataPath.trackFlow]
          · by_cases hwalk : (walkRules s.maps dirOut ifindex p).1 = actAllow <;>
              simp [hndp, hon, hwalk, hentry, hlive, DataPath.established, DataPath.trackFlow,
                DataPath.admitFlow]

end Cases

/-! ### The programs -/

/-- What an XDP program tells the kernel, which drops the packet on all but `pass`. -/
inductive XdpVerdict
  | aborted
  | drop
  | pass
  deriving DecidableEq, Repr

/-- What the program returns to the kernel. -/
def XdpAction.verdict : XdpAction → XdpVerdict
  | .pass => .pass
  | .drop => .drop

/-- `moat_ingress`. -/
def moatIngress (s : DataPath) (now : Nat) (ifindex : UInt32) (packet : List UInt8) :
    XdpVerdict :=
  match tryIngress s now ifindex packet with
  | .ok a => a.verdict
  | .error () => .aborted

/-- `moat_egress`, with the maps it leaves. -/
def moatEgress (s : DataPath) (now : Nat) (ifindex : UInt32) (packet : List UInt8)
    (insertOk : Bool) : TcAction × DataPath :=
  match tryEgress s now ifindex packet insertOk with
  | (.ok a, s') => (a, s')
  | (.error (), s') => (.shot, s')

/-- A packet that cannot be parsed is dropped in both directions, and no map is touched. -/
theorem programs_of_error {s : DataPath} {ifindex : UInt32} {packet : List UInt8}
    (h : parsePacket packet (s.l2OffFor ifindex) = .error ()) (now : Nat) (insertOk : Bool) :
    moatIngress s now ifindex packet = .aborted ∧
      moatEgress s now ifindex packet insertOk = (.shot, s) := by
  constructor
  · simp [moatIngress, tryIngress, h]
  · simp [moatEgress, tryEgress, h]

/-! ### The system -/

/-- The daemon and the data path, with the updates that have not landed yet. -/
structure World where
  daemon : DaemonState
  pending : List MapWrite
  path : DataPath

/-- What happens in the system, one at a time. -/
inductive Event
  | ingress (now : Nat) (ifindex : UInt32) (packet : List UInt8)
  | egress (now : Nat) (ifindex : UInt32) (packet : List UInt8) (insertOk : Bool)
  /-- The daemon serves a request; its map updates are on their way. -/
  | request (req : Request) (env : Env)
  /-- The next of them lands. -/
  | update
  | evict (key : ConnKey)
  /-- The loader attaches to an interface with this L2 header length. -/
  | attach (ifindex : UInt32) (l2Len : UInt8)

/-- When the event reads the clock. -/
def Event.now : Event → Option Nat
  | .ingress now .. | .egress now .. => some now
  | _ => none

/-- The event is a packet that comes in. -/
def Event.isIngress : Event → Bool
  | .ingress .. => true
  | _ => false

/-- One event. -/
def World.step (toml : Toml) (w : World) : Event → World
  | .ingress .. => w
  | .egress now ifindex packet insertOk =>
    { w with path := (tryEgress w.path now ifindex packet insertOk).2 }
  | .request req env =>
    let daemon := serve toml w.daemon (req, env)
    { w with daemon, pending := w.pending ++ daemon.writes }
  | .update =>
    match w.pending with
    | [] => w
    | update :: rest =>
      { w with path := { w.path with maps := w.path.maps.write update }, pending := rest }
  | .evict key =>
    { w with path := { w.path with
        conntrack := fun k => if k = key then none else w.path.conntrack k } }
  | .attach ifindex l2Len =>
    { w with path := { w.path with
        ifaceL2 := fun i => if i = ifindex then some l2Len else w.path.ifaceL2 i } }

/-- Once the updates on their way have landed, the data path has the daemon's maps. -/
def World.Coherent (w : World) : Prop := w.pending.foldl Maps.write w.path.maps = w.daemon.maps

/-- Packets do not write the maps the daemon writes. -/
theorem tryEgress_maps (s : DataPath) (now : Nat) (ifindex : UInt32) (packet : List UInt8)
    (insertOk : Bool) : (tryEgress s now ifindex packet insertOk).2.maps = s.maps := by
  have hcase := tryEgress_cases s now ifindex packet insertOk
  generalize tryEgress s now ifindex packet insertOk = out at hcase
  cases hcase with
  | untracked | current | denied => rfl
  | refreshed | allowed => exact s.insert_maps ..

theorem World.coherent_step (toml : Toml) {w : World} (h : w.Coherent) (e : Event) :
    (w.step toml e).Coherent := by
  unfold World.Coherent at h ⊢
  cases e with
  | ingress | evict | attach => exact h
  | egress now ifindex packet insertOk =>
    rw [World.step, tryEgress_maps]
    exact h
  | request req env =>
    rw [World.step, List.foldl_append, h]
    exact (serve_maps toml w.daemon (req, env)).symm
  | update =>
    rw [World.step]
    split
    · exact h
    · rename_i update rest hpending
      rw [hpending] at h
      exact h

end Moatd
