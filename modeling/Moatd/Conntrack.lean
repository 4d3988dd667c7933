import Moatd.DataPath
import Moatd.PacketParse
import Moatd.Samples
import Moatd.SoftState

/-!
# Connection tracking

A `CONNTRACK` entry is soft state of one flow: egress packets of the flow use it,
and the rules for outbound traffic admit it.  Nothing else makes or prolongs an
entry, so a packet let in as a reply answers traffic the outbound policy admitted.
-/

namespace Moatd

open Runs

/-! ### What packets do -/

/-- At this time the event sends a packet of the flow, with conntrack enabled. -/
def World.Sends (key : ConnKey) (w : World) (e : Event) (t : Nat) : Prop :=
  match e with
  | .egress now ifindex packet insertOk =>
    now = t ∧ (∃ p, w.path.Tracks ifindex packet p ∧ forwardKey p = key) ∧
      (tryEgress w.path now ifindex packet insertOk).1 = .ok .pipe
  | _ => False

/-- The event is a packet on its way out that the rules allow. -/
def World.AllowedOut (w : World) (e : Event) : Prop :=
  match e with
  | .egress _ ifindex packet _ =>
    ∃ p, parsePacket packet (w.path.l2OffFor ifindex) = .ok (some p) ∧
      (walkRules w.path.maps dirOut ifindex p).1 = actAllow
  | _ => False

/-- The packet is let in by the conntrack branch, as a reply to this flow. -/
def DataPath.PassesReply (s : DataPath) (now : Nat) (ifindex : UInt32) (packet : List UInt8)
    (key : ConnKey) : Prop :=
  ∃ p, parsePacket packet (s.l2OffFor ifindex) = .ok (some p) ∧ isNdp p = false ∧
    s.admitsReply now p = true ∧ reverseKey p = key

/-- When the flow was last seen. -/
def World.lastSeen (key : ConnKey) (w : World) : Option Nat :=
  (w.path.conntrack key).map ConnVal.lastSeenNs

theorem World.lastSeen_eq_some {key : ConnKey} {w : World} {t : Nat} :
    w.lastSeen key = some t ↔ w.path.conntrack key = some ⟨t⟩ := by
  unfold World.lastSeen
  cases w.path.conntrack key with
  | none => simp
  | some v =>
    obtain ⟨lastSeenNs⟩ := v
    simp

/-- The conntrack branch has found a live entry. -/
theorem DataPath.lastSeen_of_admitsReply {s : DataPath} {now : Nat} {p : Parsed}
    (h : s.admitsReply now p = true) :
    ∃ t, s.conntrack (reverseKey p) = some ⟨t⟩ ∧ now < t + conntrackTtlNs := by
  unfold DataPath.admitsReply at h
  cases hentry : s.conntrack (reverseKey p) with
  | none => simp [hentry] at h
  | some v =>
    simp only [hentry, Bool.and_eq_true, decide_eq_true_eq] at h
    exact ⟨v.lastSeenNs, rfl, by unfold conntrackTtlNs at *; omega⟩

theorem tryIngress_of_passesReply {s : DataPath} {now : Nat} {ifindex : UInt32}
    {packet : List UInt8} {key : ConnKey} (h : s.PassesReply now ifindex packet key) :
    tryIngress s now ifindex packet = .ok .pass := by
  obtain ⟨p, hparse, hndp, hadmits, -⟩ := h
  simp only [tryIngress, hparse, hndp, hadmits, Bool.false_eq_true, if_false, if_true]

/-! ### Where entries come from -/

variable (toml : Toml)

/-- **What one event does to a flow**: it leaves the entry alone, evicts it, or is an
egress packet that stamps it, which the rules allow or which finds the entry live. -/
theorem lastSeen_step (key : ConnKey) (w : World) (e : Event) :
    (w.step toml e).lastSeen key = w.lastSeen key ∨
      (e = .evict key ∧ (w.step toml e).lastSeen key = none) ∨
      ∃ t, World.Sends key w e t ∧ (w.step toml e).lastSeen key = some t ∧
        (World.AllowedOut w e ∨ ∃ t', w.lastSeen key = some t' ∧ t < t' + conntrackTtlNs) := by
  cases e with
  | ingress | request | attach => exact Or.inl rfl
  | update =>
    left
    rw [World.step]
    split <;> rfl
  | evict k =>
    by_cases hkey : key = k
    · right; left
      refine ⟨by rw [hkey], ?_⟩
      simp [World.lastSeen, World.step, hkey]
    · left
      simp [World.lastSeen, World.step, hkey]
  | egress now ifindex packet insertOk =>
    have hcase := tryEgress_cases w.path now ifindex packet insertOk
    have hstep : (w.step toml (.egress now ifindex packet insertOk)).path =
        (tryEgress w.path now ifindex packet insertOk).2 := rfl
    have hsends : ∀ p, w.path.Tracks ifindex packet p → forwardKey p = key →
        (tryEgress w.path now ifindex packet insertOk).1 = .ok .pipe →
        World.Sends key w (.egress now ifindex packet insertOk) now :=
      fun p h hkey hpass => ⟨rfl, ⟨p, h, hkey⟩, hpass⟩
    generalize tryEgress w.path now ifindex packet insertOk = out at hcase hstep hsends
    -- only a refresh and an admission write, both under the key of the packet
    cases hcase with
    | untracked | current | denied => exact Or.inl (by rw [World.lastSeen, hstep, World.lastSeen])
    | refreshed p v h hentry hlive =>
      rcases w.path.insert_cases insertOk (forwardKey p) key now with hkept | ⟨hkey, hnew⟩
      · exact Or.inl (by rw [World.lastSeen, hstep, hkept, World.lastSeen])
      · refine Or.inr (Or.inr ⟨now, hsends p h hkey rfl, ?_, Or.inr ⟨v.lastSeenNs, ?_, hlive⟩⟩)
        · rw [World.lastSeen_eq_some, hstep, hnew]
        · rw [World.lastSeen_eq_some, ← hkey]
          exact hentry
    | allowed p h hwalk =>
      rcases w.path.insert_cases insertOk (forwardKey p) key now with hkept | ⟨hkey, hnew⟩
      · exact Or.inl (by rw [World.lastSeen, hstep, hkept, World.lastSeen])
      · refine Or.inr (Or.inr ⟨now, hsends p h hkey rfl, ?_, Or.inl ⟨p, h.parsed, hwalk⟩⟩)
        rw [World.lastSeen_eq_some, hstep, hnew]

theorem stamps_lastSeen (key : ConnKey) :
    Stamps (World.step toml) conntrackTtlNs (World.Sends key) World.AllowedOut
      (World.lastSeen key) := by
  intro w e t ht
  rcases lastSeen_step toml key w e with hkept | ⟨-, hgone⟩ | ⟨t', hsends, hnew, horigin⟩
  · exact Or.inl (hkept ▸ ht)
  · rw [hgone] at ht
    cases ht
  · cases hnew.symm.trans ht
    exact Or.inr ⟨hsends, horigin⟩

/-- An entry bears the time of an egress packet of its flow, and that packet comes from one
the rules allowed. -/
theorem sends_of_lastSeen {w : World} (hempty : ∀ key, w.path.conntrack key = none)
    {run : List Event} {key : ConnKey} {t : Nat}
    (h : (after (World.step toml) w run).path.conntrack key = some ⟨t⟩) :
    ∃ pre e post, run = pre ++ e :: post ∧
      World.Sends key (after (World.step toml) w pre) e t ∧
      Backed (World.step toml) conntrackTtlNs (World.Sends key) World.AllowedOut w
        (pre ++ [e]) t := by
  have hnone : w.lastSeen key = none := by rw [World.lastSeen, hempty, Option.map_none]
  obtain ⟨past, post, rfl, hbacked⟩ := (stamps_lastSeen toml key).backed hnone run
    (World.lastSeen_eq_some.mpr h)
  obtain ⟨pre, e, rfl, hsends⟩ := hbacked.uses
  exact ⟨pre, e, post, List.append_assoc _ _ _, hsends, hbacked⟩

/-- **What is let in as a reply answers outbound traffic.**  From an empty table on,
and whatever the clock does, the flow was sent to less than `conntrackTtlNs` before, and
from that packet one comes back, in steps shorter than that, to one the rules allowed.
Packets that come in change nothing about it. -/
theorem passesReply_backed :
    (∀ w : World, (∀ key, w.path.conntrack key = none) →
      ∀ run now ifindex packet key,
        (after (World.step toml) w run).path.PassesReply now ifindex packet key →
        ∃ pre e post t, run = pre ++ e :: post ∧
          World.Sends key (after (World.step toml) w pre) e t ∧ now < t + conntrackTtlNs ∧
          Backed (World.step toml) conntrackTtlNs (World.Sends key) World.AllowedOut w
            (pre ++ [e]) t) ∧
      ∀ (w : World) (run : List Event), (∀ e ∈ run, e.isIngress = true) →
        (after (World.step toml) w run).path.conntrack = w.path.conntrack := by
  refine ⟨fun w hempty run now ifindex packet key hpass => ?_, fun w run hrun => ?_⟩
  · obtain ⟨p, -, -, hadmits, hkey⟩ := hpass
    obtain ⟨t, hentry, hlive⟩ := DataPath.lastSeen_of_admitsReply hadmits
    rw [hkey] at hentry
    obtain ⟨pre, e, post, hrun, hsends, hbacked⟩ := sends_of_lastSeen toml hempty hentry
    exact ⟨pre, e, post, t, hrun, hsends, hlive, hbacked⟩
  · induction run generalizing w with
    | nil => rfl
    | cons e run ih =>
      obtain ⟨hingress, hrest⟩ := List.forall_mem_cons.mp hrun
      cases e with
      | ingress => exact ih w hrest
      | _ => cases hingress

/-! ### A connection from a host with default deny -/

/-- An IPv4 header from 10.0.0.2 to 10.0.0.1. -/
def synHeader : V4Header where
  tos := 0
  totalLen := 40
  ident := 7
  flags := 2
  ttl := 64
  checksum := 0
  src := ⟨10, 0, 0, 2⟩
  dst := ⟨10, 0, 0, 1⟩
  optionWords := 0
  options := []
  hwords := by decide
  hoptions := rfl

/-- The host opens a connection to port 22. -/
def syn : PacketDesc where
  l2 := .ethernet (Vector.replicate 12 0) [] (by decide)
  network := .v4 synHeader (.initial (.tcp 40000 22))
  trailing := []

/-- The answer to `syn`. -/
def synAck : PacketDesc where
  l2 := .ethernet (Vector.replicate 12 0) [] (by decide)
  network := .v4 { synHeader with src := synHeader.dst, dst := synHeader.src }
    (.initial (.tcp 22 40000))
  trailing := []

/-- After startup without a rules file, with an empty table. -/
noncomputable def freshWorld : World where
  daemon := freshDaemon
  pending := []
  path := ⟨freshDaemon.maps, fun _ => none, fun _ => none⟩

/-- `moatd default deny incoming`, and its three map updates. -/
def denyIncoming : List Event :=
  [.request (.setDefault .inbound .deny) { net := noNet }, .update, .update, .update]

/-- The answer is let in through the conntrack branch, and does not change the table. -/
theorem synAck_passesReply :
    ∃ w, w = after (World.step (sampleToml sampleLists)) freshWorld
        (denyIncoming ++ [.egress 100 2 syn.bytes true]) ∧
      w.path.PassesReply 200 2 synAck.bytes (forwardKey syn.parsed) ∧
      (∃ pre e post t, denyIncoming ++ [.egress 100 2 syn.bytes true] = pre ++ e :: post ∧
        World.Sends (forwardKey syn.parsed)
          (after (World.step (sampleToml sampleLists)) freshWorld pre) e t ∧
        200 < t + conntrackTtlNs ∧
        Backed (World.step (sampleToml sampleLists)) conntrackTtlNs
          (World.Sends (forwardKey syn.parsed)) World.AllowedOut freshWorld (pre ++ [e]) t) ∧
      (after (World.step (sampleToml sampleLists)) w [.ingress 200 2 synAck.bytes]).path.conntrack =
        w.path.conntrack := by
  have hparse : parsePacket synAck.bytes 14 = .ok (some synAck.parsed) :=
    parsePacket_layout synAck.l2 synAck.network synAck.trailing (show (14 : Nat) ≠ 0 by decide)
  have hpass : (after (World.step (sampleToml sampleLists)) freshWorld
      (denyIncoming ++ [.egress 100 2 syn.bytes true])).path.PassesReply 200 2 synAck.bytes
      (forwardKey syn.parsed) := ⟨synAck.parsed, hparse, rfl, rfl, rfl⟩
  obtain ⟨hbacked, hingress⟩ := passesReply_backed (sampleToml sampleLists)
  exact ⟨_, rfl, hpass, hbacked freshWorld (fun _ => rfl) _ _ _ _ _ hpass,
    hingress _ _ (by simp [Event.isIngress])⟩

end Moatd
