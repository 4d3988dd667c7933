import Moatd.Conntrack

/-!
# Replies get in

Once a packet of a flow has gone out, its replies are let in for the lifetime of an
entry less the refresh interval: refreshing is throttled, so the entry may be that
much older than the last packet that used it.  A reply is recognised by its key, the
key of the packet it answers with the ends exchanged.
-/

namespace Moatd

open Runs

/-! ### The window of an entry -/

theorem DataPath.Tracks.unique {s : DataPath} {ifindex : UInt32} {packet : List UInt8}
    {p p' : Parsed} (h : s.Tracks ifindex packet p) (h' : s.Tracks ifindex packet p') : p = p' := by
  have heq := h.parsed.symm.trans h'.parsed
  rwa [Except.ok.injEq, Option.some.injEq] at heq

variable (toml : Toml)

/-- **A packet that goes out leaves an entry** that is at most the refresh interval old. -/
theorem covers_of_sends {w : World} {t : Nat} {ifindex : UInt32} {packet : List UInt8}
    {key : ConnKey} (h : World.Sends key w (.egress t ifindex packet true) t) :
    Covers conntrackRefreshNs (World.lastSeen key) t
      (w.step toml (.egress t ifindex packet true)) := by
  obtain ⟨-, ⟨p, htracks, rfl⟩, hpass⟩ := h
  have hcase := tryEgress_cases w.path t ifindex packet true
  have hstep : (w.step toml (.egress t ifindex packet true)).path =
      (tryEgress w.path t ifindex packet true).2 := rfl
  generalize tryEgress w.path t ifindex packet true = out at hcase hstep hpass
  unfold Covers
  simp only [World.lastSeen_eq_some, hstep]
  cases hcase with
  | untracked result hnot => exact absurd htracks (hnot p)
  | current p' v h hentry hage =>
    cases htracks.unique h
    exact ⟨v.lastSeenNs, hentry, hage⟩
  | refreshed p' v h | allowed p' h =>
    cases htracks.unique h
    exact ⟨t, w.path.insert_self _ t, Nat.lt_add_of_pos_right (by decide)⟩
  | denied => cases hpass

/-- The event does not evict the flow's entry, and does not read a clock before `t`. -/
def Event.Spares (key : ConnKey) (t : Nat) (e : Event) : Prop :=
  e ≠ .evict key ∧ ∀ now, e.now = some now → t ≤ now

theorem World.Sends.now {key : ConnKey} {w : World} {e : Event} {t : Nat}
    (h : World.Sends key w e t) : e.now = some t := by
  cases e with
  | egress => exact congrArg some h.1
  | _ => cases h

/-- The entry goes on covering the packet that has left. -/
theorem covers_after {key : ConnKey} {t : Nat} {w : World} {run : List Event}
    (hrun : ∀ e ∈ run, e.Spares key t)
    (h : Covers conntrackRefreshNs (World.lastSeen key) t w) :
    Covers conntrackRefreshNs (World.lastSeen key) t (after (World.step toml) w run) := by
  have halong : Along (World.step toml) (fun _ e => e.Spares key t) w run := along_label.mpr hrun
  -- an event that stamps the entry is a packet, so it reads a clock past `t`
  refine h.after (fun w e hspares => ?_) (by decide) halong
  rcases lastSeen_step toml key w e with hkept | ⟨hevict, -⟩ | ⟨t', hsends, hnew, -⟩
  · exact Or.inl hkept
  · exact absurd hevict hspares.1
  · exact Or.inr ⟨t', hnew, hspares.2 t' hsends.now⟩

/-- A packet of a live flow, with the ends exchanged, gets in. -/
theorem tryIngress_of_live {s : DataPath} {now v : Nat} {ifindex : UInt32} {packet : List UInt8}
    {p : Parsed} (hon : s.maps.conntrackEnabled = true)
    (hparse : parsePacket packet (s.l2OffFor ifindex) = .ok (some p))
    (hentry : s.conntrack (reverseKey p) = some ⟨v⟩) (hlive : now < v + conntrackTtlNs) :
    tryIngress s now ifindex packet = .ok .pass := by
  by_cases hndp : isNdp p = true
  · simp only [tryIngress, hparse, hndp, if_true]
  · have hadmits : s.admitsReply now p = true := by
      simp only [DataPath.admitsReply, hon, hentry, Bool.true_and, decide_eq_true_eq]
      unfold conntrackTtlNs at *
      omega
    exact tryIngress_of_passesReply ⟨p, hparse, Bool.eq_false_iff.mpr hndp, hadmits, rfl⟩

/-! ### Replies on the wire -/

/-- The type of an echo reply, in ICMP and in ICMPv6. -/
def echoReply (isV6 : Bool) : UInt8 := if isV6 then 129 else 0

/-- What answers a segment, a datagram or an ICMP message: the ports exchanged, or
an echo reply with the same id. -/
inductive Upper.Answers {isV6 : Bool} : Upper isV6 → Upper isV6 → Prop
  | tcp (srcPort dstPort : UInt16) : Answers (.tcp dstPort srcPort) (.tcp srcPort dstPort)
  | udp (srcPort dstPort : UInt16) : Answers (.udp dstPort srcPort) (.udp srcPort dstPort)
  | echo (icmpType code code' : UInt8) (checksum checksum' id seq seq' : UInt16) :
    Answers (.icmp (echoReply isV6) code' checksum' id seq') (.icmp icmpType code checksum id seq)

/-- The same, with the addresses exchanged; options, extension headers and all other
fields of the headers are free. -/
inductive Network.Answers : Network → Network → Prop
  | v4 {header header' : V4Header} {upper upper' : Upper false} (hsrc : header'.src = header.dst)
      (hdst : header'.dst = header.src) (hupper : upper'.Answers upper) :
    Answers (.v4 header' (.initial upper')) (.v4 header (.initial upper))
  | v6 {header header' : V6Header} {chain chain' : ExtChain} {upper upper' : Upper true}
      (hsrc : header'.src = header.dst) (hdst : header'.dst = header.src)
      (hupper : upper'.Answers upper) :
    Answers (.v6 header' chain' upper') (.v6 header chain upper)

/-- What is read from an answer has the ends exchanged. -/
theorem Upper.Answers.fields {isV6 : Bool} {upper upper' : Upper isV6} (h : upper'.Answers upper) :
    upper'.protoByte = upper.protoByte ∧ upper'.srcPort = upper.dstPort ∧
      upper'.dstPort = upper.srcPort := by
  cases h <;> exact ⟨rfl, rfl, rfl⟩

theorem Network.Answers.reverseKey_eq {network network' : Network} (h : network'.Answers network) :
    reverseKey network'.parsed = forwardKey network.parsed := by
  cases h with
  | v4 hsrc hdst hupper | v6 hsrc hdst hupper =>
    obtain ⟨hproto, hsrcPort, hdstPort⟩ := hupper.fields
    simp only [reverseKey, forwardKey, Network.parsed, hsrc, hdst, hproto, hsrcPort, hdstPort]

/-- **Replies survive restrictive inbound policy.**  After a packet of a flow has gone
out, whatever has its key reversed gets in until the refresh interval before the end
of the entry's lifetime, and answers to a packet have its key reversed. -/
theorem reply_passes :
    (∀ (w : World) t ifindex packet key,
      World.Sends key w (.egress t ifindex packet true) t →
      ∀ run : List Event, (∀ e ∈ run, e.Spares key t) →
      ∀ w₂, w₂ = after (World.step toml) w (.egress t ifindex packet true :: run) →
      w₂.path.maps.conntrackEnabled = true →
      ∀ t₂ ifindex₂ packet₂ p,
        parsePacket packet₂ (w₂.path.l2OffFor ifindex₂) = .ok (some p) → reverseKey p = key →
        t₂ + conntrackRefreshNs ≤ t + conntrackTtlNs →
        tryIngress w₂.path t₂ ifindex₂ packet₂ = .ok .pass) ∧
      ∀ (d d' : PacketDesc) (l2Off l2Off' : Nat), d.l2.At l2Off → d'.l2.At l2Off' →
        d'.network.Answers d.network →
        ∃ p p', parsePacket d.bytes l2Off = .ok (some p) ∧
          parsePacket d'.bytes l2Off' = .ok (some p') ∧ reverseKey p' = forwardKey p := by
  refine ⟨?_, ?_⟩
  · rintro w t ifindex packet key hsends run hrun w₂ rfl hon t₂ ifindex₂ packet₂ p hparse rfl ht₂
    have hcovers := covers_after toml hrun (covers_of_sends toml hsends)
    obtain ⟨v, hentry, hlive⟩ := hcovers.live ht₂
    exact tryIngress_of_live hon hparse (World.lastSeen_eq_some.mp hentry) hlive
  · intro d d' l2Off l2Off' hl2 hl2' hanswers
    exact ⟨d.network.parsed, d'.network.parsed, parsePacket_layout d.l2 d.network d.trailing hl2,
      parsePacket_layout d'.l2 d'.network d'.trailing hl2', hanswers.reverseKey_eq⟩

/-- The answer gets in although the rules deny it, also after a request has come in
between and another packet has gone out. -/
theorem synAck_passes :
    ∃ w w₂, w = after (World.step (sampleToml sampleLists)) freshWorld denyIncoming ∧
      w₂ = after (World.step (sampleToml sampleLists)) w
        [.egress 100 2 syn.bytes true, .request .reset { net := noNet },
          .egress 300 2 synAck.bytes false] ∧
      (walkRules w₂.path.maps dirIn 2 synAck.parsed).1 = actDeny ∧
      tryIngress w₂.path 400 2 synAck.bytes = .ok .pass ∧
      ∃ p p', parsePacket syn.bytes 14 = .ok (some p) ∧
        parsePacket synAck.bytes 14 = .ok (some p') ∧ reverseKey p' = forwardKey p := by
  have hl2 : (14 : Nat) ≠ 0 := by decide
  have hparse : parsePacket synAck.bytes 14 = .ok (some synAck.parsed) :=
    parsePacket_layout synAck.l2 synAck.network synAck.trailing hl2
  have hanswers : synAck.network.Answers syn.network := .v4 rfl rfl (.tcp 40000 22)
  obtain ⟨hwindow, hkeys⟩ := reply_passes (sampleToml sampleLists)
  refine ⟨_, _, rfl, rfl, rfl, ?_, hkeys syn synAck 14 14 hl2 hl2 hanswers⟩
  refine hwindow _ 100 2 syn.bytes (forwardKey syn.parsed)
    ⟨rfl, ⟨syn.parsed, ⟨?_, rfl, rfl⟩, rfl⟩, rfl⟩
    [.request .reset { net := noNet }, .egress 300 2 synAck.bytes false] ?_ _ rfl rfl 400 2
    synAck.bytes synAck.parsed hparse rfl (by decide)
  · exact parsePacket_layout syn.l2 syn.network syn.trailing hl2
  · simp [Event.Spares, Event.now]

end Moatd
