import Moatd.Policy
import Moatd.PortFields

/-!
# Packets that no rule decides about

`parse_packet` looks for an IP header behind at most two VLAN tags.  A packet in which it
finds none is let through whatever the rules say, and so is neighbour discovery; one whose
headers it cannot read is dropped whatever the rules say.  Which packets these are is
said here by their bytes, and that all others are up to the rules.
-/

namespace Moatd

open Bytes Fallible Runs

/-! ### What can be read -/

section Upper
variable {packet : List UInt8} {off : Nat} {isV6 : Bool} {proto : UInt8}

end Upper

/-! ### The IP header -/

section Ip
variable {packet : List UInt8} {ipOff : Nat}

end Ip

/-! ### The packet -/

section Packet
variable {packet : List UInt8} {l2Off : Nat}

end Packet

/-! ### What the programs do with them -/

/-- The packet goes through in this direction. -/
def DataPath.LetsThrough (s : DataPath) (direction : Direction) (now : Nat) (insertOk : Bool)
    (ifindex : UInt32) (packet : List UInt8) : Prop :=
  match direction with
  | .inbound => moatIngress s now ifindex packet = .pass
  | .outbound => (moatEgress s now ifindex packet insertOk).1 = .pipe

section Fate
variable {s : DataPath} {direction : Direction} {now : Nat} {insertOk : Bool} {ifindex : UInt32}
  {packet : List UInt8}

theorem letsThrough_of_none (h : parsePacket packet (s.l2OffFor ifindex) = .ok none) :
    s.LetsThrough direction now insertOk ifindex packet := by
  cases direction with
  | inbound =>
    show moatIngress s now ifindex packet = .pass
    rw [moatIngress_pass, tryIngress, h]
  | outbound =>
    show (moatEgress s now ifindex packet insertOk).1 = .pipe
    rw [moatEgress_fst, tryEgress_fst, h]

theorem not_letsThrough_of_error (h : parsePacket packet (s.l2OffFor ifindex) = .error ()) :
    ¬ s.LetsThrough direction now insertOk ifindex packet := by
  obtain ⟨hingress, hegress⟩ := programs_of_error h now insertOk
  cases direction with
  | inbound =>
    show ¬ moatIngress s now ifindex packet = .pass
    rw [hingress]
    exact fun h => by cases h
  | outbound =>
    show ¬ (moatEgress s now ifindex packet insertOk).1 = .pipe
    rw [hegress]
    exact fun h => by cases h

/-- The flow of the packet is recorded: a reply to it comes in, or it goes out again. -/
def DataPath.knowsFlow (s : DataPath) (direction : Direction) (now : Nat) (p : Parsed) : Bool :=
  match direction with
  | .inbound => s.admitsReply now p
  | .outbound => s.established now p

theorem letsThrough_iff {p : Parsed} (h : parsePacket packet (s.l2OffFor ifindex) = .ok (some p)) :
    s.LetsThrough direction now insertOk ifindex packet ↔
      isNdp p = true ∨ s.knowsFlow direction now p = true ∨
        (walkRules s.maps (directionByte direction) ifindex p).1 = actAllow := by
  cases direction with
  | inbound =>
    show moatIngress s now ifindex packet = .pass ↔ isNdp p = true ∨ s.admitsReply now p = true ∨
      (walkRules s.maps dirIn ifindex p).1 = actAllow
    rw [moatIngress_pass, tryIngress, h]
    by_cases hndp : isNdp p = true
    · simp [hndp]
    · by_cases hreply : s.admitsReply now p = true
      · simp [hreply]
      · by_cases hwalk : (walkRules s.maps dirIn ifindex p).1 = actAllow <;>
          simp [hndp, hreply, hwalk]
  | outbound =>
    show (moatEgress s now ifindex packet insertOk).1 = .pipe ↔ isNdp p = true ∨
      s.established now p = true ∨ (walkRules s.maps dirOut ifindex p).1 = actAllow
    rw [moatEgress_fst, tryEgress_fst, h]
    dsimp only
    split
    · rename_i hpass
      exact iff_of_true rfl hpass
    · rename_i hpass
      exact iff_of_false (fun h => by cases h) hpass

theorem knowsFlow_of_empty (hempty : s.conntrack = fun _ => none) (direction : Direction)
    (now : Nat) (p : Parsed) : s.knowsFlow direction now p = false := by
  cases direction with
  | inbound =>
    show s.admitsReply now p = false
    rw [DataPath.admitsReply, hempty]
    exact Bool.and_false _
  | outbound =>
    show s.established now p = false
    rw [DataPath.established, hempty]
    exact Bool.and_false _

end Fate

/-! ### Whatever the rules say -/

section Runs
variable (toml : Toml) (direction : Direction) (l2Off : Nat) (packet : List UInt8)

end Runs

end Moatd
