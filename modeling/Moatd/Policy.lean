import Moatd.RuleMeaning
import Moatd.Tightening

/-!
# The policy of the host

What the stored list says about port traffic, in the words of its rules: the first rule that
selects a packet decides, and the default if none does (`OnDisk.Allows`).  From the files at
startup to the bytes of a packet, this is what the two programs do, next to what
connection tracking lets through.
-/

namespace Moatd

open Runs

/-! ### What a list says -/

theorem moatEgress_fst (s : DataPath) (now : Nat) (ifindex : UInt32) (packet : List UInt8)
    (insertOk : Bool) :
    (moatEgress s now ifindex packet insertOk).1 = .pipe ↔
      (tryEgress s now ifindex packet insertOk).1 = .ok .pipe := by
  unfold moatEgress
  obtain ⟨result, s'⟩ := tryEgress s now ifindex packet insertOk
  rcases result with _ | a <;> simp

theorem moatIngress_pass (s : DataPath) (now : Nat) (ifindex : UInt32) (packet : List UInt8) :
    moatIngress s now ifindex packet = .pass ↔ tryIngress s now ifindex packet = .ok .pass := by
  unfold moatIngress
  rcases tryIngress s now ifindex packet with _ | a
  · simp
  · cases a <;> simp [XdpAction.verdict]

end Moatd
