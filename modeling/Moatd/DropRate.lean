import Moatd.BlockLog
import Moatd.LogLimiter
import Moatd.Tightening
import Mathlib.Algebra.Order.BigOperators.Group.Finset
import Mathlib.Data.Finset.Range

/-!
# How many drops are reported

The limiter of `try_take_token` keeps a bucket for each processor, and only a packet that is
dropped while logging is on asks it for a token.  However many packets are dropped, the
events submitted in a window of time are as many as the buckets of all processors grant.
-/

namespace Moatd

open Runs TokenBucket

/-! ### The calls of one processor -/

/-- What the event asks of the bucket of this processor: the time, and whether a token is
granted. -/
def LogWorld.takes (w : LogWorld) (cpu : Nat) : LogEvent → List (Nat × Bool)
  | .data e call =>
    if (e.dropped w.world.path).isSome && w.world.path.maps.loggingEnabled &&
        decide (call.cpu = cpu) then
      [(call.now.toNat, (tryTakeToken (w.log.tokens cpu) call.now).1)]
    else []
  | _ => []

/-- What the events of a run ask of the bucket of this processor. -/
def takesAlong (toml : Toml) (cpu : Nat) : LogWorld → List LogEvent → List (Nat × Bool)
  | _, [] => []
  | w, e :: run => w.takes cpu e ++ takesAlong toml cpu (w.step toml e) run

/-- When a packet is handled by this processor. -/
def LogEvent.timeOn (cpu : Nat) : LogEvent → Option Nat
  | .data e call => if e.now.isSome && decide (call.cpu = cpu) then some call.now.toNat else none
  | _ => none

section Step
variable {toml : Toml} {w : LogWorld} {cpu : Nat}

theorem Event.now_isSome_of_dropped {s : DataPath} {e : Event}
    (h : (e.dropped s).isSome = true) : e.now.isSome = true := by
  cases e with
  | ingress | egress => rfl
  | request | update | evict | attach => cases h

/-- The bucket after the report of a packet. -/
theorem LogMaps.after_tokens (w : LogWorld) (e : Event) (call : LogCall) (cpu : Nat) :
    (w.log.after w.world.path e call).tokens cpu =
      if (e.dropped w.world.path).isSome && w.world.path.maps.loggingEnabled &&
          decide (call.cpu = cpu) then
        (tryTakeToken (w.log.tokens cpu) call.now).2
      else w.log.tokens cpu := by
  rw [LogMaps.after_eq]
  cases e.dropped w.world.path with
  | none => rfl
  | some drop =>
    obtain ⟨ifindex, p, ruleId⟩ := drop
    dsimp only
    rw [LogMaps.emitDrop_tokens]
    by_cases hcpu : cpu = call.cpu
    · subst hcpu
      simp
    · simp [hcpu, Ne.symm hcpu]

/-- Only packets ask for tokens. -/
theorem LogWorld.step_tokens (w : LogWorld) (e : LogEvent) (cpu : Nat)
    (h : ∀ e' call, e ≠ .data e' call) : (w.step toml e).log.tokens cpu = w.log.tokens cpu := by
  cases e with
  | data e call => exact absurd rfl (h e call)
  | readable => rfl
  | next =>
    rw [LogWorld.step]
    split
    · split
      · rfl
      · dsimp only
        split <;> rfl
    · rfl
  | tick order ifaceName =>
    rw [LogWorld.step]
    split_ifs <;> rfl

/-- **Step**: the bucket goes on as a token bucket. -/
theorem LogWorld.run_step (e : LogEvent) {calls : List (Nat × Bool)} {t : Bucket}
    (hrun : Run logBucketMax.toNat logBucketRefillNs.toNat
      ((w.step toml e).log.tokens cpu).bucket calls t) :
    Run logBucketMax.toNat logBucketRefillNs.toNat (w.log.tokens cpu).bucket
      (w.takes cpu e ++ calls) t := by
  cases e with
  | data e call =>
    have htokens := LogMaps.after_tokens w e call cpu
    rw [takes]
    rw [show (w.step toml (.data e call)).log.tokens cpu =
      (w.log.after w.world.path e call).tokens cpu from rfl, htokens] at hrun
    split
    · rename_i hasks
      rw [if_pos hasks] at hrun
      exact .cons (refill_refines _ call.now) (tryTakeToken_refines _ call.now) hrun
    · rename_i hasks
      rw [if_neg hasks] at hrun
      exact hrun
  | readable | next | tick =>
    rw [LogWorld.step_tokens w _ cpu (fun e' call => by simp)] at hrun
    exact hrun

/-- The calls come at the times of packets. -/
theorem LogWorld.takes_sublist (e : LogEvent) :
    ((w.takes cpu e).map Prod.fst).Sublist (e.timeOn cpu).toList := by
  cases e with
  | data e call =>
    rw [takes, LogEvent.timeOn]
    split
    · rename_i hasks
      rw [Bool.and_eq_true, Bool.and_eq_true] at hasks
      rw [if_pos (Bool.and_eq_true_iff.mpr ⟨Event.now_isSome_of_dropped hasks.1.1, hasks.2⟩)]
      exact List.Sublist.refl _
    · exact List.nil_sublist _
  | readable | next | tick => exact List.nil_sublist _

end Step

/-! ### A run of all processors -/

section Runs
variable (toml : Toml) (cpu : Nat)

/-- **Run**: each processor's calls are a run of its bucket. -/
theorem run_takesAlong (w : LogWorld) (run : List LogEvent) :
    Run logBucketMax.toNat logBucketRefillNs.toNat (w.log.tokens cpu).bucket
      (takesAlong toml cpu w run) ((after (LogWorld.step toml) w run).log.tokens cpu).bucket := by
  induction run generalizing w with
  | nil => exact .nil _
  | cons e run ih => exact LogWorld.run_step e (ih (w.step toml e))

theorem takesAlong_sublist (w : LogWorld) (run : List LogEvent) :
    ((takesAlong toml cpu w run).map Prod.fst).Sublist (run.filterMap (LogEvent.timeOn cpu)) := by
  induction run generalizing w with
  | nil => exact List.Sublist.refl _
  | cons e run ih =>
    have hcons : (e :: run).filterMap (LogEvent.timeOn cpu) =
        (e.timeOn cpu).toList ++ run.filterMap (LogEvent.timeOn cpu) := by
      rw [List.filterMap_cons]
      cases e.timeOn cpu <;> rfl
    rw [takesAlong, List.map_append, hcons]
    exact (LogWorld.takes_sublist e).append (ih (w.step toml e))

end Runs

section Window
variable {a b : Nat}

theorem grantsIn_append (calls calls' : List (Nat × Bool)) :
    grantsIn a b (calls ++ calls') = grantsIn a b calls + grantsIn a b calls' :=
  List.countP_append

/-- The event is of this window. -/
def DropEvent.within (a b : Nat) (event : DropEvent) : Bool :=
  decide (a ≤ event.tsNs.toNat ∧ event.tsNs.toNat ≤ b)

/-- An event that is submitted has been granted a token of its processor. -/
theorem LogWorld.submitted_le_takes (w : LogWorld) (e : LogEvent) {n : Nat}
    (hcpu : ∀ e' call, e = .data e' call → call.cpu < n) :
    (w.submitted e).toList.countP (DropEvent.within a b) ≤
      ∑ cpu ∈ Finset.range n, grantsIn a b (w.takes cpu e) := by
  cases hsubmitted : w.submitted e with
  | none => exact Nat.zero_le _
  | some event =>
    cases e with
    | readable | next | tick => cases hsubmitted
    | data e call =>
      rw [submitted] at hsubmitted
      split at hsubmitted
      · rename_i ifindex p ruleId hdropped
        split_ifs at hsubmitted with hsubmits
        cases hsubmitted
        unfold LogMaps.submits at hsubmits
        rw [Bool.and_eq_true, Bool.and_eq_true] at hsubmits
        obtain ⟨⟨hlogging, hgranted⟩, -⟩ := hsubmits
        have htakes : w.takes call.cpu (.data e call) = [(call.now.toNat, true)] := by
          rw [takes, hdropped, hlogging, hgranted]
          simp
        have hone : [dropEvent call.now ifindex p ruleId].countP (DropEvent.within a b) =
            grantsIn a b (w.takes call.cpu (.data e call)) := by
          rw [htakes, grantsIn_cons, List.countP_singleton, DropEvent.within]
          by_cases hwithin : a ≤ call.now.toNat ∧ call.now.toNat ≤ b <;>
            simp [dropEvent, grantsIn, hwithin]
        rw [Option.toList_some, hone]
        exact Finset.single_le_sum (f := fun cpu => grantsIn a b (w.takes cpu (.data e call)))
          (fun _ _ => Nat.zero_le _) (Finset.mem_range.mpr (hcpu e call rfl))
      · cases hsubmitted

theorem submittedAlong_le_takesAlong (toml : Toml) (w : LogWorld) {run : List LogEvent} {n : Nat}
    (hcpus : ∀ e call, .data e call ∈ run → call.cpu < n) :
    (submittedAlong toml w run).countP (DropEvent.within a b) ≤
      ∑ cpu ∈ Finset.range n, grantsIn a b (takesAlong toml cpu w run) := by
  induction run generalizing w with
  | nil => exact Nat.zero_le _
  | cons e run ih =>
    have hhead := w.submitted_le_takes (a := a) (b := b) e
      fun e' call he => hcpus e' call (by rw [he]; exact List.mem_cons_self)
    have htail := ih (w.step toml e) fun e' call he => hcpus e' call (List.mem_cons_of_mem _ he)
    simp only [submittedAlong, takesAlong, List.countP_append, grantsIn_append,
      Finset.sum_add_distrib]
    exact Nat.add_le_add hhead htail

/-- **The reports of a window are bounded, however many packets are dropped.**  Packets are
handled by `n` processors, each of which goes forward in time.  In every run, with requests
that turn logging on and off, and drains and ticks at any moment, the drop events of a window
of time are at most, for each processor, a full bucket, one more, and one for each refill
interval of the window. -/
theorem submitted_le (toml : Toml) (world : World) {run : List LogEvent} {n : Nat}
    (hcpus : ∀ e call, .data e call ∈ run → call.cpu < n)
    (htimes : ∀ cpu, (run.filterMap (LogEvent.timeOn cpu)).Pairwise (· ≤ ·)) (a b : Nat) :
    (submittedAlong toml (LogWorld.start world) run).countP (DropEvent.within a b) ≤
      n * (logBucketMax.toNat + 1 + (b - a) / logBucketRefillNs.toNat) := by
  have hcpu (cpu : Nat) : grantsIn a b (takesAlong toml cpu (LogWorld.start world) run) ≤
      logBucketMax.toNat + 1 + (b - a) / logBucketRefillNs.toNat := by
    have horder : InOrder 0 (takesAlong toml cpu (LogWorld.start world) run) := by
      have hpairwise :=
        (htimes cpu).sublist (takesAlong_sublist toml cpu (LogWorld.start world) run)
      rw [InOrder, List.isChain_iff_pairwise, List.pairwise_cons]
      exact ⟨fun _ _ => Nat.zero_le _, hpairwise⟩
    exact (run_takesAlong toml cpu (LogWorld.start world) run).grantsIn_le (by decide)
      (Nat.zero_le _) horder a b
  calc (submittedAlong toml (LogWorld.start world) run).countP (DropEvent.within a b)
      ≤ ∑ cpu ∈ Finset.range n, grantsIn a b (takesAlong toml cpu (LogWorld.start world) run) :=
        submittedAlong_le_takesAlong toml _ hcpus
    _ ≤ ∑ _cpu ∈ Finset.range n, (logBucketMax.toNat + 1 + (b - a) / logBucketRefillNs.toNat) :=
        Finset.sum_le_sum fun cpu _ => hcpu cpu
    _ = n * (logBucketMax.toNat + 1 + (b - a) / logBucketRefillNs.toNat) := by
        rw [Finset.sum_const, Finset.card_range, Nat.nsmul_eq_mul]

end Window

/-- A packet that is dropped on this processor, at this time. -/
def deniedOn (cpu : Nat) (now : UInt64) : LogEvent :=
  .data (.egress now.toNat 2 syn.bytes true) ⟨cpu, now, true⟩

/-- Logging is turned on and outbound traffic to port 22 denied; then connections are tried
on two processors, the second of which has no token for its second packet. -/
def deniedOnTwo : List LogEvent :=
  let events : List Event := List.replicate 3 .update ++ served (.setLogging true) 3 ++
    served (.addRule denySshOut) 4
  events.map (fun e => .data e ⟨0, 0, true⟩) ++
    [deniedOn 0 20000000, deniedOn 1 15000000, deniedOn 1 15000001, deniedOn 0 30000000,
      deniedOn 1 35000000, deniedOn 0 30000001]

theorem deniedOnTwo_submitted :
    let events := submittedAlong (sampleToml sampleLists) (LogWorld.start (World.start
      (sampleToml sampleLists) { net := noNet } false [] noFile fun _ => none)) deniedOnTwo
    events.map DropEvent.tsNs = [20000000, 15000000, 30000000, 35000000, 30000001] ∧
      events.countP (DropEvent.within 15000000 35000000) ≤ 2 * 103 := by
  have hcpus : ∀ e call, .data e call ∈ deniedOnTwo → call.cpu < 2 := by
    intro e call h
    simp only [deniedOnTwo, deniedOn, List.mem_append, List.mem_map, List.mem_cons,
      LogEvent.data.injEq, List.not_mem_nil, or_false] at h
    rcases h with ⟨_, -, -, rfl⟩ | ⟨-, rfl⟩ | ⟨-, rfl⟩ | ⟨-, rfl⟩ | ⟨-, rfl⟩ | ⟨-, rfl⟩ |
      ⟨-, rfl⟩ <;> decide
  have htimes : ∀ cpu, (deniedOnTwo.filterMap (LogEvent.timeOn cpu)).Pairwise (· ≤ ·) := by
    intro cpu
    by_cases hcpu : 0 = cpu
    · subst hcpu
      decide +kernel
    · by_cases hcpu' : 1 = cpu
      · subst hcpu'
        decide +kernel
      · simp [deniedOnTwo, deniedOn, served, LogEvent.timeOn, hcpu, hcpu']
  exact ⟨by decide +kernel,
    submitted_le (sampleToml sampleLists) _ hcpus htimes 15000000 35000000⟩

end Moatd
