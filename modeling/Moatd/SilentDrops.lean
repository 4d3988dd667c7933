import Moatd.DropProvenance
import Moatd.DropRate

/-!
# Drops that are not reported

The limiter turns a report away only behind a burst.  A refill starts the next interval at
the call, so in a busy time it may lose almost every second token: half of what falls due is
granted in any case.
-/

namespace Moatd

open Runs TokenBucket

/-! ### Refills of the code's bucket -/

/-- Until then the count of the intervals fits in 32 bits: 497 days. -/
def uncutNs : Nat := 42949672960000000

theorem toNat_saturatingAdd (a b : UInt32) :
    (saturatingAdd a b).toNat = min 4294967295 (a.toNat + b.toNat) := by
  unfold saturatingAdd
  split
  · rename_i h
    rw [UInt32.toNat_add, Nat.mod_eq_of_lt h]
    rw [UInt32.size] at h
    omega
  · rename_i h
    rw [UInt32.size] at h
    show 4294967295 = _
    omega

theorem toNat_capped (total : UInt32) :
    (if logBucketMax < total then logBucketMax else total).toNat =
      min logBucketMax.toNat total.toNat := by
  by_cases h : logBucketMax < total
  · rw [if_pos h]
    exact (Nat.min_eq_left (Nat.le_of_lt (UInt32.lt_iff_toNat_lt.mp h))).symm
  · rw [if_neg h]
    exact (Nat.min_eq_right (UInt32.le_iff_toNat_le.mp (UInt32.not_lt.mp h))).symm

/-- **All that is due is credited**, as long as nothing is cut. -/
theorem refill_full (b : LogTokens) {now : UInt64} (hnow : now.toNat < uncutNs) :
    FullRefill logBucketMax.toNat logBucketRefillNs.toNat b.bucket now.toNat
      (b.refill now).bucket := by
  have helapsed := toNat_saturatingSub now b.lastRefillNs
  have hinterval : logBucketRefillNs.toNat = 10000000 := rfl
  rw [LogTokens.refill]
  dsimp only
  by_cases hdue : logBucketRefillNs ≤ saturatingSub now b.lastRefillNs
  · rw [if_pos hdue]
    rw [UInt64.le_iff_toNat_le, helapsed] at hdue
    have hnew : (saturatingSub now b.lastRefillNs / logBucketRefillNs).toUInt32.toNat =
        (now.toNat - b.lastRefillNs.toNat) / logBucketRefillNs.toNat := by
      rw [UInt64.toNat_toUInt32, UInt64.toNat_div, helapsed, hinterval]
      rw [uncutNs] at hnow
      exact Nat.mod_eq_of_lt (by omega)
    have htokens : (LogTokens.bucket ⟨if logBucketMax < saturatingAdd b.tokens
          (saturatingSub now b.lastRefillNs / logBucketRefillNs).toUInt32 then logBucketMax
        else saturatingAdd b.tokens
          (saturatingSub now b.lastRefillNs / logBucketRefillNs).toUInt32, now⟩) =
        ⟨min logBucketMax.toNat (b.tokens.toNat +
          (now.toNat - b.lastRefillNs.toNat) / logBucketRefillNs.toNat), now.toNat⟩ := by
      have hmax : logBucketMax.toNat = 100 := rfl
      rw [LogTokens.bucket, toNat_capped, toNat_saturatingAdd, hnew, Bucket.mk.injEq]
      refine ⟨?_, rfl⟩
      generalize (now.toNat - b.lastRefillNs.toNat) / logBucketRefillNs.toNat = due
      omega
    rw [htokens]
    refine .due ?_
    show b.lastRefillNs.toNat + _ ≤ _
    omega
  · rw [if_neg hdue]
    rw [UInt64.le_iff_toNat_le, helapsed] at hdue
    refine .early ?_
    show now.toNat < b.lastRefillNs.toNat + _
    omega

/-! ### A processor's calls -/

section Calls
variable (toml : Toml) (cpu : Nat)

/-- The calls of a processor refill in full, if they come early enough. -/
theorem fullRun_takesAlong (w : LogWorld) {run : List LogEvent}
    (huptime : ∀ e call, .data e call ∈ run → call.now.toNat < uncutNs) :
    FullRun logBucketMax.toNat logBucketRefillNs.toNat (w.log.tokens cpu).bucket
      (takesAlong toml cpu w run) ((after (LogWorld.step toml) w run).log.tokens cpu).bucket := by
  induction run generalizing w with
  | nil => exact .nil _
  | cons e run ih =>
    have hrest := ih (w.step toml e) fun e' call he => huptime e' call (List.mem_cons_of_mem _ he)
    rw [after_cons, takesAlong]
    cases e with
    | data e call =>
      have htokens := LogMaps.after_tokens w e call cpu
      rw [show (w.step toml (.data e call)).log.tokens cpu =
        (w.log.after w.world.path e call).tokens cpu from rfl, htokens] at hrest
      rw [LogWorld.takes]
      split
      · rename_i hasks
        rw [if_pos hasks] at hrest
        exact .cons (refill_full _ (huptime e call List.mem_cons_self))
          (tryTakeToken_refines _ call.now) hrest
      · rename_i hasks
        rw [if_neg hasks] at hrest
        exact hrest
    | readable | next | tick =>
      rw [LogWorld.step_tokens w _ cpu (fun e' call => by simp)] at hrest
      exact hrest

theorem takesAlong_append (w : LogWorld) (pre post : List LogEvent) :
    takesAlong toml cpu w (pre ++ post) =
      takesAlong toml cpu w pre ++ takesAlong toml cpu (after (LogWorld.step toml) w pre) post := by
  induction pre generalizing w with
  | nil => rfl
  | cons e pre ih =>
    rw [List.cons_append, takesAlong, ih, takesAlong, after_cons, List.append_assoc]

end Calls

section Reports
variable {a b : Nat}

/-- A token that is granted is an event that is submitted, where the ring buffer has room. -/
theorem LogWorld.takes_le_submitted (w : LogWorld) (cpu : Nat) (e : LogEvent)
    (hroom : ∀ e' call, e = .data e' call → call.reserveOk = true) :
    grantsIn a b (w.takes cpu e) ≤ (w.submitted e).toList.countP (DropEvent.within a b) := by
  cases e with
  | readable | next | tick => exact Nat.zero_le _
  | data e call =>
    rw [takes]
    split
    · rename_i hasks
      rw [Bool.and_eq_true, Bool.and_eq_true, decide_eq_true_eq] at hasks
      obtain ⟨⟨hdropped, hlogging⟩, rfl⟩ := hasks
      obtain ⟨⟨ifindex, p, ruleId⟩, hdropped⟩ := Option.isSome_iff_exists.mp hdropped
      cases hgranted : (tryTakeToken (w.log.tokens call.cpu) call.now).1 with
      | false =>
        rw [grantsIn_cons]
        simp [grantsIn]
      | true =>
        have hsubmits : w.log.submits w.world.path.maps call = true := by
          rw [LogMaps.submits, hlogging, hgranted, hroom e call rfl]
          rfl
        have hsubmitted : w.submitted (.data e call) =
            some (dropEvent call.now ifindex p ruleId) := by
          rw [submitted, hdropped]
          exact if_pos hsubmits
        rw [hsubmitted, Option.toList_some, grantsIn_cons, List.countP_singleton, DropEvent.within]
        by_cases hwithin : a ≤ call.now.toNat ∧ call.now.toNat ≤ b <;>
          simp [dropEvent, grantsIn, hwithin]
    · exact Nat.zero_le _

theorem takesAlong_le_submittedAlong (toml : Toml) (cpu : Nat) (w : LogWorld)
    {run : List LogEvent} (hroom : ∀ e call, .data e call ∈ run → call.reserveOk = true) :
    grantsIn a b (takesAlong toml cpu w run) ≤
      (submittedAlong toml w run).countP (DropEvent.within a b) := by
  induction run generalizing w with
  | nil => exact Nat.zero_le _
  | cons e run ih =>
    have hhead := w.takes_le_submitted (a := a) (b := b) cpu e
      fun e' call he => hroom e' call (by rw [he]; exact List.mem_cons_self)
    have htail := ih (w.step toml e) fun e' call he => hroom e' call (List.mem_cons_of_mem _ he)
    rw [takesAlong, submittedAlong, grantsIn_append, List.countP_append]
    exact Nat.add_le_add hhead htail

end Reports

/-- **A drop goes unreported only behind a burst of reports.**  The packet is dropped while
logging is on, and the ring buffer has room for every report.  If none is submitted then in
every window of time up to the drop there are as many as a bucket holds, or one for every
two refill intervals. -/
theorem unreported_after_burst (toml : Toml) (world : World) {pre : List LogEvent} (e : Event)
    (call : LogCall)
    (htimes : ((pre ++ [LogEvent.data e call]).filterMap
      (LogEvent.timeOn call.cpu)).Pairwise (· ≤ ·))
    (huptime : ∀ e' call', .data e' call' ∈ pre ++ [.data e call] → call'.now.toNat < uncutNs)
    (hroom : ∀ e' call', .data e' call' ∈ pre ++ [.data e call] → call'.reserveOk = true) :
    let w := after (LogWorld.step toml) (LogWorld.start world) pre
    (e.dropped w.world.path).isSome = true → w.world.path.maps.loggingEnabled = true →
      w.submitted (.data e call) = none → ∀ a ≤ call.now.toNat,
        min logBucketMax.toNat (((call.now.toNat - a) / logBucketRefillNs.toNat + 1) / 2) ≤
          (submittedAlong toml (LogWorld.start world) pre).countP
            (DropEvent.within a call.now.toNat) := by
  intro w hdropped hlogging hnone a ha
  have hrefused : (tryTakeToken (w.log.tokens call.cpu) call.now).1 = false := by
    obtain ⟨⟨ifindex, p, ruleId⟩, hdrop⟩ := Option.isSome_iff_exists.mp hdropped
    rw [LogWorld.submitted, hdrop] at hnone
    by_contra hgranted
    have hsubmits : w.log.submits w.world.path.maps call = true := by
      rw [LogMaps.submits, hlogging, Bool.eq_true_of_not_eq_false hgranted,
        hroom e call (List.mem_append_right _ List.mem_cons_self)]
      rfl
    dsimp only at hnone
    rw [if_pos hsubmits] at hnone
    cases hnone
  have htakes : takesAlong toml call.cpu (LogWorld.start world) (pre ++ [.data e call]) =
      takesAlong toml call.cpu (LogWorld.start world) pre ++ [(call.now.toNat, false)] := by
    rw [takesAlong_append]
    congr 1
    rw [takesAlong, takesAlong, LogWorld.takes, hdropped, hlogging, hrefused]
    simp
  have hrun := fullRun_takesAlong toml call.cpu (LogWorld.start world) huptime
  have horder : InOrder 0
      (takesAlong toml call.cpu (LogWorld.start world) (pre ++ [.data e call])) := by
    have hpairwise := htimes.sublist
      (takesAlong_sublist toml call.cpu (LogWorld.start world) (pre ++ [.data e call]))
    rw [InOrder, List.isChain_iff_pairwise, List.pairwise_cons]
    exact ⟨fun _ _ => Nat.zero_le _, hpairwise⟩
  rw [htakes] at hrun horder
  have hcause := hrun.grantsIn_ge (by decide) horder a ha
  have hstart : ((LogWorld.start world).log.tokens call.cpu).bucket.lastRefill = 0 := rfl
  rw [hstart, Nat.max_eq_left (Nat.zero_le a)] at hcause
  have hreported := takesAlong_le_submittedAlong (a := a) (b := call.now.toNat) toml call.cpu
    (LogWorld.start world) fun e' call' he => hroom e' call' (List.mem_append_left _ he)
  exact hcause.trans hreported

/-- Logging is turned on and outbound traffic to port 22 denied; ten milliseconds after the
machine is up, two packets are dropped at once, and the second drop is not reported. -/
def firstOfTwoDrops : List LogEvent :=
  let events : List Event := List.replicate 3 .update ++ served (.setLogging true) 3 ++
    served (.addRule denySshOut) 4 ++ [.egress 200 2 syn.bytes true]
  events.map fun e => .data e (callAt 10000000)

theorem firstOfTwoDrops_reported :
    1 ≤ (submittedAlong (sampleToml sampleLists) (LogWorld.start (World.start
      (sampleToml sampleLists) { net := noNet } false [] noFile fun _ => none))
        firstOfTwoDrops).countP (DropEvent.within 0 10000000) := by
  have hall : ∀ e call, .data e call ∈ firstOfTwoDrops ++
      [LogEvent.data (.egress 200 2 syn.bytes true) (callAt 10000000)] →
        call = callAt 10000000 := by
    intro e call h
    simp only [firstOfTwoDrops, List.mem_append, List.mem_map, List.mem_singleton,
      LogEvent.data.injEq] at h
    rcases h with ⟨_, -, -, rfl⟩ | ⟨-, rfl⟩ <;> rfl
  exact unreported_after_burst (sampleToml sampleLists) _ (.egress 200 2 syn.bytes true)
    (callAt 10000000) (by decide)
    (fun e call h => by rw [hall e call h]; decide) (fun e call h => by rw [hall e call h]; rfl)
    (by decide +kernel) (by decide +kernel) (by decide +kernel) 0 (Nat.zero_le _)

end Moatd
