import Moatd.Common
import Moatd.TokenBucket

/-!
# The limiter of drop events

`try_take_token` of the data path.  Each processor has one bucket, in a per-CPU array with
a single slot, so the lookup of the slot does not fail and no other processor interferes.
The number of refilled tokens is cut to 32 bits before it is added: after a long silence a
call may credit less than what is due, never more, so the code's bucket is a token bucket.
-/

namespace Moatd

open TokenBucket

/-- Tokens of a full bucket. -/
def logBucketMax : UInt32 := 100

/-- Ten milliseconds. -/
def logBucketRefillNs : UInt64 := 10000000

/-- One processor's slot of `LOG_TOKENS`. -/
structure LogTokens where
  tokens : UInt32
  lastRefillNs : UInt64
  deriving DecidableEq, Repr

/-- `u64::saturating_sub`. -/
def saturatingSub (a b : UInt64) : UInt64 := if b ≤ a then a - b else 0

/-- `u32::saturating_add`. -/
def saturatingAdd (a b : UInt32) : UInt32 :=
  if a.toNat + b.toNat < UInt32.size then a + b else 0xffffffff

/-- The refill in `try_take_token`. -/
def LogTokens.refill (bucket : LogTokens) (now : UInt64) : LogTokens :=
  let elapsed := saturatingSub now bucket.lastRefillNs
  if logBucketRefillNs ≤ elapsed then
    let newTokens := (elapsed / logBucketRefillNs).toUInt32
    let total := saturatingAdd bucket.tokens newTokens
    { tokens := if logBucketMax < total then logBucketMax else total, lastRefillNs := now }
  else bucket

/-- `try_take_token`, with the bucket it leaves. -/
def tryTakeToken (bucket : LogTokens) (now : UInt64) : Bool × LogTokens :=
  let bucket := bucket.refill now
  if 0 < bucket.tokens then (true, { bucket with tokens := bucket.tokens - 1 })
  else (false, bucket)

/-- The calls at these times, with what each returns, and the bucket they leave. -/
def takeTokens : LogTokens → List UInt64 → List (UInt64 × Bool) × LogTokens
  | bucket, [] => ([], bucket)
  | bucket, now :: times =>
    let (granted, bucket) := tryTakeToken bucket now
    let (calls, bucket) := takeTokens bucket times
    ((now, granted) :: calls, bucket)

/-! ### The code's bucket is a token bucket -/

/-- The bucket, its fields as numbers. -/
def LogTokens.bucket (b : LogTokens) : Bucket := ⟨b.tokens.toNat, b.lastRefillNs.toNat⟩

theorem toNat_saturatingSub (a b : UInt64) : (saturatingSub a b).toNat = a.toNat - b.toNat := by
  unfold saturatingSub
  split
  · rename_i h
    exact UInt64.toNat_sub_of_le _ _ h
  · rename_i h
    rw [UInt64.le_iff_toNat_le] at h
    exact (Nat.sub_eq_zero_of_le (by omega)).symm

theorem toNat_saturatingAdd_le (a b : UInt32) :
    (saturatingAdd a b).toNat ≤ a.toNat + b.toNat := by
  unfold saturatingAdd
  split
  · rename_i h
    rw [UInt32.toNat_add, Nat.mod_eq_of_lt h]
  · rename_i h
    rw [UInt32.size] at h
    show 4294967295 ≤ _
    omega

/-- Cutting to 32 bits does not add tokens. -/
theorem toNat_newTokens_le (elapsed : UInt64) :
    (elapsed / logBucketRefillNs).toUInt32.toNat ≤ elapsed.toNat / logBucketRefillNs.toNat := by
  rw [UInt64.toNat_toUInt32, UInt64.toNat_div]
  exact Nat.mod_le _ _

theorem toNat_capped_le (total : UInt32) :
    (if logBucketMax < total then logBucketMax else total).toNat ≤ logBucketMax.toNat ∧
      (if logBucketMax < total then logBucketMax else total).toNat ≤ total.toNat := by
  by_cases h : logBucketMax < total
  · rw [if_pos h]
    exact ⟨Nat.le_refl _, Nat.le_of_lt (UInt32.lt_iff_toNat_lt.mp h)⟩
  · rw [if_neg h]
    exact ⟨UInt32.le_iff_toNat_le.mp (UInt32.not_lt.mp h), Nat.le_refl _⟩

theorem refill_refines (b : LogTokens) (now : UInt64) :
    Refill logBucketMax.toNat logBucketRefillNs.toNat b.bucket now.toNat (b.refill now).bucket := by
  have helapsed := toNat_saturatingSub now b.lastRefillNs
  have hinterval : logBucketRefillNs.toNat = 10000000 := rfl
  rw [LogTokens.refill]
  dsimp only
  by_cases hdue : logBucketRefillNs ≤ saturatingSub now b.lastRefillNs
  · rw [if_pos hdue]
    rw [UInt64.le_iff_toNat_le, helapsed] at hdue
    have hnew := toNat_newTokens_le (saturatingSub now b.lastRefillNs)
    rw [helapsed] at hnew
    have htotal := toNat_saturatingAdd_le b.tokens
      (saturatingSub now b.lastRefillNs / logBucketRefillNs).toUInt32
    obtain ⟨hcap, hle⟩ := toNat_capped_le (saturatingAdd b.tokens
      (saturatingSub now b.lastRefillNs / logBucketRefillNs).toUInt32)
    refine .due _ ?_ hcap (hle.trans (htotal.trans (Nat.add_le_add_left hnew _)))
    show b.lastRefillNs.toNat + _ ≤ _
    omega
  · rw [if_neg hdue]
    rw [UInt64.le_iff_toNat_le, helapsed] at hdue
    refine .early ?_
    show now.toNat < b.lastRefillNs.toNat + _
    omega

theorem tryTakeToken_refines (b : LogTokens) (now : UInt64) :
    Take (b.refill now).bucket (tryTakeToken b now).1 (tryTakeToken b now).2.bucket := by
  rw [tryTakeToken]
  by_cases hpos : 0 < (b.refill now).tokens
  · rw [if_pos hpos]
    rw [UInt32.lt_iff_toNat_lt] at hpos
    have hone : 1 ≤ (b.refill now).tokens := UInt32.le_iff_toNat_le.mpr hpos
    refine .granted _ ?_
    show (b.refill now).tokens.toNat = ((b.refill now).tokens - 1).toNat + 1
    rw [UInt32.toNat_sub_of_le _ _ hone]
    exact (Nat.sub_add_cancel hpos).symm
  · rw [if_neg hpos]
    rw [UInt32.lt_iff_toNat_lt] at hpos
    exact .refused (Nat.eq_zero_of_not_pos hpos)

/-- After a silence of `2 ^ 32` intervals nothing is credited. -/
example : (tryTakeToken ⟨0, 0⟩ 42949672960000000).1 = false := by decide

/-- **The code's calls are a run of a token bucket.** -/
theorem takeTokens_refines (b : LogTokens) (times : List UInt64) :
    Run logBucketMax.toNat logBucketRefillNs.toNat b.bucket
      ((takeTokens b times).1.map fun c => (c.1.toNat, c.2)) (takeTokens b times).2.bucket := by
  induction times generalizing b with
  | nil => exact .nil _
  | cons now times ih => exact .cons (refill_refines b now) (tryTakeToken_refines b now) (ih _)

theorem takeTokens_times (b : LogTokens) (times : List UInt64) :
    (takeTokens b times).1.map Prod.fst = times := by
  induction times generalizing b with
  | nil => rfl
  | cons now times ih => exact congrArg (now :: ·) (ih _)

/-! ### The rate of events -/

/-- How many of the calls from time `a` to time `b` return true. -/
def takenIn (a b : Nat) (bucket : LogTokens) (times : List UInt64) : Nat :=
  (takeTokens bucket times).1.countP fun c => decide (a ≤ c.1.toNat ∧ c.1.toNat ≤ b) && c.2

theorem takenIn_eq (a b : Nat) (bucket : LogTokens) (times : List UInt64) :
    takenIn a b bucket times =
      grantsIn a b ((takeTokens bucket times).1.map fun c => (c.1.toNat, c.2)) := by
  rw [grantsIn, List.countP_map]
  rfl

/-- **The limiter bounds the events of every window.**  From a bucket that holds no more than
its capacity and was not refilled after the first call, calls in order of time take at most
a full bucket of tokens, one more, and one for each refill interval of the window.  After
every call the bucket holds no more than its capacity, and what a call has taken was there. -/
theorem takenIn_le (bucket : LogTokens) (times : List UInt64) (hmax : bucket.tokens ≤ logBucketMax)
    (horder : List.IsChain (· ≤ ·) (bucket.lastRefillNs :: times)) :
    (∀ a b, takenIn a b bucket times ≤
      logBucketMax.toNat + 1 + (b - a) / logBucketRefillNs.toNat) ∧
    ∀ before now after, times = before ++ now :: after →
      let reached := (takeTokens bucket before).2
      let (granted, left) := tryTakeToken reached now
      reached.tokens ≤ logBucketMax ∧ left.tokens ≤ logBucketMax ∧
        left.tokens.toNat + granted.toNat = (reached.refill now).tokens.toNat := by
  -- as natural numbers the times are in order too
  have hinOrder : InOrder bucket.bucket.lastRefill
      ((takeTokens bucket times).1.map fun c => (c.1.toNat, c.2)) := by
    have hmap : ((takeTokens bucket times).1.map fun c => (c.1.toNat, c.2)).map Prod.fst =
        times.map UInt64.toNat := by
      rw [List.map_map, ← takeTokens_times bucket times, List.map_map, takeTokens_times]
      rfl
    rw [InOrder, hmap]
    exact (List.isChain_map UInt64.toNat).mpr (horder.imp fun _ _ => UInt64.le_iff_toNat_le.mp)
  have hcap := UInt32.le_iff_toNat_le.mp hmax
  constructor
  · intro a b
    rw [takenIn_eq]
    exact (takeTokens_refines bucket times).grantsIn_le (by decide) hcap hinOrder a b
  · intro before now after _
    have hreached := (takeTokens_refines bucket before).tokens_le hcap
    have hrefilled := (refill_refines (takeTokens bucket before).2 now).tokens_le hreached
    have htaken := (tryTakeToken_refines (takeTokens bucket before).2 now).spec.1
    refine ⟨UInt32.le_iff_toNat_le.mpr hreached, UInt32.le_iff_toNat_le.mpr ?_, htaken⟩
    exact Nat.le_trans (Nat.le_of_add_right_le (Nat.le_of_eq htaken)) hrefilled

/-- A full bucket, called twice at once and again when the first interval is over. -/
theorem takenIn_fullBucket :
    takenIn 3 10000000 ⟨100, 0⟩ [3, 3, 10000000] ≤ 101 ∧
      (takeTokens ⟨100, 0⟩ [3, 3]).2.tokens ≤ logBucketMax := by
  obtain ⟨hwindow, hcalls⟩ := takenIn_le ⟨100, 0⟩ [3, 3, 10000000] (by decide) (by decide)
  exact ⟨hwindow 3 10000000, (hcalls [3, 3] 10000000 [] rfl).1⟩

end Moatd
