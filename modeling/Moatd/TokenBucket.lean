import Mathlib.Data.List.Chain
import Mathlib.Tactic.Common

/-!
# Token buckets

A bucket holds tokens up to a capacity; a call takes one, or is turned away.  Time that
has passed since the last refill is exchanged for tokens, one for each interval, when a
call finds that an interval is over.  How much of it is credited is left open: a refill
may credit less than what is due, and it starts the next interval at the call and not where
the last whole interval ended.

The bound on the grants of a time window (`grantsIn_le`) exceeds the obvious one by a
token: time from before the window is credited inside it, but where a full bucket was not
refilled at the start of the window that is less than one interval.  Where every refill
credits all that is due, a call is turned away only behind a burst (`FullRun.grantsIn_ge`).
-/

namespace TokenBucket

/-- A bucket: its tokens, and when it was last refilled. -/
structure Bucket where
  tokens : Nat
  lastRefill : Nat
  deriving DecidableEq, Repr

variable (cap interval : Nat)

/-- What a call at time `now` does before it takes a token. -/
inductive Refill (s : Bucket) (now : Nat) : Bucket → Prop
  | early (h : now < s.lastRefill + interval) : Refill s now s
  | due (tokens : Nat) (h : s.lastRefill + interval ≤ now) (hcap : tokens ≤ cap)
      (hdue : tokens ≤ s.tokens + (now - s.lastRefill) / interval) : Refill s now ⟨tokens, now⟩

/-- A call takes a token, or finds none. -/
inductive Take (s : Bucket) : Bool → Bucket → Prop
  | granted (tokens : Nat) (h : s.tokens = tokens + 1) : Take s true ⟨tokens, s.lastRefill⟩
  | refused (h : s.tokens = 0) : Take s false s

/-- A sequence of calls, each with its time and whether it was granted. -/
inductive Run : Bucket → List (Nat × Bool) → Bucket → Prop
  | nil (s : Bucket) : Run s [] s
  | cons {s refilled s' t : Bucket} {now : Nat} {granted : Bool} {calls : List (Nat × Bool)}
      (hrefill : Refill cap interval s now refilled) (htake : Take refilled granted s')
      (hrun : Run s' calls t) : Run s ((now, granted) :: calls) t

/-- The granted calls from time `a` to time `b`. -/
def grantsIn (a b : Nat) (calls : List (Nat × Bool)) : Nat :=
  calls.countP fun c => decide (a ≤ c.1 ∧ c.1 ≤ b) && c.2

/-- The calls come one after the other, none before `start`. -/
def InOrder (start : Nat) (calls : List (Nat × Bool)) : Prop :=
  List.IsChain (· ≤ ·) (start :: calls.map Prod.fst)

variable {cap interval}

theorem inOrder_cons {start now : Nat} {granted : Bool} {calls : List (Nat × Bool)} :
    InOrder start ((now, granted) :: calls) ↔ start ≤ now ∧ InOrder now calls :=
  List.isChain_cons_cons

theorem InOrder.mono {start start' : Nat} {calls : List (Nat × Bool)} (h : InOrder start calls)
    (hle : start' ≤ start) : InOrder start' calls := by
  rcases calls with _ | ⟨⟨now, granted⟩, calls⟩
  · exact .singleton _
  · rw [inOrder_cons] at h ⊢
    exact h.imp_left (Nat.le_trans hle)

/-! ### One call -/

theorem Take.spec {s s' : Bucket} {granted : Bool} (h : Take s granted s') :
    s'.tokens + granted.toNat = s.tokens ∧ s'.lastRefill = s.lastRefill := by
  rcases h with ⟨tokens, h⟩ | h
  · exact ⟨h.symm, rfl⟩
  · exact ⟨rfl, rfl⟩

theorem Refill.tokens_le {s s' : Bucket} {now : Nat} (h : Refill cap interval s now s')
    (hs : s.tokens ≤ cap) : s'.tokens ≤ cap := by
  rcases h with h | ⟨tokens, h, hcap, hdue⟩
  · exact hs
  · exact hcap

/-- A refill does not lie in the future. -/
theorem Refill.lastRefill_le {s s' : Bucket} {now : Nat} (h : Refill cap interval s now s')
    (hs : s.lastRefill ≤ now) : s'.lastRefill ≤ now := by
  rcases h with h | ⟨tokens, h, hcap, hdue⟩
  · exact hs
  · exact Nat.le_refl now

/-- **The capacity bounds the bucket at every call.** -/
theorem Run.tokens_le {s t : Bucket} {calls : List (Nat × Bool)} (h : Run cap interval s calls t)
    (hs : s.tokens ≤ cap) : t.tokens ≤ cap := by
  induction h with
  | nil => exact hs
  | cons hrefill htake _ ih =>
    have hcap := hrefill.tokens_le hs
    have htaken := htake.spec.1
    exact ih (by omega)

/-! ### A window -/

section Window
variable {a b : Nat}

theorem grantsIn_cons (now : Nat) (granted : Bool) (calls : List (Nat × Bool)) :
    grantsIn a b ((now, granted) :: calls) =
      grantsIn a b calls + if a ≤ now ∧ now ≤ b then granted.toNat else 0 := by
  unfold grantsIn
  rw [List.countP_cons]
  by_cases hin : a ≤ now ∧ now ≤ b
  · rcases granted <;> simp [hin]
  · simp [hin]

/-- No call behind the window counts. -/
theorem grantsIn_of_late {start : Nat} {calls : List (Nat × Bool)} (h : InOrder start calls)
    (hstart : b < start) : grantsIn a b calls = 0 := by
  induction calls generalizing start with
  | nil => rfl
  | cons call calls ih =>
    obtain ⟨now, granted⟩ := call
    obtain ⟨hnow, hrest⟩ := inOrder_cons.mp h
    rw [grantsIn_cons, ih hrest (by omega), if_neg (by omega)]

/-- Up to time `b` a bucket grants what it holds and what is due by then. -/
theorem Run.grantsIn_le_due {s t : Bucket} {calls : List (Nat × Bool)}
    (h : Run cap interval s calls t) (horder : InOrder s.lastRefill calls) :
    grantsIn a b calls ≤ s.tokens + (b - s.lastRefill) / interval := by
  -- the calls come no earlier than `now`, which moves on while the bucket is not refilled
  suffices ∀ now, s.lastRefill ≤ now → InOrder now calls →
      grantsIn a b calls ≤ s.tokens + (b - s.lastRefill) / interval from
    this _ (Nat.le_refl _) horder
  clear horder
  induction h with
  | nil => exact fun _ _ _ => Nat.zero_le _
  | @cons s refilled s' t now granted calls hrefill htake _ ih =>
    intro start hstart horder
    obtain ⟨hnow, hrest⟩ := inOrder_cons.mp horder
    obtain ⟨htokens, hlast⟩ := htake.spec
    by_cases hlate : b < now
    · rw [grantsIn_cons, grantsIn_of_late hrest hlate, if_neg (by omega)]
      exact Nat.zero_le _
    have hcount : grantsIn a b ((now, granted) :: calls) ≤ grantsIn a b calls + granted.toNat := by
      rw [grantsIn_cons]
      split <;> omega
    have hlater := ih now (by rw [hlast]; exact hrefill.lastRefill_le (by omega)) hrest
    rw [hlast] at hlater
    rcases hrefill with hearly | ⟨tokens, hdue, hcap, hcredit⟩
    · omega
    · -- the time before the call has been credited, the time after it is still to come
      have hsplit : (now - s.lastRefill) / interval + (b - now) / interval ≤
          (b - s.lastRefill) / interval := by
        rw [show b - s.lastRefill = (now - s.lastRefill) + (b - now) by omega]
        exact Nat.div_add_div_le_add_div
      dsimp only at htokens hlater
      omega

/-- A window that no call precedes. -/
theorem Run.grantsIn_le_of_first {s t : Bucket} {calls : List (Nat × Bool)}
    (hinterval : 0 < interval) (h : Run cap interval s calls t) (hs : s.tokens ≤ cap)
    (hlast : s.lastRefill ≤ a) (horder : InOrder a calls) :
    grantsIn a b calls ≤ cap + 1 + (b - a) / interval := by
  have hdue := h.grantsIn_le_due (a := a) (b := b) (horder.mono hlast)
  rcases h with _ | @⟨_, refilled, s', _, now, granted, calls, hrefill, htake, hrun⟩
  · exact Nat.zero_le _
  obtain ⟨hnow, hrest⟩ := inOrder_cons.mp horder
  rcases hrefill with hearly | ⟨tokens, hover, hcap, -⟩
  · -- the bucket was refilled less than an interval before the window
    have hone : (b - s.lastRefill) / interval ≤ (b - a) / interval + 1 := by
      rw [← Nat.add_div_right _ hinterval]
      exact Nat.div_le_div_right (by omega)
    omega
  · -- it is refilled inside the window, up to its capacity at most
    obtain ⟨htokens, hlast'⟩ := htake.spec
    have hlater := hrun.grantsIn_le_due (a := a) (b := b) (by rw [hlast']; exact hrest)
    have hmono : (b - s'.lastRefill) / interval ≤ (b - a) / interval := by
      rw [hlast']
      exact Nat.div_le_div_right (by dsimp only; omega)
    rw [grantsIn_cons]
    dsimp only at htokens
    split <;> omega

/-- **The grants of a window.**  In every window of time the bucket grants at most its
capacity, one more, and a token for each interval of the window. -/
theorem Run.grantsIn_le {s t : Bucket} {calls : List (Nat × Bool)} (hinterval : 0 < interval)
    (h : Run cap interval s calls t) (hs : s.tokens ≤ cap) (horder : InOrder s.lastRefill calls)
    (a b : Nat) : grantsIn a b calls ≤ cap + 1 + (b - a) / interval := by
  -- the calls before the window do not count, and they do not break the capacity
  suffices ∀ start, s.lastRefill ≤ start → InOrder start calls →
      grantsIn a b calls ≤ cap + 1 + (b - a) / interval from this _ (Nat.le_refl _) horder
  clear horder
  induction h with
  | nil => exact fun _ _ _ => Nat.zero_le _
  | @cons s refilled s' t now granted calls hrefill htake hrun ih =>
    intro start hstart horder
    obtain ⟨hnow, hrest⟩ := inOrder_cons.mp horder
    by_cases hbefore : now < a
    · have hcap := hrefill.tokens_le hs
      have hlast := hrefill.lastRefill_le (show s.lastRefill ≤ now by omega)
      obtain ⟨htokens, hlast'⟩ := htake.spec
      rw [grantsIn_cons, if_neg (by omega)]
      exact ih (by omega) now (by omega) hrest
    · by_cases hlast : s.lastRefill ≤ a
      · exact Run.grantsIn_le_of_first hinterval (.cons hrefill htake hrun) hs hlast
          (inOrder_cons.mpr ⟨by omega, hrest⟩)
      · have hdue := (Run.cons hrefill htake hrun).grantsIn_le_due (a := a) (b := b)
          (inOrder_cons.mpr ⟨by omega, hrest⟩)
        have hmono : (b - s.lastRefill) / interval ≤ (b - a) / interval :=
          Nat.div_le_div_right (by omega)
        omega

end Window

/-! ### Refills in full -/

theorem InOrder.le_of_mem {start : Nat} {calls : List (Nat × Bool)} (h : InOrder start calls)
    {c : Nat × Bool} (hc : c ∈ calls) : start ≤ c.1 := by
  rw [InOrder, List.isChain_iff_pairwise, List.pairwise_cons] at h
  exact h.1 c.1 (List.mem_map_of_mem hc)

section Full
variable (cap interval)

/-- A refill that credits all that is due. -/
inductive FullRefill (s : Bucket) (now : Nat) : Bucket → Prop
  | early (h : now < s.lastRefill + interval) : FullRefill s now s
  | due (h : s.lastRefill + interval ≤ now) :
    FullRefill s now ⟨min cap (s.tokens + (now - s.lastRefill) / interval), now⟩

/-- A run of a bucket that credits all that is due. -/
inductive FullRun : Bucket → List (Nat × Bool) → Bucket → Prop
  | nil (s : Bucket) : FullRun s [] s
  | cons {s refilled s' t : Bucket} {now : Nat} {granted : Bool} {calls : List (Nat × Bool)}
      (hrefill : FullRefill cap interval s now refilled) (htake : Take refilled granted s')
      (hrun : FullRun s' calls t) : FullRun s ((now, granted) :: calls) t

/-- What is credited at least in a time behind a refill.  A call that comes just before the
second interval is over loses almost a whole one. -/
def credited (time : Nat) : Nat := (time / interval + 1) / 2

variable {cap interval}

variable (interval) in
theorem credited_mono {x y : Nat} (h : x ≤ y) : credited interval x ≤ credited interval y := by
  have hdiv := Nat.div_le_div_right (c := interval) h
  unfold credited
  omega

theorem credited_of_lt {x : Nat} (h : x < interval) : credited interval x = 0 := by
  rw [credited, Nat.div_eq_of_lt h]

/-- A refill credits what is due by then, and the rest is credited behind it. -/
theorem credited_add_le (hinterval : 0 < interval) {x : Nat} (hx : interval ≤ x) (y : Nat) :
    credited interval (x + y) ≤ x / interval + credited interval y := by
  have hone : 1 ≤ x / interval := Nat.div_pos hx hinterval
  have hsum : (x + y) / interval ≤ x / interval + y / interval + 1 := by
    rw [Nat.add_div hinterval]
    split <;> omega
  unfold credited
  omega

theorem FullRefill.lastRefill_le {s s' : Bucket} {now : Nat}
    (h : FullRefill cap interval s now s') (hs : s.lastRefill ≤ now) : s'.lastRefill ≤ now := by
  rcases h with h | h
  · exact hs
  · exact Nat.le_refl now

section Refused
variable {a b : Nat}

/-- A call that is turned away finds nothing in the bucket, and nothing due. -/
theorem FullRun.le_of_refused {s t : Bucket} (h : FullRun cap interval s [(b, false)] t)
    (hinterval : 0 < interval) : min cap (s.tokens + credited interval (b - s.lastRefill)) = 0 := by
  rcases h with _ | @⟨_, refilled, s', _, _, _, _, hrefill, htake, _⟩
  have hempty : refilled.tokens = 0 := by
    rcases htake with _ | h
    exact h
  rcases hrefill with hearly | hdue
  · rw [hempty, credited_of_lt (by omega)]
    exact Nat.min_zero cap
  · have hone : 1 ≤ (b - s.lastRefill) / interval := Nat.div_pos (by omega) hinterval
    dsimp only at hempty
    omega

/-- The calls in front of a refused one, all of them in the window. -/
theorem FullRun.grantsIn_ge_of_first {s t : Bucket} {calls : List (Nat × Bool)}
    (hinterval : 0 < interval) (h : FullRun cap interval s (calls ++ [(b, false)]) t) {start : Nat}
    (hlast : s.lastRefill ≤ start) (hstart : a ≤ start)
    (horder : InOrder start (calls ++ [(b, false)])) :
    min cap (s.tokens + credited interval (b - s.lastRefill)) ≤ grantsIn a b calls := by
  induction calls generalizing s start with
  | nil => exact Nat.le_of_eq (h.le_of_refused hinterval)
  | cons call calls ih =>
    obtain ⟨now, granted⟩ := call
    rcases h with _ | @⟨_, refilled, s', _, _, _, _, hrefill, htake, hrun⟩
    obtain ⟨hnow, hrest⟩ := inOrder_cons.mp horder
    have hbehind : now ≤ b :=
      hrest.le_of_mem (List.mem_append_right calls (List.mem_singleton_self (b, false)))
    obtain ⟨htokens, hlast'⟩ := htake.spec
    have hlater := ih hrun (by rw [hlast']; exact hrefill.lastRefill_le (by omega)) (by omega) hrest
    rw [grantsIn_cons, if_pos ⟨by omega, hbehind⟩]
    rw [hlast'] at hlater
    rcases hrefill with hearly | hdue
    · omega
    · -- what the refill credits is there, or the bucket is full
      have hcredit := credited_add_le hinterval (show interval ≤ now - s.lastRefill by omega)
        (b - now)
      rw [show now - s.lastRefill + (b - now) = b - s.lastRefill by omega] at hcredit
      dsimp only at htokens hlater
      omega

/-- **Nobody is turned away without cause.**  In every window of time that ends with a call
that is turned away the bucket has granted its capacity, or half of what fell due. -/
theorem FullRun.grantsIn_ge {s t : Bucket} {calls : List (Nat × Bool)} (hinterval : 0 < interval)
    (h : FullRun cap interval s (calls ++ [(b, false)]) t)
    (horder : InOrder s.lastRefill (calls ++ [(b, false)])) (a : Nat) (hab : a ≤ b) :
    min cap (credited interval (b - max a s.lastRefill)) ≤ grantsIn a b calls := by
  -- the calls before the window do not count
  suffices ∀ start, s.lastRefill ≤ start → InOrder start (calls ++ [(b, false)]) →
      min cap (credited interval (b - max a s.lastRefill)) ≤ grantsIn a b calls from
    this _ (Nat.le_refl _) horder
  clear horder
  induction calls generalizing s with
  | nil =>
    intro start hlast horder
    have hnone := h.le_of_refused hinterval
    have hmono := credited_mono interval
      (show b - max a s.lastRefill ≤ b - s.lastRefill by omega)
    omega
  | cons call calls ih =>
    intro start hlast horder
    obtain ⟨now, granted⟩ := call
    obtain ⟨hnow, hrest⟩ := inOrder_cons.mp horder
    by_cases hbefore : now < a
    · rcases h with _ | @⟨_, refilled, s', _, _, _, _, hrefill, htake, hrun⟩
      have hlast' := htake.spec.2
      have hearlier := hrefill.lastRefill_le (show s.lastRefill ≤ now by omega)
      have hlater := ih hrun now (by omega) hrest
      rw [grantsIn_cons, if_neg (by omega)]
      rwa [show max a s'.lastRefill = max a s.lastRefill by omega] at hlater
    · have hinside := h.grantsIn_ge_of_first (a := a) hinterval
        (show s.lastRefill ≤ max a start by omega) (by omega) (inOrder_cons.mpr ⟨by omega, hrest⟩)
      have hmono := credited_mono interval
        (show b - max a s.lastRefill ≤ b - s.lastRefill by omega)
      omega

end Refused

end Full

end TokenBucket
