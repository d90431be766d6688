import Gatehouse.Proofs.TokenBucket.Ideal
/-!
# Waiting does not hurt

A refill rounds the seconds, their product with the flow, and the new level, and then cuts it off.
Each of these is monotone, so the level that a bucket is refilled to does not fall with time
(`Holds.filled_mono`), also where an infinite flow is at work or a zero with a sign
(`refill_tokens_mono`); and a call that is admitted is admitted later, too (`waiting_never_hurts`).
-/

namespace Gatehouse

open Binary64

namespace Binary64

variable {x y : Binary64} {u v : Nat}

/-- What a number is not below, no larger number is below. -/
theorem IsUnits.not_lt_of_le (hx : x.IsUnits u) (hy : y.IsUnits v) (le : u ≤ v) {cost : Binary64}
    (ge : x.lt cost = false) : y.lt cost = false := by
  obtain ⟨_, rfl⟩ := hx
  obtain ⟨_, rfl⟩ := hy
  cases cost with
  | nan => rfl
  | infinite s => exact ge
  | finite s w hw =>
      rw [lt, decide_eq_false_iff_not, signed_false] at ge ⊢
      omega

/-- Added to a number without a sign, a zero makes no difference by its sign. -/
theorem negative_zero_add (h : Fits 0) (hy : y.IsUnsigned) : finite true 0 h + y = zero + y := by
  rcases hy.cases with rfl | rfl | ⟨v, hv⟩
  · rfl
  · rfl
  · obtain ⟨_, rfl⟩ := hv
    show add _ _ = add _ _
    have hsigned : signed true 0 = 0 := rfl
    rw [zero, add, add, hsigned, signed_false 0, Bool.and_false, Bool.and_false]
    rfl

end Binary64

theorem Instant.since_mono {early late : Instant} (le : early.nanos ≤ late.nanos)
    (earlier : Instant) : (early.since earlier).nanos ≤ (late.since earlier).nanos := by
  rw [since_nanos, since_nanos]
  omega

theorem roundedFlow_mono (flow : Nat) {nanos later : Nat} (le : nanos ≤ later) :
    roundedFlow flow nanos ≤ roundedFlow flow later :=
  nearestUnits_mono unitsPerOne_pos unitsPerOne_pos
    (Nat.mul_le_mul_right _ (Nat.mul_le_mul_right flow (secondUnits_mono le)))

namespace TokenBucket

variable {b : TokenBucket} {rate : Rate} {level : Nat} {early late : Instant}

/-- The level that a refill makes does not fall with time. -/
theorem Holds.filled_mono (h : b.Holds rate level) (le : early.nanos ≤ late.nanos) :
    filled (b.credit early) level rate.units ≤ filled (b.credit late) level rate.units := by
  rcases rate.refillPerSecond_cases with hinfinite | ⟨flow, hflow⟩
  · have hfull := (h.refill_of_infinite hinfinite late).tokens.unique (h.refill_holds late).tokens
    rw [← hfull]
    exact filled_le _ _ _
  · have hcredit := roundedFlow_mono flow (Instant.since_mono le b.lastRefill)
    rw [h.filled_eq hflow, h.filled_eq hflow]
    refine min_le_min_right rate.units ?_
    exact nearestUnits_mono Nat.one_pos Nat.one_pos (by omega)

/-- The bucket is made for a rate, and its level is from zero to the capacity. The zero may be the
negative one. -/
structure Within (b : TokenBucket) (rate : Rate) : Prop where
  capacity : b.capacity = rate.capacity
  refill : b.refillPerSecond = rate.refillPerSecond
  zero_le : zero.le b.tokens = true
  le_capacity : b.tokens.le rate.capacity = true

/-- A level within the capacity is refilled as one without a sign. -/
theorem Within.refills_as (h : b.Within rate) :
    ∃ (b' : TokenBucket) (level : Nat), b'.Holds rate level ∧
      ∀ now, b'.refill now = b.refill now := by
  have hcapacity := rate.capacity_isUnits
  have hlow := h.zero_le
  have hhigh := h.le_capacity
  cases htokens : b.tokens with
  | nan =>
      rw [htokens] at hlow
      exact absurd hlow Bool.false_ne_true
  | infinite s =>
      obtain ⟨_, heq⟩ := hcapacity
      rw [htokens] at hlow hhigh
      rw [heq] at hhigh
      cases s with
      | false => exact absurd hhigh Bool.false_ne_true
      | true => exact absurd hlow Bool.false_ne_true
  | finite s u hu =>
      cases s with
      | false =>
          have hunits : b.tokens.IsUnits u := ⟨hu, htokens⟩
          exact ⟨b, u, ⟨h.capacity, h.refill, hunits, (hunits.le_iff hcapacity).mp hhigh⟩,
            fun _ => rfl⟩
      | true =>
          rw [htokens] at hlow
          obtain rfl : u = 0 := by
            simp only [le, zero, signed, decide_eq_true_eq] at hlow
            simp at hlow
            omega
          have hzero : { b with tokens := zero }.Holds rate 0 :=
            ⟨h.capacity, h.refill, zero_isUnits, rate.units.zero_le⟩
          refine ⟨_, 0, hzero, fun now => ?_⟩
          have hsum := negative_zero_add hu (hzero.credit_isUnsigned now)
          rw [← htokens] at hsum
          simp only [TokenBucket.refill]
          exact congrArg (fun sum => { b with
            tokens := Binary64.min sum b.capacity
            lastRefill := b.lastRefill.latest now }) hsum.symm

theorem Within.refill_tokens_mono (h : b.Within rate) (le : early.nanos ≤ late.nanos) :
    ∃ level later, (b.refill early).tokens.IsUnits level ∧ (b.refill late).tokens.IsUnits later ∧
      level ≤ later := by
  obtain ⟨b', _, hlevel, hrefill⟩ := h.refills_as
  have hearly := (hlevel.refill_holds early).tokens
  have hlate := (hlevel.refill_holds late).tokens
  rw [hrefill] at hearly hlate
  exact ⟨_, _, hearly, hlate, hlevel.filled_mono le⟩

/-- **Waiting does not hurt.** Take a bucket of any rate whose level is from zero to the capacity, a
cost of any kind, and two instants, be they before or after what the bucket has seen. At the later
one the level is refilled to no less than at the earlier one; and what would have been admitted at
the earlier one is admitted at the later one. -/
theorem waiting_never_hurts (rate : Rate) (b : TokenBucket) (within : b.Within rate)
    (early late : Instant) (le : early.nanos ≤ late.nanos) (cost : Binary64) :
    (b.refill early).tokens.le (b.refill late).tokens = true ∧
    ((b.tryTake cost early).2 = true → (b.tryTake cost late).2 = true) := by
  obtain ⟨level, later, hearly, hlate, hle⟩ := within.refill_tokens_mono le
  refine ⟨(hearly.le_iff hlate).mpr hle, ?_⟩
  rw [tryTake_admits_iff, tryTake_admits_iff]
  exact hearly.not_lt_of_le hlate hle

/-- One call in three seconds. -/
def oneInThreeSeconds : Rate where
  count := .one
  period := Duration.ofSeconds 3
  count_pos := one_isPositive
  period_pos := by decide

/-- From just before a whole second to just after it, when the nanoseconds start over, a bucket that
held a negative zero is refilled from less than two thirds to no less, and a cost of 0.6 that is
admitted before is admitted after. -/
theorem waiting_never_hurts_over_a_second :
    let b : TokenBucket :=
      { full oneInThreeSeconds .origin with tokens := zero.neg }
    let early : Instant := ⟨1999999999, by decide +kernel, by decide +kernel⟩
    let late : Instant := ⟨2000000001, by decide +kernel, by decide +kernel⟩
    let cost := Binary64.ofNat 3 / .ofNat 5
    b.Within oneInThreeSeconds ∧ early.nanos ≤ late.nanos ∧ (b.tryTake cost early).2 = true ∧
    (b.refill early).tokens.le (b.refill late).tokens = true ∧
    (b.tryTake cost late).2 = true := by
  intro b early late cost
  have hwithin : b.Within oneInThreeSeconds :=
    ⟨rfl, rfl, by decide +kernel, by decide +kernel⟩
  have hle : early.nanos ≤ late.nanos := by decide
  have hadmits : (b.tryTake cost early).2 = true := by decide +kernel
  obtain ⟨hlevel, hlate⟩ :=
    waiting_never_hurts oneInThreeSeconds b hwithin early late hle cost
  exact ⟨hwithin, hle, hadmits, hlevel, hlate hadmits⟩

end TokenBucket

end Gatehouse
