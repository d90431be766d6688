import Gatehouse.Proofs.TokenBucket.Level
/-!
# How close a bucket is to an ideal one

An ideal bucket would credit the exact time at its flow per second (`idealLevel`). In a refill, a
bucket rounds the seconds, their product with the flow, and the new level. What the capacity cuts
off does not matter, and of the rest each is off by a small part; so a refill of a bucket that can
hold a token is off by at most two and a half `slack`s, where a slack is the `2 ^ 52`-th part of the
capacity:

* `Holds.refill_near` — as long as the capacity does not cut it off, the level after a refill is
  that close to the ideal one;
* `Holds.refill_near_min` — be that as it may, it is as close to the ideal one cut off;
* `Holds.admits_of_ideal`, `Holds.refuses_of_ideal` — so a call is answered as it ideally is, if
  the ideal level is farther from one token.
-/

namespace Gatehouse

open Binary64

/-- The rounding of one refill is measured in this part of the capacity. -/
def Rate.slack (rate : Rate) : ℚ := rate.capacity.toRat / 2 ^ 52

/-- Buckets of the rate can hold a token, and the tokens that flow in per second are a finite
number, of some units. -/
structure Rate.Flows (rate : Rate) (flow : Nat) : Prop where
  whole : unitsPerOne ≤ rate.units
  flow : rate.refillPerSecond.IsUnits flow

namespace Rate

variable {rate : Rate} {flow : Nat}

theorem slack_eq (rate : Rate) : rate.slack = rate.units / unitsPerOne / 2 ^ 52 := by
  unfold slack
  rw [rate.capacity_isUnits.toRat_eq]

theorem slack_nonneg (rate : Rate) : 0 ≤ rate.slack := by
  rw [slack_eq]
  positivity

theorem Flows.normal (h : rate.Flows flow) : twoTo 52 ≤ rate.units :=
  (show twoTo 52 ≤ unitsPerOne from twoTo_le (by omega)).trans h.whole

theorem Flows.one_le_capacity (h : rate.Flows flow) : 1 ≤ rate.capacity.toRat := by
  rw [rate.capacity_isUnits.toRat_eq, one_le_div cast_unitsPerOne_pos]
  exact_mod_cast h.whole

end Rate

/-! ## A refill in units -/

/-- The exact units that flow in during some nanoseconds. -/
def exactFlow (flow nanos : Nat) : ℚ := exactUnits nanos * flow / unitsPerOne

/-- The units that flow in, as a bucket computes them. -/
def roundedFlow (flow nanos : Nat) : Nat := nearestUnits (secondUnits nanos * flow) unitsPerOne

variable {level flow nanos capacity : Nat}

/-- What the rounding of seconds does to the flow, before the product is rounded. -/
theorem flow_of_seconds_near (flow nanos : Nat) :
    |((secondUnits nanos * flow : Nat) : ℚ) / unitsPerOne - exactFlow flow nanos| ≤
      exactFlow flow nanos * (5 / 2) / 2 ^ 53 := by
  have hone := cast_unitsPerOne_pos
  have hfactor : (0 : ℚ) ≤ flow / unitsPerOne := by positivity
  have hseconds := abs_secondUnits_sub_le nanos
  have hdiff : ((secondUnits nanos * flow : Nat) : ℚ) / unitsPerOne - exactFlow flow nanos =
      (secondUnits nanos - exactUnits nanos) * (flow / unitsPerOne) := by
    unfold exactFlow
    push_cast
    ring
  rw [hdiff, abs_mul, abs_of_nonneg hfactor]
  refine (mul_le_mul_of_nonneg_right hseconds hfactor).trans (le_of_eq ?_)
  unfold exactFlow
  ring

/-- A flow that stays below the capacity is off by two slacks at most. -/
theorem roundedFlow_near (normal : twoTo 52 ≤ capacity)
    (lt : secondUnits nanos * flow < capacity * unitsPerOne) :
    |(roundedFlow flow nanos : ℚ) - exactFlow flow nanos| ≤ 2 * (capacity / 2 ^ 52) := by
  have hproduct := abs_nearestUnits_sub_le unitsPerOne_pos normal lt.le
  have hseconds := flow_of_seconds_near flow nanos
  have hquot : ((secondUnits nanos * flow : Nat) : ℚ) / unitsPerOne ≤ capacity := by
    rw [div_le_iff₀ cast_unitsPerOne_pos]
    exact_mod_cast lt.le
  have hcapacity : (0 : ℚ) ≤ capacity := Nat.cast_nonneg _
  change |(roundedFlow flow nanos : ℚ) - _| ≤ _ at hproduct
  generalize ((secondUnits nanos * flow : Nat) : ℚ) / unitsPerOne = quot at *
  rw [abs_le] at *
  constructor <;> linarith

/-- A flow that reaches the capacity does so ideally, but for two slacks. -/
theorem exactFlow_ge (le : capacity * unitsPerOne ≤ secondUnits nanos * flow) :
    (capacity : ℚ) - 2 * (capacity / 2 ^ 52) ≤ exactFlow flow nanos := by
  have hseconds := flow_of_seconds_near flow nanos
  have hquot : (capacity : ℚ) ≤ ((secondUnits nanos * flow : Nat) : ℚ) / unitsPerOne := by
    rw [le_div_iff₀ cast_unitsPerOne_pos]
    exact_mod_cast le
  have hcapacity : (0 : ℚ) ≤ capacity := Nat.cast_nonneg _
  generalize ((secondUnits nanos * flow : Nat) : ℚ) / unitsPerOne = quot at *
  rw [abs_le] at hseconds
  linarith

/-- A refill that the capacity does not cut off is off by two and a half slacks at most. -/
theorem refilled_near (normal : twoTo 52 ≤ capacity) (short : Short capacity)
    (lt : nearestUnits (level + roundedFlow flow nanos) 1 < capacity) :
    |(nearestUnits (level + roundedFlow flow nanos) 1 : ℚ) - (level + exactFlow flow nanos)| ≤
      5 / 2 * (capacity / 2 ^ 52) := by
  -- Rounding reaches the capacity if what it rounds does; so neither the level nor the flow does.
  have hsum : level + roundedFlow flow nanos < capacity := by
    by_contra hge
    have : capacity ≤ nearestUnits (level + roundedFlow flow nanos) 1 :=
      le_nearestUnits Nat.one_pos short (by omega)
    omega
  have hproduct : secondUnits nanos * flow < capacity * unitsPerOne := by
    by_contra hge
    have : capacity ≤ roundedFlow flow nanos :=
      le_nearestUnits unitsPerOne_pos short (by omega)
    omega
  have hflow := roundedFlow_near normal hproduct
  have hround := abs_nearestUnits_one_sub_le (level + roundedFlow flow nanos)
  have hle : (level + roundedFlow flow nanos : ℚ) ≤ capacity := by exact_mod_cast hsum.le
  push_cast at hround
  rw [abs_le] at *
  constructor <;> linarith

/-- A refill that reaches the capacity does so ideally, but for two and a half slacks. -/
theorem refilled_ge (normal : twoTo 52 ≤ capacity)
    (le : capacity ≤ nearestUnits (level + roundedFlow flow nanos) 1) :
    (capacity : ℚ) - 5 / 2 * (capacity / 2 ^ 52) ≤ level + exactFlow flow nanos := by
  have hcapacity : (0 : ℚ) ≤ capacity := Nat.cast_nonneg _
  have hlevel : (0 : ℚ) ≤ level := Nat.cast_nonneg _
  rcases Nat.lt_or_ge (secondUnits nanos * flow) (capacity * unitsPerOne) with hlt | hge
  · have hflow := roundedFlow_near normal hlt
    rw [abs_le] at hflow
    have hsum : (capacity : ℚ) - capacity / 2 ^ 53 ≤ level + roundedFlow flow nanos := by
      rcases Nat.lt_or_ge (level + roundedFlow flow nanos) capacity with hbelow | hreach
      · have hround := abs_nearestUnits_one_sub_le (level + roundedFlow flow nanos)
        have hsum : (level + roundedFlow flow nanos : ℚ) ≤ capacity := by exact_mod_cast hbelow.le
        have hle : (capacity : ℚ) ≤ (nearestUnits (level + roundedFlow flow nanos) 1 : ℚ) := by
          exact_mod_cast le
        push_cast at hround
        rw [abs_le] at hround
        linarith
      · have hle : (capacity : ℚ) ≤ level + roundedFlow flow nanos := by exact_mod_cast hreach
        linarith
    linarith
  · have hflow := exactFlow_ge hge
    linarith

/-! ## Buckets -/

namespace TokenBucket

/-- The level that a bucket would have at an instant if nothing were rounded, and no capacity cut
it off. -/
def idealLevel (b : TokenBucket) (now : Instant) : ℚ :=
  b.tokens.toRat + (now.since b.lastRefill).nanos * b.refillPerSecond.toRat / nanosPerSecond

variable {b : TokenBucket} {rate : Rate} {now : Instant}

theorem Holds.toRat_le (h : b.Holds rate level) : b.tokens.toRat ≤ rate.capacity.toRat := by
  have hle := h.level_le
  rw [h.tokens.toRat_eq, rate.capacity_isUnits.toRat_eq]
  gcongr

/-- A finite flow fills the bucket by what it computes, cut off at the capacity. -/
theorem Holds.filled_eq (h : b.Holds rate level) (hflow : rate.refillPerSecond.IsUnits flow)
    (now : Instant) :
    filled (b.credit now) level rate.units =
      min (nearestUnits (level + roundedFlow flow (now.since b.lastRefill).nanos) 1)
        rate.units := by
  have hcredit : b.credit now = ofRatio false
      (secondUnits (now.since b.lastRefill).nanos * flow) unitsPerOne := by
    unfold credit
    rw [h.refill]
    exact (now.since b.lastRefill).toSeconds_isUnits.mul_eq hflow
  rw [hcredit]
  rcases Nat.lt_or_ge (roundedFlow flow (now.since b.lastRefill).nanos) overflowUnits with hlt | hge
  · obtain ⟨_, heq⟩ := ofRatio_isUnits _ _ hlt
    rw [heq]
    rfl
  · -- A flow that overflows fills the bucket up, and so does its rounding.
    rw [ofRatio_infinite hge]
    have hover := rate.capacity_isUnits.lt_overflow
    have hfull : rate.units ≤ nearestUnits
        (level + roundedFlow flow (now.since b.lastRefill).nanos) 1 :=
      le_nearestUnits Nat.one_pos rate.capacity_isUnits.short (by omega)
    exact (Nat.min_eq_right hfull).symm

theorem Holds.idealLevel_eq (h : b.Holds rate level) (flows : rate.Flows flow) (now : Instant) :
    b.idealLevel now =
      (level + exactFlow flow (now.since b.lastRefill).nanos) / unitsPerOne := by
  have hone := cast_unitsPerOne_pos.ne'
  unfold idealLevel exactFlow exactUnits
  rw [h.tokens.toRat_eq, h.refill, flows.flow.toRat_eq]
  field_simp

/-- As long as the capacity does not cut it off, a refill is nearly ideal. -/
theorem Holds.refill_near (h : b.Holds rate level) (flows : rate.Flows flow)
    (lt : (b.refill now).tokens.toRat < rate.capacity.toRat) :
    |(b.refill now).tokens.toRat - b.idealLevel now| ≤ 5 / 2 * rate.slack := by
  have hone := cast_unitsPerOne_pos
  have hrefill := h.refill_holds now
  rw [h.filled_eq flows.flow] at hrefill
  rw [hrefill.tokens.toRat_eq, rate.capacity_isUnits.toRat_eq, div_lt_div_iff_of_pos_right hone,
    Nat.cast_lt, min_lt_iff, or_iff_left (lt_irrefl _)] at lt
  have hnear := refilled_near flows.normal rate.capacity_isUnits.short lt
  rw [hrefill.tokens.toRat_eq, h.idealLevel_eq flows, min_eq_left lt.le, ← sub_div, abs_div,
    abs_of_pos hone, div_le_iff₀ hone, rate.slack_eq]
  refine hnear.trans (le_of_eq ?_)
  field_simp

/-- A refill that the capacity cuts off would ideally nearly reach it. -/
theorem Holds.refill_full (h : b.Holds rate level) (flows : rate.Flows flow)
    (ge : rate.capacity.toRat ≤ (b.refill now).tokens.toRat) :
    rate.capacity.toRat - 5 / 2 * rate.slack ≤ b.idealLevel now := by
  have hone := cast_unitsPerOne_pos
  have hrefill := h.refill_holds now
  rw [h.filled_eq flows.flow] at hrefill
  rw [hrefill.tokens.toRat_eq, rate.capacity_isUnits.toRat_eq, div_le_div_iff_of_pos_right hone,
    Nat.cast_le, le_min_iff] at ge
  have hreach := refilled_ge flows.normal ge.1
  rw [h.idealLevel_eq flows, rate.slack_eq, rate.capacity_isUnits.toRat_eq, le_div_iff₀ hone]
  refine le_trans (le_of_eq ?_) hreach
  field_simp

/-- A refill is nearly the ideal one cut off at the capacity. -/
theorem Holds.refill_near_min (h : b.Holds rate level) (flows : rate.Flows flow) (now : Instant) :
    |(b.refill now).tokens.toRat - min (b.idealLevel now) rate.capacity.toRat| ≤
      5 / 2 * rate.slack := by
  have hslack := rate.slack_nonneg
  have hle := (h.refill_holds now).toRat_le
  rcases hle.lt_or_eq with hlt | heq
  · have hnear := h.refill_near flows hlt
    rw [abs_le] at hnear ⊢
    rcases min_cases (b.idealLevel now) rate.capacity.toRat with ⟨hmin, -⟩ | ⟨hmin, hover⟩
    · rw [hmin]
      exact hnear
    · rw [hmin]
      constructor <;> linarith
  · have hfull := h.refill_full flows heq.ge
    rw [heq, abs_le]
    rcases min_cases (b.idealLevel now) rate.capacity.toRat with ⟨hmin, hunder⟩ | ⟨hmin, -⟩
    · rw [hmin]
      constructor <;> linarith
    · rw [hmin]
      constructor <;> linarith

/-! ## Calls -/

/-- A call is admitted exactly if refilling brings the level to one token. -/
theorem Holds.admits_iff (h : b.Holds rate level) (now : Instant) :
    (b.tryTakeOne now).2 = true ↔ 1 ≤ (b.refill now).tokens.toRat := by
  have hone := cast_unitsPerOne_pos
  have hrefill := h.refill_holds now
  rw [hrefill.tokens.toRat_eq, one_le_div hone, Nat.cast_le]
  rcases Nat.lt_or_ge (filled (b.credit now) level rate.units) unitsPerOne with lt | ge
  · rw [hrefill.tryTakeOne_refused lt]
    exact iff_of_false Bool.false_ne_true (not_le.mpr lt)
  · exact iff_of_true (hrefill.tryTakeOne_granted ge).1 ge

theorem Holds.admits_of_ideal (h : b.Holds rate level) (flows : rate.Flows flow)
    (ge : 1 + 5 / 2 * rate.slack ≤ b.idealLevel now) : (b.tryTakeOne now).2 = true := by
  rw [h.admits_iff]
  by_contra hlow
  have hbelow : (b.refill now).tokens.toRat < rate.capacity.toRat :=
    (not_le.mp hlow).trans_le flows.one_le_capacity
  have hnear := h.refill_near flows hbelow
  rw [abs_le] at hnear
  linarith

theorem Holds.refuses_of_ideal (h : b.Holds rate level) (flows : rate.Flows flow)
    (lt : b.idealLevel now < 1 - 5 / 2 * rate.slack) : (b.tryTakeOne now).2 = false := by
  rw [← Bool.not_eq_true, h.admits_iff]
  have hnear := h.refill_near_min flows now
  have hmin := min_le_left (b.idealLevel now) rate.capacity.toRat
  rw [abs_le] at hnear
  linarith

/-- An admitted call takes one token, but for half a slack, and a refused one takes nothing. -/
theorem Holds.tryTakeOne_near (h : b.Holds rate level) (now : Instant) :
    |(b.tryTakeOne now).1.tokens.toRat -
      ((b.refill now).tokens.toRat - if (b.tryTakeOne now).2 then 1 else 0)| ≤
        1 / 2 * rate.slack := by
  have hone := cast_unitsPerOne_pos
  have hrefill := h.refill_holds now
  rcases Nat.lt_or_ge (filled (b.credit now) level rate.units) unitsPerOne with lt | ge
  · rw [hrefill.tryTakeOne_refused lt]
    have := rate.slack_nonneg
    simpa using this
  · obtain ⟨hyes, hleft⟩ := hrefill.tryTakeOne_granted ge
    have hround := abs_nearestUnits_one_sub_le
      (filled (b.credit now) level rate.units - unitsPerOne)
    have hle : (filled (b.credit now) level rate.units : ℚ) ≤ rate.units := by
      exact_mod_cast hrefill.level_le
    rw [hyes, if_pos rfl, hleft.tokens.toRat_eq, hrefill.tokens.toRat_eq, rate.slack_eq]
    generalize nearestUnits (filled (b.credit now) level rate.units - unitsPerOne) 1 = left at *
    rw [Nat.cast_sub ge] at hround
    have hdiff : (left : ℚ) / unitsPerOne -
        ((filled (b.credit now) level rate.units : ℚ) / unitsPerOne - 1) =
        (left - (filled (b.credit now) level rate.units - unitsPerOne)) / unitsPerOne := by
      field_simp
    rw [hdiff, abs_div, abs_of_pos hone, div_le_iff₀ hone]
    refine hround.trans ?_
    field_simp
    linarith

end TokenBucket

end Gatehouse
