import Gatehouse.Proofs.TokenBucket.Reachable
import Gatehouse.Proofs.TokenBucket.Recovery
import Gatehouse.Proofs.TokenBucket.Waiting
/-!
# One silent period

What flows in during one period should be the capacity. Computed, it is so up to rounding: the flow
per second is the rounded quotient of capacity and period (`Rate.Flows.flow_near`), and its rounded
product with the period comes back to the capacity but for a slack (`Rate.Flows.le_roundedFlow`). So
a bucket that was left alone for a period, however long that is, holds all but a slack of its
capacity (`Made.refill_after_period`); below `2 ^ 52` that is all of its whole tokens but one at
most (`silent_period_refills`).
-/

namespace Gatehouse

open Binary64

namespace Rate

variable {rate : Rate} {flow nanos : Nat}

theorem Flows.flow_eq (h : rate.Flows flow) :
    flow = nearestUnits (rate.units * unitsPerOne) (secondUnits rate.period.nanos) := by
  have hflow := h.flow
  rw [refillPerSecond_eq] at hflow
  rcases Nat.lt_or_ge (nearestUnits (rate.units * unitsPerOne) (secondUnits rate.period.nanos))
    overflowUnits with hfinite | hover
  · exact hflow.unique (ofRatio_isUnits _ _ hfinite)
  · rw [ofRatio_infinite hover] at hflow
    obtain ⟨_, heq⟩ := hflow
    cases heq

/-- A rate with a whole token does not flow so slowly that its flow is short of bits. -/
theorem Flows.flow_normal (h : rate.Flows flow) :
    twoTo 52 * secondUnits rate.period.nanos ≤ rate.units * unitsPerOne := by
  calc twoTo 52 * secondUnits rate.period.nanos
      ≤ twoTo 52 * twoTo (64 + 1074 + 1) :=
        Nat.mul_le_mul_left _ (secondUnits_le rate.period.nanos_lt)
    _ = twoTo (52 + (64 + 1074 + 1)) := (twoTo_add _ _).symm
    _ ≤ twoTo (1074 + 1074) := twoTo_le (by omega)
    _ = unitsPerOne * unitsPerOne := twoTo_add 1074 1074
    _ ≤ rate.units * unitsPerOne := Nat.mul_le_mul_right _ h.whole

/-- During one period the rounded flow brings in the capacity, but for half a slack. -/
theorem Flows.flow_near (h : rate.Flows flow) :
    (rate.units : ℚ) - rate.units / 2 ^ 53 ≤
      ((secondUnits rate.period.nanos * flow : Nat) : ℚ) / unitsPerOne := by
  have hperiod : (0 : ℚ) < secondUnits rate.period.nanos := by
    exact_mod_cast secondUnits_pos rate.period_pos
  have hround := abs_nearestUnits_sub_le_self (secondUnits_pos rate.period_pos) h.flow_normal
  rw [← h.flow_eq, abs_le] at hround
  have hlow : ((rate.units * unitsPerOne : Nat) : ℚ) / secondUnits rate.period.nanos *
      (1 - 1 / 2 ^ 53) ≤ flow := by linarith [hround.1]
  rw [le_div_iff₀ cast_unitsPerOne_pos, Nat.cast_mul]
  refine le_trans (le_of_eq ?_) (mul_le_mul_of_nonneg_left hlow hperiod.le)
  push_cast
  field_simp

/-- So does what a bucket computes for a period or more, but for a whole slack. -/
theorem Flows.le_roundedFlow (h : rate.Flows flow) (le : rate.period.nanos ≤ nanos) :
    (rate.units : ℚ) - rate.units / 2 ^ 52 ≤ roundedFlow flow nanos := by
  have hlonger : (roundedFlow flow rate.period.nanos : ℚ) ≤ roundedFlow flow nanos := by
    exact_mod_cast roundedFlow_mono flow le
  refine le_trans ?_ hlonger
  have hunits : (0 : ℚ) ≤ rate.units := Nat.cast_nonneg _
  rcases Nat.lt_or_ge (secondUnits rate.period.nanos * flow) (rate.units * unitsPerOne)
    with hbelow | hreach
  · have hround := abs_nearestUnits_sub_le unitsPerOne_pos h.normal hbelow.le
    have hnear := h.flow_near
    change |(roundedFlow flow rate.period.nanos : ℚ) - _| ≤ _ at hround
    rw [abs_le] at hround
    linarith [hround.1]
  · have hfull : (rate.units : ℚ) ≤ roundedFlow flow rate.period.nanos := by
      exact_mod_cast le_nearestUnits unitsPerOne_pos rate.capacity_isUnits.short hreach
    have hslack : (0 : ℚ) ≤ rate.units / 2 ^ 52 := by positivity
    linarith

end Rate

namespace TokenBucket

variable {b : TokenBucket} {rate : Rate} {level : Nat} {now : Instant}

/-- After a silent period a bucket holds all but a slack of its capacity, whatever its level was. -/
theorem Holds.filled_after_period (h : b.Holds rate level) (whole : unitsPerOne ≤ rate.units)
    (silent : b.lastRefill.nanos + rate.period.nanos ≤ now.nanos) :
    (rate.units : ℚ) - rate.units / 2 ^ 52 ≤ filled (b.credit now) level rate.units := by
  have hslack : (0 : ℚ) ≤ rate.units / 2 ^ 52 := by positivity
  rcases rate.refillPerSecond_cases with hinfinite | ⟨flow, hflow⟩
  · have hfull := (h.refill_holds now).tokens.unique (h.refill_of_infinite hinfinite now).tokens
    rw [hfull]
    linarith
  · have helapsed := (Instant.le_since_iff rate.period_pos).mpr silent
    have hnear := Rate.Flows.le_roundedFlow ⟨whole, hflow⟩ helapsed
    -- What has flowed in is short, so adding it to a level does not round it away.
    have hsum : roundedFlow flow (now.since b.lastRefill).nanos ≤
        nearestUnits (level + roundedFlow flow (now.since b.lastRefill).nanos) 1 :=
      le_nearestUnits Nat.one_pos (short_nearestUnits _ _) (by omega)
    rw [h.filled_eq hflow, Nat.cast_min]
    refine le_min (hnear.trans ?_) (by linarith)
    exact_mod_cast hsum

theorem Made.refill_after_period (h : b.Made rate) (whole : unitsPerOne ≤ rate.units)
    (silent : b.lastRefill.nanos + rate.period.nanos ≤ now.nanos) :
    ∃ level : Nat, (b.refill now).Holds rate level ∧
      (rate.units : ℚ) - rate.units / 2 ^ 52 ≤ level := by
  rcases h.holds_or_full with ⟨level, hlevel⟩ | hfull
  · exact ⟨_, hlevel.refill_holds now, hlevel.filled_after_period whole silent⟩
  · refine ⟨rate.units, hfull now, ?_⟩
    have hslack : (0 : ℚ) ≤ rate.units / 2 ^ 52 := by positivity
    linarith

/-- **One silent period refills a bucket, up to rounding.** Take a rate with a capacity of one token
or more and any bucket of it that there can be, and leave it alone for a period or longer. The level
is then refilled to the capacity, but for its `2 ^ 52`-th part at most. So of calls made at that
instant, up to a capacity of `2 ^ 52`, the first ones are admitted, and they are as many as the
capacity has whole tokens, or one fewer. -/
theorem silent_period_refills (rate : Rate) (whole : 1 ≤ rate.capacity.toRat) (b : TokenBucket)
    (reachable : Reachable rate b) (now : Instant)
    (silent : b.lastRefill.nanos + rate.period.nanos ≤ now.nanos) :
    let capacity := rate.capacity.toRat
    let level := (b.refill now).tokens.toRat
    (b.refill now).tokens.isFinite = true ∧
    capacity * (1 - 1 / 2 ^ 52) ≤ level ∧ level ≤ capacity ∧
    (capacity ≤ 2 ^ 52 →
      ⌊capacity⌋₊ - 1 ≤ ⌊level⌋₊ ∧ ⌊level⌋₊ ≤ ⌊capacity⌋₊ ∧
      ∀ n, b.verdicts (List.replicate n now) = firstAdmitted ⌊level⌋₊ n) := by
  intro capacity level
  have hone := cast_unitsPerOne_pos
  have hcapacity : capacity = rate.units / unitsPerOne := rate.capacity_isUnits.toRat_eq
  have hwhole : unitsPerOne ≤ rate.units := by
    have hle : (1 : ℚ) ≤ rate.units / unitsPerOne := hcapacity ▸ whole
    rw [one_le_div hone] at hle
    exact_mod_cast hle
  obtain ⟨units, hunits, hnear⟩ := reachable.made.refill_after_period hwhole silent
  have hlevel : level = units / unitsPerOne := hunits.tokens.toRat_eq
  have hlow : capacity * (1 - 1 / 2 ^ 52) ≤ level := by
    rw [hcapacity, hlevel, le_div_iff₀ hone, mul_right_comm, div_mul_cancel₀ _ hone.ne']
    linarith
  have hhigh : level ≤ capacity := hunits.toRat_le
  refine ⟨hunits.tokens.isFinite, hlow, hhigh, ?_⟩
  intro small
  have hless : capacity - 1 ≤ level := by linarith
  refine ⟨?_, Nat.floor_le_floor hhigh, ?_⟩
  · rw [← Nat.floor_sub_one]
    exact Nat.floor_le_floor hless
  · intro n
    have hsmall : rate.capacity.toRat ≤ 2 ^ 53 := small.trans (by norm_num)
    rw [hunits.verdicts_replicate (Rate.units_le_of_capacity hsmall), hunits.floor_tokens]

/-- Fifteen calls in eleven seconds. -/
def fifteenInElevenSeconds : Rate where
  count := .ofNat 15
  period := Duration.ofSeconds 11
  count_pos := by decide +kernel
  period_pos := by decide

/-- A bucket of fifteen that was emptied lacks a little of the fifteenth token after one period of
silence, so fourteen calls are admitted. -/
theorem silent_period_refills_fourteen_of_fifteen :
    let b := drained fifteenInElevenSeconds .origin 15
    let wake : Instant := ⟨11000000000, by decide +kernel, by decide +kernel⟩
    1 ≤ fifteenInElevenSeconds.capacity.toRat ∧ Reachable fifteenInElevenSeconds b ∧
    b.lastRefill.nanos + fifteenInElevenSeconds.period.nanos ≤ wake.nanos ∧
    15 * (1 - 1 / 2 ^ 52) ≤ (b.refill wake).tokens.toRat ∧
    b.verdicts (List.replicate 20 wake) = firstAdmitted 14 20 := by
  intro b wake
  have hcapacity : fifteenInElevenSeconds.capacity.toRat = (15 : Nat) :=
    ofNat_toRat (by decide +kernel)
  have hwhole : 1 ≤ fifteenInElevenSeconds.capacity.toRat := by
    rw [hcapacity]
    norm_num
  have hreachable : Reachable fifteenInElevenSeconds b := (Reachable.full .origin).afterCalls _
  have hsilent : b.lastRefill.nanos + fifteenInElevenSeconds.period.nanos ≤ wake.nanos := by
    rw [drained_lastRefill]
    decide +kernel
  obtain ⟨-, hlow, -, hcalls⟩ :=
    silent_period_refills fifteenInElevenSeconds hwhole b hreachable wake hsilent
  rw [hcapacity] at hlow hcalls
  rw [Nat.floor_natCast] at hcalls
  obtain ⟨hfew, hmany, hverdicts⟩ := hcalls (by norm_num)
  have hlacks : (b.verdicts (List.replicate 15 wake)).count true < 15 := by decide +kernel
  rw [hverdicts, count_firstAdmitted] at hlacks
  have hfourteen : ⌊(b.refill wake).tokens.toRat⌋₊ = 14 := by omega
  refine ⟨hwhole, hreachable, hsilent, hlow, ?_⟩
  rw [hverdicts, hfourteen]

end TokenBucket

end Gatehouse
