import Gatehouse.Proofs.TokenBucket.Ideal
import Gatehouse.Proofs.TokenBucket.Recovery
/-!
# Buckets that never round

A 512th of a second (`tick`) is the finest part of a second of which any number is exact both in
nanoseconds and in binary64. If the capacity, the level, and what flows in during a tick are whole
numbers of some grain, and the capacity is not more than `2 ^ 53` grains, then a bucket that is
called at whole ticks never rounds: it counts grains (`InGrains.refill`). In particular two refills
do what one does (`InGrains.refill_twice`).
-/

namespace Gatehouse

open Binary64

def ticksPerSecond : Nat := 512

/-- The nanoseconds of a tick. -/
def tick : Nat := 1953125

theorem tick_pos : 0 < tick := by decide

theorem ticksPerSecond_eq : ticksPerSecond = twoTo 9 := by decide +kernel

theorem nanosPerSecond_ticks : nanosPerSecond = ticksPerSecond * tick := rfl

theorem ticksPerSecond_lt : ticksPerSecond < twoTo 53 := by
  rw [ticksPerSecond_eq]
  exact twoTo_lt (by omega)

theorem unitsPerOne_ticks : unitsPerOne = ticksPerSecond * twoTo 1065 := by
  rw [ticksPerSecond_eq]
  exact twoTo_add 9 1065

/-- Ticks are exact seconds, up to `2 ^ 53` of them. -/
theorem secondUnits_ticks {n : Nat} (le : n ≤ twoTo 53) :
    secondUnits (n * tick) = n * twoTo 1065 := by
  have hpos : 0 < ticksPerSecond := by decide
  have hdiv : n * tick / nanosPerSecond = n / ticksPerSecond :=
    Nat.mul_div_mul_right n ticksPerSecond tick_pos
  have hmod : n * tick % nanosPerSecond = n % ticksPerSecond * tick :=
    Nat.mul_mod_mul_right tick n ticksPerSecond
  have hwhole : wholeUnits (n / ticksPerSecond) = n / ticksPerSecond * unitsPerOne :=
    wholeUnits_exact ((Nat.div_le_self n ticksPerSecond).trans le)
  have hrest : restUnits (n % ticksPerSecond * tick) = n % ticksPerSecond * twoTo 1065 := by
    have hlt : n % ticksPerSecond < twoTo 53 := (Nat.mod_lt n hpos).trans ticksPerSecond_lt
    have hnum : n % ticksPerSecond * tick * unitsPerOne =
        n % ticksPerSecond * twoTo 1065 * nanosPerSecond := by
      rw [unitsPerOne_ticks, nanosPerSecond_ticks]
      ring
    rw [restUnits, hnum]
    exact nearestUnits_of_short (short_mul_twoTo 1065 hlt.le) nanosPerSecond_pos
  have hsum : n / ticksPerSecond * unitsPerOne + n % ticksPerSecond * twoTo 1065 =
      n * twoTo 1065 := by
    rw [unitsPerOne_ticks]
    calc n / ticksPerSecond * (ticksPerSecond * twoTo 1065) + n % ticksPerSecond * twoTo 1065 =
          (ticksPerSecond * (n / ticksPerSecond) + n % ticksPerSecond) * twoTo 1065 := by ring
      _ = n * twoTo 1065 := by rw [Nat.div_add_mod]
  rw [secondUnits, hdiv, hmod, hwhole, hrest, hsum]
  exact (short_mul_twoTo 1065 le).nearestUnits_one

variable {level ticks flow capacity grain : Nat}

/-- The units that flow in during some ticks and those of one token cancel. -/
theorem product_ticks (flow grain ticks : Nat) :
    ticks * twoTo 1065 * (flow * ticksPerSecond * twoTo grain) =
      ticks * flow * twoTo grain * unitsPerOne := by
  rw [unitsPerOne_ticks]
  ring

/-- What flows in during some ticks, in grains, as long as these are at most `2 ^ 53`. -/
theorem roundedFlow_ticks (few : ticks * flow ≤ twoTo 53) :
    roundedFlow (flow * ticksPerSecond * twoTo grain) (ticks * tick) =
      ticks * flow * twoTo grain := by
  unfold roundedFlow
  rcases Nat.eq_zero_or_pos flow with rfl | pos
  · simp [nearestUnits_zero]
  · have hticks : ticks ≤ twoTo 53 := (Nat.le_mul_of_pos_right ticks pos).trans few
    rw [secondUnits_ticks hticks, product_ticks]
    exact nearestUnits_of_short (short_mul_twoTo grain few) unitsPerOne_pos

/-- From `2 ^ 53` grains on, that many flow in at least. -/
theorem le_roundedFlow_ticks (many : twoTo 53 ≤ ticks * flow) :
    twoTo 53 * twoTo grain ≤ roundedFlow (flow * ticksPerSecond * twoTo grain) (ticks * tick) := by
  refine le_nearestUnits unitsPerOne_pos (short_mul_twoTo grain le_rfl) ?_
  rcases Nat.le_total ticks (twoTo 53) with hfew | hmany
  · rw [secondUnits_ticks hfew, product_ticks]
    exact Nat.mul_le_mul_right _ (Nat.mul_le_mul_right _ many)
  · -- Seconds do not decrease, and `2 ^ 53` ticks are enough unless nothing flows at all.
    have hseconds : twoTo 53 * twoTo 1065 ≤ secondUnits (ticks * tick) := by
      rw [← secondUnits_ticks le_rfl]
      exact secondUnits_mono (Nat.mul_le_mul_right tick hmany)
    have hflow : 1 ≤ flow := by
      rcases Nat.eq_zero_or_pos flow with rfl | pos
      · have := twoTo_pos 53
        omega
      · exact pos
    calc twoTo 53 * twoTo grain * unitsPerOne
        ≤ twoTo 53 * flow * twoTo grain * unitsPerOne :=
          Nat.mul_le_mul_right _ (Nat.mul_le_mul_right _ (Nat.le_mul_of_pos_right _ hflow))
      _ = twoTo 53 * twoTo 1065 * (flow * ticksPerSecond * twoTo grain) :=
          (product_ticks flow grain (twoTo 53)).symm
      _ ≤ secondUnits (ticks * tick) * (flow * ticksPerSecond * twoTo grain) :=
          Nat.mul_le_mul_right _ hseconds

/-- A refill over some ticks counts grains, up to the capacity. -/
theorem refilled_grains (le : capacity ≤ twoTo 53) :
    min (nearestUnits (level * twoTo grain +
        roundedFlow (flow * ticksPerSecond * twoTo grain) (ticks * tick)) 1)
      (capacity * twoTo grain) = min (level + ticks * flow) capacity * twoTo grain := by
  have hcapacity : capacity * twoTo grain ≤ twoTo 53 * twoTo grain := Nat.mul_le_mul_right _ le
  have hfull : twoTo 53 ≤ level + ticks * flow →
      twoTo 53 * twoTo grain ≤ nearestUnits (level * twoTo grain +
        roundedFlow (flow * ticksPerSecond * twoTo grain) (ticks * tick)) 1 := by
    intro many
    refine le_nearestUnits Nat.one_pos (short_mul_twoTo grain le_rfl) ?_
    rcases Nat.le_total (ticks * flow) (twoTo 53) with hfew | hmany
    · rw [roundedFlow_ticks hfew, ← Nat.add_mul, Nat.mul_one]
      exact Nat.mul_le_mul_right _ many
    · have hflow : twoTo 53 * twoTo grain ≤
          roundedFlow (flow * ticksPerSecond * twoTo grain) (ticks * tick) :=
        le_roundedFlow_ticks hmany
      omega
  rcases Nat.le_total (level + ticks * flow) (twoTo 53) with hfew | hmany
  · rw [roundedFlow_ticks (le_of_add_le_right hfew), ← Nat.add_mul,
      (short_mul_twoTo grain hfew).nearestUnits_one, Nat.mul_min_mul_right]
  · rw [Nat.min_eq_right (hcapacity.trans (hfull hmany)), Nat.min_eq_right (le.trans hmany)]

/-! ## Buckets -/

/-- The rate counts in grains of `2 ^ grain` units: one token, the capacity and the flow of a tick
are whole numbers of them, and the capacity is not more than `2 ^ 53`. -/
structure Rate.Grained (rate : Rate) (grain capacity flow : Nat) : Prop where
  one : grain ≤ 1074
  few : capacity ≤ twoTo 53
  capacity : rate.units = capacity * twoTo grain
  flow : rate.refillPerSecond.IsUnits (flow * ticksPerSecond * twoTo grain)

namespace TokenBucket

/-- The level is a whole number of grains, and calls come at whole ticks after the last refill. -/
structure InGrains (b : TokenBucket) (rate : Rate) (grain : Nat) (calls : List Instant) : Prop where
  level : ∃ n, b.Holds rate (n * twoTo grain)
  ticks : ∀ t ∈ calls, (tick : Int) ∣ t.nanos - b.lastRefill.nanos

variable {b : TokenBucket} {rate : Rate} {now : Instant} {calls : List Instant}

theorem since_ticks {earlier : Instant} (whole : (tick : Int) ∣ now.nanos - earlier.nanos) :
    ∃ n, (now.since earlier).nanos = n * tick := by
  obtain ⟨k, hk⟩ := whole
  refine ⟨k.toNat, ?_⟩
  rw [Instant.since_nanos, hk]
  unfold tick
  omega

/-- A refill counts grains. -/
theorem Holds.refill_grains (h : b.Holds rate (level * twoTo grain))
    (grained : rate.Grained grain capacity flow)
    (elapsed : (now.since b.lastRefill).nanos = ticks * tick) :
    (b.refill now).Holds rate (min (level + ticks * flow) capacity * twoTo grain) := by
  have hrefill := h.refill_holds now
  rwa [h.filled_eq grained.flow, elapsed, grained.capacity, refilled_grains grained.few] at hrefill

/-- So does a call. -/
theorem InGrains.tryTakeOne (h : b.InGrains rate grain (now :: calls))
    (grained : rate.Grained grain capacity flow) :
    (b.tryTakeOne now).1.InGrains rate grain calls := by
  obtain ⟨level, hlevel⟩ := h.level
  have hnow := h.ticks now List.mem_cons_self
  obtain ⟨ticks, helapsed⟩ := since_ticks hnow
  have hrefill := hlevel.refill_grains grained helapsed
  constructor
  · rcases Nat.lt_or_ge (min (level + ticks * flow) capacity * twoTo grain) unitsPerOne with lt | ge
    · rw [hrefill.tryTakeOne_refused lt]
      exact ⟨_, hrefill⟩
    · -- A token is a whole number of grains, so taking it is exact.
      have hone : unitsPerOne = twoTo (1074 - grain) * twoTo grain := by
        rw [← twoTo_add, Nat.sub_add_cancel grained.one]
        rfl
      have hleft := (hrefill.tryTakeOne_granted ge).2
      have hfew : min (level + ticks * flow) capacity - twoTo (1074 - grain) ≤ twoTo 53 :=
        (Nat.sub_le _ _).trans ((Nat.min_le_right _ _).trans grained.few)
      rw [hone, ← Nat.sub_mul, (short_mul_twoTo grain hfew).nearestUnits_one] at hleft
      exact ⟨_, hleft⟩
  · intro t ht
    have hlater := h.ticks t (List.mem_cons_of_mem now ht)
    rw [tryTakeOne_lastRefill]
    unfold Instant.latest
    split
    · have hdiff : t.nanos - now.nanos =
          (t.nanos - b.lastRefill.nanos) - (now.nanos - b.lastRefill.nanos) := by omega
      rw [hdiff]
      exact Int.dvd_sub hlater hnow
    · exact hlater

theorem InGrains.afterCalls {later : List Instant} (h : b.InGrains rate grain (calls ++ later))
    (grained : rate.Grained grain capacity flow) :
    (b.afterCalls calls).InGrains rate grain later := by
  induction calls generalizing b with
  | nil => exact h
  | cons t ts ih => exact ih (h.tryTakeOne grained)

/-- Two refills do what one does. -/
theorem InGrains.refill_twice {first : Instant} (h : b.InGrains rate grain (first :: now :: calls))
    (grained : rate.Grained grain capacity flow) (le : first.nanos ≤ now.nanos) :
    (b.refill first).refill now = b.refill now := by
  obtain ⟨level, hlevel⟩ := h.level
  obtain ⟨n, hfirst⟩ := since_ticks (h.ticks first List.mem_cons_self)
  obtain ⟨m, hnow⟩ := since_ticks (h.ticks now (List.mem_cons_of_mem first List.mem_cons_self))
  have hparts := Instant.since_latest b.lastRefill le
  have hrest : (now.since (b.refill first).lastRefill).nanos = (m - n) * tick := by
    show (now.since (b.lastRefill.latest first)).nanos = (m - n) * tick
    rw [Nat.sub_mul]
    omega
  have hwhole : m = n + (m - n) := by
    have hle : n * tick ≤ m * tick := by omega
    have := Nat.le_of_mul_le_mul_right hle tick_pos
    omega
  have htwice := (hlevel.refill_grains grained hfirst).refill_grains grained hrest
  have honce := hlevel.refill_grains grained hnow
  -- Cutting off at the capacity once more makes no difference.
  have hlevels : min (min (level + n * flow) capacity + (m - n) * flow) capacity =
      min (level + m * flow) capacity := by
    rw [hwhole, Nat.add_sub_cancel_left, Nat.add_mul]
    omega
  rw [hlevels] at htwice
  exact htwice.ext honce (Instant.latest_latest b.lastRefill le)

end TokenBucket

end Gatehouse
