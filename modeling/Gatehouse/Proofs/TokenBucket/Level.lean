import Gatehouse.Proofs.Time.Seconds
import Gatehouse.Proofs.TokenBucket.Calls
/-!
# The level of a bucket

Through any calls a bucket holds a finite number of units without a sign, never more than its
capacity (`Holds`). A refill takes the level to `filled`, whatever flows in: an infinite flow, or
one that is no number, fills the bucket up.
-/

namespace Gatehouse

open Binary64

/-! ## What flows in -/

theorem Binary64.IsUnits.isPositive {x : Binary64} {u : Nat} (h : x.IsUnits u) (pos : 0 < u) :
    x.isPositive = true := by
  have hlt := zero_isUnits.lt_iff h
  unfold Binary64.isPositive
  rw [h.isFinite, Bool.true_and]
  exact hlt.mpr pos

theorem Binary64.one_isPositive : one.isPositive = true := one_isUnits.isPositive unitsPerOne_pos

theorem Rate.second_pos : 0 < Rate.second.nanos := by decide

namespace Rate

/-- The capacity in units. -/
def units (r : Rate) : Nat := r.count.units

theorem count_isUnits (r : Rate) : r.count.IsUnits r.units ∧ 0 < r.units := by
  have hpos := r.count_pos
  unfold units
  cases hcount : r.count with
  | nan => rw [hcount] at hpos; exact absurd hpos (by decide)
  | infinite s => rw [hcount] at hpos; exact absurd hpos (by cases s <;> decide)
  | finite s u h =>
      rw [hcount] at hpos
      simp only [isPositive, isFinite, zero, lt, signed_false, Bool.true_and,
        decide_eq_true_eq] at hpos
      cases s with
      | false =>
          rw [signed_false] at hpos
          exact ⟨⟨h, rfl⟩, by exact_mod_cast hpos⟩
      | true =>
          exfalso
          simp only [signed, if_true] at hpos
          omega

theorem capacity_isUnits (r : Rate) : r.capacity.IsUnits r.units := r.count_isUnits.1

theorem refillPerSecond_eq (r : Rate) :
    r.refillPerSecond = ofRatio false (r.units * unitsPerOne) (secondUnits r.period.nanos) :=
  r.capacity_isUnits.div_eq r.period.toSeconds_isUnits (secondUnits_pos r.period_pos).ne'

/-- What flows in per second is infinite or has units. -/
theorem refillPerSecond_cases (r : Rate) :
    r.refillPerSecond = .infinite false ∨ ∃ u, r.refillPerSecond.IsUnits u := by
  rw [refillPerSecond_eq]
  rcases Nat.lt_or_ge (nearestUnits (r.units * unitsPerOne) (secondUnits r.period.nanos))
    overflowUnits with h | h
  · exact .inr ⟨_, ofRatio_isUnits _ _ h⟩
  · exact .inl (ofRatio_infinite h)

/-- Up to a capacity of `2 ^ 53`, what flows in per second is finite. -/
theorem refillPerSecond_isUnits {r : Rate} (small : r.units ≤ twoTo 53 * unitsPerOne) :
    ∃ u, r.refillPerSecond.IsUnits u := by
  have hseconds := le_secondUnits r.period_pos
  have hle : nearestUnits (r.units * unitsPerOne) (secondUnits r.period.nanos) ≤
      twoTo (53 + 1074 + 30) := by
    refine nearestUnits_le (secondUnits_pos r.period_pos) (short_twoTo _) ?_
    have hone : unitsPerOne = twoTo 30 * twoTo 1044 := twoTo_add 30 1044
    calc r.units * unitsPerOne ≤ twoTo 53 * unitsPerOne * unitsPerOne :=
          Nat.mul_le_mul_right _ small
      _ = twoTo (53 + 1074) * twoTo 30 * twoTo 1044 := by
          rw [Nat.mul_assoc _ (twoTo 30), ← hone, twoTo_add 53 1074]
          rfl
      _ = twoTo (53 + 1074 + 30) * twoTo 1044 := by rw [twoTo_add (53 + 1074) 30]
      _ ≤ twoTo (53 + 1074 + 30) * secondUnits r.period.nanos :=
          Nat.mul_le_mul_left _ hseconds
  rw [refillPerSecond_eq]
  exact ⟨_, ofRatio_isUnits _ _ (hle.trans_lt (twoTo_lt (by omega)))⟩

theorem refillPerSecond_isUnsigned (r : Rate) : r.refillPerSecond.IsUnsigned := by
  rw [refillPerSecond_eq]
  exact ofRatio_isUnsigned _ _

end Rate

/-- The level, in units, that a flow takes a level to under a capacity. -/
def filled (flow : Binary64) (level capacity : Nat) : Nat :=
  match flow with
  | .finite _ u _ => min (nearestUnits (level + u) 1) capacity
  | _ => capacity

theorem filled_isUnits {x flow capacity : Binary64} {level c : Nat} (hx : x.IsUnits level)
    (hflow : flow.IsUnsigned) (hc : capacity.IsUnits c) :
    ((x + flow).min capacity).IsUnits (filled flow level c) := by
  rcases hflow.cases with rfl | rfl | ⟨u, hu⟩
  · obtain ⟨_, rfl⟩ := hx
    exact hc
  · obtain ⟨_, rfl⟩ := hx
    exact (min_infinite hc).symm ▸ hc
  · rw [hx.add_eq hu]
    have hfilled : filled flow level c = min (nearestUnits (level + u) 1) c := by
      obtain ⟨_, rfl⟩ := hu
      rfl
    rw [hfilled]
    -- A sum that overflows is cut off at the capacity, too.
    rcases Nat.lt_or_ge (nearestUnits (level + u) 1) overflowUnits with h | h
    · exact min_isUnits (ofRatio_isUnits _ _ h) hc
    · rw [ofRatio_infinite h, min_infinite hc, Nat.min_eq_right (hc.lt_overflow.le.trans h)]
      exact hc

theorem filled_le (flow : Binary64) (level capacity : Nat) :
    filled flow level capacity ≤ capacity := by
  unfold filled
  split
  · exact Nat.min_le_right _ _
  · exact le_rfl

theorem le_filled (flow : Binary64) {level capacity : Nat} (short : Short level)
    (le : level ≤ capacity) : level ≤ filled flow level capacity := by
  unfold filled
  split
  · exact Nat.le_min.mpr ⟨le_nearestUnits Nat.one_pos short (by omega), le⟩
  · exact le

theorem filled_full (flow : Binary64) {capacity : Nat} (short : Short capacity) :
    filled flow capacity capacity = capacity :=
  Nat.le_antisymm (filled_le flow capacity capacity) (le_filled flow short le_rfl)

theorem filled_nothing {flow : Binary64} {level capacity : Nat} (nothing : flow.IsUnits 0)
    (short : Short level) (le : level ≤ capacity) : filled flow level capacity = level := by
  obtain ⟨_, rfl⟩ := nothing
  have hround := nearestUnits_of_short short Nat.one_pos
  rw [Nat.mul_one] at hround
  simp only [filled, Nat.add_zero, hround]
  exact Nat.min_eq_left le

/-- Into an empty bucket flows just the flow. -/
theorem filled_empty {flow : Binary64} {u : Nat} (capacity : Nat) (hu : flow.IsUnits u) :
    filled flow 0 capacity = min u capacity := by
  have hround := hu.nearestUnits_eq
  obtain ⟨_, rfl⟩ := hu
  simp only [filled, Nat.zero_add, hround]

theorem filled_of_le {flow capacity : Binary64} {c : Nat} (level : Nat) (hc : capacity.IsUnits c)
    (hflow : flow.IsUnsigned) (le : capacity.le flow = true) : filled flow level c = c := by
  rcases hflow.cases with rfl | rfl | ⟨u, hu⟩
  · rfl
  · rfl
  · have hle := (hc.le_iff hu).mp le
    obtain ⟨_, rfl⟩ := hu
    exact Nat.min_eq_right (le_nearestUnits Nat.one_pos hc.short (by omega))

/-! ## Buckets of a rate -/

namespace TokenBucket

/-- The bucket is made for a rate, and its level has no sign. -/
structure Made (b : TokenBucket) (rate : Rate) : Prop where
  capacity : b.capacity = rate.capacity
  refill : b.refillPerSecond = rate.refillPerSecond
  tokens : b.tokens.IsUnsigned

/-- The bucket is made for a rate and has a level, in units, within its capacity. -/
structure Holds (b : TokenBucket) (rate : Rate) (level : Nat) : Prop where
  capacity : b.capacity = rate.capacity
  refill : b.refillPerSecond = rate.refillPerSecond
  tokens : b.tokens.IsUnits level
  level_le : level ≤ rate.units

variable {b : TokenBucket} {rate : Rate} {level : Nat}

theorem full_holds (rate : Rate) (now : Instant) : (full rate now).Holds rate rate.units :=
  ⟨rfl, rfl, rate.capacity_isUnits, le_rfl⟩

theorem Holds.made (h : b.Holds rate level) : b.Made rate :=
  ⟨h.capacity, h.refill, h.tokens.isUnsigned⟩

theorem Made.credit_isUnsigned (h : b.Made rate) (now : Instant) : (b.credit now).IsUnsigned := by
  unfold credit
  rw [h.refill]
  exact (now.since b.lastRefill).toSeconds_isUnits.mul_isUnsigned rate.refillPerSecond_isUnsigned

theorem Holds.credit_isUnsigned (h : b.Holds rate level) (now : Instant) :
    (b.credit now).IsUnsigned :=
  h.made.credit_isUnsigned now

theorem Holds.refill_holds (h : b.Holds rate level) (now : Instant) :
    (b.refill now).Holds rate (filled (b.credit now) level rate.units) where
  capacity := h.capacity
  refill := h.refill
  tokens := filled_isUnits h.tokens (h.credit_isUnsigned now) (h.capacity ▸ rate.capacity_isUnits)
  level_le := filled_le _ _ _

/-- An infinite flow fills the bucket up, even if no time has passed: no seconds of it are no
number, which the capacity cuts off as well. -/
theorem Holds.refill_of_infinite (h : b.Holds rate level)
    (infinite : rate.refillPerSecond = .infinite false) (now : Instant) :
    (b.refill now).Holds rate rate.units := by
  have hrefill := h.refill_holds now
  have hfilled : filled (b.credit now) level rate.units = rate.units := by
    unfold credit
    rw [h.refill, infinite]
    obtain ⟨_, heq⟩ := (now.since b.lastRefill).toSeconds_isUnits
    rw [heq]
    show filled (Binary64.mul _ _) level rate.units = rate.units
    rw [Binary64.mul]
    split <;> rfl
  rwa [hfilled] at hrefill

/-- A finite flow leaves the level at an instant that the bucket has seen. -/
theorem Holds.refill_of_seen {flow : Nat} {now : Instant} (h : b.Holds rate level)
    (hflow : rate.refillPerSecond.IsUnits flow) (seen : now.nanos ≤ b.lastRefill.nanos) :
    (b.refill now).Holds rate level := by
  have hcredit : (b.credit now).IsUnits 0 := by
    have hseconds := (now.since b.lastRefill).toSeconds_isUnits
    rw [Instant.since_eq_zero seen, secondUnits_zero] at hseconds
    unfold credit
    rw [h.refill, hseconds.mul_eq hflow, Nat.zero_mul]
    exact ⟨fits_zero, ofRatio_zero _⟩
  have hrefill := h.refill_holds now
  rwa [filled_nothing hcredit h.tokens.short h.level_le] at hrefill

/-- Below one token after refilling, a call is turned away and takes nothing. -/
theorem Holds.tryTakeOne_refused {now : Instant} (h : (b.refill now).Holds rate level)
    (lt : level < unitsPerOne) : b.tryTakeOne now = (b.refill now, false) :=
  tryTake_of_lt ((h.tokens.lt_iff one_isUnits).mpr lt)

/-- From one token on after refilling, a call is admitted and takes one, rounded. -/
theorem Holds.tryTakeOne_granted {now : Instant} (h : (b.refill now).Holds rate level)
    (ge : unitsPerOne ≤ level) :
    (b.tryTakeOne now).2 = true ∧
      (b.tryTakeOne now).1.Holds rate (nearestUnits (level - unitsPerOne) 1) := by
  have hlt : (b.refill now).tokens.lt .one = false := by
    rw [← Bool.not_eq_true, h.tokens.lt_iff one_isUnits]
    omega
  have hround : nearestUnits (level - unitsPerOne) 1 ≤ level :=
    nearestUnits_le Nat.one_pos h.tokens.short (by omega)
  have hsub := ofRatio_isUnits (level - unitsPerOne) 1 (hround.trans_lt h.tokens.lt_overflow)
  rw [← h.tokens.sub_eq one_isUnits ge] at hsub
  rw [tryTakeOne, tryTake_of_ge hlt]
  exact ⟨rfl, h.capacity, h.refill, hsub, hround.trans h.level_le⟩

theorem Holds.tryTakeOne_holds (h : b.Holds rate level) (now : Instant) :
    ∃ left, (b.tryTakeOne now).1.Holds rate left := by
  have hrefill := h.refill_holds now
  rcases Nat.lt_or_ge (filled (b.credit now) level rate.units) unitsPerOne with lt | ge
  · rw [hrefill.tryTakeOne_refused lt]
    exact ⟨_, hrefill⟩
  · exact ⟨_, (hrefill.tryTakeOne_granted ge).2⟩

theorem Holds.afterCalls_holds (h : b.Holds rate level) (calls : List Instant) :
    ∃ left, (b.afterCalls calls).Holds rate left := by
  induction calls generalizing b level with
  | nil => exact ⟨level, h⟩
  | cons t ts ih =>
      obtain ⟨left, hleft⟩ := h.tryTakeOne_holds t
      exact ih hleft

end TokenBucket

end Gatehouse
