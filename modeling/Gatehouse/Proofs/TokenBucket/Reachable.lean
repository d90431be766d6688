import Gatehouse.Proofs.TokenBucket.Level
/-!
# The buckets that there can be

A bucket starts full, and calls may take any cost at any instant: a negative one, an infinite one,
even one that is no number (`Reachable`). Whatever they take, the level keeps a clear sign bit or is
no number (`Reachable.made`), and the next refill puts it within the capacity (`Made.refill_holds`).
A level that was not there before is made the full one (`Made.holds_or_full`).
-/

namespace Gatehouse

open Binary64

namespace Binary64

theorem signed_not (s : Bool) (u : Nat) : signed (!s) u = -signed s u := by
  cases s <;> simp [signed]

/-- A cost that a number without a sign is not below leaves one without a sign. -/
theorem IsUnsigned.sub {x cost : Binary64} (h : x.IsUnsigned) (ge : x.lt cost = false) :
    (x - cost).IsUnsigned := by
  show (Binary64.sub x cost).IsUnsigned
  rcases h.cases with rfl | rfl | ⟨u, hu, rfl⟩
  · trivial
  · cases cost with
    | nan => trivial
    | infinite s => cases s <;> trivial
    | finite s v hv => rfl
  · cases cost with
    | nan => trivial
    | infinite s =>
        cases s with
        | false => cases ge
        | true => rfl
    | finite s v hv =>
        -- The difference is not negative, so what it rounds to has a clear sign bit.
        have hdiff : ¬ signed false u + signed (!s) v < 0 := by
          rw [lt, decide_eq_false_iff_not] at ge
          rw [signed_not]
          omega
        rw [Binary64.sub, neg, add]
        simp only [hdiff, decide_false, Bool.false_and]
        split
        · rfl
        · exact ofRatio_isUnsigned _ _

end Binary64

/-- A level at or above the capacity is cut off there. -/
theorem filled_over (flow : Binary64) {level capacity : Nat} (short : Short capacity)
    (le : capacity ≤ level) : filled flow level capacity = capacity := by
  unfold filled
  split
  · exact Nat.min_eq_right (le_nearestUnits Nat.one_pos short (by omega))
  · rfl

namespace TokenBucket

/-- The bucket can come about by calls that take some cost at some instant each. -/
inductive Reachable (rate : Rate) : TokenBucket → Prop
  | full (now : Instant) : Reachable rate (full rate now)
  | take {b : TokenBucket} (h : Reachable rate b) (cost : Binary64) (now : Instant) :
      Reachable rate (b.tryTake cost now).1

variable {b : TokenBucket} {rate : Rate}

/-- A level that is not within the capacity is made the full one by any refill. -/
theorem Made.holds_or_full (h : b.Made rate) :
    (∃ level, b.Holds rate level) ∨ ∀ now, (b.refill now).Holds rate rate.units := by
  have hcapacity := rate.capacity_isUnits
  have hfull : (∀ now, ((b.tokens + b.credit now).min rate.capacity).IsUnits rate.units) →
      ∀ now, (b.refill now).Holds rate rate.units := by
    intro hmin now
    refine ⟨h.capacity, h.refill, ?_, le_rfl⟩
    show ((b.tokens + b.credit now).min b.capacity).IsUnits rate.units
    rw [h.capacity]
    exact hmin now
  rcases h.tokens.cases with hnan | hinf | ⟨u, hu⟩
  · right
    apply hfull
    intro now
    rw [hnan]
    exact hcapacity
  · right
    apply hfull
    intro now
    rw [hinf]
    rcases (h.credit_isUnsigned now).cases with hcredit | hcredit | ⟨v, _, hcredit⟩
    · rw [hcredit]
      exact hcapacity
    · rw [hcredit]
      exact (min_infinite hcapacity).symm ▸ hcapacity
    · rw [hcredit]
      exact (min_infinite hcapacity).symm ▸ hcapacity
  · rcases Nat.lt_or_ge rate.units u with hover | hwithin
    · right
      apply hfull
      intro now
      have hfilled := filled_isUnits hu (h.credit_isUnsigned now) hcapacity
      rwa [filled_over _ hcapacity.short hover.le] at hfilled
    · exact .inl ⟨u, h.capacity, h.refill, hu, hwithin⟩

/-- After a refill the level is within the capacity, whatever it was. -/
theorem Made.refill_holds (h : b.Made rate) (now : Instant) :
    ∃ level, (b.refill now).Holds rate level := by
  rcases h.holds_or_full with ⟨level, hlevel⟩ | hfull
  · exact ⟨_, hlevel.refill_holds now⟩
  · exact ⟨_, hfull now⟩

theorem Made.tryTake (h : b.Made rate) (cost : Binary64) (now : Instant) :
    (b.tryTake cost now).1.Made rate := by
  obtain ⟨_, hrefill⟩ := h.refill_holds now
  have hmade := hrefill.made
  unfold TokenBucket.tryTake
  dsimp only
  split
  · exact hmade
  · rename_i hge
    refine ⟨hmade.capacity, hmade.refill, ?_⟩
    exact hmade.tokens.sub (Bool.eq_false_of_not_eq_true hge)

theorem Reachable.made (h : Reachable rate b) : b.Made rate := by
  induction h with
  | full now => exact (full_holds rate now).made
  | take _ cost now ih => exact ih.tryTake cost now

/-- Calls that take one token each are among those that there can be. -/
theorem Reachable.afterCalls (h : Reachable rate b) (calls : List Instant) :
    Reachable rate (b.afterCalls calls) := by
  induction calls generalizing b with
  | nil => exact h
  | cons t ts ih => exact ih (h.take .one t)

theorem Made.afterCalls (h : b.Made rate) (calls : List Instant) :
    (b.afterCalls calls).Made rate := by
  induction calls generalizing b with
  | nil => exact h
  | cons t ts ih => exact ih (h.tryTake .one t)

end TokenBucket

end Gatehouse
