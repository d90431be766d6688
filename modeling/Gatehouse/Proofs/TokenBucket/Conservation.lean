import Gatehouse.Proofs.TokenBucket.Level
/-!
# Conservation of tokens

A bucket gains at a call what refilling adds to its level (`gain`), and loses one token at every
call that it admits. Up to a capacity of `2 ^ 53` nothing else happens to the level, although every
step rounds:

* one is taken away exactly (`Holds.tryTakeOne_exact`), so the books of a call balance
  (`Holds.tryTakeOne_tokens`), and by induction those of a run (`Holds.afterCalls_tokens`);
* a refill never lowers the level (`Holds.gain_nonneg`), and at an instant that is not later than
  the latest one seen it leaves the level as it is (`Holds.gain_stalled`);
* so while the clock stands still the whole tokens are handed out first come, first served
  (`Holds.verdicts_stalled`).
-/

namespace Gatehouse

open Binary64

theorem Rate.units_le_of_capacity {rate : Rate} (small : rate.capacity.toRat ≤ 2 ^ 53) :
    rate.units ≤ twoTo 53 * unitsPerOne := by
  have hone : (0 : ℚ) < unitsPerOne := by exact_mod_cast unitsPerOne_pos
  rw [rate.capacity_isUnits.toRat_eq, div_le_iff₀ hone] at small
  rw [twoTo_eq 53]
  exact_mod_cast small

namespace TokenBucket

/-- What a call at an instant gains: the level after refilling less the level before. -/
def gain (b : TokenBucket) (now : Instant) : ℚ :=
  (b.refill now).tokens.toRat - b.tokens.toRat

/-- What the calls at some instants gain, in order. -/
def gains (b : TokenBucket) : List Instant → List ℚ
  | [] => []
  | t :: ts => b.gain t :: (b.tryTakeOne t).1.gains ts

/-- The answers to some calls when there are tokens for the first few of them only. -/
def firstAdmitted (tokens calls : Nat) : List Bool :=
  List.replicate (min calls tokens) true ++ List.replicate (calls - tokens) false

@[simp] theorem firstAdmitted_no_calls (tokens : Nat) : firstAdmitted tokens 0 = [] := by
  simp [firstAdmitted]

theorem firstAdmitted_no_tokens (calls : Nat) :
    firstAdmitted 0 (calls + 1) = false :: firstAdmitted 0 calls := by
  simp [firstAdmitted, List.replicate_succ]

theorem firstAdmitted_succ (tokens calls : Nat) :
    firstAdmitted (tokens + 1) (calls + 1) = true :: firstAdmitted tokens calls := by
  simp [firstAdmitted, Nat.add_min_add_right, Nat.add_sub_add_right, List.replicate_succ]

theorem count_firstAdmitted (tokens calls : Nat) :
    (firstAdmitted tokens calls).count true = min calls tokens := by
  simp [firstAdmitted, List.count_replicate]

variable {b : TokenBucket} {rate : Rate} {level : Nat}

/-! ## One call -/

/-- An admitted call takes one token, and the difference is exact. -/
theorem Holds.tryTakeOne_exact {now : Instant} (h : (b.refill now).Holds rate level)
    (small : rate.units ≤ twoTo 53 * unitsPerOne) (ge : unitsPerOne ≤ level) :
    (b.tryTakeOne now).2 = true ∧ (b.tryTakeOne now).1.Holds rate (level - unitsPerOne) := by
  obtain ⟨hyes, hleft⟩ := h.tryTakeOne_granted ge
  have hshort := short_sub_unitsPerOne h.tokens.short ge (h.level_le.trans small)
  have hround := nearestUnits_of_short hshort Nat.one_pos
  rw [Nat.mul_one] at hround
  rw [hround] at hleft
  exact ⟨hyes, hleft⟩

/-- What a call does to the level: it gains what refilling adds, and an admission costs one. -/
theorem Holds.tryTakeOne_tokens (h : b.Holds rate level)
    (small : rate.units ≤ twoTo 53 * unitsPerOne) (now : Instant) :
    (b.tryTakeOne now).1.tokens.toRat =
      b.tokens.toRat + b.gain now - if (b.tryTakeOne now).2 then 1 else 0 := by
  have hrefill := h.refill_holds now
  unfold gain
  -- A refused call leaves what refilling made of the level, an admitted one takes one exactly.
  rcases Nat.lt_or_ge (filled (b.credit now) level rate.units) unitsPerOne with lt | ge
  · rw [hrefill.tryTakeOne_refused lt]
    simp
  · obtain ⟨hyes, hleft⟩ := hrefill.tryTakeOne_exact small ge
    have hone : (unitsPerOne : ℚ) ≠ 0 := by exact_mod_cast unitsPerOne_pos.ne'
    rw [hyes, hleft.tokens.toRat_eq, hrefill.tokens.toRat_eq, Nat.cast_sub ge, sub_div,
      div_self hone, if_pos rfl]
    ring

theorem Holds.gain_nonneg (h : b.Holds rate level) (now : Instant) : 0 ≤ b.gain now := by
  have hle : level ≤ filled (b.credit now) level rate.units :=
    le_filled _ h.tokens.short h.level_le
  unfold gain
  rw [(h.refill_holds now).tokens.toRat_eq, h.tokens.toRat_eq, sub_nonneg]
  gcongr

/-- Up to a capacity of `2 ^ 53` every flow is finite, so a clock that stands still adds nothing. -/
theorem Holds.refill_stalled (h : b.Holds rate level)
    (small : rate.units ≤ twoTo 53 * unitsPerOne) {now : Instant}
    (stalled : now.nanos ≤ b.lastRefill.nanos) : (b.refill now).Holds rate level := by
  obtain ⟨_, hflow⟩ := Rate.refillPerSecond_isUnits small
  exact h.refill_of_seen hflow stalled

/-- A call that is not later than the latest one gains nothing. -/
theorem Holds.gain_stalled (h : b.Holds rate level)
    (small : rate.units ≤ twoTo 53 * unitsPerOne) {now : Instant}
    (stalled : now.nanos ≤ b.lastRefill.nanos) : b.gain now = 0 := by
  unfold gain
  rw [(h.refill_stalled small stalled).tokens.toRat_eq, h.tokens.toRat_eq, sub_self]

/-! ## Many calls -/

/-- The books of a run balance. -/
theorem Holds.afterCalls_tokens (h : b.Holds rate level)
    (small : rate.units ≤ twoTo 53 * unitsPerOne) (calls : List Instant) :
    (b.afterCalls calls).tokens.toRat =
      b.tokens.toRat + (b.gains calls).sum - (b.verdicts calls).count true := by
  induction calls generalizing b level with
  | nil => simp [gains, verdicts]
  | cons t ts ih =>
      obtain ⟨left, hleft⟩ := h.tryTakeOne_holds t
      rw [afterCalls_cons, ih hleft, h.tryTakeOne_tokens small t]
      simp only [gains, verdicts, List.sum_cons, List.count_cons]
      cases (b.tryTakeOne t).2 with
      | true =>
          simp only [if_true, beq_self_eq_true]
          push_cast
          ring
      | false =>
          simp only [Bool.false_eq_true, if_false, beq_iff_eq]
          push_cast
          ring

/-- A call that is not later than the latest one leaves the clock of the bucket where it is, so
the calls after it find it standing still, too. -/
theorem stalled_tail {t : Instant} {ts : List Instant}
    (stalled : ∀ u ∈ t :: ts, u.nanos ≤ b.lastRefill.nanos) :
    ∀ u ∈ ts, u.nanos ≤ (b.tryTakeOne t).1.lastRefill.nanos := by
  intro u hu
  rw [tryTakeOne_lastRefill, Instant.latest_eq_left (stalled t List.mem_cons_self)]
  exact stalled u (List.mem_cons_of_mem t hu)

/-- While the clock stands still, the whole tokens go to the first calls. -/
theorem Holds.verdicts_stalled (h : b.Holds rate level)
    (small : rate.units ≤ twoTo 53 * unitsPerOne) {calls : List Instant}
    (stalled : ∀ t ∈ calls, t.nanos ≤ b.lastRefill.nanos) :
    b.verdicts calls = firstAdmitted (level / unitsPerOne) calls.length := by
  induction calls generalizing b level with
  | nil => simp [verdicts]
  | cons t ts ih =>
      have hrefill := h.refill_stalled small (stalled t List.mem_cons_self)
      have hrest := stalled_tail stalled
      rcases Nat.lt_or_ge level unitsPerOne with lt | ge
      · have hno := hrefill.tryTakeOne_refused lt
        rw [hno] at hrest
        have hempty : level / unitsPerOne = 0 := Nat.div_eq_of_lt lt
        have hafter := ih hrefill hrest
        rw [hempty] at hafter ⊢
        rw [verdicts, hno, hafter, List.length_cons, firstAdmitted_no_tokens]
      · obtain ⟨hyes, hleft⟩ := hrefill.tryTakeOne_exact small ge
        have htokens : level / unitsPerOne = (level - unitsPerOne) / unitsPerOne + 1 :=
          Nat.div_eq_sub_div unitsPerOne_pos ge
        rw [verdicts, hyes, ih hleft hrest, List.length_cons, htokens, firstAdmitted_succ]

/-- While the clock stands still, as many calls as there are tokens for take just these. -/
theorem Holds.afterCalls_stalled (h : b.Holds rate level)
    (small : rate.units ≤ twoTo 53 * unitsPerOne) {calls : List Instant}
    (stalled : ∀ t ∈ calls, t.nanos ≤ b.lastRefill.nanos)
    (enough : calls.length * unitsPerOne ≤ level) :
    (b.afterCalls calls).Holds rate (level - calls.length * unitsPerOne) := by
  induction calls generalizing b level with
  | nil =>
      show b.Holds rate (level - 0 * unitsPerOne)
      rw [Nat.zero_mul, Nat.sub_zero]
      exact h
  | cons t ts ih =>
      have hrefill := h.refill_stalled small (stalled t List.mem_cons_self)
      rw [List.length_cons, Nat.add_mul, Nat.one_mul] at enough ⊢
      obtain ⟨-, hleft⟩ := hrefill.tryTakeOne_exact small (by omega)
      have hrest := ih hleft (stalled_tail stalled) (by omega)
      rw [Nat.sub_sub, Nat.add_comm unitsPerOne] at hrest
      exact hrest

theorem Holds.floor_tokens (h : b.Holds rate level) :
    ⌊b.tokens.toRat⌋₊ = level / unitsPerOne := by
  rw [h.tokens.toRat_eq, Nat.floor_div_eq_div]

/-- The clock of a bucket is at or after every instant it has seen. -/
theorem afterCalls_full_stalled {start now : Instant} {calls : List Instant}
    (seen : ∃ t ∈ start :: calls, now.nanos ≤ t.nanos) :
    now.nanos ≤ ((full rate start).afterCalls calls).lastRefill.nanos := by
  obtain ⟨t, ht, hle⟩ := seen
  rw [afterCalls_lastRefill]
  show now.nanos ≤ (Instant.latestOf start calls).nanos
  rcases List.mem_cons.mp ht with rfl | hmem
  · exact hle.trans (Instant.le_latestOf t calls)
  · exact hle.trans (Instant.mem_le_latestOf start hmem)

/-- **Tokens are conserved.** Take a rate with a capacity of at most `2 ^ 53`, and a bucket that
starts full and has any calls behind it, be the clock as it may. Its level is the capacity, plus
what the calls have gained, less the calls that it admitted. Every call gains nothing or something,
and nothing if it is not later than the latest instant before it. Calls that are not later than the
latest one so far are admitted as long as there are whole tokens, and from then on no more; so a
fresh bucket admits as many immediate calls as its capacity has whole tokens. -/
theorem tokens_are_conserved (rate : Rate) (small : rate.capacity.toRat ≤ 2 ^ 53)
    (start : Instant) (calls : List Instant) :
    ((full rate start).afterCalls calls).tokens.isFinite = true ∧
    ((full rate start).afterCalls calls).tokens.toRat =
      rate.capacity.toRat + ((full rate start).gains calls).sum -
        ((full rate start).verdicts calls).count true ∧
    (∀ before now after, calls = before ++ now :: after →
      (((full rate start).afterCalls before).refill now).tokens.isFinite = true ∧
      0 ≤ ((full rate start).afterCalls before).gain now ∧
      ((∃ seen ∈ start :: before, now.nanos ≤ seen.nanos) →
        ((full rate start).afterCalls before).gain now = 0)) ∧
    (∀ stalled : List Instant,
      (∀ t ∈ stalled, ∃ seen ∈ start :: calls, t.nanos ≤ seen.nanos) →
      ((full rate start).afterCalls calls).verdicts stalled =
        firstAdmitted ⌊((full rate start).afterCalls calls).tokens.toRat⌋₊ stalled.length) ∧
    ∀ n, ((full rate start).verdicts (List.replicate n start)).count true =
      min n ⌊rate.capacity.toRat⌋₊ := by
  have hsmall := Rate.units_le_of_capacity small
  have hfull := full_holds rate start
  obtain ⟨level, hlevel⟩ := hfull.afterCalls_holds calls
  refine ⟨hlevel.tokens.isFinite, hfull.afterCalls_tokens hsmall calls, ?_, ?_, ?_⟩
  · intro before now after _
    obtain ⟨_, hbefore⟩ := hfull.afterCalls_holds before
    refine ⟨(hbefore.refill_holds now).tokens.isFinite, hbefore.gain_nonneg now, ?_⟩
    intro seen
    exact hbefore.gain_stalled hsmall (afterCalls_full_stalled seen)
  · intro stalled hstalled
    rw [hlevel.floor_tokens]
    exact hlevel.verdicts_stalled hsmall fun t ht => afterCalls_full_stalled (hstalled t ht)
  · intro n
    have hnow : ∀ t ∈ List.replicate n start, t.nanos ≤ (full rate start).lastRefill.nanos := by
      intro t ht
      rw [List.eq_of_mem_replicate ht]
      rfl
    have hfloor : ⌊rate.capacity.toRat⌋₊ = rate.units / unitsPerOne := hfull.floor_tokens
    rw [hfull.verdicts_stalled hsmall hnow, count_firstAdmitted, List.length_replicate, hfloor]

/-- Five calls in eight seconds. -/
def fiveInEight : Rate where
  count := .ofNat 5
  period := Duration.ofSeconds 8
  count_pos := by decide +kernel
  period_pos := by decide

/-- After one call of five, four of the next six at the same instant are admitted. -/
theorem tokens_are_conserved_in_a_burst :
    fiveInEight.capacity.toRat ≤ 2 ^ 53 ∧
    ((full fiveInEight .origin).afterCalls [.origin]).tokens.toRat = 4 ∧
    ((full fiveInEight .origin).afterCalls [.origin]).verdicts (List.replicate 6 .origin) =
      [true, true, true, true, false, false] := by
  have hcapacity : fiveInEight.capacity.toRat = 5 := by
    have hone : (unitsPerOne : ℚ) ≠ 0 := by exact_mod_cast unitsPerOne_pos.ne'
    have hfive : fiveInEight.capacity.IsUnits (5 * unitsPerOne) :=
      ofNat_isUnits_of_le (by decide +kernel)
    rw [hfive.toRat_eq, Nat.cast_mul, mul_div_assoc, div_self hone]
    norm_num
  have hsmall : fiveInEight.capacity.toRat ≤ 2 ^ 53 := by
    rw [hcapacity]
    norm_num
  obtain ⟨-, htokens, hgain, hstalled, hfresh⟩ :=
    tokens_are_conserved fiveInEight hsmall .origin [.origin]
  have hnothing : (full fiveInEight .origin).gain .origin = 0 :=
    (hgain [] .origin [] rfl).2.2 ⟨.origin, List.mem_cons_self, le_rfl⟩
  have hone : ((full fiveInEight .origin).verdicts [.origin]).count true = 1 := by
    have h := hfresh 1
    rw [hcapacity] at h
    simpa using h
  have hfour : ((full fiveInEight .origin).afterCalls [.origin]).tokens.toRat = 4 := by
    rw [htokens, hcapacity, hone]
    simp only [gains, hnothing, List.sum_cons, List.sum_nil]
    norm_num
  have hrest := hstalled (List.replicate 6 .origin) (by
    intro t ht
    exact ⟨t, by simp [List.eq_of_mem_replicate ht], le_rfl⟩)
  rw [hfour] at hrest
  refine ⟨hsmall, hfour, hrest.trans ?_⟩
  simp [firstAdmitted, List.replicate_succ]

end TokenBucket

end Gatehouse
