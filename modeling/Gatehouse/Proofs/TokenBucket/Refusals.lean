import Gatehouse.Proofs.TokenBucket.Grains
import Gatehouse.Proofs.TokenBucket.Reachable
/-!
# Is a refused call free?

A refused call takes no token. But it refills the bucket, so the time before it and the time after
it are credited apart, and each credit is rounded. That can make the difference of one token to a
client that asks too early (`early_call_costs_a_token`). It does not:

* where two refills do what one does (`isFree_of_refill_twice`): if the call comes at an instant
  that the bucket has seen, or just before another one at the same instant, and in a bucket that
  counts whole grains;
* where no later call finds the bucket that close to one token (`Apart.verdicts_eq`): the two runs
  start a little apart, and every call adds a little (`Apart.next`).
-/

namespace Gatehouse

open Binary64

theorem Rate.admitsAny_iff (rate : Rate) : rate.admitsAny = true ↔ unitsPerOne ≤ rate.units :=
  one_isUnits.le_iff rate.capacity_isUnits

namespace TokenBucket

open Instant

/-- Every other call is answered as if the refused one had not been made. -/
def IsFree (b : TokenBucket) (before : List Instant) (refused : Instant) (after : List Instant) :
    Prop :=
  b.verdicts (before ++ after) = (b.verdicts (before ++ refused :: after)).eraseIdx before.length

instance (b : TokenBucket) (before : List Instant) (refused : Instant) (after : List Instant) :
    Decidable (b.IsFree before refused after) :=
  inferInstanceAs (Decidable (_ = _))

variable {b b' : TokenBucket} {rate : Rate} {level flow : Nat} {now refused : Instant}
  {before after : List Instant} {gap : ℚ}

theorem length_verdicts (b : TokenBucket) (ts : List Instant) :
    (b.verdicts ts).length = ts.length := by
  induction ts generalizing b with
  | nil => rfl
  | cons t ts ih => rw [verdicts, List.length_cons, ih, List.length_cons]

theorem isFree_iff (b : TokenBucket) (before : List Instant) (refused : Instant)
    (after : List Instant) :
    b.IsFree before refused after ↔
      (b.afterCalls before).verdicts after =
        ((b.afterCalls before).tryTakeOne refused).1.verdicts after := by
  unfold IsFree
  rw [verdicts_append, verdicts_append, verdicts, ← length_verdicts b before,
    List.eraseIdx_append_of_length_le le_rfl, Nat.sub_self, List.eraseIdx_cons_zero,
    List.append_cancel_left_eq]

/-- A refused call leaves the bucket as refilled. -/
theorem tryTakeOne_of_refused (no : (b.tryTakeOne now).2 = false) :
    (b.tryTakeOne now).1 = b.refill now := by
  rw [tryTakeOne, ← Bool.not_eq_true, tryTake_admits_iff, Bool.not_eq_false] at no
  rw [tryTakeOne, tryTake_of_lt no]

/-- Where two refills do what one does, a refused call is free. -/
theorem isFree_of_refill_twice (no : ((b.afterCalls before).tryTakeOne refused).2 = false)
    (twice : ∀ now rest, after = now :: rest →
      ((b.afterCalls before).refill refused).refill now = (b.afterCalls before).refill now) :
    b.IsFree before refused after := by
  rw [isFree_iff, tryTakeOne_of_refused no]
  cases after with
  | nil => rfl
  | cons now rest => exact verdicts_congr (twice now rest rfl).symm rest

/-! ## Buckets that hold no token, and buckets that are always full -/

/-- A bucket that cannot hold a token refuses every call. -/
theorem Made.verdicts_eq_replicate (h : b.Made rate) (small : rate.units < unitsPerOne)
    (calls : List Instant) : b.verdicts calls = List.replicate calls.length false := by
  induction calls generalizing b with
  | nil => rfl
  | cons t ts ih =>
      obtain ⟨_, hrefill⟩ := h.refill_holds t
      have hno := hrefill.tryTakeOne_refused (hrefill.level_le.trans_lt small)
      rw [verdicts, hno, ih hrefill.made]
      rfl

/-- A bucket that can hold a token has it when it is full. -/
theorem admits_of_full (whole : unitsPerOne ≤ rate.units)
    (full : (b.refill now).Holds rate rate.units) : (b.tryTakeOne now).2 = true :=
  (full.tryTakeOne_granted whole).1

/-- A bucket of a rate with a whole token that refuses a call has a level, and its flow is
finite. -/
theorem Made.flows_of_refused (h : b.Made rate) (whole : unitsPerOne ≤ rate.units)
    (no : (b.tryTakeOne now).2 = false) :
    (∃ level, b.Holds rate level) ∧ ∃ flow, rate.Flows flow := by
  rcases h.holds_or_full with ⟨level, hlevel⟩ | hfull
  · rcases rate.refillPerSecond_cases with hinfinite | ⟨flow, hflow⟩
    · have hyes := admits_of_full whole (hlevel.refill_of_infinite hinfinite now)
      rw [hyes] at no
      cases no
    · exact ⟨⟨level, hlevel⟩, flow, whole, hflow⟩
  · have hyes := admits_of_full whole (hfull now)
    rw [hyes] at no
    cases no

/-! ## Two buckets a little apart -/

/-- Two buckets of a rate with one clock, whose ideal levels at an instant are no more than a gap
apart. -/
structure Apart (b b' : TokenBucket) (rate : Rate) (now : Instant) (gap : ℚ) : Prop where
  left : ∃ level, b.Holds rate level
  right : ∃ level, b'.Holds rate level
  clock : b.lastRefill.latest now = b'.lastRefill.latest now
  ideal : |b.idealLevel now - b'.idealLevel now| ≤ gap

/-- What a refill does to the ideal level at a later instant is what it rounds. -/
theorem idealLevel_refill (b : TokenBucket) (le : refused.nanos ≤ now.nanos) :
    (b.refill refused).idealLevel now =
      b.idealLevel now + ((b.refill refused).tokens.toRat - b.idealLevel refused) := by
  have hparts := since_latest b.lastRefill le
  unfold idealLevel
  show (b.refill refused).tokens.toRat +
    (now.since (b.lastRefill.latest refused)).nanos * b.refillPerSecond.toRat / nanosPerSecond = _
  rw [hparts]
  push_cast
  ring

/-- A refill that is not cut off sets a bucket apart from itself by what it rounds. -/
theorem Holds.apart_refill (h : b.Holds rate level) (flows : rate.Flows flow)
    (lt : (b.refill refused).tokens.toRat < rate.capacity.toRat)
    (le : refused.nanos ≤ now.nanos) :
    Apart b (b.refill refused) rate now (5 / 2 * rate.slack) where
  left := ⟨level, h⟩
  right := ⟨_, h.refill_holds refused⟩
  clock := (latest_latest b.lastRefill le).symm
  ideal := by
    have hnear := h.refill_near flows lt
    rw [idealLevel_refill b le, sub_add_cancel_left, abs_neg]
    exact hnear

/-- A call that is clear of one token gets one answer from both. -/
theorem Apart.same_verdict (h : Apart b b' rate now gap) (flows : rate.Flows flow)
    (clear : gap + 5 / 2 * rate.slack < |b.idealLevel now - 1|) :
    (b.tryTakeOne now).2 = (b'.tryTakeOne now).2 := by
  obtain ⟨_, hleft⟩ := h.left
  obtain ⟨_, hright⟩ := h.right
  have hgap := abs_le.mp h.ideal
  have hnonneg := (abs_nonneg _).trans h.ideal
  rcases lt_abs.mp clear with habove | hbelow
  · rw [hleft.admits_of_ideal flows (by linarith), hright.admits_of_ideal flows (by linarith)]
  · rw [hleft.refuses_of_ideal flows (by linarith), hright.refuses_of_ideal flows (by linarith)]

/-- A call with one answer sets the levels apart by no more than six slacks. -/
theorem Apart.tokens_near (h : Apart b b' rate now gap) (flows : rate.Flows flow)
    (same : (b.tryTakeOne now).2 = (b'.tryTakeOne now).2) :
    |(b.tryTakeOne now).1.tokens.toRat - (b'.tryTakeOne now).1.tokens.toRat| ≤
      gap + 6 * rate.slack := by
  obtain ⟨_, hleft⟩ := h.left
  obtain ⟨_, hright⟩ := h.right
  have hrefillLeft := abs_le.mp (hleft.refill_near_min flows now)
  have hrefillRight := abs_le.mp (hright.refill_near_min flows now)
  have hcallLeft := abs_le.mp (hleft.tryTakeOne_near now)
  have hcallRight := abs_le.mp (hright.tryTakeOne_near now)
  rw [← same] at hcallRight
  -- Cutting both off at the capacity does not set them farther apart.
  have hcut : |min (b.idealLevel now) rate.capacity.toRat -
      min (b'.idealLevel now) rate.capacity.toRat| ≤ gap := by
    refine (abs_min_sub_min_le_max _ _ _ _).trans (max_le h.ideal ?_)
    rw [sub_self, abs_zero]
    exact (abs_nonneg _).trans h.ideal
  have hcut := abs_le.mp hcut
  rw [abs_le]
  constructor <;> linarith

/-- So it sets the buckets apart by no more than that at any later instant. -/
theorem Apart.next (h : Apart b b' rate now gap) (flows : rate.Flows flow)
    (same : (b.tryTakeOne now).2 = (b'.tryTakeOne now).2) (later : Instant) :
    Apart (b.tryTakeOne now).1 (b'.tryTakeOne now).1 rate later (gap + 6 * rate.slack) := by
  obtain ⟨_, hleft⟩ := h.left
  obtain ⟨_, hright⟩ := h.right
  obtain ⟨_, hafterLeft⟩ := hleft.tryTakeOne_holds now
  obtain ⟨_, hafterRight⟩ := hright.tryTakeOne_holds now
  have hclock : (b.tryTakeOne now).1.lastRefill = (b'.tryTakeOne now).1.lastRefill := by
    rw [tryTakeOne_lastRefill, tryTakeOne_lastRefill, h.clock]
  refine ⟨⟨_, hafterLeft⟩, ⟨_, hafterRight⟩, by rw [hclock], ?_⟩
  unfold idealLevel
  rw [hclock, hafterLeft.refill, hafterRight.refill, add_sub_add_right_eq_sub]
  exact h.tokens_near flows same

/-- Two buckets that are a little apart give the same answers, as long as every call is clear of one
token by the gap and what the calls before it add to it. -/
theorem Apart.verdicts_eq (h : Apart b b' rate now gap) (flows : rate.Flows flow)
    (clear : ∀ earlier t rest, now :: after = earlier ++ t :: rest →
      gap + (5 / 2 + 6 * earlier.length) * rate.slack <
        |(b.afterCalls earlier).idealLevel t - 1|) :
    b.verdicts (now :: after) = b'.verdicts (now :: after) := by
  have hfirst := clear [] now after rfl
  rw [List.length_nil, Nat.cast_zero, mul_zero, add_zero, afterCalls_nil] at hfirst
  have hsame := h.same_verdict flows hfirst
  induction after generalizing b b' now gap with
  | nil => rw [verdicts, verdicts, hsame, verdicts, verdicts]
  | cons t ts ih =>
      have hnext := h.next flows hsame t
      have hclear : ∀ earlier u rest, t :: ts = earlier ++ u :: rest →
          gap + 6 * rate.slack + (5 / 2 + 6 * earlier.length) * rate.slack <
            |((b.tryTakeOne now).1.afterCalls earlier).idealLevel u - 1| := by
        intro earlier u rest heq
        have hlater := clear (now :: earlier) u rest (by rw [heq, List.cons_append])
        rw [List.length_cons, afterCalls_cons] at hlater
        push_cast at hlater
        refine lt_of_le_of_lt (le_of_eq ?_) hlater
        ring
      have hhead := hclear [] t ts rfl
      rw [List.length_nil, Nat.cast_zero, mul_zero, add_zero, afterCalls_nil] at hhead
      have hrest := ih hnext hclear hhead (hnext.same_verdict flows hhead)
      show (b.tryTakeOne now).2 :: (b.tryTakeOne now).1.verdicts (t :: ts) =
        (b'.tryTakeOne now).2 :: (b'.tryTakeOne now).1.verdicts (t :: ts)
      rw [hsame, hrest]

/-! ## Refused calls -/

/-- A refused call is free if every later call is clear of one token. -/
theorem isFree_of_clear (h : (b.afterCalls before).Holds rate level) (flows : rate.Flows flow)
    (no : ((b.afterCalls before).tryTakeOne refused).2 = false)
    (order : InOrder (refused :: after))
    (clear : ∀ earlier now rest, after = earlier ++ now :: rest →
      (5 + 6 * earlier.length) * rate.slack <
        |(b.afterCalls (before ++ earlier)).idealLevel now - 1|) :
    b.IsFree before refused after := by
  rw [isFree_iff, tryTakeOne_of_refused no]
  cases after with
  | nil => rfl
  | cons now rest =>
      have hlow : ((b.afterCalls before).refill refused).tokens.toRat < rate.capacity.toRat := by
        rw [← Bool.not_eq_true, h.admits_iff, not_le] at no
        exact no.trans_le flows.one_le_capacity
      have hle := (inOrder_cons.mp order).1 now List.mem_cons_self
      refine (h.apart_refill flows hlow hle).verdicts_eq flows ?_
      intro earlier t later heq
      have hclear := clear earlier t later heq
      rw [afterCalls_append] at hclear
      refine lt_of_le_of_lt (le_of_eq ?_) hclear
      ring

/-- **A refused call is free, up to rounding.** Take any bucket that there can be, and any calls in
order, one of which is refused. If all calls after it find the bucket clear of one token, by five
parts in `2 ^ 52` of the capacity and by six more for every call in between, then every other call
is answered as if the refused one had not been made. The distance is that of the ideal level from
one, in the run without the refused call. No call needs to be clear if the bucket counts whole
grains at whole ticks, if the refused call or the one after it comes at an instant that the bucket
has seen, or if the capacity is less than one token. -/
theorem refused_calls_are_free_up_to_rounding (reachable : Reachable rate b)
    (order : InOrder (before ++ refused :: after))
    (no : ((b.afterCalls before).tryTakeOne refused).2 = false) :
    ((∀ earlier now rest, after = earlier ++ now :: rest →
        (5 + 6 * earlier.length) * (rate.capacity.toRat / 2 ^ 52) <
          |(b.afterCalls (before ++ earlier)).idealLevel now - 1|) →
      b.IsFree before refused after) ∧
    (∀ grain capacity flow, rate.Grained grain capacity flow →
      b.InGrains rate grain (before ++ refused :: after) → b.IsFree before refused after) ∧
    (refused.nanos ≤ (b.afterCalls before).lastRefill.nanos → b.IsFree before refused after) ∧
    (∀ rest, after = refused :: rest → b.IsFree before refused after) ∧
    (rate.admitsAny = false → b.IsFree before refused after) := by
  have hmade := reachable.made.afterCalls before
  have horder := (inOrder_append.mp order).2.1
  rcases Nat.lt_or_ge rate.units unitsPerOne with hsmall | hwhole
  · have hfree : b.IsFree before refused after := by
      rw [isFree_iff, hmade.verdicts_eq_replicate hsmall]
      exact ((hmade.tryTake .one refused).verdicts_eq_replicate hsmall after).symm
    exact ⟨fun _ => hfree, fun _ _ _ _ _ => hfree, fun _ => hfree, fun _ _ => hfree,
      fun _ => hfree⟩
  · obtain ⟨⟨level, hlevel⟩, flow, flows⟩ := hmade.flows_of_refused hwhole no
    refine ⟨isFree_of_clear hlevel flows no horder, ?_, ?_, ?_, ?_⟩
    · intro grain capacity flow' grained grains
      apply isFree_of_refill_twice no
      rintro now rest rfl
      have hle := (inOrder_cons.mp horder).1 now List.mem_cons_self
      exact (grains.afterCalls grained).refill_twice grained hle
    · intro seen
      apply isFree_of_refill_twice no
      intro now rest _
      rw [hlevel.refill_seen flows.flow seen]
    · rintro rest rfl
      apply isFree_of_refill_twice no
      intro now rest' heq
      have hnow : refused = now := (List.cons.inj heq).1
      rw [← hnow]
      exact (hlevel.refill_holds refused).refill_seen flows.flow (le_refill_lastRefill _ refused)
    · intro none
      rw [← Bool.not_eq_true, rate.admitsAny_iff] at none
      exact absurd hwhole none

theorem two_lt : 2 < twoTo 64 := by decide +kernel

/-- One call in two seconds. -/
def oneInTwoSeconds : Rate where
  count := .one
  period := Duration.ofSeconds 2 two_lt
  count_pos := one_isPositive
  period_pos := by decide

/-- A client that is served once and asks again after 0.16 seconds is not served after two, although
a token has flowed in by then: 0.08 and 0.92 of a token, rounded apart, are a little less. -/
theorem early_call_costs_a_token :
    let early : Instant := ⟨160000000, by decide +kernel, by decide +kernel⟩
    let due : Instant := ⟨2000000000, by decide +kernel, by decide +kernel⟩
    let b := full oneInTwoSeconds .origin
    InOrder [.origin, early, due] ∧ b.verdicts [.origin, early, due] = [true, false, false] ∧
    b.verdicts [.origin, due] = [true, true] ∧ ¬ b.IsFree [.origin] early [due] := by
  decide +kernel

/-- A grain of `2 ^ -10` tokens flows in per tick. -/
theorem oneInTwoSeconds_grained : oneInTwoSeconds.Grained 1064 1024 1 where
  one := by omega
  few := by decide +kernel
  capacity := by decide +kernel
  flow := by
    have hround : nearestUnits (oneInTwoSeconds.units * unitsPerOne)
        (secondUnits oneInTwoSeconds.period.nanos) = 1 * ticksPerSecond * twoTo 1064 := by
      decide +kernel
    have hflow := ofRatio_isUnits (oneInTwoSeconds.units * unitsPerOne)
      (secondUnits oneInTwoSeconds.period.nanos) (by decide +kernel)
    rwa [← Rate.refillPerSecond_eq, hround] at hflow

/-- The same client is served after three seconds, when the level is clear of one token. And if it
asks after a quarter of a second, which is a whole number of ticks, it is served after two. -/
theorem early_calls_are_free_by_distance_or_grains :
    let early : Instant := ⟨160000000, by decide +kernel, by decide +kernel⟩
    let quarter : Instant := ⟨250000000, by decide +kernel, by decide +kernel⟩
    let due : Instant := ⟨2000000000, by decide +kernel, by decide +kernel⟩
    let overdue : Instant := ⟨3000000000, by decide +kernel, by decide +kernel⟩
    let b := full oneInTwoSeconds .origin
    InOrder [.origin, early, overdue] ∧ InOrder [.origin, quarter, due] ∧
    5 * (oneInTwoSeconds.capacity.toRat / 2 ^ 52) <
      |(b.afterCalls [.origin]).idealLevel overdue - 1| ∧
    b.InGrains oneInTwoSeconds 1064 [.origin, quarter, due] ∧
    b.IsFree [.origin] early [overdue] ∧ b.IsFree [.origin] quarter [due] := by
  intro early quarter due overdue b
  have hreachable : Reachable oneInTwoSeconds b := .full .origin
  have horder : InOrder [.origin, early, overdue] := by decide +kernel
  have horder' : InOrder [.origin, quarter, due] := by decide +kernel
  have hno : ((b.afterCalls [.origin]).tryTakeOne early).2 = false := by decide +kernel
  have hno' : ((b.afterCalls [.origin]).tryTakeOne quarter).2 = false := by decide +kernel
  have hclear : 5 * (oneInTwoSeconds.capacity.toRat / 2 ^ 52) <
      |(b.afterCalls [.origin]).idealLevel overdue - 1| := by decide +kernel
  have hgrains : b.InGrains oneInTwoSeconds 1064 [.origin, quarter, due] := by
    refine ⟨⟨1024, ?_⟩, by decide +kernel⟩
    rw [← oneInTwoSeconds_grained.capacity]
    exact full_holds oneInTwoSeconds .origin
  obtain ⟨hfar, -⟩ := refused_calls_are_free_up_to_rounding hreachable horder hno
  obtain ⟨-, hwhole, -⟩ := refused_calls_are_free_up_to_rounding hreachable horder' hno'
  refine ⟨horder, horder', hclear, hgrains, hfar ?_,
    hwhole 1064 1024 1 oneInTwoSeconds_grained hgrains⟩
  intro earlier now rest heq
  cases earlier with
  | nil =>
      have hnow : overdue = now := (List.cons.inj heq).1
      rw [← hnow, List.append_nil, List.length_nil, Nat.cast_zero, mul_zero, add_zero]
      exact hclear
  | cons first others =>
      have htail := (List.cons.inj heq).2
      simp at htail

end TokenBucket

end Gatehouse
