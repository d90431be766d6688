import Gatehouse.Proofs.TokenBucket.Conservation
import Gatehouse.Proofs.TokenBucket.Reachable
/-!
# Calls of any cost

A cost may be any number: the bucket does not look at it before it compares and subtracts.

* As long as no cost is below zero or no number, an infinite one included, the level stays within
  the capacity and the clock is at the latest instant seen (`level_stays_within_capacity`).
* At an instant that the bucket has seen, a call only takes tokens, whatever the bucket has been
  through, exactly if its cost is not below zero and the flow per second is finite
  (`onlyTakes_iff`). An infinite flow fills the bucket up in no time, since no seconds of it are no
  number.
-/

namespace Gatehouse

open Binary64

namespace Binary64

variable {x y z cost : Binary64} {u v : Nat}

theorem le_trans (h : x.le y = true) (h' : y.le z = true) : x.le z = true := by
  cases x <;> cases y <;> cases z <;>
    simp only [le, Bool.or_eq_true, Bool.not_eq_true', decide_eq_true_eq] at h h' ⊢ <;>
    first | omega | grind

theorem IsUnits.le_infinite (hx : x.IsUnits u) : x.le (infinite false) = true := by
  obtain ⟨_, rfl⟩ := hx
  rfl

theorem IsUnits.zero_le (hx : x.IsUnits u) : zero.le x = true :=
  (zero_isUnits.le_iff hx).mpr u.zero_le

theorem IsUnits.not_isNaN (hx : x.IsUnits u) : x.isNaN = false := by
  obtain ⟨_, rfl⟩ := hx
  rfl

/-- A cost that is not below zero, nor above the number it is taken from, leaves the difference of
their units, rounded. -/
theorem IsUnits.sub_of_nonneg (hx : x.IsUnits u) (nonneg : zero.le cost = true)
    (ge : x.lt cost = false) :
    cost.units ≤ u ∧ (x - cost).IsUnits (nearestUnits (u - cost.units) 1) := by
  have hround : ∀ v, (ofRatio false (u - v) 1).IsUnits (nearestUnits (u - v) 1) := fun v =>
    ofRatio_isUnits _ 1
      ((nearestUnits_le Nat.one_pos hx.short (by omega)).trans_lt hx.lt_overflow)
  cases cost with
  | nan => exact absurd nonneg Bool.false_ne_true
  | infinite s =>
      obtain ⟨_, rfl⟩ := hx
      cases s with
      | false => exact absurd ge Bool.noConfusion
      | true => exact absurd nonneg Bool.false_ne_true
  | finite s v hv =>
      cases s with
      | false =>
          have hcost : (finite false v hv).IsUnits v := ⟨hv, rfl⟩
          have hle : v ≤ u := by
            rw [← Bool.not_eq_true, hx.lt_iff hcost] at ge
            omega
          refine ⟨hle, ?_⟩
          rw [hx.sub_eq hcost hle]
          exact hround v
      | true =>
          -- Only the zero with a sign is not below zero, and it takes nothing.
          have hzero : v = 0 := by
            simp only [le, zero, signed, decide_eq_true_eq, if_true] at nonneg
            simp at nonneg
            omega
          subst hzero
          have hsum := hround 0
          rw [Nat.sub_zero, ← Nat.add_zero u, ← hx.add_eq ⟨hv, rfl⟩, Nat.add_zero] at hsum
          exact ⟨u.zero_le, hsum⟩

end Binary64

namespace TokenBucket

variable {b : TokenBucket} {rate : Rate} {level : Nat} {cost : Binary64} {now : Instant}

/-! ## One call -/

theorem Holds.tryTake_granted (h : (b.refill now).Holds rate level)
    (nonneg : zero.le cost = true) (ge : (b.refill now).tokens.lt cost = false) :
    (b.tryTake cost now).1.Holds rate (nearestUnits (level - cost.units) 1) := by
  rw [tryTake_of_ge ge]
  have hround : nearestUnits (level - cost.units) 1 ≤ level :=
    nearestUnits_le Nat.one_pos h.tokens.short (by omega)
  exact ⟨h.capacity, h.refill, (h.tokens.sub_of_nonneg nonneg ge).2, hround.trans h.level_le⟩

/-- A call whose cost is not below zero leaves no more than what refilling made of the level. -/
theorem Holds.tryTake_le (h : (b.refill now).Holds rate level) (nonneg : zero.le cost = true) :
    ∃ left ≤ level, (b.tryTake cost now).1.Holds rate left := by
  cases hcost : (b.refill now).tokens.lt cost with
  | true =>
      rw [tryTake_of_lt hcost]
      exact ⟨level, le_rfl, h⟩
  | false =>
      exact ⟨_, nearestUnits_le Nat.one_pos h.tokens.short (by omega),
        h.tryTake_granted nonneg hcost⟩

/-! ## Many calls -/

/-- The bucket after calls of some costs at some instants, in order. -/
def afterTakes (b : TokenBucket) (calls : List (Binary64 × Instant)) : TokenBucket :=
  calls.foldl (fun b call => (b.tryTake call.1 call.2).1) b

theorem Holds.afterTakes_holds (h : b.Holds rate level) {calls : List (Binary64 × Instant)}
    (nonneg : ∀ call ∈ calls, zero.le call.1 = true) :
    ∃ left, (b.afterTakes calls).Holds rate left := by
  induction calls generalizing b level with
  | nil => exact ⟨level, h⟩
  | cons call calls ih =>
      rw [List.forall_mem_cons] at nonneg
      obtain ⟨left, -, hleft⟩ := (h.refill_holds call.2).tryTake_le nonneg.1
      exact ih hleft nonneg.2

theorem afterTakes_lastRefill (b : TokenBucket) (calls : List (Binary64 × Instant)) :
    (b.afterTakes calls).lastRefill = Instant.latestOf b.lastRefill (calls.map (·.2)) := by
  induction calls generalizing b with
  | nil => rfl
  | cons call calls ih =>
      rw [List.map_cons, Instant.latestOf_cons, ← tryTake_lastRefill b call.1]
      exact ih _

theorem afterTakes_snoc (b : TokenBucket) (calls : List (Binary64 × Instant)) (cost : Binary64)
    (now : Instant) :
    b.afterTakes (calls ++ [(cost, now)]) = ((b.afterTakes calls).tryTake cost now).1 :=
  List.foldl_append

/-- **The level stays within the capacity.** Take any rate, and a bucket that starts full and has
any calls behind it, at any instants, none of which costs less than nothing. The next such call,
too, leaves a level from zero to the capacity, and the clock at the latest instant so far. It is
refused if it costs more than refilling made of the level, and then leaves just that; otherwise it
takes its cost from it, and what is left is the difference of their units, rounded. -/
theorem level_stays_within_capacity (rate : Rate) (start : Instant)
    (calls : List (Binary64 × Instant)) (cost : Binary64) (now : Instant)
    (costs : ∀ call ∈ calls ++ [(cost, now)], zero.le call.1 = true) :
    let earlier := (full rate start).afterTakes calls
    let refilled := (earlier.refill now).tokens
    let later := (full rate start).afterTakes (calls ++ [(cost, now)])
    (later.tokens.isNaN = false ∧ zero.le later.tokens = true ∧
      later.tokens.le rate.capacity = true) ∧
    IsGreatest {nanos | ∃ t ∈ start :: (calls ++ [(cost, now)]).map (·.2), t.nanos = nanos}
      later.lastRefill.nanos ∧
    ((earlier.tryTake cost now).2 = false ↔ refilled.lt cost = true) ∧
    (refilled.lt cost = true → later.tokens = refilled) ∧
    (refilled.lt cost = false →
      later.tokens = refilled - cost ∧ later.tokens.le refilled = true ∧
        cost.units ≤ refilled.units ∧
        later.tokens.IsUnits (nearestUnits (refilled.units - cost.units) 1)) := by
  intro earlier refilled later
  have hnonneg : zero.le cost = true :=
    costs (cost, now) (List.mem_append_right calls (List.mem_singleton_self _))
  obtain ⟨level, hearlier⟩ := (full_holds rate start).afterTakes_holds fun call hmem =>
    costs call (List.mem_append_left _ hmem)
  have hrefill := hearlier.refill_holds now
  have hlater : later = (earlier.tryTake cost now).1 := afterTakes_snoc _ _ _ _
  obtain ⟨left, hle, hleft⟩ := hrefill.tryTake_le hnonneg
  rw [← hlater] at hleft
  refine ⟨⟨hleft.tokens.not_isNaN, hleft.tokens.zero_le, ?_⟩, ?_, ?_, ?_, ?_⟩
  · exact (hleft.tokens.le_iff rate.capacity_isUnits).mpr hleft.level_le
  · have hclock := afterTakes_lastRefill (full rate start) (calls ++ [(cost, now)])
    rw [show later.lastRefill = _ from hclock]
    exact Instant.isGreatest_latestOf start _
  · rw [← Bool.not_eq_true, tryTake_admits_iff, Bool.not_eq_false]
  · intro hcost
    rw [hlater, tryTake_of_lt hcost]
  · intro hcost
    obtain ⟨hunits, hsub⟩ := hrefill.tokens.sub_of_nonneg hnonneg hcost
    have htokens : later.tokens = refilled - cost := by rw [hlater, tryTake_of_ge hcost]
    rw [← hrefill.tokens.units_eq] at hunits hsub
    exact ⟨htokens, (hleft.tokens.le_iff hrefill.tokens).mpr hle, hunits, htokens ▸ hsub⟩

/-- A bucket of five that has given two turns away an infinite cost, at an earlier instant too, and
keeps its three tokens and its clock. -/
theorem level_stays_within_capacity_after_an_infinite_cost :
    let early : Instant := ⟨-1, by decide +kernel, by decide +kernel⟩
    let b := (full fiveInEight .origin).afterTakes [(.ofNat 2, .origin), (.infinite false, early)]
    (∀ call ∈ [(Binary64.ofNat 2, Instant.origin), (.infinite false, early)],
      zero.le call.1 = true) ∧
    b.tokens = .ofNat 3 ∧ zero.le b.tokens = true ∧
      b.tokens.le fiveInEight.capacity = true ∧ b.lastRefill.nanos = 0 := by
  intro early b
  have hcosts : ∀ call ∈ [(Binary64.ofNat 2, Instant.origin)] ++ [(.infinite false, early)],
      zero.le call.1 = true := by decide +kernel
  obtain ⟨⟨-, hzero, hle⟩, hclock, -, hrefused, -⟩ :=
    level_stays_within_capacity fiveInEight .origin [(.ofNat 2, .origin)] (.infinite false) early
      hcosts
  have htokens := hrefused (by decide +kernel)
  refine ⟨hcosts, htokens.trans (by decide +kernel), hzero, hle, ?_⟩
  exact hclock.unique ⟨⟨.origin, List.mem_cons_self, rfl⟩, by
    rintro _ ⟨t, hmem, rfl⟩
    simp only [List.map_cons, List.map_nil, List.cons_append, List.nil_append,
      List.mem_cons, List.not_mem_nil, or_false] at hmem
    rcases hmem with rfl | rfl | rfl <;> decide⟩

/-! ## Tokens out of nothing -/

/-- A call of this cost only takes: whatever the bucket has been through, at an instant that it has
seen, the call leaves a number of tokens, and no more than there were. -/
def OnlyTakes (rate : Rate) (cost : Binary64) : Prop :=
  ∀ b now, Reachable rate b → b.tokens.isNaN = false → now.nanos ≤ b.lastRefill.nanos →
    (b.tryTake cost now).1.tokens.le b.tokens = true

/-- A level that is a number is within the capacity or above it. -/
theorem Made.holds_or_over (h : b.Made rate) (number : b.tokens.isNaN = false) :
    (∃ level, b.Holds rate level) ∨ rate.capacity.le b.tokens = true := by
  rcases h.tokens.cases with hnan | hinf | ⟨u, hu⟩
  · rw [hnan] at number
    cases number
  · right
    rw [hinf]
    exact rate.capacity_isUnits.le_infinite
  · rcases Nat.lt_or_ge rate.units u with hover | hwithin
    · exact .inr ((rate.capacity_isUnits.le_iff hu).mpr hover.le)
    · exact .inl ⟨u, h.capacity, h.refill, hu, hwithin⟩

/-- At an instant that the bucket has seen, a finite flow does not raise the level. -/
theorem Made.refill_le (h : b.Made rate) (number : b.tokens.isNaN = false) {flow : Nat}
    (hflow : rate.refillPerSecond.IsUnits flow) (seen : now.nanos ≤ b.lastRefill.nanos) :
    ∃ level, (b.refill now).Holds rate level ∧ (b.refill now).tokens.le b.tokens = true := by
  rcases h.holds_or_over number with ⟨level, hlevel⟩ | hover
  · have hrefill := hlevel.refill_of_seen hflow seen
    exact ⟨level, hrefill, (hrefill.tokens.le_iff hlevel.tokens).mpr le_rfl⟩
  · obtain ⟨level, hrefill⟩ := h.refill_holds now
    exact ⟨level, hrefill,
      le_trans ((hrefill.tokens.le_iff rate.capacity_isUnits).mpr hrefill.level_le) hover⟩

/-- The whole capacity is taken from a full bucket, and nothing is left. -/
theorem Holds.take_capacity (h : (b.refill now).Holds rate rate.units) :
    (b.tryTake rate.capacity now).1.Holds rate 0 := by
  have hcapacity := rate.capacity_isUnits
  have hge : (b.refill now).tokens.lt rate.capacity = false := by
    rw [← Bool.not_eq_true, h.tokens.lt_iff hcapacity]
    omega
  have hleft := h.tryTake_granted hcapacity.zero_le hge
  rwa [hcapacity.units_eq, Nat.sub_self, nearestUnits_zero] at hleft

/-- A bucket that has given its whole capacity away at the instant it was made. -/
def emptied (rate : Rate) (start : Instant) : TokenBucket :=
  ((full rate start).tryTake rate.capacity start).1

theorem emptied_reachable (rate : Rate) (start : Instant) : Reachable rate (emptied rate start) :=
  .take (.full start) rate.capacity start

theorem emptied_holds (rate : Rate) (start : Instant) : (emptied rate start).Holds rate 0 := by
  have hrefill := (full_holds rate start).refill_holds start
  rw [filled_full _ rate.capacity_isUnits.short] at hrefill
  exact hrefill.take_capacity

theorem emptied_seen (rate : Rate) (start : Instant) :
    start.nanos ≤ (emptied rate start).lastRefill.nanos := by
  unfold emptied
  rw [tryTake_lastRefill, Instant.latest_nanos]
  exact le_max_right _ _

/-- From an empty bucket a call that only takes leaves nothing. -/
theorem OnlyTakes.from_empty (h : OnlyTakes rate cost) (start : Instant) :
    ((emptied rate start).tryTake cost start).1.tokens.le zero = true := by
  have hempty := emptied_holds rate start
  have hle := h _ start (emptied_reachable rate start) hempty.tokens.not_isNaN
    (emptied_seen rate start)
  rwa [hempty.tokens.ext zero_isUnits] at hle

/-- What is below zero, or no number, is not taken: it is given to an empty bucket. -/
theorem OnlyTakes.nonneg (h : OnlyTakes rate cost) : zero.le cost = true := by
  obtain ⟨level, hrefill⟩ : ∃ level, ((emptied rate .origin).refill .origin).Holds rate level :=
    ⟨_, (emptied_holds rate .origin).refill_holds .origin⟩
  have hleft := h.from_empty .origin
  by_contra hneg
  obtain ⟨hfits, htokens⟩ := hrefill.tokens
  cases cost with
  | nan =>
      rw [tryTake_of_ge (by rw [htokens]; rfl)] at hleft
      rw [htokens] at hleft
      exact absurd hleft Bool.false_ne_true
  | infinite s =>
      cases s with
      | false => exact hneg rfl
      | true =>
          rw [tryTake_of_ge (by rw [htokens]; rfl)] at hleft
          rw [htokens] at hleft
          exact absurd hleft Bool.false_ne_true
  | finite s v hv =>
      cases s with
      | false => exact hneg (IsUnits.zero_le ⟨hv, rfl⟩)
      | true =>
          -- The level grows by the units of the cost, and these are some.
          have hpos : 0 < v := by
            by_contra hnone
            obtain rfl : v = 0 := by omega
            exact hneg rfl
          have hge :
              ((emptied rate .origin).refill .origin).tokens.lt (.finite true v hv) = false := by
            rw [htokens, lt, decide_eq_false_iff_not, signed_false, signed, if_pos rfl]
            omega
          have hsum : ((emptied rate .origin).refill .origin).tokens - .finite true v hv =
              ofRatio false (level + v) 1 := hrefill.tokens.add_eq ⟨hv, rfl⟩
          have hgrows : v ≤ nearestUnits (level + v) 1 :=
            le_nearestUnits Nat.one_pos hv.short (by omega)
          rw [tryTake_of_ge hge] at hleft
          simp only [hsum] at hleft
          rcases Nat.lt_or_ge (nearestUnits (level + v) 1) overflowUnits with hlt | hover
          · rw [(ofRatio_isUnits _ _ hlt).le_iff zero_isUnits] at hleft
            omega
          · rw [ofRatio_infinite hover] at hleft
            exact absurd hleft Bool.false_ne_true

/-- An infinite flow fills an empty bucket at once, so nothing but the whole capacity only takes. -/
theorem OnlyTakes.eq_capacity (h : OnlyTakes rate cost)
    (infinite : rate.refillPerSecond = .infinite false) : cost = rate.capacity := by
  have hcapacity := rate.capacity_isUnits
  have hpos := rate.count_isUnits.2
  have hrefill := (emptied_holds rate .origin).refill_of_infinite infinite .origin
  have hleft := h.from_empty .origin
  cases hcost : ((emptied rate .origin).refill .origin).tokens.lt cost with
  | true =>
      rw [tryTake_of_lt hcost, hrefill.tokens.le_iff zero_isUnits] at hleft
      omega
  | false =>
      have hgranted := hrefill.tryTake_granted h.nonneg hcost
      obtain ⟨hunits, -⟩ := hrefill.tokens.sub_of_nonneg h.nonneg hcost
      rw [hgranted.tokens.le_iff zero_isUnits] at hleft
      -- A difference that rounds to nothing is none.
      have hnone : rate.units - cost.units = 0 := by
        by_contra hsome
        have := le_nearestUnits Nat.one_pos (short_twoTo 0)
          (show twoTo 0 * 1 ≤ rate.units - cost.units by rw [twoTo_zero]; omega)
        rw [twoTo_zero] at this
        omega
      have hequal : cost.units = rate.units := by omega
      have hnonneg := h.nonneg
      cases cost with
      | nan => exact absurd hequal hpos.ne
      | infinite s => exact absurd hequal hpos.ne
      | finite s v hv =>
          cases s with
          | false =>
              have hv' : v = rate.units := hequal
              subst hv'
              exact IsUnits.ext ⟨hv, rfl⟩ hcapacity
          | true =>
              have hv' : v = rate.units := hequal
              simp only [le, zero, signed, decide_eq_true_eq] at hnonneg
              simp at hnonneg
              omega

/-- **Which calls only take.** A call at an instant that the bucket has seen makes no tokens out of
nothing, whatever the bucket has been through, exactly if its cost is a number that is not below
zero, and either the flow per second is finite or the cost is the whole capacity. -/
theorem onlyTakes_iff (rate : Rate) (cost : Binary64) :
    OnlyTakes rate cost ↔
      zero.le cost = true ∧ (rate.refillPerSecond.isFinite = true ∨ cost = rate.capacity) := by
  constructor
  · intro h
    refine ⟨h.nonneg, ?_⟩
    rcases rate.refillPerSecond_cases with hinfinite | ⟨flow, hflow⟩
    · exact .inr (h.eq_capacity hinfinite)
    · exact .inl hflow.isFinite
  · rintro ⟨hnonneg, hrate⟩ b now hreachable number seen
    have hmade := hreachable.made
    rcases rate.refillPerSecond_cases with hinfinite | ⟨flow, hflow⟩
    · -- The bucket is filled up, and all of it is taken.
      obtain rfl : cost = rate.capacity := hrate.resolve_left (by rw [hinfinite]; exact nofun)
      have hfull : (b.refill now).Holds rate rate.units := by
        rcases hmade.holds_or_full with ⟨level, hlevel⟩ | hfull
        · exact hlevel.refill_of_infinite hinfinite now
        · exact hfull now
      rcases hmade.holds_or_over number with ⟨level, hlevel⟩ | hover
      · exact (hfull.take_capacity.tokens.le_iff hlevel.tokens).mpr level.zero_le
      · exact le_trans ((hfull.take_capacity.tokens.le_iff rate.capacity_isUnits).mpr
          rate.units.zero_le) hover
    · obtain ⟨level, hrefill, hle⟩ := hmade.refill_le number hflow seen
      obtain ⟨left, hleft, hafter⟩ := hrefill.tryTake_le hnonneg
      exact le_trans ((hafter.tokens.le_iff hrefill.tokens).mpr hleft) hle

/-- One call per second. -/
def onePerSecond : Rate where
  count := .one
  period := Rate.second
  count_pos := one_isPositive
  period_pos := Rate.second_pos

/-- `2 ^ 1000` calls in a nanosecond: the flow per second is infinite. -/
def torrent : Rate where
  count := .finite false (twoTo (1000 + 1074)) ⟨twoTo_lt (by omega), short_twoTo _⟩
  period := ⟨1, by decide +kernel⟩
  count_pos := IsUnits.isPositive ⟨_, rfl⟩ (twoTo_pos _)
  period_pos := by decide

/-- Buckets that have given everything away, called once more at the same instant. A cost of minus
one makes a token, a cost that is no number leaves no number, and under an infinite flow a call that
costs nothing fills the bucket up. -/
theorem tokens_come_out_of_nothing :
    let b := emptied onePerSecond .origin
    let b' := emptied torrent .origin
    (Reachable onePerSecond b ∧ b.tokens = zero ∧ b.lastRefill = .origin ∧
      (b.tryTake (.ofInt (-1)) .origin).1.tokens = .one ∧
      ((b.tryTake (.ofInt (-1)) .origin).1.tokens.le b.tokens) = false ∧
      (b.tryTake .nan .origin).1.tokens = .nan) ∧
    (Reachable torrent b' ∧ b'.tokens = zero ∧ b'.lastRefill = .origin ∧
      (b'.tryTake zero .origin).1.tokens = torrent.capacity ∧
      ((b'.tryTake zero .origin).1.tokens.le b'.tokens) = false) := by
  refine ⟨⟨emptied_reachable _ _, ?_⟩, emptied_reachable _ _, ?_⟩
  · decide +kernel
  · decide +kernel

end TokenBucket

end Gatehouse
