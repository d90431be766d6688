import Gatehouse.Proofs.TokenBucket.Conservation
/-!
# Is an idle bucket full again?

A bucket *recovers* within a span if, idle for that long, it answers every later call as a full one
would (`Recovers`). Calls are taken to be in order here.

* `recovers_of_refillsWithin` — it does if what flows in during the span, computed and rounded as
  the bucket does, reaches the capacity;
* `refillsWithin_of_recovers` — for whole capacities up to `2 ^ 53` that is the only way: a drained
  bucket holds one token too few otherwise. One period does not always suffice, as the quotient of
  capacity and period is rounded.
-/

namespace Gatehouse

open Binary64

namespace TokenBucket

open Instant

/-- What the bucket with some calls behind it answers to further ones. -/
def later (rate : Rate) (calls : List Instant) : List Instant → List Bool
  | [] => []
  | t :: ts => answer rate calls t :: later rate (calls ++ [t]) ts

/-- Two pasts of a bucket that calls from an instant on, in order, cannot tell apart. -/
def Alike (rate : Rate) (clock : Instant) (past calls : List Instant) : Prop :=
  ∀ ts, InOrder (clock :: ts) → later rate past ts = later rate calls ts

/-- A bucket that was idle for a span (in nanoseconds) answers every later call as a new one. -/
def Recovers (rate : Rate) (span : Nat) : Prop :=
  ∀ before after, InOrder (before ++ after) →
    (∀ t ∈ before, ∀ u ∈ after, t.nanos + span ≤ u.nanos) →
    later rate before after = later rate [] after

variable {rate : Rate} {clock now : Instant} {past calls : List Instant} {span : Nat}

theorem later_append (rate : Rate) (calls ts us : List Instant) :
    later rate calls (ts ++ us) = later rate calls ts ++ later rate (calls ++ ts) us := by
  induction ts generalizing calls with
  | nil => simp [later]
  | cons t ts ih => simp [later, ih]

/-- The next call finds a bucket, or is answered by a full one; that bucket answers the rest. -/
theorem later_cons (rate : Rate) (calls : List Instant) (t : Instant) (ts : List Instant) :
    later rate calls (t :: ts) = ((ofCalls? rate calls).getD (full rate t)).verdicts (t :: ts) := by
  induction ts generalizing calls t with
  | nil => rfl
  | cons u ts ih =>
      rw [later, ih, ofCalls?_snoc, Option.getD_some, answer]
      rfl

/-! ## Pasts that cannot be told apart -/

theorem Alike.refl (rate : Rate) (clock : Instant) (calls : List Instant) :
    Alike rate clock calls calls := by
  intro ts _
  rfl

theorem Alike.trans {third : List Instant} (h : Alike rate clock past calls)
    (h' : Alike rate clock calls third) : Alike rate clock past third := by
  intro ts hts
  exact (h ts hts).trans (h' ts hts)

theorem Alike.mono (h : Alike rate clock past calls) (le : clock.nanos ≤ now.nanos) :
    Alike rate now past calls := by
  intro ts hts
  exact h ts (hts.earlier le)

theorem Alike.answer_eq (h : Alike rate now past calls) :
    answer rate past now = answer rate calls now := by
  have hone : InOrder [now, now] := inOrder_replicate 2 now
  have heads := h [now] hone
  exact (List.cons.inj heads).1

/-- A call at the instant itself does not tell them apart either. -/
theorem Alike.snoc (h : Alike rate now past calls) :
    Alike rate now (past ++ [now]) (calls ++ [now]) := by
  intro ts hts
  have hlater := h (now :: ts) hts.twice
  exact (List.cons.inj hlater).2

/-- Where buckets recover, calls that lie the span back are as good as none. -/
theorem Recovers.alike (h : Recovers rate span) (order : InOrder (calls ++ [clock]))
    (idle : ∀ t ∈ calls, t.nanos + span ≤ clock.nanos) : Alike rate clock calls [] := by
  intro ts hts
  obtain ⟨hafter, hall⟩ := inOrder_cons.mp hts
  obtain ⟨hcalls, -, -⟩ := inOrder_append.mp order
  have hgap : ∀ t ∈ calls, ∀ u ∈ ts, t.nanos + span ≤ u.nanos := by
    intro t ht u hu
    exact (idle t ht).trans (hafter u hu)
  refine h calls ts ?_ hgap
  refine inOrder_append.mpr ⟨hcalls, hall, ?_⟩
  intro t ht u hu
  have := hgap t ht u hu
  omega

end TokenBucket

/-! ## Flows that fill a bucket -/

/-- What flows in during some time, as a bucket computes it, reaches the capacity. -/
def Rate.refillsWithin (rate : Rate) (idle : Duration) : Bool :=
  rate.capacity.le (idle.toSeconds * rate.refillPerSecond)

namespace Rate

theorem refillsWithin_mono {rate : Rate} {idle longer : Duration} (pos : 0 < idle.nanos)
    (le : idle.nanos ≤ longer.nanos) (h : rate.refillsWithin idle = true) :
    rate.refillsWithin longer = true := by
  have hidle := idle.toSeconds_isUnits
  have hlonger := longer.toSeconds_isUnits
  have hmono := secondUnits_mono le
  have hpos := secondUnits_pos pos
  unfold refillsWithin at h ⊢
  rcases rate.refillPerSecond_cases with hinf | ⟨u, hu⟩
  · rw [hinf, hlonger.mul_infinite (hpos.trans_le hmono)]
    rwa [hinf, hidle.mul_infinite hpos] at h
  · rw [hidle.mul_eq hu, rate.capacity_isUnits.le_ofRatio_iff] at h
    rw [hlonger.mul_eq hu, rate.capacity_isUnits.le_ofRatio_iff]
    refine h.trans (nearestUnits_mono unitsPerOne_pos unitsPerOne_pos ?_)
    exact Nat.mul_le_mul_right _ (Nat.mul_le_mul_right u hmono)

/-- At a rate per second, all that flows in during a second is the capacity. -/
theorem refillsWithin_perSecond {rate : Rate} (perSecond : rate.period = second)
    {idle : Duration} (le : second.nanos ≤ idle.nanos) : rate.refillsWithin idle = true := by
  have hshort := rate.capacity_isUnits.short
  have hsecond : secondUnits second.nanos = unitsPerOne := by
    show secondUnits (1 * nanosPerSecond) = unitsPerOne
    rw [Nat.one_mul, secondUnits_second]
  have hround : nearestUnits (rate.units * unitsPerOne) unitsPerOne = rate.units :=
    nearestUnits_of_short hshort unitsPerOne_pos
  have hflow : rate.refillPerSecond.IsUnits rate.units := by
    have h := ofRatio_isUnits (rate.units * unitsPerOne) unitsPerOne
      (hround.trans_lt rate.capacity_isUnits.lt_overflow)
    rw [refillPerSecond_eq, perSecond, hsecond]
    rwa [hround] at h
  refine refillsWithin_mono (show 0 < second.nanos by decide) le ?_
  unfold refillsWithin
  rw [second.toSeconds_isUnits.mul_eq hflow, rate.capacity_isUnits.le_ofRatio_iff, hsecond]
  exact le_nearestUnits unitsPerOne_pos hshort (Nat.mul_comm _ _).le

end Rate

namespace TokenBucket

open Instant

variable {b b' : TokenBucket} {rate : Rate} {level : Nat} {now : Instant}

/-- A bucket is told by its rate, its level and its clock. -/
theorem Holds.ext (h : b.Holds rate level) (h' : b'.Holds rate level)
    (clock : b.lastRefill = b'.lastRefill) : b = b' := by
  have hcapacity := h.capacity.trans h'.capacity.symm
  have hrefill := h.refill.trans h'.refill.symm
  have htokens := h.tokens.ext h'.tokens
  cases b
  cases b'
  simp only at hcapacity hrefill htokens clock
  subst hcapacity hrefill htokens clock
  rfl

/-- Only what refilling makes of a bucket matters to a call. -/
theorem verdicts_congr (refilled : b.refill now = b'.refill now) (ts : List Instant) :
    b.verdicts (now :: ts) = b'.verdicts (now :: ts) := by
  have hcall : b.tryTakeOne now = b'.tryTakeOne now := by
    unfold tryTakeOne tryTake
    rw [refilled]
  rw [verdicts, verdicts, hcall]

/-- After a span in which the capacity flows in, a bucket is full. -/
theorem Holds.refill_of_refillsWithin (h : b.Holds rate level) {idle : Duration}
    (pos : 0 < idle.nanos) (refills : rate.refillsWithin idle = true)
    (elapsed : b.lastRefill.nanos + idle.nanos ≤ now.nanos) :
    b.refill now = (full rate now).refill now := by
  have hspan : idle.nanos ≤ (now.since b.lastRefill).nanos := (le_since_iff pos).mpr elapsed
  have hflow : rate.capacity.le (b.credit now) = true := by
    unfold credit
    rw [h.refill]
    exact rate.refillsWithin_mono pos hspan refills
  have hfilled : filled (b.credit now) level rate.units = rate.units :=
    filled_of_le level rate.capacity_isUnits (h.credit_isUnsigned now) hflow
  have hold := h.refill_holds now
  have hnew := (full_holds rate now).refill_holds now
  rw [hfilled] at hold
  rw [filled_full _ rate.capacity_isUnits.short] at hnew
  refine hold.ext hnew ?_
  show b.lastRefill.latest now = now.latest now
  rw [latest_self]
  exact latest_eq_right (by omega)

/-- A bucket recovers in any span in which the capacity flows in. -/
theorem recovers_of_refillsWithin {idle : Duration} (pos : 0 < idle.nanos)
    (refills : rate.refillsWithin idle = true) : Recovers rate idle.nanos := by
  intro before after _ gap
  cases after with
  | nil => rfl
  | cons u us =>
      rw [later_cons, later_cons]
      cases before with
      | nil => rfl
      | cons t ts =>
          -- Whatever the level is, it is made up within the span since the latest call.
          obtain ⟨_, hlevel⟩ := (full_holds rate t).afterCalls_holds (t :: ts)
          refine verdicts_congr (hlevel.refill_of_refillsWithin pos refills ?_) us
          have hlatest : (latestOf t (t :: ts)).nanos ≤ u.nanos - idle.nanos := by
            rw [latestOf_nanos_le_iff]
            refine ⟨?_, ?_⟩
            · have := gap t List.mem_cons_self u List.mem_cons_self
              omega
            · intro s hs
              have := gap s hs u List.mem_cons_self
              omega
          rw [afterCalls_lastRefill]
          show (latestOf t (t :: ts)).nanos + idle.nanos ≤ u.nanos
          omega

/-! ## Whole capacities -/

/-- Refilling moves the clock of a bucket to the instant at least. -/
theorem le_refill_lastRefill (b : TokenBucket) (now : Instant) :
    now.nanos ≤ (b.refill now).lastRefill.nanos := by
  show now.nanos ≤ (b.lastRefill.latest now).nanos
  rw [latest_nanos]
  exact le_max_right _ _

/-- A refill at an instant that the bucket has seen does nothing. -/
theorem Holds.refill_seen {flow : Nat} (h : b.Holds rate level)
    (hflow : rate.refillPerSecond.IsUnits flow) (seen : now.nanos ≤ b.lastRefill.nanos) :
    b.refill now = b :=
  (h.refill_of_seen hflow seen).ext h (latest_eq_left seen)

/-- Calls at one instant are admitted as long as refilling has left whole tokens. -/
theorem Holds.verdicts_replicate (h : (b.refill now).Holds rate level)
    (small : rate.units ≤ twoTo 53 * unitsPerOne) (n : Nat) :
    b.verdicts (List.replicate n now) = firstAdmitted (level / unitsPerOne) n := by
  obtain ⟨_, hflow⟩ := Rate.refillPerSecond_isUnits small
  have hseen := le_refill_lastRefill b now
  have hstalled : ∀ t ∈ List.replicate n now, t.nanos ≤ (b.refill now).lastRefill.nanos := by
    intro t ht
    rw [List.eq_of_mem_replicate ht]
    exact hseen
  have hrun := h.verdicts_stalled small hstalled
  rw [List.length_replicate] at hrun
  rw [← hrun]
  -- The bucket as refilled gives the same verdicts: refilling it once more changes nothing.
  cases n with
  | zero => rfl
  | succ n => exact verdicts_congr (h.refill_seen hflow hseen).symm _

/-- A bucket drained at one instant, by as many calls as it has tokens. -/
def drained (rate : Rate) (start : Instant) (n : Nat) : TokenBucket :=
  (full rate start).afterCalls (List.replicate n start)

theorem drained_lastRefill (rate : Rate) (start : Instant) (n : Nat) :
    (drained rate start n).lastRefill = start := by
  unfold drained
  rw [afterCalls_lastRefill]
  exact latestOf_replicate n start

theorem drained_holds {n : Nat} (small : rate.units ≤ twoTo 53 * unitsPerOne)
    (whole : rate.units = n * unitsPerOne) (start : Instant) :
    (drained rate start n).Holds rate 0 := by
  have hnow : ∀ t ∈ List.replicate n start, t.nanos ≤ (full rate start).lastRefill.nanos := by
    intro t ht
    rw [List.eq_of_mem_replicate ht]
    rfl
  have hafter := (full_holds rate start).afterCalls_stalled small hnow (by
    rw [List.length_replicate, whole])
  rwa [List.length_replicate, whole, Nat.sub_self] at hafter

theorem later_drained {n : Nat} (small : rate.units ≤ twoTo 53 * unitsPerOne)
    (whole : rate.units = n * unitsPerOne) (start wake : Instant) :
    later rate (List.replicate n start) (List.replicate n wake) =
      firstAdmitted (filled ((drained rate start n).credit wake) 0 rate.units / unitsPerOne) n := by
  have hrefill := (drained_holds small whole start).refill_holds wake
  have hrun := hrefill.verdicts_replicate small n
  cases n with
  | zero => exact hrun
  | succ m =>
      rw [← hrun, List.replicate_succ (a := wake), later_cons]
      rfl

theorem later_new {n : Nat} (small : rate.units ≤ twoTo 53 * unitsPerOne)
    (whole : rate.units = n * unitsPerOne) (wake : Instant) :
    later rate [] (List.replicate n wake) = firstAdmitted n n := by
  have hrefill := (full_holds rate wake).refill_holds wake
  have hrun := hrefill.verdicts_replicate small n
  rw [filled_full _ rate.capacity_isUnits.short, whole,
    Nat.mul_div_cancel _ unitsPerOne_pos] at hrun
  cases n with
  | zero => exact hrun
  | succ m =>
      rw [← hrun, List.replicate_succ, later_cons]
      rfl

/-- If an empty bucket gets full in a span, then its capacity flows in. -/
theorem refillsWithin_of_filled (small : rate.units ≤ twoTo 53 * unitsPerOne) {idle : Duration}
    (le : rate.units ≤ filled (idle.toSeconds * rate.refillPerSecond) 0 rate.units) :
    rate.refillsWithin idle = true := by
  obtain ⟨u, hu⟩ := Rate.refillPerSecond_isUnits small
  unfold Rate.refillsWithin
  rw [idle.toSeconds_isUnits.mul_eq hu] at le ⊢
  rw [rate.capacity_isUnits.le_ofRatio_iff]
  rcases Nat.lt_or_ge (nearestUnits (secondUnits idle.nanos * u) unitsPerOne) overflowUnits
    with h | h
  · rw [filled_empty rate.units (ofRatio_isUnits _ _ h)] at le
    exact le.trans (Nat.min_le_left _ _)
  · exact rate.capacity_isUnits.lt_overflow.le.trans h

/-- With a whole capacity, a bucket recovers only in spans in which the capacity flows in. -/
theorem refillsWithin_of_recovers {n : Nat} (le : n ≤ twoTo 53) (whole : rate.capacity = .ofNat n)
    {idle : Duration} (recovers : Recovers rate idle.nanos) :
    rate.refillsWithin idle = true := by
  have hunits : rate.units = n * unitsPerOne :=
    rate.capacity_isUnits.unique (whole ▸ ofNat_isUnits_of_le le)
  have hsmall : rate.units ≤ twoTo 53 * unitsPerOne := by
    rw [hunits]
    exact Nat.mul_le_mul_right _ le
  obtain ⟨start, wake, hwake⟩ := exists_apart idle
  have hgap : ∀ t ∈ List.replicate n start, ∀ u ∈ List.replicate n wake,
      t.nanos + idle.nanos ≤ u.nanos := by
    intro t ht u hu
    rw [List.eq_of_mem_replicate ht, List.eq_of_mem_replicate hu]
    omega
  have horder : InOrder (List.replicate n start ++ List.replicate n wake) := by
    refine inOrder_append.mpr ⟨inOrder_replicate _ _, inOrder_replicate _ _, ?_⟩
    intro t ht u hu
    have := hgap t ht u hu
    omega
  -- A bucket drained before the span is told from a new one unless it admits every call after it,
  -- and then it was full: what had flowed in was all it held.
  have hsame := recovers _ _ horder hgap
  rw [later_drained hsmall hunits start wake, later_new hsmall hunits wake] at hsame
  have hcount := congrArg (List.count true) hsame
  rw [count_firstAdmitted, count_firstAdmitted, Nat.min_self] at hcount
  have hall : n ≤ filled ((drained rate start n).credit wake) 0 rate.units / unitsPerOne :=
    min_eq_left_iff.mp hcount
  rw [Nat.le_div_iff_mul_le unitsPerOne_pos, ← hunits] at hall
  have hflow : (drained rate start n).credit wake = idle.toSeconds * rate.refillPerSecond := by
    have hsince : wake.since start = idle := by
      ext
      rw [since_nanos]
      omega
    unfold credit
    rw [(drained_holds hsmall hunits start).refill, drained_lastRefill, hsince]
  rw [hflow] at hall
  exact refillsWithin_of_filled hsmall hall

end TokenBucket

end Gatehouse
