import Gatehouse.TokenBucket
import Gatehouse.Proofs.Time.Instant
/-!
# A bucket over many calls

Each call takes one token at an instant. A bucket that is made at its first call is determined by
the instants of its calls (`ofCalls?`), and so is what it answers to the next one (`answer`).
-/

namespace Gatehouse.TokenBucket

/-- The bucket after calls at some instants, in order. -/
def afterCalls (b : TokenBucket) (ts : List Instant) : TokenBucket :=
  ts.foldl (fun b t => (b.tryTakeOne t).1) b

/-- What a bucket answers to calls at some instants, in order. -/
def verdicts (b : TokenBucket) : List Instant → List Bool
  | [] => []
  | t :: ts => (b.tryTakeOne t).2 :: (b.tryTakeOne t).1.verdicts ts

/-- The bucket with these calls behind it, made full at the first of them; without a call there
is no bucket. -/
def ofCalls? (rate : Rate) : List Instant → Option TokenBucket
  | [] => none
  | t :: ts => some ((full rate t).afterCalls (t :: ts))

/-- What the bucket with some calls behind it answers to the next call. A first call is answered
by a full bucket. -/
def answer (rate : Rate) (calls : List Instant) (now : Instant) : Bool :=
  (((ofCalls? rate calls).getD (full rate now)).tryTakeOne now).2

@[simp] theorem afterCalls_nil (b : TokenBucket) : b.afterCalls [] = b := rfl

@[simp] theorem afterCalls_cons (b : TokenBucket) (t : Instant) (ts : List Instant) :
    b.afterCalls (t :: ts) = (b.tryTakeOne t).1.afterCalls ts := rfl

theorem afterCalls_append (b : TokenBucket) (ts us : List Instant) :
    b.afterCalls (ts ++ us) = (b.afterCalls ts).afterCalls us :=
  List.foldl_append

theorem verdicts_append (b : TokenBucket) (ts us : List Instant) :
    b.verdicts (ts ++ us) = b.verdicts ts ++ (b.afterCalls ts).verdicts us := by
  induction ts generalizing b with
  | nil => rfl
  | cons t ts ih => simp [verdicts, ih]

/-- One more call, be it the first or not. -/
theorem ofCalls?_snoc (rate : Rate) (calls : List Instant) (now : Instant) :
    ofCalls? rate (calls ++ [now]) =
      some (((ofCalls? rate calls).getD (full rate now)).tryTakeOne now).1 := by
  cases calls with
  | nil => rfl
  | cons t ts =>
      rw [List.cons_append, ofCalls?, ← List.cons_append, afterCalls_append]
      rfl

theorem ofCalls?_eq_none_iff (rate : Rate) (calls : List Instant) :
    ofCalls? rate calls = none ↔ calls = [] := by
  cases calls <;> simp [ofCalls?]

/-! ## One call -/

theorem tryTake_of_lt {b : TokenBucket} {cost : Binary64} {now : Instant}
    (lt : (b.refill now).tokens.lt cost = true) : b.tryTake cost now = (b.refill now, false) := by
  simp only [tryTake, lt, if_true]

theorem tryTake_of_ge {b : TokenBucket} {cost : Binary64} {now : Instant}
    (ge : (b.refill now).tokens.lt cost = false) :
    b.tryTake cost now =
      ({ b.refill now with tokens := (b.refill now).tokens - cost }, true) := by
  simp only [tryTake, ge, Bool.false_eq_true, if_false]

theorem tryTake_admits_iff (b : TokenBucket) (cost : Binary64) (now : Instant) :
    (b.tryTake cost now).2 = true ↔ (b.refill now).tokens.lt cost = false := by
  cases h : (b.refill now).tokens.lt cost with
  | true => simp [tryTake_of_lt h]
  | false => simp [tryTake_of_ge h]

/-! ## What calls leave alone -/

theorem tryTake_lastRefill (b : TokenBucket) (cost : Binary64) (t : Instant) :
    (b.tryTake cost t).1.lastRefill = b.lastRefill.latest t := by
  unfold tryTake
  dsimp only
  split <;> rfl

theorem tryTakeOne_lastRefill (b : TokenBucket) (t : Instant) :
    (b.tryTakeOne t).1.lastRefill = b.lastRefill.latest t :=
  b.tryTake_lastRefill .one t

/-- The clock of a bucket is at the latest instant it has seen. -/
theorem afterCalls_lastRefill (b : TokenBucket) (ts : List Instant) :
    (b.afterCalls ts).lastRefill = Instant.latestOf b.lastRefill ts := by
  induction ts generalizing b with
  | nil => rfl
  | cons t ts ih => rw [afterCalls_cons, ih, tryTakeOne_lastRefill, Instant.latestOf_cons]

theorem ofCalls?_lastRefill {rate : Rate} {t : Instant} {ts : List Instant} {b : TokenBucket}
    (h : ofCalls? rate (t :: ts) = some b) : b.lastRefill = Instant.latestOf t ts := by
  simp only [ofCalls?, Option.some.injEq] at h
  rw [← h, afterCalls_lastRefill, Instant.latestOf_cons]
  simp [full]

end Gatehouse.TokenBucket
