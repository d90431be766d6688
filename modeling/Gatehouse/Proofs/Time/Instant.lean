import Mathlib
import Gatehouse.Time.Instant
/-!
# Elapsed time and the later of two instants

Facts about instants in terms of their nanoseconds, so that later arguments are linear
arithmetic over integers.
-/

namespace Gatehouse

@[ext] theorem Instant.ext {a b : Instant} (h : a.nanos = b.nanos) : a = b := by
  cases a
  cases b
  simp only at h
  subst h
  rfl

@[ext] theorem Duration.ext {a b : Duration} (h : a.nanos = b.nanos) : a = b := by
  cases a
  cases b
  simp only at h
  subst h
  rfl

namespace Instant

theorem since_nanos (now earlier : Instant) :
    (now.since earlier).nanos = (now.nanos - earlier.nanos).toNat := rfl

theorem since_eq_zero {now earlier : Instant} (h : now.nanos ≤ earlier.nanos) :
    (now.since earlier).nanos = 0 := by
  rw [since_nanos]
  omega

/-- A positive span has passed exactly when the later instant is that far ahead. -/
theorem le_since_iff {now earlier : Instant} {span : Nat} (pos : 0 < span) :
    span ≤ (now.since earlier).nanos ↔ earlier.nanos + span ≤ now.nanos := by
  rw [since_nanos]
  omega

theorem latest_nanos (a b : Instant) : (a.latest b).nanos = max a.nanos b.nanos := by
  unfold latest
  split <;> omega

@[simp] theorem latest_self (a : Instant) : a.latest a = a := by simp [latest]

theorem latest_eq_left {a b : Instant} (h : b.nanos ≤ a.nanos) : a.latest b = a := by
  unfold latest
  rw [if_neg (by omega)]

theorem latest_eq_right {a b : Instant} (h : a.nanos ≤ b.nanos) : a.latest b = b := by
  ext
  rw [latest_nanos]
  omega

theorem latest_latest {first now : Instant} (earlier : Instant) (le : first.nanos ≤ now.nanos) :
    (earlier.latest first).latest now = earlier.latest now := by
  ext
  rw [latest_nanos, latest_nanos, latest_nanos]
  omega

/-- Time that passes in two parts passes as a whole. -/
theorem since_latest {first now : Instant} (earlier : Instant) (le : first.nanos ≤ now.nanos) :
    (now.since earlier).nanos =
      (first.since earlier).nanos + (now.since (earlier.latest first)).nanos := by
  rw [since_nanos, since_nanos, since_nanos, latest_nanos]
  omega

/-- The latest of some instants. -/
def latestOf (first : Instant) (rest : List Instant) : Instant := rest.foldl latest first

@[simp] theorem latestOf_nil (first : Instant) : latestOf first [] = first := rfl

@[simp] theorem latestOf_cons (first t : Instant) (rest : List Instant) :
    latestOf first (t :: rest) = latestOf (first.latest t) rest := rfl

/-- An instant lies at or after the latest of some exactly if it lies at or after each. -/
theorem latestOf_nanos_le_iff (first : Instant) (rest : List Instant) (bound : Int) :
    (latestOf first rest).nanos ≤ bound ↔
      first.nanos ≤ bound ∧ ∀ t ∈ rest, t.nanos ≤ bound := by
  induction rest generalizing first with
  | nil => simp
  | cons t rest ih =>
      rw [latestOf_cons, ih, latest_nanos, List.forall_mem_cons, max_le_iff, and_assoc]

theorem le_latestOf (first : Instant) (rest : List Instant) :
    first.nanos ≤ (latestOf first rest).nanos :=
  ((latestOf_nanos_le_iff first rest _).mp le_rfl).1

theorem mem_le_latestOf (first : Instant) {rest : List Instant} {t : Instant} (h : t ∈ rest) :
    t.nanos ≤ (latestOf first rest).nanos :=
  ((latestOf_nanos_le_iff first rest _).mp le_rfl).2 t h

theorem latestOf_mem (first : Instant) (rest : List Instant) :
    latestOf first rest ∈ first :: rest := by
  induction rest generalizing first with
  | nil => exact List.mem_cons_self
  | cons t rest ih =>
      rw [latestOf_cons]
      rcases List.mem_cons.mp (ih (first.latest t)) with heq | hmem
      · rw [heq, latest]
        split
        · exact List.mem_cons_of_mem first List.mem_cons_self
        · exact List.mem_cons_self
      · exact List.mem_cons_of_mem first (List.mem_cons_of_mem t hmem)

/-- The latest of some instants is the one with the most nanoseconds. -/
theorem isGreatest_latestOf (first : Instant) (rest : List Instant) :
    IsGreatest {nanos | ∃ t ∈ first :: rest, t.nanos = nanos} (latestOf first rest).nanos := by
  refine ⟨⟨_, latestOf_mem first rest, rfl⟩, ?_⟩
  rintro _ ⟨t, hmem, rfl⟩
  rcases List.mem_cons.mp hmem with rfl | hrest
  · exact le_latestOf t rest
  · exact mem_le_latestOf first hrest

theorem latestOf_replicate (n : Nat) (t : Instant) : latestOf t (List.replicate n t) = t := by
  induction n with
  | zero => rfl
  | succ n ih => rw [List.replicate_succ, latestOf_cons, latest_self, ih]

theorem exists_apart (d : Duration) : ∃ a b : Instant, b.nanos = a.nanos + d.nanos := by
  have hlt := d.nanos_lt
  have h64 : twoTo 64 = twoTo 63 * 2 := twoTo_succ 63
  have hpos := twoTo_pos 63
  unfold durationLimit nanosPerSecond at hlt
  have hlimit : instantLimit = twoTo 63 * 1000000000 := by
    unfold instantLimit nanosPerSecond
    push_cast
    rfl
  exact ⟨⟨-instantLimit, le_rfl, by omega⟩, ⟨-instantLimit + d.nanos, by omega, by omega⟩, rfl⟩

/-- Instants that never decrease. -/
def InOrder (ts : List Instant) : Prop := ts.Pairwise fun a b => a.nanos ≤ b.nanos

instance (ts : List Instant) : Decidable (InOrder ts) :=
  inferInstanceAs (Decidable (ts.Pairwise fun a b => a.nanos ≤ b.nanos))

theorem inOrder_cons {t : Instant} {ts : List Instant} :
    InOrder (t :: ts) ↔ (∀ u ∈ ts, t.nanos ≤ u.nanos) ∧ InOrder ts :=
  List.pairwise_cons

theorem inOrder_append {ts us : List Instant} :
    InOrder (ts ++ us) ↔
      InOrder ts ∧ InOrder us ∧ ∀ t ∈ ts, ∀ u ∈ us, t.nanos ≤ u.nanos :=
  List.pairwise_append

theorem inOrder_replicate (n : Nat) (t : Instant) : InOrder (List.replicate n t) :=
  List.pairwise_replicate.mpr (.inr le_rfl)

/-- What is in order from an instant on is so from any earlier one. -/
theorem InOrder.earlier {earlier now : Instant} {ts : List Instant} (h : InOrder (now :: ts))
    (le : earlier.nanos ≤ now.nanos) : InOrder (earlier :: ts) := by
  rw [inOrder_cons] at h ⊢
  refine ⟨?_, h.2⟩
  intro u hu
  exact le.trans (h.1 u hu)

theorem InOrder.twice {now : Instant} {ts : List Instant} (h : InOrder (now :: ts)) :
    InOrder (now :: now :: ts) := by
  rw [inOrder_cons]
  refine ⟨?_, h⟩
  intro u hu
  rcases List.mem_cons.mp hu with rfl | hmem
  · exact le_rfl
  · exact (inOrder_cons.mp h).1 u hmem

theorem InOrder.again {now : Instant} {ts : List Instant} (h : InOrder (ts ++ [now])) :
    InOrder (ts ++ [now] ++ [now]) := by
  refine inOrder_append.mpr ⟨h, inOrder_replicate 1 now, ?_⟩
  intro t ht u hu
  rw [List.mem_singleton.mp hu]
  rcases List.mem_append.mp ht with hmem | hmem
  · exact (inOrder_append.mp h).2.2 t hmem now List.mem_cons_self
  · rw [List.mem_singleton.mp hmem]

end Instant

theorem durationMax_nanos (a b : Duration) : (a.max b).nanos = max a.nanos b.nanos := by
  unfold Duration.max
  split <;> omega

end Gatehouse
