import Gatehouse.Proofs.Binary64.RoundingError
import Gatehouse.Proofs.Time.Instant
/-!
# Seconds in binary64

The seconds of a duration are made from its whole seconds and the rest, each rounded. Still, no
time is no seconds, some time is some seconds, and a longer time is not fewer of them
(`secondUnits_mono`), also where the whole seconds change or are too many to be exact.
-/

namespace Gatehouse

open Binary64

/-- The units of some whole seconds. -/
def wholeUnits (seconds : Nat) : Nat := nearestUnits (seconds * unitsPerOne) 1

/-- The units of some nanoseconds within a second. -/
def restUnits (nanos : Nat) : Nat := nearestUnits (nanos * unitsPerOne) nanosPerSecond

/-- The units of the seconds in some nanoseconds. -/
def secondUnits (nanos : Nat) : Nat :=
  nearestUnits (wholeUnits (nanos / nanosPerSecond) + restUnits (nanos % nanosPerSecond)) 1

theorem nanosPerSecond_pos : 0 < nanosPerSecond := by decide

theorem nanosPerSecond_lt : nanosPerSecond < twoTo 53 := by decide +kernel

theorem nanosPerSecond_le : nanosPerSecond ≤ twoTo 30 := by decide +kernel

theorem restUnits_le {nanos : Nat} (h : nanos < nanosPerSecond) :
    restUnits nanos ≤ (twoTo 30 - 1) * twoTo 1044 := by
  have h30 := nanosPerSecond_le
  refine nearestUnits_le nanosPerSecond_pos ⟨twoTo 30 - 1, 1044, ?_, rfl⟩ ?_
  · have := twoTo_lt (by omega : 30 < 53)
    omega
  · have hone : unitsPerOne = twoTo 30 * twoTo 1044 := twoTo_add 30 1044
    have hfactor : nanos * twoTo 30 ≤ (twoTo 30 - 1) * nanosPerSecond := by
      have hbound : nanos * twoTo 30 ≤ (nanosPerSecond - 1) * twoTo 30 :=
        Nat.mul_le_mul_right _ (by omega)
      have hnanos : (nanosPerSecond - 1) * twoTo 30 = nanosPerSecond * twoTo 30 - twoTo 30 := by
        rw [Nat.sub_mul, Nat.one_mul]
      have htwo : (twoTo 30 - 1) * nanosPerSecond = nanosPerSecond * twoTo 30 - nanosPerSecond := by
        rw [Nat.sub_mul, Nat.one_mul, Nat.mul_comm]
      omega
    calc nanos * unitsPerOne = nanos * twoTo 30 * twoTo 1044 := by rw [hone, Nat.mul_assoc]
      _ ≤ (twoTo 30 - 1) * nanosPerSecond * twoTo 1044 := Nat.mul_le_mul_right _ hfactor
      _ = (twoTo 30 - 1) * twoTo 1044 * nanosPerSecond := by ring

theorem restUnits_lt {nanos : Nat} (h : nanos < nanosPerSecond) :
    restUnits nanos < unitsPerOne := by
  have hone : unitsPerOne = twoTo 30 * twoTo 1044 := twoTo_add 30 1044
  rw [hone]
  refine lt_of_le_of_lt (restUnits_le h) (Nat.mul_lt_mul_of_pos_right ?_ (twoTo_pos 1044))
  have := twoTo_pos 30
  omega

theorem wholeUnits_exact {seconds : Nat} (h : seconds ≤ twoTo 53) :
    wholeUnits seconds = seconds * unitsPerOne := by
  have hround := nearestUnits_of_short (short_mul_unitsPerOne h) Nat.one_pos
  rwa [Nat.mul_one] at hround

theorem short_wholeUnits (seconds : Nat) : Short (wholeUnits seconds) := short_nearestUnits _ _

theorem wholeUnits_mono {a b : Nat} (h : a ≤ b) : wholeUnits a ≤ wholeUnits b :=
  nearestUnits_mono Nat.one_pos Nat.one_pos
    (Nat.mul_le_mul_right 1 (Nat.mul_le_mul_right unitsPerOne h))

theorem restUnits_mono {a b : Nat} (h : a ≤ b) : restUnits a ≤ restUnits b :=
  nearestUnits_mono nanosPerSecond_pos nanosPerSecond_pos
    (Nat.mul_le_mul_right _ (Nat.mul_le_mul_right unitsPerOne h))

/-- Whatever the rest, seconds do not exceed the next whole second. -/
theorem nearestUnits_rest_le {seconds later rest : Nat} (h : seconds < later)
    (hrest : rest < nanosPerSecond) :
    nearestUnits (wholeUnits seconds + restUnits rest) 1 ≤ wholeUnits later := by
  have hlt := restUnits_lt hrest
  rcases Nat.lt_or_ge seconds (twoTo 53) with hsmall | hlarge
  · -- Whole seconds up to the next one are exact.
    have hnext : wholeUnits (seconds + 1) = (seconds + 1) * unitsPerOne := wholeUnits_exact hsmall
    have hsum : wholeUnits seconds + restUnits rest ≤ wholeUnits (seconds + 1) * 1 := by
      rw [hnext, wholeUnits_exact hsmall.le, Nat.mul_one, Nat.add_mul, Nat.one_mul]
      omega
    exact (nearestUnits_le Nat.one_pos (short_wholeUnits _) hsum).trans (wholeUnits_mono h)
  · -- The gaps are two seconds or more, so the rest is rounded away.
    have hge : twoTo (53 + 1074) ≤ wholeUnits seconds :=
      le_nearestUnits Nat.one_pos (short_twoTo _) (by
        rw [Nat.mul_one, twoTo_add]
        exact Nat.mul_le_mul_right unitsPerOne hlarge)
    have hlog := le_log2 hge
    have hgap : twoTo (1074 + 1) ≤ ulp (wholeUnits seconds) := twoTo_le (by omega)
    have hsmall : 2 * restUnits rest < ulp (wholeUnits seconds) := by
      have htwo : twoTo (1074 + 1) = unitsPerOne * twoTo 1 := twoTo_add 1074 1
      rw [htwo, twoTo_one] at hgap
      omega
    rw [nearestUnits_add_small (short_wholeUnits seconds) hsmall]
    exact wholeUnits_mono h.le

/-- **A longer time is not fewer seconds.** -/
theorem secondUnits_mono {a b : Nat} (h : a ≤ b) : secondUnits a ≤ secondUnits b := by
  have hdiv : a / nanosPerSecond ≤ b / nanosPerSecond := Nat.div_le_div_right h
  have hmod := Nat.mod_lt a nanosPerSecond_pos
  rcases Nat.lt_or_eq_of_le hdiv with hlt | heq
  · refine (nearestUnits_rest_le hlt hmod).trans ?_
    exact le_nearestUnits Nat.one_pos (short_wholeUnits _) (by omega)
  · have hrest : a % nanosPerSecond ≤ b % nanosPerSecond := by
      have ha := Nat.div_add_mod a nanosPerSecond
      have hb := Nat.div_add_mod b nanosPerSecond
      rw [heq] at ha
      omega
    have hmono := restUnits_mono hrest
    unfold secondUnits
    rw [heq]
    exact nearestUnits_mono Nat.one_pos Nat.one_pos (by omega)

@[simp] theorem secondUnits_zero : secondUnits 0 = 0 := by
  simp [secondUnits, wholeUnits, restUnits, nearestUnits_zero]

/-- A second is one second exactly. -/
theorem secondUnits_second : secondUnits nanosPerSecond = unitsPerOne := by
  have hdiv : nanosPerSecond / nanosPerSecond = 1 := Nat.div_self nanosPerSecond_pos
  have hone : wholeUnits 1 = unitsPerOne := by
    rw [wholeUnits_exact (twoTo_pos 53), Nat.one_mul]
  have hnone : restUnits 0 = 0 := by rw [restUnits, Nat.zero_mul, nearestUnits_zero]
  rw [secondUnits, hdiv, Nat.mod_self, hone, hnone]
  exact one_isUnits.nearestUnits_eq

/-- Some time is not much less than a billionth of a second. -/
theorem le_secondUnits {nanos : Nat} (h : 0 < nanos) : twoTo 1044 ≤ secondUnits nanos := by
  have hone : twoTo 1044 ≤ restUnits 1 := by
    refine le_nearestUnits nanosPerSecond_pos (short_twoTo _) ?_
    have hsplit : unitsPerOne = twoTo 1044 * twoTo 30 := twoTo_add 1044 30
    rw [Nat.one_mul, hsplit]
    exact Nat.mul_le_mul_left _ nanosPerSecond_le
  have hfirst : twoTo 1044 ≤ secondUnits 1 := by
    refine le_nearestUnits Nat.one_pos (short_twoTo _) ?_
    have hmod : 1 % nanosPerSecond = 1 := rfl
    rw [hmod, Nat.mul_one]
    omega
  exact hfirst.trans (secondUnits_mono h)

theorem secondUnits_pos {nanos : Nat} (h : 0 < nanos) : 0 < secondUnits nanos :=
  (twoTo_pos 1044).trans_le (le_secondUnits h)

/-! ## How exact seconds are -/

/-- The exact units of the seconds in some nanoseconds. -/
def exactUnits (nanos : Nat) : ℚ := nanos * unitsPerOne / nanosPerSecond

theorem exactUnits_nonneg (nanos : Nat) : 0 ≤ exactUnits nanos := by
  unfold exactUnits
  positivity

theorem abs_restUnits_sub_le (nanos : Nat) :
    |(restUnits nanos : ℚ) - exactUnits nanos| ≤ exactUnits nanos / 2 ^ 53 := by
  have hexact : ((nanos * unitsPerOne : Nat) : ℚ) / nanosPerSecond = exactUnits nanos := by
    rw [exactUnits, Nat.cast_mul]
  rcases Nat.eq_zero_or_pos nanos with rfl | pos
  · have hnone : restUnits 0 = 0 := by rw [restUnits, Nat.zero_mul, nearestUnits_zero]
    simp [hnone, exactUnits]
  · have hnormal : twoTo 52 * nanosPerSecond ≤ nanos * unitsPerOne := by
      calc twoTo 52 * nanosPerSecond ≤ twoTo 52 * twoTo 30 :=
            Nat.mul_le_mul_left _ nanosPerSecond_le
        _ = twoTo (52 + 30) := (twoTo_add 52 30).symm
        _ ≤ unitsPerOne := twoTo_le (by omega)
        _ ≤ nanos * unitsPerOne := Nat.le_mul_of_pos_left _ pos
    have h := abs_nearestUnits_sub_le_self nanosPerSecond_pos hnormal
    rwa [hexact] at h

/-- The seconds in some nanoseconds are off by at most their `5 * 2 ^ -54`-th part. -/
theorem abs_secondUnits_sub_le (nanos : Nat) :
    |(secondUnits nanos : ℚ) - exactUnits nanos| ≤ exactUnits nanos * (5 / 2) / 2 ^ 53 := by
  have hnanos : exactUnits nanos =
      (nanos / nanosPerSecond * unitsPerOne : Nat) + exactUnits (nanos % nanosPerSecond) := by
    have hpos : (nanosPerSecond : ℚ) ≠ 0 := by exact_mod_cast nanosPerSecond_pos.ne'
    have hsplit : (nanosPerSecond : ℚ) * (nanos / nanosPerSecond : Nat) +
        (nanos % nanosPerSecond : Nat) = nanos := by
      exact_mod_cast Nat.div_add_mod nanos nanosPerSecond
    unfold exactUnits
    push_cast
    rw [eq_comm, ← hsplit]
    field_simp
  have hwhole := abs_nearestUnits_one_sub_le (nanos / nanosPerSecond * unitsPerOne)
  have hrest := abs_restUnits_sub_le (nanos % nanosPerSecond)
  have hsum := abs_nearestUnits_one_sub_le
    (wholeUnits (nanos / nanosPerSecond) + restUnits (nanos % nanosPerSecond))
  have hnonneg := exactUnits_nonneg nanos
  -- Either part is off by its `2 ^ -53`-th part, and rounding the sum adds as much once more.
  change |(secondUnits nanos : ℚ) - _| ≤ _ at hsum
  change |(wholeUnits (nanos / nanosPerSecond) : ℚ) - _| ≤ _ at hwhole
  push_cast at hsum
  generalize (wholeUnits (nanos / nanosPerSecond) : ℚ) = whole at *
  generalize (restUnits (nanos % nanosPerSecond) : ℚ) = rest at *
  generalize ((nanos / nanosPerSecond * unitsPerOne : Nat) : ℚ) = exactWhole at *
  rw [abs_le] at *
  constructor <;> linarith

/-! ## Bounds -/

theorem wholeUnits_le {seconds : Nat} (h : seconds < twoTo 64) :
    wholeUnits seconds ≤ twoTo (64 + 1074) :=
  nearestUnits_le Nat.one_pos (short_twoTo _) (by
    rw [Nat.mul_one, twoTo_add]
    exact Nat.mul_le_mul_right unitsPerOne h.le)

theorem secondUnits_le {nanos : Nat} (h : nanos < durationLimit) :
    secondUnits nanos ≤ twoTo (64 + 1074 + 1) := by
  have hwhole := wholeUnits_le (Nat.div_lt_of_lt_mul (by rwa [Nat.mul_comm]) :
    nanos / nanosPerSecond < twoTo 64)
  have hrest := restUnits_lt (Nat.mod_lt nanos nanosPerSecond_pos)
  have hone : unitsPerOne ≤ twoTo (64 + 1074) := twoTo_le (by omega)
  have hdouble : twoTo (64 + 1074 + 1) = twoTo (64 + 1074) * twoTo 1 := twoTo_add _ 1
  refine nearestUnits_le Nat.one_pos (short_twoTo _) ?_
  rw [hdouble, twoTo_one]
  omega

namespace Duration

theorem toSeconds_isUnits (d : Duration) : d.toSeconds.IsUnits (secondUnits d.nanos) := by
  have hwhole : (Binary64.ofNat (d.nanos / nanosPerSecond)).IsUnits
      (wholeUnits (d.nanos / nanosPerSecond)) :=
    ofNat_isUnits (Nat.div_lt_of_lt_mul (by rw [Nat.mul_comm]; exact d.nanos_lt))
  have hmod := Nat.mod_lt d.nanos nanosPerSecond_pos
  have hrest := ofNat_isUnits_of_le (hmod.trans nanosPerSecond_lt).le
  have hsecond := ofNat_isUnits_of_le nanosPerSecond_lt.le
  have hne : nanosPerSecond * unitsPerOne ≠ 0 :=
    (Nat.mul_pos nanosPerSecond_pos unitsPerOne_pos).ne'
  -- The nanoseconds are divided in units on both sides, which cancel.
  have hround : nearestUnits (d.nanos % nanosPerSecond * unitsPerOne * unitsPerOne)
      (nanosPerSecond * unitsPerOne) = restUnits (d.nanos % nanosPerSecond) :=
    nearestUnits_scale _ nanosPerSecond_pos unitsPerOne_pos
  have hquot := hrest.div_eq hsecond hne
  have hlt : restUnits (d.nanos % nanosPerSecond) < overflowUnits :=
    (restUnits_lt hmod).trans (twoTo_lt (by omega))
  have hpart := ofRatio_isUnits (d.nanos % nanosPerSecond * unitsPerOne * unitsPerOne)
    (nanosPerSecond * unitsPerOne) (by rwa [hround])
  rw [hround, ← hquot] at hpart
  have hsum := hwhole.add_eq hpart
  have hall : secondUnits d.nanos < overflowUnits :=
    lt_of_le_of_lt (secondUnits_le d.nanos_lt) (twoTo_lt (by omega))
  have htotal := ofRatio_isUnits _ 1 hall
  rw [← hsum] at htotal
  exact htotal

end Duration

end Gatehouse
