import Gatehouse.Proofs.Binary64.Value
/-!
# How far rounding goes

Rounding moves a quotient by half a gap at most (`abs_nearestUnits_sub_le_ulp`), and a gap is at
most the `2 ^ 52`-th part of a magnitude with 53 bits. So whatever stays under such a magnitude is
moved by at most its `2 ^ 53`-th part (`abs_nearestUnits_sub_le`), and whole numbers of units by at
most their own (`abs_nearestUnits_one_sub_le`).
-/

namespace Gatehouse

/-- A whole number nearest to a quotient is at most one half away. -/
theorem roundDiv_near (num : Nat) {den : Nat} (pos : 0 < den) :
    2 * (roundDiv num den * den) ≤ 2 * num + den ∧
      2 * num ≤ 2 * (roundDiv num den * den) + den := by
  have hreached := (le_roundDiv_iff pos (roundDiv num den)).mp (le_refl (roundDiv num den))
  have hover : ¬ roundDiv num den + 1 ≤ roundDiv num den := by omega
  have hnext := mt (le_roundDiv_iff pos (roundDiv num den + 1)).mpr hover
  rw [Nat.add_mul, Nat.one_mul] at hnext
  omega

namespace Binary64

theorem ulp_mono {a b : Nat} (h : a ≤ b) : ulp a ≤ ulp b := by
  have := log2_le h
  exact twoTo_le (by omega)

/-- From `2 ^ 52` units on, a gap is at most the `2 ^ 52`-th part of the magnitude. -/
theorem ulp_mul_le {units : Nat} (normal : twoTo 52 ≤ units) : ulp units * twoTo 52 ≤ units := by
  have hlog := le_log2 normal
  have hself : twoTo units.log2 ≤ units := by
    rw [twoTo_eq]
    exact Nat.log2_self_le (lt_of_lt_of_le (twoTo_pos 52) normal).ne'
  unfold ulp
  rwa [← twoTo_add, Nat.sub_add_cancel hlog]

theorem abs_nearestUnits_sub_le_ulp (num : Nat) {den : Nat} (pos : 0 < den) :
    |(nearestUnits num den : ℚ) - num / den| ≤ (ulp (num / den) : ℚ) / 2 := by
  have hgap := ulp_pos (num / den)
  have hnear := roundDiv_near num (Nat.mul_pos pos hgap)
  unfold nearestUnits
  generalize roundDiv num (den * ulp (num / den)) = k at hnear ⊢
  generalize ulp (num / den) = gap at hnear hgap ⊢
  have hden : (0 : ℚ) < den := by exact_mod_cast pos
  have hle : (2 * (k * (den * gap)) : ℚ) ≤ 2 * num + den * gap := by exact_mod_cast hnear.1
  have hge : (2 * num : ℚ) ≤ 2 * (k * (den * gap)) + den * gap := by exact_mod_cast hnear.2
  have hnum : (num : ℚ) = num / den * den := (div_mul_cancel₀ _ hden.ne').symm
  rw [hnum] at hle hge
  push_cast
  rw [abs_le]
  constructor
  · refine le_of_mul_le_mul_right ?_ hden
    linarith
  · refine le_of_mul_le_mul_right ?_ hden
    linarith

/-- What does not exceed a magnitude of 53 bits is moved by at most its `2 ^ 53`-th part. -/
theorem abs_nearestUnits_sub_le {num den bound : Nat} (pos : 0 < den) (normal : twoTo 52 ≤ bound)
    (le : num ≤ bound * den) :
    |(nearestUnits num den : ℚ) - num / den| ≤ (bound : ℚ) / 2 ^ 53 := by
  have hquot : num / den ≤ bound := Nat.div_le_of_le_mul (by rwa [Nat.mul_comm])
  have hgap : ulp (num / den) * twoTo 52 ≤ bound :=
    (Nat.mul_le_mul_right _ (ulp_mono hquot)).trans (ulp_mul_le normal)
  have hcast : (ulp (num / den) : ℚ) * 2 ^ 52 ≤ bound := by
    rw [twoTo_eq] at hgap
    exact_mod_cast hgap
  have herror := abs_nearestUnits_sub_le_ulp num pos
  linarith

/-- A whole number of units is moved by at most its own `2 ^ 53`-th part. -/
theorem abs_nearestUnits_one_sub_le (units : Nat) :
    |(nearestUnits units 1 : ℚ) - units| ≤ (units : ℚ) / 2 ^ 53 := by
  rcases Nat.lt_or_ge units (twoTo 53) with hshort | hlong
  · -- Less than `2 ^ 53` units are not moved at all.
    have hexact : Short units := ⟨units, 0, hshort, by rw [twoTo_zero, Nat.mul_one]⟩
    rw [hexact.nearestUnits_one, sub_self, abs_zero]
    positivity
  · have hnormal : twoTo 52 ≤ units := (twoTo_le (by omega)).trans hlong
    have hself : units ≤ units * 1 := by omega
    have h := abs_nearestUnits_sub_le Nat.one_pos hnormal hself
    rwa [Nat.cast_one, div_one] at h

/-- Likewise a quotient of at least `2 ^ 52` units. -/
theorem abs_nearestUnits_sub_le_self {num den : Nat} (pos : 0 < den)
    (normal : twoTo 52 * den ≤ num) :
    |(nearestUnits num den : ℚ) - num / den| ≤ (num : ℚ) / den / 2 ^ 53 := by
  have hquot : twoTo 52 ≤ num / den := (Nat.le_div_iff_mul_le pos).mpr normal
  have hgap : (ulp (num / den) : ℚ) * 2 ^ 52 ≤ (num / den : Nat) := by
    have h := ulp_mul_le hquot
    rw [twoTo_eq 52] at h
    exact_mod_cast h
  have hfloor : ((num / den : Nat) : ℚ) ≤ num / den := Nat.cast_div_le
  have herror := abs_nearestUnits_sub_le_ulp num pos
  linarith

end Binary64

end Gatehouse
