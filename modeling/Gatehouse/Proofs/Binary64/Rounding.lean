import Mathlib
import Gatehouse.Binary64.Basic
/-!
# Rounding to the nearest magnitude

Rounding takes a quotient of whole numbers of units. It is monotone (`nearestUnits_mono`) and
leaves alone what is short enough (`nearestUnits_of_short`); so it never crosses a short
magnitude, which is all that later arguments use of it.
-/

namespace Gatehouse

theorem twoTo_eq (k : Nat) : twoTo k = 2 ^ k := by
  unfold twoTo
  rfl

theorem twoTo_dvd {j k : Nat} (h : j ≤ k) : twoTo j ∣ twoTo k := by
  rw [twoTo_eq, twoTo_eq]
  exact pow_dvd_pow 2 h

theorem le_log2 {k n : Nat} (h : twoTo k ≤ n) : k ≤ n.log2 := by
  have hpos : 0 < n := (twoTo_pos k).trans_le h
  rw [twoTo_eq] at h
  exact (Nat.le_log2 hpos.ne').mpr h

theorem log2_lt {k n : Nat} (pos : 0 < n) (h : n < twoTo k) : n.log2 < k := by
  rw [twoTo_eq] at h
  exact (Nat.log2_lt pos.ne').mpr h

theorem log2_le {a b : Nat} (h : a ≤ b) : a.log2 ≤ b.log2 := by
  rcases Nat.eq_zero_or_pos a with rfl | pos
  · simp
  · rw [Nat.le_log2 (by omega)]
    exact (Nat.log2_self_le pos.ne').trans h

/-! ## Rounding a quotient -/

/-- A whole number is reached exactly if the quotient lies at or above the half step below it; at
the half step itself, if it is even. -/
theorem le_roundDiv_iff {num den : Nat} (pos : 0 < den) (k : Nat) :
    k ≤ roundDiv num den ↔
      2 * (k * den) < 2 * num + den ∨ 2 * (k * den) = 2 * num + den ∧ k % 2 = 0 := by
  have hdiv := Nat.div_add_mod num den
  have hmod := Nat.mod_lt num pos
  generalize num / den = q at *
  generalize hr : num % den = r at *
  have hround : roundDiv num den =
      if 2 * r < den then q else if 2 * r = den then q + q % 2 else q + 1 := by
    have hq : q = num / den := by
      rw [← hdiv, Nat.mul_add_div pos, Nat.div_eq_of_lt hmod, Nat.add_zero]
    rw [roundDiv, hr, ← hq]
  rw [hround]
  -- Which side of `q` and `q + 1` the number lies on decides, so the product goes with it.
  rcases Nat.lt_trichotomy k (q + 1) with hk | hk | hk
  · have hprod : k * den ≤ den * q := by
      rw [Nat.mul_comm den]
      exact Nat.mul_le_mul_right den (by omega)
    split
    · omega
    · split <;> omega
  · have hprod : k * den = den * q + den := by rw [hk, Nat.add_mul, Nat.mul_comm, Nat.one_mul]
    split
    · omega
    · split <;> omega
  · have hprod : den * q + 2 * den ≤ k * den := by
      have h := Nat.mul_le_mul_right den (show q + 2 ≤ k by omega)
      rwa [Nat.add_mul, Nat.mul_comm q] at h
    split
    · omega
    · split <;> omega

theorem roundDiv_mono {a b c d : Nat} (hb : 0 < b) (hd : 0 < d) (h : a * d ≤ c * b) :
    roundDiv a b ≤ roundDiv c d := by
  have hreach := (le_roundDiv_iff hb (roundDiv a b)).mp le_rfl
  generalize roundDiv a b = k at *
  rw [le_roundDiv_iff hd]
  rcases hreach with hlt | ⟨heq, heven⟩
  · left
    have hscaled : 2 * (k * b) * d < (2 * a + b) * d := Nat.mul_lt_mul_of_pos_right hlt hd
    have hgoal : 2 * (k * d) * b < (2 * c + d) * b := by nlinarith
    exact Nat.lt_of_mul_lt_mul_right hgoal
  · have hscaled : 2 * (k * b) * d = (2 * a + b) * d := by rw [heq]
    have hgoal : 2 * (k * d) * b ≤ (2 * c + d) * b := by nlinarith
    have hle := Nat.le_of_mul_le_mul_right hgoal hb
    omega

theorem le_roundDiv (num : Nat) {den : Nat} (pos : 0 < den) : num / den ≤ roundDiv num den := by
  rw [le_roundDiv_iff pos]
  left
  have := Nat.div_mul_le_self num den
  omega

theorem roundDiv_mul_self (n : Nat) {den : Nat} (pos : 0 < den) : roundDiv (n * den) den = n := by
  unfold roundDiv
  rw [Nat.mul_mod_left, if_pos (by omega), Nat.mul_div_cancel n pos]

namespace Binary64

/-! ## Short magnitudes -/

/-- At most 53 significant bits. -/
def Short (units : Nat) : Prop := ∃ m e : Nat, m < twoTo 53 ∧ units = m * twoTo e

theorem Fits.short {units : Nat} (h : Fits units) : Short units := h.2

theorem short_nearestUnits (num den : Nat) : Short (nearestUnits num den) :=
  nearestUnits_short num den

theorem short_twoTo (k : Nat) : Short (twoTo k) :=
  ⟨1, k, by decide +kernel, by rw [Nat.one_mul]⟩

/-- A whole number up to `2 ^ 53` of any power of two is short. -/
theorem short_mul_twoTo {n : Nat} (e : Nat) (h : n ≤ twoTo 53) : Short (n * twoTo e) := by
  rcases Nat.lt_or_eq_of_le h with hlt | rfl
  · exact ⟨n, e, hlt, rfl⟩
  · rw [← twoTo_add]
    exact short_twoTo _

theorem ulp_pos (units : Nat) : 0 < ulp units := twoTo_pos _

/-- A short magnitude is a whole number of its gaps. -/
theorem Short.ulp_dvd {units : Nat} (h : Short units) : ulp units ∣ units := by
  obtain ⟨m, e, hm, rfl⟩ := h
  rcases Nat.eq_zero_or_pos m with rfl | pos
  · simp
  · have hlt : m * twoTo e < twoTo (53 + e) := by
      rw [twoTo_add]
      exact Nat.mul_lt_mul_of_pos_right hm (twoTo_pos e)
    have hlog : (m * twoTo e).log2 < 53 + e := log2_lt (Nat.mul_pos pos (twoTo_pos e)) hlt
    exact Nat.dvd_mul_left_of_dvd (twoTo_dvd (by omega)) m

/-- A short magnitude is its own rounding. -/
theorem nearestUnits_of_short {units den : Nat} (h : Short units) (pos : 0 < den) :
    nearestUnits (units * den) den = units := by
  unfold nearestUnits
  rw [Nat.mul_div_cancel units pos]
  obtain ⟨k, hk⟩ := h.ulp_dvd
  have hwhole : roundDiv (units * den) (den * ulp units) = k := by
    have hnum : units * den = k * (den * ulp units) := by
      calc units * den = ulp units * k * den := by rw [← hk]
        _ = k * (den * ulp units) := by ring
    rw [hnum, roundDiv_mul_self k (Nat.mul_pos pos (ulp_pos units))]
  rw [hwhole, Nat.mul_comm]
  exact hk.symm

theorem Short.nearestUnits_one {units : Nat} (h : Short units) : nearestUnits units 1 = units := by
  have hround := nearestUnits_of_short h Nat.one_pos
  rwa [Nat.mul_one] at hround

/-! ## Monotonicity -/

theorem nearestUnits_le_twoTo (num den : Nat) :
    nearestUnits num den ≤ twoTo ((num / den).log2 + 1) := by
  have hlt := lt_twoTo_log2 (num / den)
  generalize hq : num / den = q at *
  have hround : roundDiv num (den * ulp q) ≤ q / ulp q + 1 := by
    have h := roundDiv_le num (den * ulp q)
    rwa [← Nat.div_div_eq_div_mul, hq] at h
  have hdvd : ulp q ∣ twoTo (q.log2 + 1) := twoTo_dvd (by omega)
  obtain ⟨k, hk⟩ := hdvd
  have hquot : q / ulp q < k := Nat.div_lt_of_lt_mul (by rwa [← hk])
  unfold nearestUnits
  rw [hq, hk, Nat.mul_comm (ulp q)]
  exact Nat.mul_le_mul_right (ulp q) (by omega)

/-- Rounding does not go below the power of two at or under the quotient. -/
theorem twoTo_le_nearestUnits {num den : Nat} (pos : 0 < den) (large : num / den ≠ 0) :
    twoTo (num / den).log2 ≤ nearestUnits num den := by
  have hle : twoTo (num / den).log2 ≤ num / den := twoTo_log2_le (Nat.pos_of_ne_zero large)
  generalize hq : num / den = q at *
  have hround : q / ulp q ≤ roundDiv num (den * ulp q) := by
    have h := le_roundDiv num (Nat.mul_pos pos (ulp_pos q))
    rwa [← Nat.div_div_eq_div_mul, hq] at h
  have hdvd : ulp q ∣ twoTo q.log2 := twoTo_dvd (by omega)
  obtain ⟨k, hk⟩ := hdvd
  have hquot : k ≤ q / ulp q := (Nat.le_div_iff_mul_le (ulp_pos q)).mpr (by
    rw [Nat.mul_comm, ← hk]
    exact hle)
  unfold nearestUnits
  rw [hq, hk, Nat.mul_comm (ulp q)]
  exact Nat.mul_le_mul_right (ulp q) (by omega)

/-- **A larger quotient does not round lower.** -/
theorem nearestUnits_mono {a b c d : Nat} (hb : 0 < b) (hd : 0 < d) (h : a * d ≤ c * b) :
    nearestUnits a b ≤ nearestUnits c d := by
  have hquot : a / b ≤ c / d := by
    rw [Nat.le_div_iff_mul_le hd]
    refine Nat.le_of_mul_le_mul_right ?_ hb
    calc a / b * d * b = a / b * b * d := by ring
      _ ≤ a * d := Nat.mul_le_mul_right d (Nat.div_mul_le_self a b)
      _ ≤ c * b := h
  by_cases same : ulp (a / b) = ulp (c / d)
  · unfold nearestUnits
    rw [same]
    refine Nat.mul_le_mul_right _ (roundDiv_mono (Nat.mul_pos hb (ulp_pos _))
      (Nat.mul_pos hd (ulp_pos _)) ?_)
    calc a * (d * ulp (c / d)) = a * d * ulp (c / d) := by ring
      _ ≤ c * b * ulp (c / d) := Nat.mul_le_mul_right _ h
      _ = c * (b * ulp (c / d)) := by ring
  · -- The gaps differ, so a power of two lies between the two quotients.
    have hne : c / d ≠ 0 := by
      intro hzero
      apply same
      rw [hzero] at hquot ⊢
      rw [Nat.le_zero.mp hquot]
    have hlogs : (a / b).log2 < (c / d).log2 := by
      have hmono : (a / b).log2 ≤ (c / d).log2 := log2_le hquot
      rcases Nat.lt_or_ge (a / b).log2 (c / d).log2 with hlt | hge
      · exact hlt
      · exact absurd (by unfold ulp; rw [Nat.le_antisymm hmono hge]) same
    calc nearestUnits a b ≤ twoTo ((a / b).log2 + 1) := nearestUnits_le_twoTo a b
      _ ≤ twoTo (c / d).log2 := twoTo_le hlogs
      _ ≤ nearestUnits c d := twoTo_le_nearestUnits hd hne

/-- Rounding does not go above a short magnitude that the quotient does not exceed. -/
theorem nearestUnits_le {num den units : Nat} (pos : 0 < den) (short : Short units)
    (h : num ≤ units * den) : nearestUnits num den ≤ units := by
  have hmono := nearestUnits_mono pos pos (Nat.mul_le_mul_right den h)
  rwa [nearestUnits_of_short short pos] at hmono

/-- Rounding does not go below a short magnitude that the quotient reaches. -/
theorem le_nearestUnits {num den units : Nat} (pos : 0 < den) (short : Short units)
    (h : units * den ≤ num) : units ≤ nearestUnits num den := by
  have hmono := nearestUnits_mono pos pos (Nat.mul_le_mul_right den h)
  rwa [nearestUnits_of_short short pos] at hmono

theorem nearestUnits_scale (num : Nat) {den factor : Nat} (pos : 0 < den) (factorPos : 0 < factor) :
    nearestUnits (num * factor) (den * factor) = nearestUnits num den := by
  have hpos : 0 < den * factor := Nat.mul_pos pos factorPos
  have heq : num * factor * den = num * (den * factor) := by ring
  exact Nat.le_antisymm (nearestUnits_mono hpos pos heq.le) (nearestUnits_mono pos hpos heq.ge)

/-- Less than a gap above a short magnitude, the gap is still the same. -/
theorem ulp_add {units extra : Nat} (short : Short units) (small : extra < ulp units) :
    ulp (units + extra) = ulp units := by
  rcases Nat.eq_zero_or_pos units with rfl | pos
  · have hone : ulp 0 = 1 := twoTo_zero
    have hextra : extra = 0 := by omega
    rw [hextra]
  · have hlt : units < twoTo (units.log2 + 1) := lt_twoTo_log2 units
    have hdvd : ulp units ∣ twoTo (units.log2 + 1) := twoTo_dvd (by omega)
    -- The next power of two is a whole number of gaps, so it is at least one gap away.
    have hgap : ulp units ≤ twoTo (units.log2 + 1) - units :=
      Nat.le_of_dvd (by omega) (Nat.dvd_sub hdvd short.ulp_dvd)
    have hge := log2_le (Nat.le_add_right units extra)
    have hle : (units + extra).log2 < units.log2 + 1 := log2_lt (by omega) (by omega)
    have hsame : (units + extra).log2 = units.log2 := by omega
    unfold ulp
    rw [hsame]

/-- What is less than half a gap above a short magnitude is rounded away. -/
theorem nearestUnits_add_small {units extra : Nat} (short : Short units)
    (small : 2 * extra < ulp units) : nearestUnits (units + extra) 1 = units := by
  obtain ⟨k, hk⟩ := short.ulp_dvd
  have hpos := ulp_pos units
  have hulp : ulp (units + extra) = ulp units := ulp_add short (by omega)
  have hmod : (units + extra) % ulp units = extra := by
    rw [Nat.add_mod, Nat.mod_eq_zero_of_dvd short.ulp_dvd, Nat.zero_add, Nat.mod_mod]
    exact Nat.mod_eq_of_lt (by omega)
  have hdiv : (units + extra) / ulp units = k := by
    have hsplit : units + extra = extra + ulp units * k := by omega
    rw [hsplit, Nat.add_mul_div_left _ _ hpos, Nat.div_eq_of_lt (by omega), Nat.zero_add]
  unfold nearestUnits
  rw [Nat.div_one, Nat.one_mul, hulp, roundDiv, hmod, if_pos small, hdiv, Nat.mul_comm]
  exact hk.symm

end Binary64

end Gatehouse
