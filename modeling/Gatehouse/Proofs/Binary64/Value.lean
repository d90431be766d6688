import Gatehouse.Proofs.Binary64.Rounding
/-!
# Numbers without a sign

Token levels, rates and seconds never carry a sign. For such numbers the operations are told by
their units alone: a sum, product or quotient is the rounded exact one (`IsUnits.add_eq`,
`IsUnits.mul_eq`, `IsUnits.div_eq`), and a difference that does not go below zero likewise
(`IsUnits.sub_eq`). Whole numbers up to `2 ^ 53` are exact (`ofNat_isUnits_of_le`), and one can be
taken away from any number up to there exactly (`short_sub_unitsPerOne`).
-/

namespace Gatehouse

namespace Binary64

/-- The units of a finite number. -/
def units : Binary64 → Nat
  | .finite _ u _ => u
  | _ => 0

/-- The exact value of a finite number. -/
def toRat : Binary64 → ℚ
  | .finite s u _ => (signed s u : ℚ) / unitsPerOne
  | _ => 0

/-- The number has a clear sign bit, or is no number. -/
def IsUnsigned : Binary64 → Prop
  | .nan => True
  | .infinite s => s = false
  | .finite s _ _ => s = false

/-- A finite number with a clear sign bit, of some units. -/
def IsUnits (x : Binary64) (u : Nat) : Prop := ∃ h, x = .finite false u h

theorem unitsPerOne_pos : 0 < unitsPerOne := twoTo_pos 1074

theorem cast_unitsPerOne_pos : (0 : ℚ) < unitsPerOne := by exact_mod_cast unitsPerOne_pos

theorem ofRatio_isUnits (num den : Nat) (h : nearestUnits num den < overflowUnits) :
    (ofRatio false num den).IsUnits (nearestUnits num den) :=
  ⟨⟨h, nearestUnits_short num den⟩, dif_pos h⟩

theorem ofRatio_infinite {num den : Nat} (h : overflowUnits ≤ nearestUnits num den) :
    ofRatio false num den = .infinite false :=
  dif_neg (Nat.not_lt.mpr h)

theorem nearestUnits_zero (den : Nat) : nearestUnits 0 den = 0 := by
  have hzero : ∀ d, roundDiv 0 d = 0 := fun d => by
    simp only [roundDiv, Nat.zero_mod, Nat.zero_div, Nat.mul_zero]
    split
    · rfl
    · rw [if_pos (by omega)]
  rw [nearestUnits, hzero, Nat.zero_mul]

theorem ofRatio_zero (den : Nat) : ofRatio false 0 den = .finite false 0 fits_zero := by
  have hround := nearestUnits_zero den
  obtain ⟨h, heq⟩ := ofRatio_isUnits 0 den
    (by rw [hround]; exact twoTo_pos 2098)
  rw [heq]
  simp only [hround]

theorem signed_false (u : Nat) : signed false u = (u : Int) := if_neg Bool.false_ne_true

theorem zero_isUnits : zero.IsUnits 0 := ⟨fits_zero, rfl⟩

namespace IsUnits

variable {x y : Binary64} {u v : Nat}

theorem units_eq (h : x.IsUnits u) : x.units = u := by
  obtain ⟨_, rfl⟩ := h
  rfl

theorem fits (h : x.IsUnits u) : Fits u := h.1

theorem short (h : x.IsUnits u) : Short u := h.1.2

theorem lt_overflow (h : x.IsUnits u) : u < overflowUnits := h.1.1

theorem isUnsigned (h : x.IsUnits u) : x.IsUnsigned := by
  obtain ⟨_, rfl⟩ := h
  rfl

theorem isFinite (h : x.IsUnits u) : x.isFinite = true := by
  obtain ⟨_, rfl⟩ := h
  rfl

theorem unique (h : x.IsUnits u) (h' : x.IsUnits v) : u = v :=
  h.units_eq.symm.trans h'.units_eq

theorem ext (hx : x.IsUnits u) (hy : y.IsUnits u) : x = y := by
  obtain ⟨_, rfl⟩ := hx
  obtain ⟨_, rfl⟩ := hy
  rfl

theorem toRat_eq (h : x.IsUnits u) : x.toRat = (u : ℚ) / unitsPerOne := by
  obtain ⟨_, rfl⟩ := h
  rw [toRat, signed_false, Int.cast_natCast]

theorem lt_iff (hx : x.IsUnits u) (hy : y.IsUnits v) : x.lt y = true ↔ u < v := by
  obtain ⟨_, rfl⟩ := hx
  obtain ⟨_, rfl⟩ := hy
  rw [lt, signed_false, signed_false, decide_eq_true_eq, Nat.cast_lt]

theorem le_iff (hx : x.IsUnits u) (hy : y.IsUnits v) : x.le y = true ↔ u ≤ v := by
  obtain ⟨_, rfl⟩ := hx
  obtain ⟨_, rfl⟩ := hy
  rw [le, signed_false, signed_false, decide_eq_true_eq, Nat.cast_le]

theorem add_eq (hx : x.IsUnits u) (hy : y.IsUnits v) : x + y = ofRatio false (u + v) 1 := by
  obtain ⟨hu, rfl⟩ := hx
  obtain ⟨hv, rfl⟩ := hy
  have hsum : signed false u + signed false v = ((u + v : Nat) : Int) := by
    rw [signed_false, signed_false, Nat.cast_add]
  show add _ _ = _
  rw [add, hsum]
  -- Zero has a clear sign on its own account; any other sum has the sign of the integer.
  generalize u + v = sum
  by_cases zero : sum = 0
  · subst zero
    exact (ofRatio_zero 1).symm
  · have hne : (sum : Int) ≠ 0 := by exact_mod_cast zero
    have hneg : ¬ (sum : Int) < 0 := by omega
    simp only [if_neg hne, hneg, decide_false, Int.natAbs_natCast]

theorem mul_eq (hx : x.IsUnits u) (hy : y.IsUnits v) :
    x * y = ofRatio false (u * v) unitsPerOne := by
  obtain ⟨hu, rfl⟩ := hx
  obtain ⟨hv, rfl⟩ := hy
  show mul _ _ = _
  rw [mul, bne_self_eq_false]

theorem div_eq (hx : x.IsUnits u) (hy : y.IsUnits v) (ne : v ≠ 0) :
    x / y = ofRatio false (u * unitsPerOne) v := by
  obtain ⟨hu, rfl⟩ := hx
  obtain ⟨hv, rfl⟩ := hy
  show div _ _ = _
  rw [div, if_neg ne, bne_self_eq_false]

/-- A difference that does not go below zero. -/
theorem sub_eq (hx : x.IsUnits u) (hy : y.IsUnits v) (le : v ≤ u) :
    x - y = ofRatio false (u - v) 1 := by
  obtain ⟨hu, rfl⟩ := hx
  obtain ⟨hv, rfl⟩ := hy
  have hdiff : signed false u + signed (!false) v = ((u - v : Nat) : Int) := by
    simp only [signed, Bool.not_false, Bool.false_eq_true, if_true, if_false]
    omega
  show sub _ _ = _
  rw [sub, neg, add, hdiff]
  generalize u - v = diff
  by_cases zero : diff = 0
  · subst zero
    exact (ofRatio_zero 1).symm
  · have hne : (diff : Int) ≠ 0 := by exact_mod_cast zero
    have hneg : ¬ (diff : Int) < 0 := by omega
    simp only [if_neg hne, hneg, decide_false, Int.natAbs_natCast]

theorem nearestUnits_eq (h : x.IsUnits u) : nearestUnits u 1 = u := by
  have hround := nearestUnits_of_short h.short Nat.one_pos
  rwa [Nat.mul_one] at hround

end IsUnits

/-! ## Infinities and no number -/

theorem IsUnsigned.cases {x : Binary64} (h : x.IsUnsigned) :
    x = .nan ∨ x = .infinite false ∨ ∃ u, x.IsUnits u := by
  cases x with
  | nan => exact .inl rfl
  | infinite s =>
      cases h
      exact .inr (.inl rfl)
  | finite s u hu =>
      cases h
      exact .inr (.inr ⟨u, hu, rfl⟩)

theorem ofRatio_isUnsigned (num den : Nat) : (ofRatio false num den).IsUnsigned := by
  rcases Nat.lt_or_ge (nearestUnits num den) overflowUnits with h | h
  · exact (ofRatio_isUnits num den h).isUnsigned
  · rw [ofRatio_infinite h]
    rfl

theorem IsUnits.mul_isUnsigned {x y : Binary64} {u : Nat} (hx : x.IsUnits u)
    (hy : y.IsUnsigned) : (x * y).IsUnsigned := by
  rcases hy.cases with rfl | rfl | ⟨v, hv⟩
  · obtain ⟨_, rfl⟩ := hx
    trivial
  · obtain ⟨_, rfl⟩ := hx
    show (mul _ _).IsUnsigned
    rw [mul]
    split
    · trivial
    · rfl
  · rw [hx.mul_eq hv]
    exact ofRatio_isUnsigned _ _

theorem IsUnits.mul_infinite {x : Binary64} {u : Nat} (hx : x.IsUnits u) (pos : 0 < u) :
    x * infinite false = infinite false := by
  obtain ⟨_, rfl⟩ := hx
  show mul _ _ = _
  rw [mul, if_neg pos.ne', bne_self_eq_false]

theorem IsUnits.le_ofRatio_iff {x : Binary64} {u : Nat} (hx : x.IsUnits u) (num den : Nat) :
    x.le (ofRatio false num den) = true ↔ u ≤ nearestUnits num den := by
  rcases Nat.lt_or_ge (nearestUnits num den) overflowUnits with h | h
  · exact hx.le_iff (ofRatio_isUnits num den h)
  · rw [ofRatio_infinite h]
    have hle := hx.lt_overflow.le.trans h
    obtain ⟨_, rfl⟩ := hx
    exact iff_of_true rfl hle

/-! ## Minima -/

theorem min_isUnits {x y : Binary64} {u v : Nat} (hx : x.IsUnits u) (hy : y.IsUnits v) :
    (x.min y).IsUnits (Min.min u v) := by
  have hlt := hy.lt_iff hx
  have hxnan : x.isNaN = false := by obtain ⟨_, rfl⟩ := hx; rfl
  have hynan : y.isNaN = false := by obtain ⟨_, rfl⟩ := hy; rfl
  unfold Binary64.min
  rw [hxnan, hynan]
  simp only [Bool.false_eq_true, if_false]
  split
  · rename_i h
    rw [Nat.min_eq_right (hlt.mp h).le]
    exact hy
  · rename_i h
    rw [Nat.min_eq_left (Nat.not_lt.mp (fun hl => h (hlt.mpr hl)))]
    exact hx

theorem min_infinite {y : Binary64} {v : Nat} (hy : y.IsUnits v) :
    (infinite false).min y = y := by
  obtain ⟨_, rfl⟩ := hy
  rfl

/-! ## Whole numbers -/

theorem ofNat_isUnits {n : Nat} (h : n < twoTo 64) :
    (ofNat n).IsUnits (nearestUnits (n * unitsPerOne) 1) := by
  refine ofRatio_isUnits _ _ ?_
  have hle : nearestUnits (n * unitsPerOne) 1 ≤ twoTo (64 + 1074) :=
    nearestUnits_le Nat.one_pos (short_twoTo _) (by
      rw [Nat.mul_one, twoTo_add]
      exact Nat.mul_le_mul_right unitsPerOne h.le)
  exact lt_of_le_of_lt hle (twoTo_lt (by omega))

theorem short_mul_unitsPerOne {n : Nat} (h : n ≤ twoTo 53) : Short (n * unitsPerOne) := by
  rcases Nat.lt_or_eq_of_le h with hlt | rfl
  · exact ⟨n, 1074, hlt, rfl⟩
  · have hpow : twoTo 53 * unitsPerOne = twoTo (53 + 1074) := (twoTo_add 53 1074).symm
    rw [hpow]
    exact short_twoTo _

/-- Up to `2 ^ 53`, one can be taken away exactly. -/
theorem short_sub_unitsPerOne {u : Nat} (short : Short u) (ge : unitsPerOne ≤ u)
    (le : u ≤ twoTo 53 * unitsPerOne) : Short (u - unitsPerOne) := by
  rcases Nat.lt_or_eq_of_le le with hlt | rfl
  · -- The gap at `u` divides one, and the difference is less than `2 ^ 53` such gaps.
    have hlog : u.log2 < 53 + 1074 := by
      refine log2_lt (unitsPerOne_pos.trans_le ge) ?_
      rw [twoTo_add]
      exact hlt
    have hone : ulp u ∣ unitsPerOne := twoTo_dvd (show u.log2 - 52 ≤ 1074 by omega)
    obtain ⟨k, hk⟩ := Nat.dvd_sub short.ulp_dvd hone
    refine ⟨k, u.log2 - 52, ?_, by rw [hk, Nat.mul_comm]; rfl⟩
    have hquot : k ≤ u / ulp u := by
      rw [Nat.le_div_iff_mul_le (ulp_pos u), Nat.mul_comm, ← hk]
      exact Nat.sub_le u unitsPerOne
    exact hquot.trans_lt (div_ulp_lt u)
  · refine ⟨twoTo 53 - 1, 1074, ?_, by rw [Nat.sub_mul, Nat.one_mul]; rfl⟩
    have := twoTo_pos 53
    omega

/-- A whole number up to `2 ^ 53`, exactly. -/
theorem ofNat_isUnits_of_le {n : Nat} (h : n ≤ twoTo 53) :
    (ofNat n).IsUnits (n * unitsPerOne) := by
  have hunits := ofNat_isUnits (h.trans_lt (twoTo_lt (by omega : 53 < 64)))
  have hround := nearestUnits_of_short (short_mul_unitsPerOne h) Nat.one_pos
  rw [Nat.mul_one] at hround
  rwa [hround] at hunits

theorem ofNat_toRat {n : Nat} (h : n ≤ twoTo 53) : (ofNat n).toRat = n := by
  rw [(ofNat_isUnits_of_le h).toRat_eq, Nat.cast_mul, mul_div_assoc,
    div_self cast_unitsPerOne_pos.ne', mul_one]

theorem one_isUnits : one.IsUnits unitsPerOne := by
  have h := ofNat_isUnits_of_le (twoTo_pos 53 : 1 ≤ twoTo 53)
  rwa [Nat.one_mul] at h

end Binary64

end Gatehouse
