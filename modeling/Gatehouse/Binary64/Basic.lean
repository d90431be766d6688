import Gatehouse.TwoTo
/-!
# Binary64 numbers

Token levels, rates and seconds are binary64 numbers. A finite one is a sign and a whole
number of *units* of `2 ^ -1074`, the smallest positive magnitude, so that values are compared,
added and multiplied as integers. Every operation takes the exact result and rounds it once, to
the nearest number with ties to even; the rounding is `nearestUnits`, and
`nearestUnits_short` says that it leaves at most 53 significant bits.
-/

namespace Gatehouse

/-! ## Rounding a quotient -/

/-- The whole number nearest to `num / den`; of two equally near, the even one. -/
def roundDiv (num den : Nat) : Nat :=
  if 2 * (num % den) < den then num / den
  else if 2 * (num % den) = den then num / den + num / den % 2
  else num / den + 1

theorem roundDiv_le (num den : Nat) : roundDiv num den ≤ num / den + 1 := by
  unfold roundDiv
  split
  · omega
  · split <;> omega

namespace Binary64

/-- The gap between neighbouring magnitudes at `units`: one unit below `2 ^ 53`, then doubling
with every power of two. -/
def ulp (units : Nat) : Nat := twoTo (units.log2 - 52)

/-- The magnitude nearest to `num / den` units, no upper limit being set. -/
def nearestUnits (num den : Nat) : Nat :=
  roundDiv num (den * ulp (num / den)) * ulp (num / den)

/-- The first magnitude, in units, that is too large: `2 ^ 1024`. -/
def overflowUnits : Nat := twoTo 2098

/-- Magnitudes of binary64 numbers: at most 53 significant bits, and below `2 ^ 1024`. -/
def Fits (units : Nat) : Prop :=
  units < overflowUnits ∧ ∃ m e : Nat, m < twoTo 53 ∧ units = m * twoTo e

theorem div_ulp_lt (q : Nat) : q / ulp q < twoTo 53 := by
  have hq := lt_twoTo_log2 q
  unfold ulp
  by_cases h : 52 ≤ q.log2
  · apply Nat.div_lt_of_lt_mul
    rw [← twoTo_add]
    have hexp : q.log2 - 52 + 53 = q.log2 + 1 := by omega
    rw [hexp]
    exact hq
  · have h0 : q.log2 - 52 = 0 := by omega
    rw [h0, twoTo_zero, Nat.div_one]
    exact Nat.lt_of_lt_of_le hq (twoTo_le (by omega))

/-- Rounding leaves at most 53 significant bits. -/
theorem nearestUnits_short (num den : Nat) :
    ∃ m e : Nat, m < twoTo 53 ∧ nearestUnits num den = m * twoTo e := by
  have hle := roundDiv_le num (den * ulp (num / den))
  have hlt : num / (den * ulp (num / den)) < twoTo 53 := by
    rw [← Nat.div_div_eq_div_mul]
    exact div_ulp_lt _
  by_cases h : roundDiv num (den * ulp (num / den)) < twoTo 53
  · exact ⟨_, _, h, rfl⟩
  · have he : roundDiv num (den * ulp (num / den)) = twoTo 53 := by omega
    refine ⟨1, 53 + ((num / den).log2 - 52), by decide +kernel, ?_⟩
    unfold nearestUnits
    rw [he, Nat.one_mul, twoTo_add]
    rfl

end Binary64

/-! ## The numbers -/

/-- A binary64 number: not a number, an infinity, or a signed count of units of `2 ^ -1074`.
Zero has two signs. -/
inductive Binary64 where
  | nan
  | infinite (negative : Bool)
  | finite (negative : Bool) (units : Nat) (fits : Binary64.Fits units)
deriving DecidableEq

namespace Binary64

theorem fits_zero : Fits 0 := ⟨twoTo_pos 2098, 0, 0, twoTo_pos 53, (Nat.zero_mul _).symm⟩

/-- Zero with the sign bit clear. -/
def zero : Binary64 := .finite false 0 fits_zero

instance : Inhabited Binary64 := ⟨zero⟩

/-- The number nearest to `num / den` units with the given sign; infinite from `2 ^ 1024` on. -/
def ofRatio (negative : Bool) (num den : Nat) : Binary64 :=
  if h : nearestUnits num den < overflowUnits then
    .finite negative (nearestUnits num den) ⟨h, nearestUnits_short num den⟩
  else
    .infinite negative

/-- How many units make one. -/
def unitsPerOne : Nat := twoTo 1074

/-- The number nearest to a whole number. -/
def ofNat (n : Nat) : Binary64 := ofRatio false (n * unitsPerOne) 1

/-- The number nearest to an integer. -/
def ofInt (n : Int) : Binary64 := ofRatio (decide (n < 0)) (n.natAbs * unitsPerOne) 1

def one : Binary64 := ofNat 1

/-- A signed count of units. -/
def signed (negative : Bool) (units : Nat) : Int :=
  if negative then -(units : Int) else units

def isNaN : Binary64 → Bool
  | .nan => true
  | _ => false

def isFinite : Binary64 → Bool
  | .finite .. => true
  | _ => false

/-! ## Arithmetic -/

def neg : Binary64 → Binary64
  | .nan => .nan
  | .infinite s => .infinite !s
  | .finite s u h => .finite (!s) u h

/-- The exact sum, rounded. A zero sum is negative only when both operands are. -/
def add : Binary64 → Binary64 → Binary64
  | .nan, _ => .nan
  | _, .nan => .nan
  | .infinite s, .infinite t => if s = t then .infinite s else .nan
  | .infinite s, .finite .. => .infinite s
  | .finite .., .infinite t => .infinite t
  | .finite s u _, .finite t v _ =>
    let sum := signed s u + signed t v
    if sum = 0 then .finite (s && t) 0 fits_zero
    else ofRatio (decide (sum < 0)) sum.natAbs 1

/-- The exact difference, rounded. -/
def sub (x y : Binary64) : Binary64 := add x y.neg

/-- The exact product, rounded. Zero times an infinity is no number. -/
def mul : Binary64 → Binary64 → Binary64
  | .nan, _ => .nan
  | _, .nan => .nan
  | .infinite s, .infinite t => .infinite (s != t)
  | .infinite s, .finite t v _ => if v = 0 then .nan else .infinite (s != t)
  | .finite s u _, .infinite t => if u = 0 then .nan else .infinite (s != t)
  | .finite s u _, .finite t v _ => ofRatio (s != t) (u * v) unitsPerOne

/-- The exact quotient, rounded. A number other than zero divided by zero is infinite. -/
def div : Binary64 → Binary64 → Binary64
  | .nan, _ => .nan
  | _, .nan => .nan
  | .infinite _, .infinite _ => .nan
  | .infinite s, .finite t _ _ => .infinite (s != t)
  | .finite s _ _, .infinite t => .finite (s != t) 0 fits_zero
  | .finite s u _, .finite t v _ =>
    if v = 0 then (if u = 0 then .nan else .infinite (s != t))
    else ofRatio (s != t) (u * unitsPerOne) v

instance : Neg Binary64 := ⟨neg⟩
instance : Add Binary64 := ⟨add⟩
instance : Sub Binary64 := ⟨sub⟩
instance : Mul Binary64 := ⟨mul⟩
instance : Div Binary64 := ⟨div⟩

/-! ## Order -/

/-- Less than; false when either side is no number. The two zeros are equal. -/
def lt : Binary64 → Binary64 → Bool
  | .nan, _ => false
  | _, .nan => false
  | .infinite s, .infinite t => s && !t
  | .infinite s, .finite .. => s
  | .finite .., .infinite t => !t
  | .finite s u _, .finite t v _ => decide (signed s u < signed t v)

/-- At most; false when either side is no number. -/
def le : Binary64 → Binary64 → Bool
  | .nan, _ => false
  | _, .nan => false
  | .infinite s, .infinite t => s || !t
  | .infinite s, .finite .. => s
  | .finite .., .infinite t => !t
  | .finite s u _, .finite t v _ => decide (signed s u ≤ signed t v)

/-- The smaller of two numbers, passing over an operand that is no number. -/
def min (x y : Binary64) : Binary64 :=
  if x.isNaN then y
  else if y.isNaN then x
  else if y.lt x then y
  else x

end Binary64

end Gatehouse
