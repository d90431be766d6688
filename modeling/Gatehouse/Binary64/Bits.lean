import Gatehouse.Binary64.Basic
/-!
# Interchange bits of binary64 numbers

A sign bit, eleven bits of exponent and 52 bits of fraction. Read as one whole number, the bits
below the sign number the magnitudes in ascending order, which is what `ofBits` and `toBits`
compute with.
-/

namespace Gatehouse.Binary64

/-- The position of the magnitude `units` among all magnitudes, from zero up. -/
def rank (units : Nat) : Nat :=
  (units.log2 - 52) * twoTo 52 + units / twoTo (units.log2 - 52)

/-- The magnitude at a position: the inverse of `rank`. -/
def unitsAt (rank : Nat) : Nat :=
  if rank < twoTo 52 then rank
  else (twoTo 52 + rank % twoTo 52) * twoTo (rank / twoTo 52 - 1)

def infiniteRank : Nat := 2047 * twoTo 52

theorem fits_unitsAt (r : Nat) (h : r < infiniteRank) : Fits (unitsAt r) := by
  have hmod : r % twoTo 52 < twoTo 52 := Nat.mod_lt _ (twoTo_pos 52)
  unfold unitsAt
  split
  · rename_i hr
    have hfew : r < twoTo 53 := Nat.lt_trans hr (by decide +kernel)
    refine ⟨Nat.lt_of_lt_of_le hfew (twoTo_le (by decide)), r, 0, hfew, ?_⟩
    rw [twoTo_zero, Nat.mul_one]
  · have hm : twoTo 52 + r % twoTo 52 < twoTo 53 :=
      Nat.lt_of_lt_of_eq (Nat.add_lt_add_left hmod _) (by decide +kernel)
    refine ⟨?_, twoTo 52 + r % twoTo 52, r / twoTo 52 - 1, hm, rfl⟩
    have hexp : r / twoTo 52 - 1 ≤ 2045 := by
      have hrank : r / twoTo 52 < 2047 :=
        Nat.div_lt_of_lt_mul (Nat.lt_of_lt_of_eq h (Nat.mul_comm _ _))
      omega
    have hle := Nat.mul_le_mul_left (twoTo 52 + r % twoTo 52) (twoTo_le hexp)
    have hlt := Nat.mul_lt_mul_of_pos_right hm (twoTo_pos 2045)
    exact Nat.lt_of_lt_of_eq (Nat.lt_of_le_of_lt hle hlt) (twoTo_add 53 2045).symm

/-- The number with the given 64 bits. -/
def ofBits (bits : Nat) : Binary64 :=
  let negative := decide (bits / twoTo 63 % 2 = 1)
  let rank := bits % twoTo 63
  if h : rank < infiniteRank then .finite negative (unitsAt rank) (fits_unitsAt rank h)
  else if rank = infiniteRank then .infinite negative
  else .nan

/-- The bits below the sign; for no number, those of the quiet one. -/
def magnitudeBits : Binary64 → Nat
  | .nan => infiniteRank + twoTo 51
  | .infinite _ => infiniteRank
  | .finite _ u _ => rank u

def isNegative : Binary64 → Bool
  | .nan => false
  | .infinite s => s
  | .finite s _ _ => s

/-- The 64 bits of a number. -/
def toBits (x : Binary64) : Nat :=
  (if x.isNegative then twoTo 63 else 0) + x.magnitudeBits

end Gatehouse.Binary64
