/-!
# Powers of two

Sizes of machine words and magnitudes of binary64 numbers are powers of two.
-/

namespace Gatehouse

/-- Two to a power. -/
def twoTo (k : Nat) : Nat := Nat.pow 2 k

theorem twoTo_zero : twoTo 0 = 1 := rfl

theorem twoTo_one : twoTo 1 = 2 := rfl

theorem twoTo_add (j k : Nat) : twoTo (j + k) = twoTo j * twoTo k := Nat.pow_add 2 j k

theorem twoTo_succ (k : Nat) : twoTo (k + 1) = twoTo k * 2 := rfl

theorem twoTo_pos (k : Nat) : 0 < twoTo k := Nat.pow_pos (Nat.zero_lt_two)

theorem twoTo_le {j k : Nat} (h : j ≤ k) : twoTo j ≤ twoTo k :=
  Nat.pow_le_pow_right (Nat.zero_lt_two) h

theorem twoTo_lt {j k : Nat} (h : j < k) : twoTo j < twoTo k :=
  Nat.pow_lt_pow_right Nat.one_lt_two h

theorem twoTo_log2_le {n : Nat} (pos : 0 < n) : twoTo n.log2 ≤ n :=
  Nat.log2_self_le (Nat.ne_of_gt pos)

theorem lt_twoTo_log2 (n : Nat) : n < twoTo (n.log2 + 1) := Nat.lt_log2_self

-- Powers with exponents in the thousands are not to be worked out: only the kernel may do that.
attribute [irreducible] twoTo

end Gatehouse
