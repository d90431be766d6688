import Mathlib
import Gatehouse.Text.Digits
/-!
# Numbers in text

A number that is written in a base of at most sixteen reads back as itself (`natural?_digits`).
What is written has no more digits than the number needs and no zero in front. Of a text that is
read as a number every character is a digit, so a separator of numbers is part of none. The texts
that are read are the numerals, in which letters stand in either case and zeros in front
(`natural?_eq_some_iff`).
-/

namespace Gatehouse.Text

variable {base : Nat}

/-! ## What is written -/

theorem digits_of_lt {n : Nat} (small : n < base) : digits base n = [Nat.digitChar n] :=
  Nat.toDigits_of_lt_base small

/-- The last digit comes off the end. -/
theorem digits_of_le {n : Nat} (large : 1 < base) (le : base ≤ n) :
    digits base n = digits base (n / base) ++ [Nat.digitChar (n % base)] :=
  Nat.toDigits_of_base_le large le

theorem digits_ne_nil (base n : Nat) : digits base n ≠ [] := Nat.toDigits_ne_nil

theorem length_digits_le {n count : Nat} (large : 1 < base) (pos : 0 < count)
    (lt : n < base ^ count) : (digits base n).length ≤ count :=
  (Nat.length_toDigits_le_iff large pos).mpr lt

theorem digitChar_ne_zero {d : Nat} (pos : 0 < d) (lt : d < 16) : Nat.digitChar d ≠ '0' := by
  interval_cases d <;> decide

/-- A number is written in digits of its base. -/
theorem exists_digitChar_of_mem {n : Nat} (large : 1 < base) {c : Char}
    (mem : c ∈ digits base n) : ∃ d < base, c = Nat.digitChar d := by
  induction n using Nat.strongRecOn with
  | ind n ih =>
      rcases Nat.lt_or_ge n base with small | large'
      · rw [digits_of_lt small, List.mem_singleton] at mem
        exact ⟨n, small, mem⟩
      · rw [digits_of_le large large', List.mem_append, List.mem_singleton] at mem
        rcases mem with hfront | hlast
        · exact ih (n / base) (Nat.div_lt_self (by omega) large) hfront
        · exact ⟨n % base, Nat.mod_lt _ (by omega), hlast⟩

/-- Only zero is written with a zero in front. -/
theorem head?_digits_ne_zero {n : Nat} (large : 1 < base) (le : base ≤ 16) (pos : 0 < n) :
    (digits base n).head? ≠ some '0' := by
  induction n using Nat.strongRecOn with
  | ind n ih =>
      rcases Nat.lt_or_ge n base with small | large'
      · rw [digits_of_lt small]
        intro head
        exact digitChar_ne_zero pos (by omega) (Option.some.inj head)
      · have hpos : 0 < n / base := Nat.div_pos large' (by omega)
        rw [digits_of_le large large', List.head?_append_of_ne_nil _ (digits_ne_nil _ _)]
        exact ih (n / base) (Nat.div_lt_self pos large) hpos

/-! ## What is read -/

theorem digitValue?_digitChar {d : Nat} (le : base ≤ 16) (lt : d < base) :
    digitValue? base (Nat.digitChar d) = some d := by
  have hsixteen : d < 16 := by omega
  interval_cases d <;> exact if_pos lt

theorem digitsFrom?_append (value : Nat) (cs cs' : List Char) :
    digitsFrom? base value (cs ++ cs') =
      (digitsFrom? base value cs).bind fun value' => digitsFrom? base value' cs' := by
  induction cs generalizing value with
  | nil => rfl
  | cons c cs ih =>
      rw [List.cons_append, digitsFrom?, digitsFrom?]
      cases digitValue? base c with
      | none => rfl
      | some d => exact ih _

theorem digitsFrom?_digits (large : 1 < base) (le : base ≤ 16) (n : Nat) :
    digitsFrom? base 0 (digits base n) = some n := by
  induction n using Nat.strongRecOn with
  | ind n ih =>
      rcases Nat.lt_or_ge n base with small | large'
      · simp [digits_of_lt small, digitsFrom?, digitValue?_digitChar le small]
      · have hlt : n / base < n := Nat.div_lt_self (by omega) large
        have hlast : n % base < base := Nat.mod_lt _ (by omega)
        rw [digits_of_le large large', digitsFrom?_append, ih _ hlt]
        simp [digitsFrom?, digitValue?_digitChar le hlast, Nat.div_add_mod']

/-- **A number reads back as itself.** -/
theorem natural?_digits (large : 1 < base) (le : base ≤ 16) (n : Nat) :
    natural? base (digits base n) = some n := by
  unfold natural?
  rw [if_neg (by simp [digits_ne_nil])]
  exact digitsFrom?_digits large le n

theorem digitValue?_of_digitsFrom? {cs : List Char} {value n : Nat}
    (read : digitsFrom? base value cs = some n) : ∀ c ∈ cs, (digitValue? base c).isSome := by
  induction cs generalizing value with
  | nil => simp
  | cons c cs ih =>
      rw [digitsFrom?] at read
      cases hc : digitValue? base c with
      | none => simp [hc] at read
      | some d =>
          rw [hc] at read
          rw [List.forall_mem_cons]
          exact ⟨by rw [hc]; rfl, ih read⟩

/-- A number consists of digits. -/
theorem digitValue?_of_natural? {cs : List Char} {n : Nat} (read : natural? base cs = some n) :
    ∀ c ∈ cs, (digitValue? base c).isSome := by
  unfold natural? at read
  split at read
  · cases read
  · exact digitValue?_of_digitsFrom? read

/-! ## Numerals -/

/-- What pairs imply of their first parts holds throughout the first list. -/
theorem forall_left {α β : Type} {R : α → β → Prop} {p : α → Prop} {l : List α} {u : List β}
    (pairs : List.Forall₂ R l u) (imp : ∀ a b, R a b → p a) : ∀ a ∈ l, p a :=
  ((List.forall₂_and_left l u).mp (pairs.imp fun a b h => ⟨imp a b h, h⟩)).1

/-- What pairs imply of their second parts holds throughout the second list. -/
theorem forall_right {α β : Type} {R : α → β → Prop} {p : β → Prop} {l : List α} {u : List β}
    (pairs : List.Forall₂ R l u) (imp : ∀ a b, R a b → p b) : ∀ b ∈ u, p b := by
  have hflip : List.Forall₂ (flip R) u l := List.Forall₂.flip pairs
  exact forall_left hflip fun b a h => imp a b h

/-- A digit in a base of at most sixteen: the character of its value, a letter in either case. -/
def DigitOf (base : Nat) (c : Char) (d : Nat) : Prop :=
  d < base ∧ (c = Nat.digitChar d ∨ c = (Nat.digitChar d).toUpper)

/-- One or more digits, the most significant first, and the number that they make. -/
def Numeral (base : Nat) (cs : List Char) (n : Nat) : Prop :=
  cs ≠ [] ∧ ∃ ds, List.Forall₂ (DigitOf base) cs ds ∧ n = Nat.ofDigits base ds.reverse

/-- A run of characters, one after the other. -/
theorem exists_ofNat {c first last : Char} (h : first ≤ c ∧ c ≤ last) :
    ∃ n, first.toNat ≤ n ∧ n ≤ last.toNat ∧ c = Char.ofNat n :=
  ⟨c.toNat, h.1, h.2, (Char.ofNat_toNat c).symm⟩

theorem digitValue?_eq_some_iff (le : base ≤ 16) (c : Char) (d : Nat) :
    digitValue? base c = some d ↔ DigitOf base c d := by
  constructor
  · intro h
    unfold digitValue? at h
    simp only [Option.ite_none_right_eq_some, Option.some.injEq] at h
    obtain ⟨hlt, rfl⟩ := h
    refine ⟨hlt, ?_⟩
    split_ifs at hlt ⊢ with hdigit hlower hupper
    · obtain ⟨n, hfirst, hlast, rfl⟩ := exists_ofNat hdigit
      simp only [Char.reduceToNat] at hfirst hlast
      left
      interval_cases n <;> decide
    · obtain ⟨n, hfirst, hlast, rfl⟩ := exists_ofNat hlower
      simp only [Char.reduceToNat] at hfirst hlast
      left
      interval_cases n <;> decide
    · obtain ⟨n, hfirst, hlast, rfl⟩ := exists_ofNat hupper
      simp only [Char.reduceToNat] at hfirst hlast
      right
      interval_cases n <;> decide
    · omega
  · rintro ⟨hlt, rfl | rfl⟩
    · exact digitValue?_digitChar le hlt
    · have hsixteen : d < 16 := by omega
      interval_cases d <;> exact if_pos hlt

/-- The first digit counts as many places as others follow. -/
theorem ofDigits_reverse_cons (base d : Nat) (ds : List Nat) :
    Nat.ofDigits base (d :: ds).reverse =
      d * base ^ ds.length + Nat.ofDigits base ds.reverse := by
  rw [List.reverse_cons, Nat.ofDigits_append, Nat.ofDigits_singleton, List.length_reverse,
    Nat.add_comm, Nat.mul_comm]

theorem digitsFrom?_eq_some_iff (le : base ≤ 16) (value : Nat) (cs : List Char) (n : Nat) :
    digitsFrom? base value cs = some n ↔
      ∃ ds, List.Forall₂ (DigitOf base) cs ds ∧
        n = value * base ^ cs.length + Nat.ofDigits base ds.reverse := by
  induction cs generalizing value with
  | nil => simp [digitsFrom?, eq_comm]
  | cons c cs ih =>
      -- A digit read before the others counts with the value before it.
      have hvalue : ∀ d ds, cs.length = ds.length →
          value * base ^ (c :: cs).length + Nat.ofDigits base (d :: ds).reverse =
            (value * base + d) * base ^ cs.length + Nat.ofDigits base ds.reverse := by
        intro d ds hlength
        rw [ofDigits_reverse_cons, List.length_cons, hlength, pow_succ]
        ring
      rw [digitsFrom?]
      constructor
      · intro h
        cases hc : digitValue? base c with
        | none => simp [hc] at h
        | some d =>
            rw [hc] at h
            obtain ⟨ds, hds, rfl⟩ := (ih _).mp h
            exact ⟨d :: ds, .cons ((digitValue?_eq_some_iff le c d).mp hc) hds,
              (hvalue d ds hds.length_eq).symm⟩
      · rintro ⟨ds, hds, rfl⟩
        cases hds with
        | @cons _ d _ ds hd hds =>
            rw [(digitValue?_eq_some_iff le c d).mpr hd]
            exact (ih _).mpr ⟨ds, hds, hvalue d ds hds.length_eq⟩

/-- **The texts that are read as numbers are the numerals.** -/
theorem natural?_eq_some_iff (le : base ≤ 16) (cs : List Char) (n : Nat) :
    natural? base cs = some n ↔ Numeral base cs n := by
  unfold natural? Numeral
  cases cs with
  | nil => simp
  | cons c cs => simp [digitsFrom?_eq_some_iff le]

theorem Numeral.lt_pow {cs : List Char} {n : Nat} (h : Numeral base cs n) (large : 1 < base) :
    n < base ^ cs.length := by
  obtain ⟨-, ds, hds, rfl⟩ := h
  have hlt : ∀ d ∈ ds, d < base := forall_right hds fun c d hd => hd.1
  have h := Nat.ofDigits_lt_base_pow_length large fun d mem => hlt d (List.mem_reverse.mp mem)
  rwa [List.length_reverse, ← hds.length_eq] at h

/-- A numeral without a zero in front makes a number of as many digits. -/
theorem Numeral.pow_le {cs : List Char} {n : Nat} (h : Numeral base cs n)
    (head : cs.head? ≠ some '0') : base ^ (cs.length - 1) ≤ n := by
  obtain ⟨hne, ds, hds, rfl⟩ := h
  cases hds with
  | nil => exact absurd rfl hne
  | @cons c d cs ds hd hds =>
      have hpos : 0 < d := by
        apply Nat.pos_of_ne_zero
        rintro rfl
        apply head
        obtain ⟨-, rfl | rfl⟩ := hd <;> rfl
      rw [ofDigits_reverse_cons, ← hds.length_eq, List.length_cons, Nat.add_sub_cancel]
      calc base ^ cs.length = 1 * base ^ cs.length := (Nat.one_mul _).symm
        _ ≤ d * base ^ cs.length := Nat.mul_le_mul_right _ hpos
        _ ≤ _ := Nat.le_add_right _ _

/-- A character that is no digit is not part of a numeral. -/
theorem Numeral.not_mem {cs : List Char} {n : Nat} (h : Numeral base cs n) (le : base ≤ 16)
    {c : Char} (other : digitValue? base c = none) : c ∉ cs := by
  intro mem
  have hdigit := digitValue?_of_natural? ((natural?_eq_some_iff le cs n).mpr h) c mem
  rw [other] at hdigit
  cases hdigit

end Gatehouse.Text
