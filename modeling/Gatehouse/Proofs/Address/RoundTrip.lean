import Mathlib
import Gatehouse.Proofs.Address.Grammar
import Gatehouse.Proofs.Address.Notation
/-!
# Addresses read back

The text of an address is one of its spellings (`IpAddr.Written.spelling`), so it reads back as the
address: octets and groups are written as numerals of their range, and `::` stands for as many zeros
as were left out, wherever they stood. The text consists of digits, full stops and colons, so a
slash or blanks around it are no part of it.
-/

namespace Gatehouse

open Gatehouse.Text

namespace IpAddr

/-! ## Numbers -/

theorem numeral_digits {base : Nat} (large : 1 < base) (le : base ≤ 16) (n : Nat) :
    Numeral base (digits base n) n :=
  (natural?_eq_some_iff le _ n).mp (natural?_digits large le n)

theorem octet_digits {n : Nat} (lt : n < 256) : Octet (digits 10 n) n where
  numeral := numeral_digits (by omega) (by omega) n
  le := by omega
  plain := by
    intro head
    by_cases hn : n = 0
    · subst hn
      exact digits_of_lt (by omega)
    · exact absurd head (head?_digits_ne_zero (by omega) (by omega) (Nat.pos_of_ne_zero hn))

theorem group_digits {g : Nat} (lt : g < 65536) : Group (digits 16 g) g where
  numeral := numeral_digits (by omega) (by omega) g
  short := length_digits_le (by omega) (by omega) (by omega)

theorem groups_digits {gs : List Nat} (lt : ∀ g ∈ gs, g < 65536) :
    List.Forall₂ Group (gs.map (digits 16)) gs := by
  rw [List.forall₂_map_left_iff, List.forall₂_same]
  intro g mem
  exact group_digits (lt g mem)

/-! ## Addresses -/

theorem dotted_renderV4 (bits : BitVec 32) : Dotted bits (renderV4 bits) := by
  obtain ⟨-, -, -, -, -, hlt, -⟩ := ofNat_octets bits
  refine ⟨(octets bits).map (digits 10), ?_, rfl⟩
  rw [List.forall₂_map_left_iff, List.forall₂_same]
  intro n mem
  exact octet_digits (hlt n mem)

/-- The groups of a mapped address: zeros, ones, and the address that it carries. -/
theorem groups_mapped (inner : BitVec 32) :
    groups (mapped inner) =
      [] ++ List.replicate 5 0 ++ ([65535] ++ [inner.toNat / 65536, inner.toNat % 65536]) := by
  have hlt := inner.isLt
  simp only [groups, List.map_cons, List.map_nil, BitVec.toNat_ushiftRight, toNat_mapped,
    Nat.shiftRight_eq_div_pow, List.replicate, List.nil_append, List.cons_append,
    List.cons.injEq, and_true]
  omega

/-- **The text of an address is one of its spellings.** -/
theorem Written.spelling {a : IpAddr} {text : List Char} (written : Written a text) :
    Spelling a text := by
  cases written with
  | v4 bits => exact .v4 (dotted_renderV4 bits)
  | mapped inner =>
      have hffff : List.Forall₂ Group [digits 16 65535] [65535] :=
        .cons (group_digits (by omega)) .nil
      exact .shortened (by omega) (groups_mapped inner) .nil
        (.dotted hffff (dotted_renderV4 inner))
  | @full bits plain apart => exact .full (.groups (groups_digits (groups_lt bits)))
  | @shortened bits start length plain long run =>
      have hgroups := run.zeros.split.symm
      have hlt := groups_lt bits
      rw [hgroups, List.forall_mem_append, List.forall_mem_append] at hlt
      exact .shortened (by omega) hgroups (groups_digits hlt.1.1)
        (.groups (groups_digits hlt.2))

/-! ## Characters -/

/-- The characters of addresses: hexadecimal digits, full stops and colons. -/
def IsCharacter (c : Char) : Prop := c = '.' ∨ c = ':' ∨ ∃ d < 16, c = Nat.digitChar d

theorem isCharacter_of_mem_join {separator c : Char} (known : IsCharacter separator) {base : Nat}
    (large : 1 < base) (le : base ≤ 16) {ns : List Nat}
    (mem : c ∈ join [separator] (ns.map (digits base))) : IsCharacter c := by
  rcases mem_join mem with rfl | ⟨piece, hpiece, hc⟩
  · exact known
  · obtain ⟨n, -, rfl⟩ := List.mem_map.mp hpiece
    obtain ⟨d, hlt, rfl⟩ := exists_digitChar_of_mem large hc
    exact .inr (.inr ⟨d, by omega, rfl⟩)

theorem Written.isCharacter {a : IpAddr} {text : List Char} (written : Written a text) :
    ∀ c ∈ text, IsCharacter c := by
  have hstop : IsCharacter '.' := .inl rfl
  have hcolon : IsCharacter ':' := .inr (.inl rfl)
  intro c mem
  cases written with
  | v4 bits => exact isCharacter_of_mem_join hstop (by omega) (by omega) mem
  | mapped inner =>
      rcases List.mem_append.mp mem with hfront | hrest
      · have hf : IsCharacter 'f' := .inr (.inr ⟨15, by omega, rfl⟩)
        have hc : c = ':' ∨ c = 'f' := by
          have hfront' : c ∈ [':', ':', 'f', 'f', 'f', 'f', ':'] := hfront
          simp only [List.mem_cons, List.not_mem_nil, or_false] at hfront'
          tauto
        rcases hc with rfl | rfl
        · exact hcolon
        · exact hf
      · exact isCharacter_of_mem_join hstop (by omega) (by omega) hrest
  | full plain apart => exact isCharacter_of_mem_join hcolon (by omega) (by omega) mem
  | shortened plain long run =>
      rw [List.mem_append, List.mem_append] at mem
      rcases mem with (hleft | hdouble) | hright
      · exact isCharacter_of_mem_join hcolon (by omega) (by omega) hleft
      · have hc : c = ':' := by simpa using hdouble
        rw [hc]
        exact hcolon
      · exact isCharacter_of_mem_join hcolon (by omega) (by omega) hright

/-- A slash or a blank is no character of an address. -/
theorem IsCharacter.solid {c : Char} (known : IsCharacter c) : c ≠ '/' ∧ isBlank c = false := by
  rcases known with rfl | rfl | ⟨d, hlt, rfl⟩
  · simp [isBlank]
  · simp [isBlank]
  · interval_cases d <;> decide

end IpAddr

end Gatehouse
