import Mathlib
import Gatehouse.Address.Printer
import Gatehouse.Proofs.Address.Hosts
/-!
# The notation of addresses

Which text an address has, said without the printer (`IpAddr.Written`): four decimal octets, or
eight groups in hexadecimal, of which the first longest run of two or more zeros is left out, or a
version 4 address after `::ffff:`. The printer writes exactly that (`IpAddr.written_iff`), so each
address has one text.
-/

namespace Gatehouse

open Gatehouse.Text

namespace IpAddr

/-! ## Runs of zeros -/

/-- There are zeros in `length` places from `start` on. -/
def ZerosAt (gs : List Nat) (start length : Nat) : Prop := ∀ i < length, gs[start + i]? = some 0

/-- The longest run of zeros, and the first of that length. -/
structure FirstLongestZeros (gs : List Nat) (start length : Nat) : Prop where
  zeros : ZerosAt gs start length
  longest : ∀ start' length', ZerosAt gs start' length' → length' ≤ length
  first : ∀ start', ZerosAt gs start' length → start ≤ start'

theorem zerosAt_cons_succ (g : Nat) (gs : List Nat) (start length : Nat) :
    ZerosAt (g :: gs) (start + 1) length ↔ ZerosAt gs start length := by
  have hshift : ∀ i, (g :: gs)[start + 1 + i]? = gs[start + i]? := by
    intro i
    rw [show start + 1 + i = (start + i) + 1 by omega, List.getElem?_cons_succ]
  simp only [ZerosAt, hshift]

theorem zerosAt_cons_zero (g : Nat) (gs : List Nat) (length : Nat) :
    ZerosAt (g :: gs) 0 (length + 1) ↔ g = 0 ∧ ZerosAt gs 0 length := by
  constructor
  · intro h
    refine ⟨by simpa using h 0 (by omega), ?_⟩
    intro i hi
    have hnext := h (i + 1) (by omega)
    rwa [show 0 + (i + 1) = (0 + i) + 1 by omega, List.getElem?_cons_succ] at hnext
  · rintro ⟨rfl, hrest⟩ i hi
    cases i with
    | zero => rfl
    | succ i =>
        rw [show 0 + (i + 1) = (0 + i) + 1 by omega, List.getElem?_cons_succ]
        exact hrest i (by omega)

/-- A run of zeros at the front is no longer than all zeros at the front. -/
theorem zerosAt_front_iff (gs : List Nat) (length : Nat) :
    ZerosAt gs 0 length ↔ length ≤ leadingZeros gs := by
  induction gs generalizing length with
  | nil =>
      cases length with
      | zero => simp [ZerosAt]
      | succ length => simpa [leadingZeros] using fun h : ZerosAt [] 0 _ => h 0 (by omega)
  | cons g gs ih =>
      cases length with
      | zero => simp [ZerosAt]
      | succ length =>
          rw [zerosAt_cons_zero, ih]
          by_cases hg : g = 0 <;> simp [leadingZeros, hg]

theorem zeroRun_cons (g : Nat) (gs : List Nat) :
    zeroRun (g :: gs) =
      if (zeroRun gs).2 ≤ leadingZeros (g :: gs) then (0, leadingZeros (g :: gs))
      else ((zeroRun gs).1 + 1, (zeroRun gs).2) := rfl

/-- **The run that is looked for is the first longest.** -/
theorem zeroRun_firstLongest (gs : List Nat) :
    FirstLongestZeros gs (zeroRun gs).1 (zeroRun gs).2 := by
  induction gs with
  | nil =>
      refine ⟨fun i hi => absurd hi (Nat.not_lt_zero i), ?_, fun start' _ => Nat.zero_le start'⟩
      intro start' length' h
      by_contra hpos
      simpa using h 0 (by omega)
  | cons g gs ih =>
      obtain ⟨zeros, longest, first⟩ := ih
      rw [zeroRun_cons]
      by_cases hle : (zeroRun gs).2 ≤ leadingZeros (g :: gs)
      · -- No run further right is longer than the one at the front.
        rw [if_pos hle]
        refine ⟨(zerosAt_front_iff _ _).mpr (Nat.le_refl _), ?_, fun start' _ =>
          Nat.zero_le start'⟩
        intro start' length' h
        cases start' with
        | zero => exact (zerosAt_front_iff _ _).mp h
        | succ start' =>
            exact (longest start' length' ((zerosAt_cons_succ ..).mp h)).trans hle
      · rw [if_neg hle]
        refine ⟨(zerosAt_cons_succ ..).mpr zeros, ?_, ?_⟩
        · intro start' length' h
          cases start' with
          | zero =>
              have hfront := (zerosAt_front_iff _ _).mp h
              show length' ≤ (zeroRun gs).2
              omega
          | succ start' => exact longest start' length' ((zerosAt_cons_succ ..).mp h)
        · intro start' h
          cases start' with
          | zero => exact absurd ((zerosAt_front_iff _ _).mp h) hle
          | succ start' => exact Nat.succ_le_succ (first start' ((zerosAt_cons_succ ..).mp h))

theorem FirstLongestZeros.eq_zeroRun {gs : List Nat} {start length : Nat}
    (run : FirstLongestZeros gs start length) : zeroRun gs = (start, length) := by
  have found := zeroRun_firstLongest gs
  have hlength : (zeroRun gs).2 = length := by
    apply Nat.le_antisymm
    · exact run.longest _ _ found.zeros
    · exact found.longest _ _ run.zeros
  have hstart : (zeroRun gs).1 = start := by
    apply Nat.le_antisymm
    · exact found.first _ (by rw [hlength]; exact run.zeros)
    · exact run.first _ (by rw [← hlength]; exact found.zeros)
  exact Prod.ext hstart hlength

/-- A run of zeros stands between what is before it and what is after it. -/
theorem ZerosAt.split {gs : List Nat} {start length : Nat} (zeros : ZerosAt gs start length) :
    gs.take start ++ List.replicate length 0 ++ gs.drop (start + length) = gs := by
  have hrun : (gs.drop start).take length = List.replicate length 0 := by
    apply List.ext_getElem?
    intro i
    by_cases hi : i < length
    · rw [List.getElem?_take_of_lt hi, List.getElem?_drop, zeros i hi,
        List.getElem?_replicate_of_lt hi]
    · rw [List.getElem?_eq_none (by rw [List.length_take]; omega),
        List.getElem?_eq_none (by rw [List.length_replicate]; omega)]
  rw [← hrun, List.append_assoc, ← List.drop_drop, List.take_append_drop,
    List.take_append_drop]

/-! ## The text of an address -/

/-- The text of an address. -/
inductive Written : IpAddr → List Char → Prop
  /-- four decimal octets -/
  | v4 (bits : BitVec 32) : Written (.v4 bits) (join ['.'] ((octets bits).map (digits 10)))
  /-- a mapped address, by the address it carries -/
  | mapped (inner : BitVec 32) :
      Written (.v6 (mapped inner))
        ("::ffff:".toList ++ join ['.'] ((octets inner).map (digits 10)))
  /-- eight groups without two zeros in a row -/
  | full {bits : BitVec 128} (plain : ∀ inner, bits ≠ IpAddr.mapped inner)
      (apart : ∀ start, ¬ ZerosAt (groups bits) start 2) :
      Written (.v6 bits) (join [':'] ((groups bits).map (digits 16)))
  /-- eight groups without the first longest run of zeros -/
  | shortened {bits : BitVec 128} {start length : Nat}
      (plain : ∀ inner, bits ≠ IpAddr.mapped inner) (long : 2 ≤ length)
      (run : FirstLongestZeros (groups bits) start length) :
      Written (.v6 bits)
        (join [':'] (((groups bits).take start).map (digits 16)) ++ "::".toList ++
          join [':'] (((groups bits).drop (start + length)).map (digits 16)))

theorem unmapped?_eq_none_iff {bits : BitVec 128} :
    unmapped? bits = none ↔ ∀ inner, bits ≠ mapped inner := by
  rw [Option.eq_none_iff_forall_ne_some]
  simp only [ne_eq, unmapped?_eq_some_iff]

theorem written_renderV6 (bits : BitVec 128) : Written (.v6 bits) (renderV6 bits) := by
  unfold renderV6
  cases hmapped : unmapped? bits with
  | some inner =>
      rw [unmapped?_eq_some_iff] at hmapped
      subst hmapped
      exact .mapped inner
  | none =>
      rw [unmapped?_eq_none_iff] at hmapped
      have found := zeroRun_firstLongest (groups bits)
      by_cases hlong : 2 ≤ (zeroRun (groups bits)).2
      · simp only [if_pos hlong]
        exact .shortened hmapped hlong found
      · simp only [if_neg hlong]
        apply Written.full hmapped
        intro start zeros
        exact hlong (found.longest start 2 zeros)

/-- **The printer writes the text of an address**, which is its only one. -/
theorem written_iff {a : IpAddr} {text : List Char} : Written a text ↔ text = a.renderChars := by
  constructor
  · intro written
    cases written with
    | v4 bits => rfl
    | mapped inner =>
        show _ = renderV6 (mapped inner)
        simp only [renderV6, unmapped?_eq_some_iff.mpr rfl]
        rfl
    | @full bits plain apart =>
        have hshort : ¬ 2 ≤ (zeroRun (groups bits)).2 := by
          intro hlong
          refine apart (zeroRun (groups bits)).1 fun i hi => ?_
          exact (zeroRun_firstLongest _).zeros i (by omega)
        show _ = renderV6 bits
        simp only [renderV6, unmapped?_eq_none_iff.mpr plain, if_neg hshort]
        rfl
    | @shortened bits start length plain long run =>
        show _ = renderV6 bits
        simp only [renderV6, unmapped?_eq_none_iff.mpr plain, run.eq_zeroRun, if_pos long]
        rfl
  · rintro rfl
    cases a with
    | v4 bits => exact .v4 bits
    | v6 bits => exact written_renderV6 bits

end IpAddr

end Gatehouse
