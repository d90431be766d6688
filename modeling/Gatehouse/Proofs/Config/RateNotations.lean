import Gatehouse.Proofs.Config.RecordLayout
/-!
# The notations of a rate

A rate is read from a node if the node can be looked through and means a rate (`readRate_ok_iff`).
The entries of a window may stand in any order (`readRate_permuted`), a period of a second may be
left out (`readRate_omitted`), and a number alone is a window of that number
(`readRate_perSecond`).
-/

namespace Gatehouse.Config

open Gatehouse.Yaml

variable {depth : Nat} {node n m key key' value value' : Node}
  {entries entries' before after : List (Node × Node)}

/-! ## Windows -/

namespace RateWindow

/-- The number and the seconds of a window that has a number. -/
def stated? (w : RateWindow) : Option (Binary64 × Binary64) :=
  w.count.map fun count => (count, w.seconds.getD .one)

theorem add?_congr {entry entry' : Node × Node}
    (hkey : WindowKey.ofNode? entry.1 = WindowKey.ofNode? entry'.1)
    (hnumber : numberOf? entry.2 = numberOf? entry'.2) (w : RateWindow) :
    w.add? entry = w.add? entry' := by
  unfold add?
  rw [hkey, hnumber]

/-- Two entries may be added in either order; two under keys for the same may not be added. -/
theorem add?_commutes (w : RateWindow) (e e' : Node × Node) :
    (w.add? e).bind (RateWindow.add? · e') = (w.add? e').bind (RateWindow.add? · e) := by
  obtain ⟨count, seconds⟩ := w
  unfold add?
  -- What is added depends on what the keys stand for, what is there, and whether it is a number.
  cases WindowKey.ofNode? e.1 with
  | none => cases WindowKey.ofNode? e'.1 with
    | none => rfl
    | some k' => cases k' <;> cases count <;> cases seconds <;> cases numberOf? e'.2 <;> rfl
  | some k => cases WindowKey.ofNode? e'.1 with
    | none => cases k <;> cases count <;> cases seconds <;> cases numberOf? e.2 <;> rfl
    | some k' =>
        cases k <;> cases k' <;> cases count <;> cases seconds <;> cases numberOf? e.2 <;>
          cases numberOf? e'.2 <;> rfl

theorem add?_seconds {w : RateWindow} {x : Binary64}
    (hkey : WindowKey.ofNode? key = some .seconds) (hnumber : numberOf? value = some x)
    (unset : w.seconds = none) : w.add? (key, value) = some { w with seconds := some x } := by
  simp [add?, hkey, hnumber, unset]

theorem add?_keeps_seconds {w w' : RateWindow} {entry : Node × Node}
    (other : WindowKey.ofNode? entry.1 ≠ some .seconds) (added : w.add? entry = some w') :
    w'.seconds = w.seconds := by
  unfold add? at added
  split at added
  · cases added
    rfl
  · split at added
    · cases added
      rfl
    · cases added
  · exact absurd ‹_› other
  · cases added

theorem foldlM_keeps_seconds {w w' : RateWindow}
    (others : ∀ entry ∈ entries, WindowKey.ofNode? entry.1 ≠ some .seconds)
    (added : entries.foldlM add? w = some w') : w'.seconds = w.seconds := by
  induction entries generalizing w with
  | nil =>
      cases added
      rfl
  | cons entry entries ih =>
      rw [List.forall_mem_cons] at others
      rw [List.foldlM_cons, Option.bind_eq_bind, Option.bind_eq_some_iff] at added
      obtain ⟨next, hnext, hrest⟩ := added
      exact (ih others.2 hrest).trans (add?_keeps_seconds others.1 hnext)

end RateWindow

theorem rateNotation?_mapping (entries : List (Node × Node)) :
    rateNotation? (.mapping entries) =
      (entries.foldlM RateWindow.add? {}).bind RateWindow.stated? := by
  unfold rateNotation?
  cases h : entries.foldlM RateWindow.add? {} <;> simp [Node.content, h, RateWindow.stated?]

/-! ## What is meant -/

/-- The rate that a node means, if it is one of the notations and its numbers make a rate. -/
def rateMeant? (node : Node) : Option Rate :=
  (rateNotation? node).bind fun (count, seconds) => (rateOfWindow count seconds).toOption

theorem readRate_ok_iff {spot : Spot} {rate : Rate} :
    readRate depth spot node = .ok rate ↔ Passes depth node ∧ rateMeant? node = some rate := by
  unfold readRate rateMeant?
  rw [Decoded.bind_eq_ok_iff, ← lookThrough_ok_iff depth spot.path node]
  cases rateNotation? node with
  | none => simp [Spot.reject]
  | some stated =>
      cases h : rateOfWindow stated.1 stated.2 with
      | error e => simp [Spot.reject, h, Except.toOption]
      | ok found => simp [h, Except.toOption, pure, Except.pure, Unique.exists_iff]

/-- Nodes that pass alike and mean the same are read alike. -/
theorem readRate_alike (passes : Passes depth n ↔ Passes depth m)
    (meant : rateMeant? n = rateMeant? m) : ReadsAlike (readRate depth) n m := by
  intro spot spot'
  rw [Decoded.toOption_eq_iff]
  intro rate
  rw [readRate_ok_iff, readRate_ok_iff, passes, meant]

theorem readRate_of_content (content : n.content = m.content) :
    ReadsAlike (readRate depth) n m := by
  refine readRate_alike (passes_congr content depth) ?_
  unfold rateMeant? rateNotation?
  rw [content]

/-- No rate is a sequence. -/
theorem readRate_sequence (items items' : List Node) :
    ReadsAlike (readRate depth) (.sequence items) (.sequence items') := by
  intro spot spot'
  rw [Decoded.toOption_eq_iff]
  intro rate
  rw [readRate_ok_iff, readRate_ok_iff]
  exact iff_of_false (fun h => nomatch h.2) (fun h => nomatch h.2)

/-! ## Notations that mean the same -/

/-- **The order of the entries of a window is of no account.** -/
theorem readRate_permuted (perm : entries.Perm entries') :
    ReadsAlike (readRate depth) (.mapping entries) (.mapping entries') := by
  refine readRate_alike (passes_permuted perm depth) ?_
  unfold rateMeant?
  rw [rateNotation?_mapping, rateNotation?_mapping, foldlM_perm RateWindow.add?_commutes perm]

/-- An entry of a window counts as what its key stands for and the number it has. -/
theorem readRate_entry (hkey : ∀ depth, Passes depth key ↔ Passes depth key')
    (hvalue : ∀ depth, Passes depth value ↔ Passes depth value')
    (hmeaning : WindowKey.ofNode? key = WindowKey.ofNode? key')
    (hnumber : numberOf? value = numberOf? value') :
    ReadsAlike (readRate depth) (.mapping (before ++ (key, value) :: after))
      (.mapping (before ++ (key', value') :: after)) := by
  refine readRate_alike (passes_entry hkey hvalue depth) ?_
  have hadd : ∀ w : RateWindow, w.add? (key, value) = w.add? (key', value') :=
    RateWindow.add?_congr hmeaning hnumber
  unfold rateMeant?
  simp only [rateNotation?_mapping, List.foldlM_append, List.foldlM_cons, hadd]

theorem fromSeconds_one : Duration.fromSeconds .one = .ok Rate.second := by decide +kernel

/-- **A period of a second may be left out**, if no other entry is for the period. -/
theorem readRate_omitted {x : Binary64} (hkey : WindowKey.ofNode? key = some .seconds)
    (hnumber : numberOf? value = some x) (second : Duration.fromSeconds x = .ok Rate.second)
    (once : ∀ entry ∈ before ++ after, WindowKey.ofNode? entry.1 ≠ some .seconds) :
    ReadsAlike (readRate depth) (.mapping (before ++ (key, value) :: after))
      (.mapping (before ++ after)) := by
  refine readRate_alike
    (passes_omitted (passes_of_windowKey hkey) (passes_of_number hnumber) depth) ?_
  have hrate : ∀ count, rateOfWindow count x = rateOfWindow count .one := by
    intro count
    rw [rateOfWindow, rateOfWindow, second, fromSeconds_one]
  unfold rateMeant?
  rw [rateNotation?_mapping, rateNotation?_mapping, foldlM_last RateWindow.add?_commutes]
  cases hrest : (before ++ after).foldlM RateWindow.add? {} with
  | none => rfl
  | some w =>
      have hunset : w.seconds = none := RateWindow.foldlM_keeps_seconds once hrest
      have hadd := RateWindow.add?_seconds hkey hnumber hunset
      cases hcount : w.count <;>
        simp [hadd, RateWindow.stated?, hcount, hunset, hrate]

/-- **A scalar alone is a window of that number**, where collections may still be nested. -/
theorem readRate_perSecond (s : Scalar) (hkey : WindowKey.ofNode? key = some .count) :
    ReadsAlike (readRate (depth + 1)) (.scalar s) (.mapping [(key, .scalar s)]) := by
  refine readRate_alike ?_ ?_
  · simp [passes_mapping, passes_of_windowKey hkey, passes_scalar s (depth + 1) depth]
  · have hscalar : rateNotation? (.scalar s) =
        (numberOf? (.scalar s)).map fun count => (count, .one) := rfl
    unfold rateMeant?
    rw [rateNotation?_mapping, hscalar]
    cases hnumber : numberOf? (.scalar s) <;>
      simp [RateWindow.add?, RateWindow.stated?, hkey, hnumber]

end Gatehouse.Config
