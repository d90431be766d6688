import Gatehouse.Proofs.Config.Meaning
/-!
# The layout of records

A draft of a record goes through the entries of a mapping in their order. If fields do not meddle
with each other (`RecordShape.Lawful`), the order is of no account (`Lawful.read_permuted`); neither
is an entry that says what holds anyway, if no other names its field (`Lawful.read_omitted`); and
what is read changes with what its keys and values mean, but not with how they are written
(`Lawful.read_key`, `Lawful.read_value`, `Lawful.read_item`).
-/

namespace Gatehouse.Config

open Gatehouse.Yaml

/-- Where any two steps come to the same in either order, so does a run in any order. -/
theorem foldlM_perm {δ ε : Type} {step : δ → ε → Option δ}
    (commutes : ∀ d e e', (step d e).bind (step · e') = (step d e').bind (step · e))
    {l l' : List ε} (perm : l.Perm l') (d : δ) : l.foldlM step d = l'.foldlM step d := by
  induction perm generalizing d with
  | nil => rfl
  | cons e _ ih =>
      rw [List.foldlM_cons, List.foldlM_cons]
      exact congrArg ((step d e).bind ·) (funext ih)
  | swap e e' l =>
      simp only [List.foldlM_cons, Option.bind_eq_bind]
      rw [← Option.bind_assoc, ← Option.bind_assoc, commutes]
  | trans _ _ ih ih' => exact (ih d).trans (ih' d)

/-- One step may as well be the last. -/
theorem foldlM_last {δ ε : Type} {step : δ → ε → Option δ}
    (commutes : ∀ d e e', (step d e).bind (step · e') = (step d e').bind (step · e))
    (before after : List ε) (e : ε) (d : δ) :
    (before ++ e :: after).foldlM step d = ((before ++ after).foldlM step d).bind (step · e) := by
  have hlast : (before ++ e :: after).Perm (before ++ after ++ [e]) :=
    List.perm_middle.trans (List.perm_append_singleton _ _).symm
  rw [foldlM_perm commutes hlast, List.foldlM_append]
  simp

namespace RecordShape

variable {δ : Type} {shape : RecordShape δ} {field other : Field δ} {d d' : δ}
  {entry : Node × Node} {key value : Node} {before after : List (Node × Node)}

/-! ## One entry -/

/-- The field that a key names. -/
def field? (shape : RecordShape δ) (key : Node) : Option (Field δ) :=
  (keyName? key).bind fun name => shape.fields.find? fun field => field.name == name

/-- The draft with one more entry, provided that its field is not set and can be read. -/
def enter? (shape : RecordShape δ) (d : δ) (entry : Node × Node) : Option δ :=
  (shape.field? entry.1).bind fun field =>
    if field.isSet d then none else (field.read .root entry.2 d).toOption

/-- The draft, provided that it has all that is required. -/
def complete? (shape : RecordShape δ) (d : δ) : Option δ :=
  match shape.fields.find? fun field => field.required && !field.isSet d with
  | some _ => none
  | none => some d

theorem field?_eq_some (h : shape.field? key = some field) :
    field ∈ shape.fields ∧ keyName? key = some field.name := by
  obtain ⟨name, hname, hfind⟩ := Option.bind_eq_some_iff.mp h
  have hsame : field.name = name := by simpa using List.find?_some hfind
  exact ⟨List.mem_of_find?_eq_some hfind, by rw [hname, hsame]⟩

/-- A name stands for one field. -/
theorem field?_unique {key' : Node} (h : shape.field? key = some field)
    (h' : shape.field? key' = some other) (same : field.name = other.name) : field = other := by
  have hkeys : keyName? key = keyName? key' := by
    rw [(field?_eq_some h).2, (field?_eq_some h').2, same]
  unfold field? at h h'
  rw [hkeys, h'] at h
  exact (Option.some.inj h).symm

theorem fieldOf_toOption (shape : RecordShape δ) (spot : Spot) (key : Node) :
    (shape.fieldOf spot key).toOption = shape.field? key := by
  unfold fieldOf field? keyName?
  cases key.content with
  | scalar s =>
      simp only [Option.bind_some]
      cases shape.fields.find? fun field => field.name == s.text <;> rfl
  | sequence items => exact Spot.mismatch_toOption _ _ _
  | mapping entries => exact Spot.mismatch_toOption _ _ _

theorem enter?_of_set (named : shape.field? entry.1 = some field) (set : field.isSet d = true) :
    shape.enter? d entry = none := by
  simp [enter?, named, set]

theorem enter?_of_unset (named : shape.field? entry.1 = some field)
    (unset : field.isSet d = false) :
    shape.enter? d entry = (field.read .root entry.2 d).toOption := by
  simp [enter?, named, unset]

theorem enter?_key {key' : Node} (h : keyName? key = keyName? key') (d : δ) :
    shape.enter? d (key, value) = shape.enter? d (key', value) := by
  unfold enter? field?
  rw [h]

theorem enter?_eq_some (h : shape.enter? d entry = some d') :
    ∃ field, shape.field? entry.1 = some field ∧ field.isSet d = false ∧
      field.read .root entry.2 d = .ok d' := by
  obtain ⟨field, hnamed, hread⟩ := Option.bind_eq_some_iff.mp h
  cases hset : field.isSet d with
  | true => simp [hset] at hread
  | false =>
      rw [hset, if_neg Bool.false_ne_true, Decoded.toOption_eq_some_iff] at hread
      exact ⟨field, hnamed, hset, hread⟩

/-! ## Fields that do not meddle with each other -/

/-- The laws of a kind of record. A field reads the same from values that are the same for its name,
sets itself and no other field, and comes to the same before or after any other. -/
structure Lawful (shape : RecordShape δ) (Same : String → Node → Node → Prop) : Prop where
  same : ∀ field ∈ shape.fields, ∀ value, Same field.name value value
  reads : ∀ field ∈ shape.fields, ∀ value value', Same field.name value value' →
    ∀ spot spot' d, (field.read spot value d).toOption = (field.read spot' value' d).toOption
  sets : ∀ field ∈ shape.fields, ∀ spot value d d', field.read spot value d = .ok d' →
    field.isSet d' = true
  keeps : ∀ field ∈ shape.fields, ∀ other ∈ shape.fields, field.name ≠ other.name →
    ∀ spot value d d', field.read spot value d = .ok d' → other.isSet d' = other.isSet d
  commutes : ∀ field ∈ shape.fields, ∀ other ∈ shape.fields, field.name ≠ other.name →
    ∀ value value' d,
      ((field.read .root value d).toOption.bind fun d => (other.read .root value' d).toOption) =
        (other.read .root value' d).toOption.bind fun d => (field.read .root value d).toOption

variable {Same : String → Node → Node → Prop}

namespace Lawful

theorem enter?_isSet (h : shape.Lawful Same) (named : shape.field? entry.1 = some field)
    (entered : shape.enter? d entry = some d') : field.isSet d' = true := by
  obtain ⟨found, hfound, -, hread⟩ := enter?_eq_some entered
  rw [named] at hfound
  cases hfound
  exact h.sets field (field?_eq_some named).1 _ _ _ _ hread

theorem enter?_keeps (h : shape.Lawful Same) (mem : other ∈ shape.fields)
    (unnamed : keyName? entry.1 ≠ some other.name) (entered : shape.enter? d entry = some d') :
    other.isSet d' = other.isSet d := by
  obtain ⟨field, hnamed, -, hread⟩ := enter?_eq_some entered
  obtain ⟨hfield, hname⟩ := field?_eq_some hnamed
  have hother : field.name ≠ other.name := by
    intro same
    exact unnamed (by rw [hname, same])
  exact h.keeps field hfield other mem hother _ _ _ _ hread

/-- The second of two entries for one field is refused. -/
theorem enter?_twice (h : shape.Lawful Same) {entry' : Node × Node}
    (named : shape.field? entry.1 = some field) (named' : shape.field? entry'.1 = some field)
    (d : δ) : (shape.enter? d entry).bind (shape.enter? · entry') = none := by
  rw [Option.bind_eq_none_iff]
  intro d' entered
  exact enter?_of_set named' (h.enter?_isSet named entered)

/-- Two entries for two fields are entered if neither field is set and both can be read. -/
theorem enter?_both (h : shape.Lawful Same) {entry' : Node × Node}
    (named : shape.field? entry.1 = some field) (named' : shape.field? entry'.1 = some other)
    (distinct : field.name ≠ other.name) (d : δ) :
    (shape.enter? d entry).bind (shape.enter? · entry') =
      if field.isSet d || other.isSet d then none else
        (field.read .root entry.2 d).toOption.bind fun d =>
          (other.read .root entry'.2 d).toOption := by
  have hkeeps : ∀ d', shape.enter? d entry = some d' → other.isSet d' = other.isSet d := by
    intro d' entered
    refine h.enter?_keeps (field?_eq_some named').1 ?_ entered
    rw [(field?_eq_some named).2]
    simpa using distinct
  cases hset : field.isSet d with
  | true => simp [enter?_of_set named hset]
  | false =>
      cases hset' : other.isSet d with
      | true =>
          rw [Bool.or_true, if_pos rfl, Option.bind_eq_none_iff]
          intro d' entered
          exact enter?_of_set named' ((hkeeps d' entered).trans hset')
      | false =>
          rw [Bool.or_false, if_neg Bool.false_ne_true, ← enter?_of_unset named hset]
          exact Option.bind_congr fun d' entered =>
            enter?_of_unset named' ((hkeeps d' entered).trans hset')

/-- Two entries may be entered in either order. -/
theorem enter?_commutes (h : shape.Lawful Same) (d : δ) (e e' : Node × Node) :
    (shape.enter? d e).bind (shape.enter? · e') =
      (shape.enter? d e').bind (shape.enter? · e) := by
  cases hfield : shape.field? e.1 with
  | none => simp [enter?, hfield]
  | some field =>
      cases hother : shape.field? e'.1 with
      | none => simp [enter?, hother]
      | some other =>
          by_cases same : field.name = other.name
          · obtain rfl := field?_unique hfield hother same
            rw [h.enter?_twice hfield hother, h.enter?_twice hother hfield]
          · rw [h.enter?_both hfield hother same, h.enter?_both hother hfield (Ne.symm same),
              Bool.or_comm, h.commutes field (field?_eq_some hfield).1 other
                (field?_eq_some hother).1 same e.2 e'.2 d]

/-! ## Mappings -/

theorem readEntry_toOption (h : shape.Lawful Same) (spot : Spot) (d : δ) (entry : Node × Node) :
    (shape.readEntry spot d entry).toOption = shape.enter? d entry := by
  unfold readEntry enter?
  rw [Decoded.toOption_bind, fieldOf_toOption]
  refine Option.bind_congr fun field named => ?_
  cases hset : field.isSet d with
  | true => rfl
  | false =>
      have hmem := (field?_eq_some named).1
      exact h.reads field hmem _ _ (h.same field hmem _) _ _ d

theorem readEntries_toOption (h : shape.Lawful Same) (spot : Spot) (d : δ)
    (entries : List (Node × Node)) :
    (shape.readEntries spot d entries).toOption =
      (entries.foldlM shape.enter? d).bind shape.complete? := by
  induction entries generalizing d with
  | nil =>
      show (shape.readEntries spot d []).toOption = shape.complete? d
      unfold readEntries complete?
      cases shape.fields.find? fun field => field.required && !field.isSet d <;> rfl
  | cons entry entries ih =>
      rw [readEntries, Decoded.toOption_bind, h.readEntry_toOption, List.foldlM_cons,
        Option.bind_eq_bind, Option.bind_assoc]
      exact Option.bind_congr fun d' _ => ih d'

theorem read_mapping (h : shape.Lawful Same) (spot : Spot) {node : Node}
    {entries : List (Node × Node)} (content : node.content = .mapping entries) :
    (shape.read spot node).toOption =
      (entries.foldlM shape.enter? shape.empty).bind shape.complete? := by
  unfold RecordShape.read
  rw [content]
  exact h.readEntries_toOption spot shape.empty entries

/-- **The order of the entries is of no account.** -/
theorem read_permuted (h : shape.Lawful Same) {entries entries' : List (Node × Node)}
    (perm : entries.Perm entries') :
    ReadsAlike shape.read (.mapping entries) (.mapping entries') := by
  intro spot spot'
  rw [h.read_mapping spot rfl, h.read_mapping spot' rfl, foldlM_perm h.enter?_commutes perm]

/-- An entry counts as what it does to a draft. -/
theorem read_entry (h : shape.Lawful Same) {entry entry' : Node × Node}
    (alike : ∀ d, shape.enter? d entry = shape.enter? d entry') :
    ReadsAlike shape.read (.mapping (before ++ entry :: after))
      (.mapping (before ++ entry' :: after)) := by
  intro spot spot'
  rw [h.read_mapping spot rfl, h.read_mapping spot' rfl]
  simp only [List.foldlM_append, List.foldlM_cons, alike]

theorem enter?_value (h : shape.Lawful Same) {value' : Node}
    (alike : ∀ name, keyName? key = some name → Same name value value') (d : δ) :
    shape.enter? d (key, value) = shape.enter? d (key, value') := by
  unfold enter?
  refine Option.bind_congr fun field named => ?_
  obtain ⟨hmem, hname⟩ := field?_eq_some named
  rw [h.reads field hmem _ _ (alike _ hname) .root .root d]

/-- A key counts as the name that it gives. -/
theorem read_key (h : shape.Lawful Same) {key' : Node} (same : keyName? key = keyName? key') :
    ReadsAlike shape.read (.mapping (before ++ (key, value) :: after))
      (.mapping (before ++ (key', value) :: after)) :=
  h.read_entry (enter?_key same)

/-- A value counts as what it means for the field that its key names. -/
theorem read_value (h : shape.Lawful Same) {value' : Node}
    (alike : ∀ name, keyName? key = some name → Same name value value') :
    ReadsAlike shape.read (.mapping (before ++ (key, value) :: after))
      (.mapping (before ++ (key, value') :: after)) :=
  h.read_entry (h.enter?_value alike)

/-! ## Sequences -/

/-- Items that are the same for the names of their fields are read alike. -/
theorem readItems_alike (h : shape.Lawful Same) {fields : List (Field δ)}
    (sub : fields ⊆ shape.fields) {items items' : List Node}
    (length : items.length = items'.length)
    (alike : ∀ (place : Nat) (field : Field δ) (item item' : Node), fields[place]? = some field →
      items[place]? = some item → items'[place]? = some item' → Same field.name item item')
    (spot spot' : Spot) (d : δ) (index : Nat) :
    (shape.readItems spot d index fields items).toOption =
      (shape.readItems spot' d index fields items').toOption := by
  induction fields generalizing items items' d index with
  | nil =>
      cases items with
      | nil =>
          obtain rfl := List.eq_nil_of_length_eq_zero length.symm
          rfl
      | cons item items =>
          obtain ⟨item', items', rfl⟩ := List.exists_cons_of_length_eq_add_one length.symm
          rfl
  | cons field fields ih =>
      rw [List.cons_subset] at sub
      cases items with
      | nil =>
          obtain rfl := List.eq_nil_of_length_eq_zero length.symm
          unfold readItems
          split
          · rfl
          · exact ih sub.2 rfl (by simp) d (index + 1)
      | cons item items =>
          obtain ⟨item', items', rfl⟩ := List.exists_cons_of_length_eq_add_one length.symm
          have hfirst : Same field.name item item' := alike 0 field item item' rfl rfl rfl
          unfold readItems
          rw [Decoded.toOption_bind, Decoded.toOption_bind,
            h.reads field sub.1 _ _ hfirst _ (spot'.inside (.item index)) d]
          refine Option.bind_congr fun d' _ => ih sub.2 (Nat.succ.inj length) ?_ d' (index + 1)
          intro place
          exact alike (place + 1)

/-- An item counts as what it means for the field in its place. -/
theorem read_item (h : shape.Lawful Same) {before after : List Node} {item item' : Node}
    (alike : ∀ name, shape.names[before.length]? = some name → Same name item item') :
    ReadsAlike shape.read (.sequence (before ++ item :: after))
      (.sequence (before ++ item' :: after)) := by
  intro spot spot'
  refine h.readItems_alike (List.Subset.refl _) (by simp) ?_ spot spot' shape.empty 0
  intro place field found found' hfield hfound hfound'
  rcases Nat.lt_trichotomy place before.length with lt | rfl | gt
  · rw [List.getElem?_append_left lt] at hfound hfound'
    rw [Option.some.inj (hfound.symm.trans hfound')]
    exact h.same field (List.mem_of_getElem? hfield) found'
  · simp only [List.getElem?_append_right (Nat.le_refl _), Nat.sub_self,
      List.getElem?_cons_zero, Option.some.injEq] at hfound hfound'
    rw [← hfound, ← hfound']
    refine alike _ ?_
    rw [names, List.getElem?_map, hfield]
    rfl
  · obtain ⟨k, hk⟩ : ∃ k, place - before.length = k + 1 := ⟨place - before.length - 1, by omega⟩
    rw [List.getElem?_append_right gt.le, hk, List.getElem?_cons_succ] at hfound hfound'
    rw [Option.some.inj (hfound.symm.trans hfound')]
    exact h.same field (List.mem_of_getElem? hfield) found'

/-- What is read does not depend on where the node stands, nor on whether it is written there. -/
theorem read_of_content (h : shape.Lawful Same) {n m : Node} (content : n.content = m.content) :
    ReadsAlike shape.read n m := by
  intro spot spot'
  cases hm : m.content with
  | scalar s =>
      unfold RecordShape.read
      rw [content, hm]
      exact (Spot.mismatch_toOption _ _ _).trans (Spot.mismatch_toOption _ _ _).symm
  | sequence items =>
      unfold RecordShape.read
      rw [content, hm]
      refine h.readItems_alike (List.Subset.refl _) rfl ?_ spot spot' shape.empty 0
      intro place field found found' hfield hfound hfound'
      rw [Option.some.inj (hfound.symm.trans hfound')]
      exact h.same field (List.mem_of_getElem? hfield) found'
  | mapping entries =>
      rw [h.read_mapping spot (content.trans hm), h.read_mapping spot' hm]

/-! ## Entries left out -/

/-- Entries of other fields leave a field as it is. -/
theorem foldlM_keeps (h : shape.Lawful Same) (mem : field ∈ shape.fields)
    {entries : List (Node × Node)} (others : ∀ entry ∈ entries, keyName? entry.1 ≠ some field.name)
    (entered : entries.foldlM shape.enter? d = some d') : field.isSet d' = field.isSet d := by
  induction entries generalizing d with
  | nil =>
      cases entered
      rfl
  | cons entry entries ih =>
      rw [List.forall_mem_cons] at others
      rw [List.foldlM_cons, Option.bind_eq_bind, Option.bind_eq_some_iff] at entered
      obtain ⟨next, hnext, hrest⟩ := entered
      exact (ih others.2 hrest).trans (h.enter?_keeps mem others.1 hnext)

/-- A record without required fields is complete from the start. -/
theorem complete?_of_optional (optional : ∀ field ∈ shape.fields, field.required = false) (d : δ) :
    shape.complete? d = some d := by
  have hnone : (shape.fields.find? fun field => field.required && !field.isSet d) = none := by
    rw [List.find?_eq_none]
    intro field hfield
    simp [optional field hfield]
  unfold complete?
  rw [hnone]

/-- **An entry that says what holds anyway may be left out**, if no other entry names its field. It
says so if a mapping of it alone gives what the empty draft gives. -/
theorem read_omitted (h : shape.Lawful Same) {β : Type} (whole : δ → β)
    (optional : ∀ field ∈ shape.fields, field.required = false)
    (fills : ∀ field ∈ shape.fields, ∀ value d₀ d, field.read .root value shape.empty = .ok d₀ →
      whole d₀ = whole shape.empty → field.isSet d = false →
      ∃ d', field.read .root value d = .ok d' ∧ whole d' = whole d)
    {place : Spot} {d₀ : δ} (alone : shape.read place (.mapping [(key, value)]) = .ok d₀)
    (default : whole d₀ = whole shape.empty)
    (once : ∀ entry ∈ before ++ after, keyName? entry.1 ≠ keyName? key) :
    ReadsAlike (fun spot node => do return whole (← shape.read spot node))
      (.mapping (before ++ (key, value) :: after)) (.mapping (before ++ after)) := by
  have hentered : shape.enter? shape.empty (key, value) = some d₀ := by
    have hread := Decoded.toOption_eq_some_iff.mpr alone
    rw [h.read_mapping place rfl] at hread
    simpa [complete?_of_optional optional] using hread
  obtain ⟨field, hfield, hunset, hvalue⟩ := enter?_eq_some hentered
  obtain ⟨hmem, hname⟩ := field?_eq_some hfield
  intro spot spot'
  rw [Decoded.toOption_map, Decoded.toOption_map, h.read_mapping spot rfl,
    h.read_mapping spot' rfl, foldlM_last h.enter?_commutes]
  cases hrest : (before ++ after).foldlM shape.enter? shape.empty with
  | none => rfl
  | some d =>
      rw [hname] at once
      have hstill := (h.foldlM_keeps hmem once hrest).trans hunset
      obtain ⟨d', hread, hwhole⟩ := fills field hmem value d₀ d hvalue default hstill
      have henter : shape.enter? d (key, value) = some d' := by
        rw [enter?_of_unset hfield hstill, hread]
        rfl
      simp [henter, complete?_of_optional optional, hwhole]

end Lawful

end RecordShape

end Gatehouse.Config
