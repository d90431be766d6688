import Mathlib
import Gatehouse.Config.Decode
/-!
# What is accepted as a record

A record is accepted from a mapping if every key names a field, and from a sequence if every item
has a field. What a node gives for a field (`Gives`) has then been read by that field, and what was
read is what the draft holds in the end (`Reads.of_read`): a mapping names no field twice, and the
other fields leave it alone.
-/

namespace Gatehouse.Config

open Gatehouse.Yaml

/-! ## Reading in steps -/

theorem Decoded.bind_ok {α β : Type} {x : Decoded α} {f : α → Decoded β} {b : β}
    (h : (x >>= f) = .ok b) : ∃ a, x = .ok a ∧ f a = .ok b := by
  cases x with
  | error e => cases h
  | ok a => exact ⟨a, rfl, h⟩

theorem Decoded.map_ok {α β : Type} {x : Decoded α} {f : α → β} {b : β}
    (h : (do return f (← x)) = (.ok b : Decoded β)) : ∃ a, x = .ok a ∧ f a = b := by
  obtain ⟨a, hx, hf⟩ := Decoded.bind_ok h
  cases hf
  exact ⟨a, hx, rfl⟩

theorem Spot.refuse_ne_ok {α : Type} (s : Spot) (problem : Problem) (a : α) :
    s.refuse problem ≠ .ok a := by
  intro h
  cases h

theorem Spot.mismatch_ne_ok {α : Type} (s : Spot) (content : Content) (expected : String) (a : α) :
    s.mismatch content expected ≠ .ok a := by
  unfold Spot.mismatch
  split <;> exact Spot.refuse_ne_ok _ _ a

/-! ## Names and values -/

/-- The name that a key gives to its value: its text, however that is written. -/
def keyName? (key : Node) : Option String :=
  match key.content with
  | .scalar s => some s.text
  | .sequence _ | .mapping _ => none

/-- What a record with fields of these names gives for one of them: in a mapping the value of an
entry with that name, in a sequence the item in the field's place. -/
inductive Gives (names : List String) (record : Node) (name : String) : Node → Prop
  | entry {entries : List (Node × Node)} {key value : Node}
      (content : record.content = .mapping entries) (mem : (key, value) ∈ entries)
      (named : keyName? key = some name) : Gives names record name value
  | item {items : List Node} {index : Nat} {value : Node}
      (content : record.content = .sequence items) (field : names[index]? = some name)
      (at_index : items[index]? = some value) : Gives names record name value

namespace RecordShape

variable {δ : Type} {shape : RecordShape δ} {spot : Spot} {draft final : δ}

/-- The names of the fields, in order. -/
def names (shape : RecordShape δ) : List String := shape.fields.map (·.name)

/-! ## Entries of a mapping -/

theorem fieldOf_ok {key : Node} {field : Field δ} (h : shape.fieldOf spot key = .ok field) :
    field ∈ shape.fields ∧ keyName? key = some field.name := by
  unfold fieldOf at h
  unfold keyName?
  split at h
  · rename_i s hcontent
    rw [hcontent]
    split at h
    · rename_i found hfind
      cases h
      have hname := List.find?_some hfind
      exact ⟨List.mem_of_find?_eq_some hfind, congrArg some (beq_iff_eq.mp hname).symm⟩
    · exact absurd h (Spot.refuse_ne_ok _ _ _)
  · exact absurd h (Spot.mismatch_ne_ok _ _ _ _)

/-- An entry is accepted by the field that its key names, if that is not set yet. -/
theorem readEntry_ok {entry : Node × Node} (h : shape.readEntry spot draft entry = .ok final) :
    ∃ field ∈ shape.fields, keyName? entry.1 = some field.name ∧ field.isSet draft = false ∧
      ∃ place, field.read place entry.2 draft = .ok final := by
  obtain ⟨field, hfield, hread⟩ := Decoded.bind_ok h
  obtain ⟨hmem, hname⟩ := fieldOf_ok hfield
  cases hset : field.isSet draft with
  | true =>
      rw [if_pos hset] at hread
      exact absurd hread (Spot.refuse_ne_ok _ _ _)
  | false =>
      rw [hset, if_neg Bool.false_ne_true] at hread
      exact ⟨field, hmem, hname, hset, _, hread⟩

theorem readEntries_cons {entry : Node × Node} {entries : List (Node × Node)}
    (h : shape.readEntries spot draft (entry :: entries) = .ok final) :
    ∃ next, shape.readEntry spot draft entry = .ok next ∧
      shape.readEntries spot next entries = .ok final :=
  Decoded.bind_ok h

/-- **In an accepted mapping every key names a field.** -/
theorem readEntries_names {entries : List (Node × Node)}
    (h : shape.readEntries spot draft entries = .ok final) :
    ∀ entry ∈ entries, ∃ name ∈ shape.names, keyName? entry.1 = some name := by
  induction entries generalizing draft with
  | nil => simp
  | cons first entries ih =>
      obtain ⟨next, hfirst, hrest⟩ := readEntries_cons h
      obtain ⟨field, hfield, hname, -, -⟩ := readEntry_ok hfirst
      rw [List.forall_mem_cons]
      exact ⟨⟨field.name, List.mem_map_of_mem hfield, hname⟩, ih hrest⟩

theorem names_of_read {node : Node} (h : shape.read spot node = .ok final)
    {entries : List (Node × Node)} (content : node.content = .mapping entries) :
    ∀ entry ∈ entries, ∃ name ∈ shape.names, keyName? entry.1 = some name := by
  unfold read at h
  rw [content] at h
  exact readEntries_names h

/-! ## What every field keeps -/

section Keeps

variable {P : δ → Prop}
  (keeps : ∀ field ∈ shape.fields, ∀ place node d d',
    field.read place node d = .ok d' → P d → P d')

include keeps

theorem readEntries_keeps {entries : List (Node × Node)}
    (accepted : shape.readEntries spot draft entries = .ok final) (start : P draft) : P final := by
  induction entries generalizing draft with
  | nil =>
      unfold readEntries at accepted
      split at accepted
      · exact absurd accepted (Spot.refuse_ne_ok _ _ _)
      · cases accepted
        exact start
  | cons first entries ih =>
      obtain ⟨next, hfirst, hrest⟩ := readEntries_cons accepted
      obtain ⟨field, hfield, -, -, place, hread⟩ := readEntry_ok hfirst
      exact ih hrest (keeps field hfield place _ _ _ hread start)

theorem readItems_keeps {fields : List (Field δ)} (sub : fields ⊆ shape.fields) {index : Nat}
    {items : List Node} (accepted : shape.readItems spot draft index fields items = .ok final)
    (start : P draft) : P final := by
  induction fields generalizing draft index items with
  | nil =>
      cases items with
      | nil =>
          cases accepted
          exact start
      | cons item items => exact absurd accepted (Spot.refuse_ne_ok _ _ _)
  | cons field fields ih =>
      rw [List.cons_subset] at sub
      cases items with
      | nil =>
          unfold readItems at accepted
          split at accepted
          · exact absurd accepted (Spot.refuse_ne_ok _ _ _)
          · exact ih sub.2 accepted start
      | cons item items =>
          obtain ⟨next, hread, hrest⟩ := Decoded.bind_ok accepted
          exact ih sub.2 hrest (keeps field sub.1 _ _ _ _ hread start)

/-- **What the empty draft satisfies and every field keeps, an accepted record satisfies.** -/
theorem read_keeps {record : Node} (accepted : shape.read spot record = .ok final)
    (start : P shape.empty) : P final := by
  unfold RecordShape.read at accepted
  split at accepted
  · exact readEntries_keeps keeps accepted start
  · exact readItems_keeps keeps (List.Subset.refl _) accepted start
  · exact absurd accepted (Spot.mismatch_ne_ok _ _ _ _)

end Keeps

/-! ## A field and its part of the draft -/

/-- The field of a name reads its value by `read` into the part `get` of the draft, and no other
field touches that part. -/
structure Reads {α : Type} (shape : RecordShape δ) (name : String) (get : δ → Option α)
    (read : Spot → Node → Decoded α) : Prop where
  nodup : shape.names.Nodup
  isSet : ∀ field ∈ shape.fields, field.name = name → ∀ d, field.isSet d = (get d).isSome
  sets : ∀ field ∈ shape.fields, field.name = name → ∀ place node d d',
    field.read place node d = .ok d' → ∃ a, read place node = .ok a ∧ get d' = some a
  keeps : ∀ field ∈ shape.fields, field.name ≠ name → ∀ place node d d',
    field.read place node d = .ok d' → get d' = get d

variable {α : Type} {name : String} {get : δ → Option α} {read : Spot → Node → Decoded α}
  {value : Node}

/-- What a mapping has set, the entries after it leave as it is. -/
theorem Reads.kept_by_entries (h : shape.Reads name get read) {a : α} (set : get draft = some a)
    {entries : List (Node × Node)} (accepted : shape.readEntries spot draft entries = .ok final) :
    get final = some a := by
  induction entries generalizing draft with
  | nil =>
      unfold readEntries at accepted
      split at accepted
      · exact absurd accepted (Spot.refuse_ne_ok _ _ _)
      · cases accepted
        exact set
  | cons first entries ih =>
      obtain ⟨next, hfirst, hrest⟩ := readEntries_cons accepted
      obtain ⟨field, hfield, -, hunset, place, hread⟩ := readEntry_ok hfirst
      have hother : field.name ≠ name := by
        intro same
        rw [h.isSet field hfield same, set] at hunset
        exact absurd hunset (by simp)
      exact ih ((h.keeps field hfield hother place _ _ _ hread).trans set) hrest

theorem Reads.of_entries (h : shape.Reads name get read) {entries : List (Node × Node)}
    (accepted : shape.readEntries spot draft entries = .ok final) {key : Node}
    (mem : (key, value) ∈ entries) (named : keyName? key = some name) :
    ∃ place a, read place value = .ok a ∧ get final = some a := by
  induction entries generalizing draft with
  | nil => exact absurd mem List.not_mem_nil
  | cons first entries ih =>
      obtain ⟨next, hfirst, hrest⟩ := readEntries_cons accepted
      rcases List.mem_cons.mp mem with rfl | hlater
      · obtain ⟨field, hfield, hname, -, place, hread⟩ := readEntry_ok hfirst
        have hsame : field.name = name := Option.some.inj (hname.symm.trans named)
        obtain ⟨a, hvalue, hset⟩ := h.sets field hfield hsame place _ _ _ hread
        exact ⟨place, a, hvalue, h.kept_by_entries hset hrest⟩
      · exact ih hrest hlater

/-! ## Items of a sequence -/

theorem readItems_cons {index : Nat} {field : Field δ} {fields : List (Field δ)} {item : Node}
    {items : List Node}
    (h : shape.readItems spot draft index (field :: fields) (item :: items) = .ok final) :
    ∃ place next, field.read place item draft = .ok next ∧
      shape.readItems spot next (index + 1) fields items = .ok final := by
  obtain ⟨next, hread, hrest⟩ := Decoded.bind_ok h
  exact ⟨_, next, hread, hrest⟩

/-- What is set stays set while the fields that are left have other names. -/
theorem Reads.kept_by_items (h : shape.Reads name get read) {fields : List (Field δ)}
    (sub : fields ⊆ shape.fields) (others : ∀ field ∈ fields, field.name ≠ name) {index : Nat}
    {items : List Node} (accepted : shape.readItems spot draft index fields items = .ok final) :
    get final = get draft := by
  induction fields generalizing draft index items with
  | nil =>
      cases items with
      | nil =>
          cases accepted
          rfl
      | cons item items => exact absurd accepted (Spot.refuse_ne_ok _ _ _)
  | cons field fields ih =>
      rw [List.cons_subset] at sub
      rw [List.forall_mem_cons] at others
      cases items with
      | nil =>
          unfold readItems at accepted
          split at accepted
          · exact absurd accepted (Spot.refuse_ne_ok _ _ _)
          · exact ih sub.2 others.2 accepted
      | cons item items =>
          obtain ⟨place, next, hread, hrest⟩ := readItems_cons accepted
          have hnext := h.keeps field sub.1 others.1 place _ _ _ hread
          exact (ih sub.2 others.2 hrest).trans hnext

theorem Reads.of_items (h : shape.Reads name get read) {fields : List (Field δ)}
    (sub : fields ⊆ shape.fields) (nodup : (fields.map (·.name)).Nodup) {index : Nat}
    {items : List Node} (accepted : shape.readItems spot draft index fields items = .ok final)
    {place : Nat} (field : (fields.map (·.name))[place]? = some name)
    (at_place : items[place]? = some value) :
    ∃ spot a, read spot value = .ok a ∧ get final = some a := by
  induction fields generalizing draft index items place with
  | nil => exact absurd field (by simp)
  | cons first fields ih =>
      rw [List.cons_subset] at sub
      rw [List.map_cons, List.nodup_cons] at nodup
      cases items with
      | nil => exact absurd at_place (by simp)
      | cons item items =>
          obtain ⟨at_spot, next, hread, hrest⟩ := readItems_cons accepted
          cases place with
          | zero =>
              rw [List.map_cons, List.getElem?_cons_zero, Option.some.injEq] at field
              rw [List.getElem?_cons_zero, Option.some.injEq] at at_place
              subst at_place
              obtain ⟨a, hvalue, hset⟩ := h.sets first sub.1 field at_spot _ _ _ hread
              have hothers : ∀ later ∈ fields, later.name ≠ name := by
                intro later hlater same
                apply nodup.1
                rw [field, ← same]
                exact List.mem_map_of_mem hlater
              exact ⟨at_spot, a, hvalue, (h.kept_by_items sub.2 hothers hrest).trans hset⟩
          | succ place =>
              rw [List.map_cons, List.getElem?_cons_succ] at field
              rw [List.getElem?_cons_succ] at at_place
              exact ih sub.2 nodup.2 hrest field at_place

/-- **What an accepted record gives for a field is what the draft holds.** -/
theorem Reads.of_read (h : shape.Reads name get read) {record : Node}
    (accepted : shape.read spot record = .ok final) (gives : Gives shape.names record name value) :
    ∃ place a, read place value = .ok a ∧ get final = some a := by
  unfold RecordShape.read at accepted
  cases gives with
  | entry content mem named =>
      rw [content] at accepted
      exact h.of_entries accepted mem named
  | item content field at_index =>
      rw [content] at accepted
      exact h.of_items (List.Subset.refl _) h.nodup accepted field at_index

end RecordShape

/-! ## Lists of listeners -/

/-- In an accepted list every item has been read as one of the listeners, and every listener from
one of the items. -/
theorem readListenerItems_mem {spot : Spot} {index : Nat} {items : List Node}
    {listeners : List ListenerConfig} (h : readListenerItems spot index items = .ok listeners) :
    (∀ item ∈ items, ∃ place listener, readListener place item = .ok listener ∧
      listener ∈ listeners) ∧
    ∀ listener ∈ listeners, ∃ place item, readListener place item = .ok listener ∧
      item ∈ items := by
  induction items generalizing index listeners with
  | nil =>
      cases h
      simp
  | cons first items ih =>
      obtain ⟨listener, hfirst, hrest⟩ := Decoded.bind_ok h
      obtain ⟨later, hlater, rfl⟩ := Decoded.map_ok hrest
      obtain ⟨hitems, hlisteners⟩ := ih hlater
      rw [List.forall_mem_cons, List.forall_mem_cons]
      refine ⟨⟨⟨_, listener, hfirst, List.mem_cons_self⟩, ?_⟩,
        ⟨⟨_, first, hfirst, List.mem_cons_self⟩, ?_⟩⟩
      · intro item hitem
        obtain ⟨place, found, hread, hmem⟩ := hitems item hitem
        exact ⟨place, found, hread, List.mem_cons_of_mem listener hmem⟩
      · intro found hfound
        obtain ⟨place, item, hread, hmem⟩ := hlisteners found hfound
        exact ⟨place, item, hread, List.mem_cons_of_mem first hmem⟩

end Gatehouse.Config
