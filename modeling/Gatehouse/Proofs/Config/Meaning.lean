import Gatehouse.Proofs.Config.Records
/-!
# What a node says, wherever it stands

Where a node stands decides the path of a problem and nothing else: what is read from it, if
anything is, does not depend on that. Readers of single values heed the scalar that a node is and
nothing else (`ReadsScalar`); lists are read item by item (`ReadsList`); and a node of any kind can
be looked through if all that it holds can (`passes_sequence`, `passes_mapping`).
-/

namespace Gatehouse.Config

open Gatehouse.Yaml

/-! ## Readings that give a value -/

namespace Decoded

variable {α β : Type}

theorem toOption_bind (x : Decoded α) (f : α → Decoded β) :
    (x >>= f).toOption = x.toOption.bind fun a => (f a).toOption := by
  cases x <;> rfl

theorem toOption_map (x : Decoded α) (f : α → β) :
    (do return f (← x) : Decoded β).toOption = x.toOption.map f := by
  cases x <;> rfl

theorem toOption_eq_some_iff {x : Decoded α} {a : α} : x.toOption = some a ↔ x = .ok a := by
  cases x with
  | error e => exact iff_of_false nofun nofun
  | ok b => exact Option.some_inj.trans ⟨congrArg Except.ok, Except.ok.inj⟩

theorem toOption_eq_iff {x y : Decoded α} :
    x.toOption = y.toOption ↔ ∀ a, x = .ok a ↔ y = .ok a := by
  rw [Option.ext_iff]
  exact forall_congr' fun a => by rw [toOption_eq_some_iff, toOption_eq_some_iff]

theorem bind_eq_ok_iff {x : Decoded α} {f : α → Decoded β} {b : β} :
    (x >>= f) = .ok b ↔ ∃ a, x = .ok a ∧ f a = .ok b := by
  refine ⟨bind_ok, ?_⟩
  rintro ⟨a, rfl, hf⟩
  exact hf

/-- Readings into parts of a draft that do not meddle with each other come in either order. -/
theorem toOption_comm {δ : Type} (x : Decoded α) (y : Decoded β) {f : δ → α → δ} {g : δ → β → δ}
    (comm : ∀ d a b, g (f d a) b = f (g d b) a) :
    ∀ d, ((do return f d (← x) : Decoded δ).toOption.bind fun d =>
        (do return g d (← y) : Decoded δ).toOption) =
      (do return g d (← y) : Decoded δ).toOption.bind fun d =>
        (do return f d (← x) : Decoded δ).toOption := by
  intro d
  cases x with
  | error e => cases y <;> rfl
  | ok a => cases y with
    | error e => rfl
    | ok b => exact congrArg some (comm d a b)

end Decoded

theorem Spot.mismatch_toOption {α : Type} (s : Spot) (content : Content) (expected : String) :
    (s.mismatch content expected : Decoded α).toOption = none := by
  unfold Spot.mismatch
  split <;> rfl

/-- Wherever they stand, the same is read from both nodes, or nothing from either. -/
def ReadsAlike {α : Type} (read : Spot → Node → Decoded α) (n m : Node) : Prop :=
  ∀ spot spot', (read spot n).toOption = (read spot' m).toOption

namespace ReadsAlike

variable {α β : Type} {read : Spot → Node → Decoded α} {n m k : Node}

theorem symm (h : ReadsAlike read n m) : ReadsAlike read m n := fun spot spot' =>
  (h spot' spot).symm

theorem trans (h : ReadsAlike read n m) (h' : ReadsAlike read m k) : ReadsAlike read n k :=
  fun spot spot' => (h spot spot).trans (h' spot spot')

theorem map (h : ReadsAlike read n m) (f : α → β) :
    ReadsAlike (fun spot node => do return f (← read spot node)) n m := by
  intro spot spot'
  simp only [Decoded.toOption_map, h spot spot']

end ReadsAlike

/-! ## Scalars -/

/-- The scalar that a node is. -/
def scalarOf? (node : Node) : Option Scalar :=
  match node.content with
  | .scalar s => some s
  | .sequence _ => none
  | .mapping _ => none

theorem keyName?_eq (node : Node) : keyName? node = (scalarOf? node).map (·.text) := by
  unfold keyName? scalarOf?
  cases node.content <;> rfl

theorem numberOf?_eq (node : Node) :
    numberOf? node = (scalarOf? node).bind fun s => s.value.number? := by
  unfold numberOf? scalarOf?
  cases node.content <;> rfl

theorem windowKey_eq (node : Node) :
    WindowKey.ofNode? node = (scalarOf? node).bind fun s => WindowKey.ofNode? (.scalar s) := by
  unfold WindowKey.ofNode? scalarOf?
  cases node.content <;> rfl

theorem readText_toOption (spot : Spot) (expected : String) (node : Node) :
    (readText spot expected node).toOption = keyName? node := by
  unfold readText keyName?
  cases node.content with
  | scalar s => rfl
  | sequence items => exact Spot.mismatch_toOption _ _ _
  | mapping entries => exact Spot.mismatch_toOption _ _ _

theorem readNumber_toOption (spot : Spot) (node : Node) :
    (readNumber spot node).toOption = numberOf? node := by
  unfold readNumber numberOf?
  cases node.content with
  | scalar s =>
      dsimp only
      cases s.value.number? with
      | some x => rfl
      | none => exact Spot.mismatch_toOption _ _ _
  | sequence items => exact Spot.mismatch_toOption _ _ _
  | mapping entries => exact Spot.mismatch_toOption _ _ _

/-- A scalar may say that there is nothing, and a collection never does. -/
theorem saysNothing_toOption (spot : Spot) (node : Node) :
    (saysNothing spot node).toOption =
      ((scalarOf? node).map fun s => (saysNothing .root (.scalar s)).toOption).getD
        (some false) := by
  unfold saysNothing scalarOf?
  cases node.content with
  | scalar s =>
      simp only [Node.content, Option.map_some, Option.getD_some]
      split
      · rfl
      · split
        · rfl
        · split <;> rfl
      · rfl
  | sequence items => rfl
  | mapping entries => rfl

/-- What is read is decided by the scalar that the node is, if it is one. -/
def ReadsScalar {α : Type} (read : Spot → Node → Decoded α) : Prop :=
  ∀ n m, scalarOf? n = scalarOf? m → ReadsAlike read n m

theorem readString_readsScalar : ReadsScalar readString := by
  intro n m h spot spot'
  rw [readString, readString, readText_toOption, readText_toOption, keyName?_eq, keyName?_eq, h]

theorem readNumber_readsScalar : ReadsScalar readNumber := by
  intro n m h spot spot'
  rw [readNumber_toOption, readNumber_toOption, numberOf?_eq, numberOf?_eq, h]

theorem saysNothing_readsScalar : ReadsScalar saysNothing := by
  intro n m h spot spot'
  rw [saysNothing_toOption, saysNothing_toOption, h]

theorem ReadsScalar.optional {α : Type} {read : Spot → Node → Decoded α} (h : ReadsScalar read) :
    ReadsScalar (readOptional read) := by
  intro n m hscalar spot spot'
  unfold readOptional
  rw [Decoded.toOption_bind, Decoded.toOption_bind, saysNothing_readsScalar n m hscalar spot spot']
  congr 1
  funext nothing
  cases nothing with
  | true => rfl
  | false =>
      simp only [Bool.false_eq_true, if_false, Decoded.toOption_map, h n m hscalar spot spot']

theorem readEndpoint_readsScalar : ReadsScalar readEndpoint := by
  intro n m h spot spot'
  unfold readEndpoint
  rw [Decoded.toOption_bind, Decoded.toOption_bind, readText_toOption, readText_toOption,
    keyName?_eq, keyName?_eq, h]
  congr 1
  funext text
  split <;> rfl

theorem readDuration_readsScalar : ReadsScalar readDuration := by
  intro n m h spot spot'
  unfold readDuration
  rw [Decoded.toOption_bind, Decoded.toOption_bind, readNumber_readsScalar n m h spot spot']
  congr 1
  funext seconds
  split
  · rfl
  · split <;> rfl

theorem readNetwork_readsScalar : ReadsScalar readNetwork := by
  intro n m h spot spot'
  unfold readNetwork
  rw [Decoded.toOption_bind, Decoded.toOption_bind, readString_readsScalar n m h spot spot']
  congr 1
  funext text
  split <;> rfl

/-! ## Lists of items -/

/-- Lists are read by `readAll`, and each of their items by `read`. -/
structure ReadsList {α : Type} (readAll : Spot → Node → Decoded (List α))
    (read : Spot → Node → Decoded α) : Prop where
  items : ∀ {node items}, node.content = .sequence items → ∀ spot,
    (readAll spot node).toOption = items.mapM fun item => (read .root item).toOption
  rejects : ∀ {node}, (∀ items, node.content ≠ .sequence items) → ∀ spot,
    (readAll spot node).toOption = none

/-- Where every item is read wherever it stands, the whole list is. -/
theorem toOption_items {α : Type} {read : Spot → Node → Decoded α}
    (anywhere : ∀ n, ReadsAlike read n n) {readFrom : Spot → Nat → List Node → Decoded (List α)}
    (nil : ∀ spot index, readFrom spot index [] = .ok [])
    (cons : ∀ spot index item items, readFrom spot index (item :: items) = do
      let a ← read (spot.inside (.item index)) item
      let as ← readFrom spot (index + 1) items
      return a :: as)
    (spot : Spot) (index : Nat) (items : List Node) :
    (readFrom spot index items).toOption = items.mapM fun item => (read .root item).toOption := by
  induction items generalizing index with
  | nil =>
      rw [nil]
      rfl
  | cons item items ih =>
      rw [cons, List.mapM_cons, Decoded.toOption_bind, anywhere item _ .root]
      congr 1
      funext a
      rw [Decoded.toOption_bind, ih]
      rfl

namespace ReadsList

variable {α : Type} {readAll : Spot → Node → Decoded (List α)} {read : Spot → Node → Decoded α}
  {n m : Node}

theorem of_content (h : ReadsList readAll read) (content : n.content = m.content) :
    ReadsAlike readAll n m := by
  intro spot spot'
  by_cases sequence : ∃ items, m.content = .sequence items
  · obtain ⟨items, hm⟩ := sequence
    rw [h.items (content.trans hm), h.items hm]
  · rw [not_exists] at sequence
    rw [h.rejects (content ▸ sequence), h.rejects sequence]

/-- No mapping is a list. -/
theorem mapping (h : ReadsList readAll read) (entries entries' : List (Node × Node)) :
    ReadsAlike readAll (.mapping entries) (.mapping entries') := by
  have hnone : ∀ entries items, (Node.mapping entries).content ≠ .sequence items := nofun
  intro spot spot'
  rw [h.rejects (hnone entries), h.rejects (hnone entries')]

/-- An item counts as what is read from it. -/
theorem item (h : ReadsList readAll read) {before after : List Node} {item item' : Node}
    (alike : ReadsAlike read item item') :
    ReadsAlike readAll (.sequence (before ++ item :: after))
      (.sequence (before ++ item' :: after)) := by
  intro spot spot'
  rw [h.items rfl, h.items rfl]
  simp only [List.mapM_append, List.mapM_cons, alike .root .root]

end ReadsList

theorem readNetworks_readsList : ReadsList readNetworks readNetwork where
  items := by
    intro node items content spot
    unfold readNetworks
    rw [content]
    exact toOption_items (fun n => readNetwork_readsScalar n n rfl) (fun _ _ => rfl)
      (fun _ _ _ _ => rfl) spot 0 items
  rejects := by
    intro node other spot
    unfold readNetworks
    split
    · exact absurd ‹_› (other _)
    · exact Spot.mismatch_toOption _ _ _

/-! ## Looking through nodes -/

/-- The node can be looked through, and no more than `depth` collections are nested in it. -/
def Passes (depth : Nat) (node : Node) : Prop := lookThrough depth [] node = .ok ()

theorem lookThroughItems_ok_iff {look : Path → Node → Decoded Unit}
    (anywhere : ∀ path node, look path node = .ok () ↔ look [] node = .ok ()) (path : Path)
    (index : Nat) (items : List Node) :
    lookThroughItems look path index items = .ok () ↔ ∀ item ∈ items, look [] item = .ok () := by
  induction items generalizing index with
  | nil => simp [lookThroughItems]
  | cons item items ih =>
      rw [lookThroughItems, Decoded.bind_eq_ok_iff, List.forall_mem_cons, ← anywhere (path ++ _),
        ← ih (index + 1)]
      exact ⟨fun ⟨_, hitem, hrest⟩ => ⟨hitem, hrest⟩, fun ⟨hitem, hrest⟩ => ⟨(), hitem, hrest⟩⟩

theorem lookThroughEntries_ok_iff {look : Path → Node → Decoded Unit}
    (anywhere : ∀ path node, look path node = .ok () ↔ look [] node = .ok ()) (path : Path)
    (entries : List (Node × Node)) :
    lookThroughEntries look path entries = .ok () ↔
      ∀ entry ∈ entries, look [] entry.1 = .ok () ∧ look [] entry.2 = .ok () := by
  induction entries with
  | nil => simp [lookThroughEntries]
  | cons entry entries ih =>
      obtain ⟨key, value⟩ := entry
      simp only [lookThroughEntries, Decoded.bind_eq_ok_iff, List.forall_mem_cons, ← ih]
      rw [← anywhere path key, ← anywhere (path ++ [RecordShape.segmentOf key]) value]
      constructor
      · rintro ⟨_, hkey, _, hvalue, hrest⟩
        exact ⟨⟨hkey, hvalue⟩, hrest⟩
      · rintro ⟨⟨hkey, hvalue⟩, hrest⟩
        exact ⟨(), hkey, (), hvalue, hrest⟩

/-- Where a node stands does not decide whether it can be looked through. -/
theorem lookThrough_ok_iff (depth : Nat) (path : Path) (node : Node) :
    lookThrough depth path node = .ok () ↔ Passes depth node := by
  unfold Passes
  induction depth generalizing path node with
  | zero =>
      unfold lookThrough
      cases node.content with
      | scalar s =>
          dsimp only
          split <;> simp
      | sequence items => simp
      | mapping entries => simp
  | succ depth ih =>
      unfold lookThrough
      cases node.content with
      | scalar s =>
          dsimp only
          split <;> simp
      | sequence items =>
          dsimp only
          rw [lookThroughItems_ok_iff ih, lookThroughItems_ok_iff ih]
      | mapping entries =>
          dsimp only
          rw [lookThroughEntries_ok_iff ih, lookThroughEntries_ok_iff ih]

theorem passes_congr {n m : Node} (h : n.content = m.content) (depth : Nat) :
    Passes depth n ↔ Passes depth m := by
  unfold Passes
  cases depth <;>
    unfold lookThrough <;>
    rw [h]

/-- A scalar is not nested, so any depth will do. -/
theorem passes_scalar (s : Scalar) (depth depth' : Nat) :
    Passes depth (.scalar s) ↔ Passes depth' (.scalar s) := by
  unfold Passes
  cases depth <;> cases depth' <;> rfl

theorem passes_sequence (items : List Node) (depth : Nat) :
    Passes (depth + 1) (.sequence items) ↔ ∀ item ∈ items, Passes depth item :=
  lookThroughItems_ok_iff (lookThrough_ok_iff depth) [] 0 items

theorem passes_mapping (entries : List (Node × Node)) (depth : Nat) :
    Passes (depth + 1) (.mapping entries) ↔
      ∀ entry ∈ entries, Passes depth entry.1 ∧ Passes depth entry.2 :=
  lookThroughEntries_ok_iff (lookThrough_ok_iff depth) [] entries

theorem not_passes_zero_sequence (items : List Node) : ¬ Passes 0 (.sequence items) := nofun

theorem not_passes_zero_mapping (entries : List (Node × Node)) : ¬ Passes 0 (.mapping entries) :=
  nofun

theorem passes_of_number {node : Node} {x : Binary64} (h : numberOf? node = some x) (depth : Nat) :
    Passes depth node := by
  unfold numberOf? at h
  cases content : node.content with
  | scalar s =>
      rw [passes_congr (m := .scalar s) content, passes_scalar s depth 0]
      rw [content] at h
      unfold Passes lookThrough
      cases hvalue : s.value <;> simp_all [Node.content, Value.number?]
  | sequence items => simp [content] at h
  | mapping entries => simp [content] at h

theorem passes_of_windowKey {node : Node} {key : WindowKey} (h : WindowKey.ofNode? node = some key)
    (depth : Nat) : Passes depth node := by
  unfold WindowKey.ofNode? at h
  cases content : node.content with
  | scalar s =>
      rw [passes_congr (m := .scalar s) content, passes_scalar s depth 0]
      rw [content] at h
      unfold Passes lookThrough
      cases hvalue : s.value <;> simp_all [Node.content]
  | sequence items => simp [content] at h
  | mapping entries => simp [content] at h

/-! ## Changes that pass unnoticed -/

section Changes

variable {before after entries entries' : List (Node × Node)} {key key' value value' : Node}

theorem passes_permuted (perm : entries.Perm entries') (depth : Nat) :
    Passes depth (.mapping entries) ↔ Passes depth (.mapping entries') := by
  cases depth with
  | zero => exact iff_of_false (not_passes_zero_mapping _) (not_passes_zero_mapping _)
  | succ depth => simp only [passes_mapping, perm.mem_iff]

theorem passes_entry (hkey : ∀ depth, Passes depth key ↔ Passes depth key')
    (hvalue : ∀ depth, Passes depth value ↔ Passes depth value') (depth : Nat) :
    Passes depth (.mapping (before ++ (key, value) :: after)) ↔
      Passes depth (.mapping (before ++ (key', value') :: after)) := by
  cases depth with
  | zero => exact iff_of_false (not_passes_zero_mapping _) (not_passes_zero_mapping _)
  | succ depth =>
      simp only [passes_mapping, List.forall_mem_append, List.forall_mem_cons, hkey depth,
        hvalue depth]

theorem passes_omitted (hkey : ∀ depth, Passes depth key) (hvalue : ∀ depth, Passes depth value)
    (depth : Nat) :
    Passes depth (.mapping (before ++ (key, value) :: after)) ↔
      Passes depth (.mapping (before ++ after)) := by
  cases depth with
  | zero => exact iff_of_false (not_passes_zero_mapping _) (not_passes_zero_mapping _)
  | succ depth =>
      simp only [passes_mapping, List.forall_mem_append, List.forall_mem_cons, hkey depth,
        hvalue depth, and_self, true_and]

theorem passes_item {before after : List Node} {item item' : Node}
    (hitem : ∀ depth, Passes depth item ↔ Passes depth item') (depth : Nat) :
    Passes depth (.sequence (before ++ item :: after)) ↔
      Passes depth (.sequence (before ++ item' :: after)) := by
  cases depth with
  | zero => exact iff_of_false (not_passes_zero_sequence _) (not_passes_zero_sequence _)
  | succ depth =>
      simp only [passes_sequence, List.forall_mem_append, List.forall_mem_cons, hitem depth]

end Changes

end Gatehouse.Config
