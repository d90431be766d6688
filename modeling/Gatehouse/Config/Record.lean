import Gatehouse.Config.Error
/-!
# Records

A record is read from a mapping by the names of its fields, or from a sequence by their order.
What has been read so far is a draft; it goes through the fields that are present, and what is
missing is settled by whoever asked for the record.
-/

namespace Gatehouse.Config

open Gatehouse.Yaml

/-- A node together with where it stands: its own path, and that of the collection around it,
to which problems with what a value means are reported. -/
structure Spot where
  path : Path
  around : Path
deriving DecidableEq

/-- The spot of a whole document. -/
def Spot.root : Spot := ⟨[], []⟩

/-- The spot of a node inside the one at this spot. -/
def Spot.inside (s : Spot) (segment : Segment) : Spot := ⟨s.path ++ [segment], s.path⟩

/-- Reading ends at the first problem. -/
abbrev Decoded (α : Type) := Except ConfigError α

/-- A problem with the node at a spot itself. -/
def Spot.refuse {α : Type} (s : Spot) (problem : Problem) : Decoded α :=
  .error (.problem s.path problem)

/-- A problem with what the node at a spot means. -/
def Spot.reject {α : Type} (s : Spot) (problem : Problem) : Decoded α :=
  .error (.problem s.around problem)

/-- The node at a spot is not of the expected type. -/
def Spot.mismatch {α : Type} (s : Spot) (content : Content) (expected : String) : Decoded α :=
  match Found.ofContent content with
  | .value (.misfit text wanted) => s.refuse (.invalidValue text wanted)
  | found => s.refuse (.invalidType found expected)

/-- A field of a record, by what it does to a draft of it. -/
structure Field (δ : Type) where
  name : String
  /-- the draft has it -/
  isSet : δ → Bool
  /-- it has to be there -/
  required : Bool := false
  /-- reads it into the draft -/
  read : Spot → Node → δ → Decoded δ

/-- A kind of record: its name in messages, its fields in order, and the empty draft. -/
structure RecordShape (δ : Type) where
  what : String
  fields : List (Field δ)
  empty : δ

namespace RecordShape

variable {δ : Type}

/-- The segment of a path that an entry with this key gives. Only a key that is written there has
a name. -/
def segmentOf : Node → Segment
  | .scalar s => .key s.text
  | _ => .unnamed

/-- The field that a key names. -/
def fieldOf (shape : RecordShape δ) (spot : Spot) (key : Node) : Decoded (Field δ) :=
  match key.content with
  | .scalar s =>
    match shape.fields.find? fun field => field.name == s.text with
    | some field => .ok field
    | none => spot.refuse (.unknownField s.text (shape.fields.map (·.name)))
  | other => spot.mismatch other "field identifier"

/-- Reads one entry of a mapping into a draft. -/
def readEntry (shape : RecordShape δ) (spot : Spot) (draft : δ) (entry : Node × Node) :
    Decoded δ := do
  let field ← shape.fieldOf spot entry.1
  if field.isSet draft then spot.refuse (.duplicateField field.name)
  else field.read (spot.inside (segmentOf entry.1)) entry.2 draft

/-- Reads the entries of a mapping into a draft. -/
def readEntries (shape : RecordShape δ) (spot : Spot) (draft : δ) :
    List (Node × Node) → Decoded δ
  | [] =>
    match shape.fields.find? fun field => field.required && !field.isSet draft with
    | some field => spot.refuse (.missingField field.name)
    | none => .ok draft
  | entry :: entries => do
    let draft ← shape.readEntry spot draft entry
    shape.readEntries spot draft entries

/-- Reads items of a sequence into the fields that are left, the next of which has the given
index. All items are to be used. -/
def readItems (shape : RecordShape δ) (spot : Spot) (draft : δ) (index : Nat) :
    List (Field δ) → List Node → Decoded δ
  | [], [] => .ok draft
  | [], items => spot.refuse (.tooManyItems (index + items.length) index)
  | field :: fields, [] =>
    if field.required then
      spot.refuse (.tooFewItems index shape.what shape.fields.length)
    else shape.readItems spot draft (index + 1) fields []
  | field :: fields, item :: items => do
    let draft ← field.read (spot.inside (.item index)) item draft
    shape.readItems spot draft (index + 1) fields items

def read (shape : RecordShape δ) (spot : Spot) (node : Node) : Decoded δ :=
  match node.content with
  | .mapping entries => shape.readEntries spot shape.empty entries
  | .sequence items => shape.readItems spot shape.empty 0 shape.fields items
  | other => spot.mismatch other shape.what

end RecordShape

end Gatehouse.Config
