import LayoutLine.Number.Basic

/-!
# Stored data

Values are stored as trees of plain data: nothing, truth values, integers, other numbers, text,
lists and records. A record keeps its fields in the order in which they were written. Reading
fails either because the data have the wrong form or because a priority lies outside its range; of
several faults in a record the first one in the order of its fields counts, and a missing field
counts last.
-/

namespace LayoutLine.Archive

/-- A tree of plain data. -/
inductive Datum where
  /-- Nothing. -/
  | null
  /-- A truth value. -/
  | bool (value : Bool)
  /-- A number written as an integer. -/
  | integer (value : Int)
  /-- Any other number. -/
  | real (value : Number)
  /-- Text. -/
  | text (value : String)
  /-- Data in sequence. -/
  | list (items : List Datum)
  /-- Data by name, in order; no name occurs twice. -/
  | record (fields : List (String × Datum))

instance : Inhabited Datum := ⟨.null⟩

/-- Why data stand for no value. -/
inductive Fault where
  /-- The data have the wrong form. -/
  | malformed
  /-- A priority lies outside its range. -/
  | priorityOutOfRange (value : Nat)
  deriving DecidableEq

/-- A reader of stored data. -/
abbrev Reader (α : Type) := Datum → Except Fault α

/-- Reads text. -/
def readText : Reader String
  | .text value => .ok value
  | _ => .error .malformed

/-- Reads a number of either form. -/
def readNumber : Reader Number
  | .integer value => .ok (.ofInt value)
  | .real value => .ok value
  | _ => .error .malformed

/-- Reads a natural number below a bound. -/
def readNat (bound : Nat) : Reader Nat
  | .integer value =>
    if 0 ≤ value ∧ value < bound then .ok value.toNat else .error .malformed
  | _ => .error .malformed

/-- Reads a list. -/
def readList {α : Type} (item : Reader α) : Reader (List α)
  | .list items => items.mapM item
  | _ => .error .malformed

/-- Reads something that may be absent. -/
def readOption {α : Type} (item : Reader α) : Reader (Option α)
  | .null => .ok none
  | datum => (item datum).map some

/-- Reads data by name. -/
def readEntries {α : Type} (item : Reader α) : Reader (List (String × α))
  | .record fields => fields.mapM fun field => (item field.2).map (field.1, ·)
  | _ => .error .malformed

/-- Reads one of several words: the word itself, or a record that gives it nothing. -/
def readWord {α : Type} (words : List (String × α)) : Reader α
  | .text word | .record [(word, .null)] =>
    match words.lookup word with
    | some value => .ok value
    | none => .error .malformed
  | _ => .error .malformed

/-- A field of a record: its name, and the check that its data have to pass. -/
structure Field where
  /-- The name of the field. -/
  name : String
  /-- The fault in its data, if any. -/
  check : Datum → Except Fault Unit
  /-- Whether the field may be left out. -/
  optional : Bool := false

/-- A field whose data have to be readable. -/
def Field.of {α : Type} (name : String) (reader : Reader α) : Field where
  name
  check datum := (reader datum).map fun _ => ()

/-- A field that may be left out or hold nothing. -/
def Field.maybe {α : Type} (name : String) (reader : Reader α) : Field :=
  { Field.of name (readOption reader) with optional := true }

/-- Checks the data of the known fields in the order in which they are written. -/
def checkFields (fields : List Field) (entries : List (String × Datum)) : Except Fault Unit :=
  entries.forM fun entry =>
    match fields.find? (·.name == entry.1) with
    | some field => field.check entry.2
    | none => .ok ()

/-- The data of a record's fields by name. A record may also be written as the list of its fields'
data, all of them in order. Unknown fields are passed over. -/
def readFields (fields : List Field) : Reader (List (String × Datum))
  | .record entries => do
    checkFields fields entries
    if fields.all fun field => field.optional || entries.any (·.1 == field.name) then
      return entries
    else throw .malformed
  | .list items => do
    let entries := (fields.map Field.name).zip items
    checkFields fields entries
    if items.length = fields.length then return entries else throw .malformed
  | _ => .error .malformed

/-- The data under a name; nothing if there are none. -/
def fieldOf (entries : List (String × Datum)) (name : String) : Datum :=
  (entries.lookup name).getD .null

end LayoutLine.Archive
