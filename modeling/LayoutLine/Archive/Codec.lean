import LayoutLine.Archive.Datum
import LayoutLine.Fragment.Basic
import LayoutLine.Options

/-!
# Stored forms

How the values of the library are stored: priorities as integers, relations and axes as words,
options as text, everything else as records. Each type has a reader and a writer.
-/

namespace LayoutLine.Archive

/-- Reads a priority: a 16-bit integer that has to lie in the range of priorities. -/
def readPriority : Reader Priority := fun datum => do
  let value ← readNat 65536 datum
  match Priority.ofNat? value with
  | some priority => return priority
  | none => throw (.priorityOutOfRange value)

/-- Writes a priority. -/
def writePriority (priority : Priority) : Datum := .integer priority.value

/-- The word for a relation. -/
def relationWord : Relation → String
  | .equal => "Equal"
  | .atLeast => "GreaterThanOrEqual"
  | .atMost => "LessThanOrEqual"

/-- Reads a relation. -/
def readRelation : Reader Relation :=
  readWord ([.equal, .atLeast, .atMost].map fun relation => (relationWord relation, relation))

/-- Writes a relation. -/
def writeRelation (relation : Relation) : Datum := .text (relationWord relation)

/-- Reads an axis. -/
def readAxis : Reader Axis :=
  readWord ([.horizontal, .vertical].map fun axis => (axis.name, axis))

/-- Writes an axis. -/
def writeAxis (axis : Axis) : Datum := .text axis.name

/-- Reads options. -/
def readOptions : Reader Options := fun datum => do
  match Options.ofText? (← readText datum) with
  | some options => return options
  | none => throw .malformed

/-- Writes options. -/
def writeOptions (options : Options) : Datum := .text options.text

/-- Reads a length with its priority. -/
def readMetric : Reader Metric := fun datum => do
  let fields ← readFields [.of "value" readNumber, .of "priority" readPriority] datum
  return { value := ← readNumber (fieldOf fields "value")
           priority := ← readPriority (fieldOf fields "priority") }

/-- Writes a length with its priority. -/
def writeMetric (metric : Metric) : Datum :=
  .record [("value", .real metric.value), ("priority", writePriority metric.priority)]

/-- Reads a condition on a length. -/
def readLengthClause : Reader LengthClause := fun datum => do
  let fields ← readFields
    [.of "relation" readRelation, .of "length" readNumber, .of "priority" readPriority] datum
  return { relation := ← readRelation (fieldOf fields "relation")
           length := ← readNumber (fieldOf fields "length")
           priority := ← readPriority (fieldOf fields "priority") }

/-- Writes a condition on a length. -/
def writeLengthClause (clause : LengthClause) : Datum :=
  .record [("relation", writeRelation clause.relation), ("length", .real clause.length),
    ("priority", writePriority clause.priority)]

/-- Reads the target of a clause, a record with one field that tells which kind it is. -/
def readTarget : Reader Line.Target
  | .record [("Constant", datum)] => (readNumber datum).map .number
  | .record [("Named", datum)] => (readText datum).map .name
  | _ => .error .malformed

/-- Writes the target of a clause. -/
def writeTarget : Line.Target → Datum
  | .number value => .record [("Constant", .real value)]
  | .name name => .record [("Named", .text name)]

/-- Reads a clause. Its priority is any 32-bit integer, or absent. -/
def readClause : Reader Line.Clause := fun datum => do
  let readWeight := readNat 4294967296
  let fields ← readFields
    [.of "relation" readRelation, .of "object" readTarget, .maybe "priority" readWeight] datum
  return { relation := ← readRelation (fieldOf fields "relation")
           target := ← readTarget (fieldOf fields "object")
           priority := ← readOption readWeight (fieldOf fields "priority") }

/-- Writes something that may be absent. -/
def writeOption {α : Type} (write : α → Datum) : Option α → Datum
  | some value => write value
  | none => .null

/-- Writes a clause. -/
def writeClause (clause : Line.Clause) : Datum :=
  .record [("relation", writeRelation clause.relation), ("object", writeTarget clause.target),
    ("priority", writeOption (fun weight => .integer weight) clause.priority)]

/-- Reads a spacing: a word, or a record with the list of its clauses. -/
def readSpacing : Reader Line.Spacing
  | .record [("Predicates", datum)] => (readList readClause datum).map .gap
  | datum => readWord [("Flush", .flush), ("Standard", .standard)] datum

/-- Writes a spacing. -/
def writeSpacing : Line.Spacing → Datum
  | .flush => .text "Flush"
  | .standard => .text "Standard"
  | .gap clauses => .record [("Predicates", .list (clauses.map writeClause))]

/-- Reads a view of a line. -/
def readView : Reader Line.View := fun datum => do
  let fields ← readFields [.of "name" readText, .of "predicates" (readList readClause)] datum
  return { name := ← readText (fieldOf fields "name")
           clauses := ← readList readClause (fieldOf fields "predicates") }

/-- Writes a view of a line. -/
def writeView (view : Line.View) : Datum :=
  .record [("name", .text view.name), ("predicates", .list (view.clauses.map writeClause))]

/-- Reads a line. Its edges may be left out. -/
def readLine : Reader Line := fun datum => do
  let fields ← readFields
    [.of "axis" readAxis, .maybe "leading" readSpacing, .of "views" (readList readView),
      .of "connections" (readList readSpacing), .maybe "trailing" readSpacing] datum
  return { axis := ← readAxis (fieldOf fields "axis")
           leading := ← readOption readSpacing (fieldOf fields "leading")
           views := ← readList readView (fieldOf fields "views")
           spacings := ← readList readSpacing (fieldOf fields "connections")
           trailing := ← readOption readSpacing (fieldOf fields "trailing") }

/-- Writes a line. -/
def writeLine (line : Line) : Datum :=
  .record [("axis", writeAxis line.axis), ("leading", writeOption writeSpacing line.leading),
    ("views", .list (line.views.map writeView)),
    ("connections", .list (line.spacings.map writeSpacing)),
    ("trailing", writeOption writeSpacing line.trailing)]

/-- Reads a fragment whose views are 64-bit numbers. -/
def readFragment : Reader (Fragment Nat) := fun datum => do
  let readViews := readEntries (readNat 18446744073709551616)
  let fields ← readFields
    [.of "text" readText, .of "views" readViews, .of "metrics" (readEntries readNumber),
      .of "options" readOptions] datum
  return { text := ← readText (fieldOf fields "text")
           views := .ofList (← readViews (fieldOf fields "views"))
           metrics := .ofList (← readEntries readNumber (fieldOf fields "metrics"))
           options := ← readOptions (fieldOf fields "options") }

/-- Writes a fragment. -/
def writeFragment (fragment : Fragment Nat) : Datum :=
  .record [("text", .text fragment.text),
    ("views", .record (fragment.views.entries.map fun entry => (entry.1, .integer entry.2))),
    ("metrics", .record (fragment.metrics.entries.map fun entry => (entry.1, .real entry.2))),
    ("options", writeOptions fragment.options)]

end LayoutLine.Archive
