import LayoutLine.Constraint
import LayoutLine.Line.Basic
import LayoutLine.Table

/-!
# Resolving a line

A line becomes constraints once its names are bound to views and lengths. The views are looked up
first, in order. Then the line is taken apart into pieces in textual order, which are the spacing
before each view, the clauses on its length, and the spacing after the last one; each piece gives
its constraints. Alignments come last: for each, a view is tied to the one before it. The first
complaint stops it all.
-/

namespace LayoutLine

/-- Why a line has no constraints. -/
inductive ResolveError where
  /-- No view is bound to the name. -/
  | unknownView (name : String)
  /-- No length is bound to the name. -/
  | unknownMetric (name : String)
  /-- The priority of a clause lies outside its range. -/
  | priorityOutOfRange (value : Nat)
  /-- The flag aligns an attribute of the axis the line runs along. -/
  | alignmentAlongAxis (flag : Flag) (axis : Axis)
  deriving DecidableEq

/-- The complaint as text. -/
def ResolveError.message : ResolveError → String
  | .unknownView name => "Undefined view: " ++ name
  | .unknownMetric name => "Undefined metric: " ++ name
  | .priorityOutOfRange value => Priority.outOfRangeMessage value
  | .alignmentAlongAxis flag axis =>
    "Option " ++ flag.name ++ " aligns along the " ++ axis.name ++ " axis"

/-- What the names in a line stand for. -/
structure Bindings (V : Type) where
  /-- The views by name. -/
  views : Table V := .empty
  /-- The lengths by name. -/
  metrics : Table Number := .empty

/-- The space that a bare dash stands for. -/
structure StandardSpacing where
  /-- Between two neighbouring views. -/
  between : Number := .ofInt 8
  /-- Between a view and an edge of the container. -/
  edge : Number := .ofInt 20
  deriving DecidableEq

instance : Inhabited StandardSpacing := ⟨{}⟩

variable {V : Type}

namespace Bindings

/-- The view under a name. -/
def item (bindings : Bindings V) (name : String) : Except ResolveError (Item V) :=
  match bindings.views.get? name with
  | some handle => .ok (.view name handle)
  | none => .error (.unknownView name)

/-- The number a target of a gap stands for: names are lengths. -/
def number (bindings : Bindings V) : Line.Target → Except ResolveError Number
  | .number value => .ok value
  | .name name =>
    match bindings.metrics.get? name with
    | some value => .ok value
    | none => .error (.unknownMetric name)

/-- What a target of a length stands for: a name is a length, or else the view whose length is
meant. -/
def measure (bindings : Bindings V) : Line.Target → Except ResolveError (Option (Item V) × Number)
  | .number value => .ok (none, value)
  | .name name =>
    match bindings.metrics.get? name, bindings.views.get? name with
    | some value, _ => .ok (none, value)
    | none, some handle => .ok (some (.view name handle), .zero)
    | none, none => .error (.unknownMetric name)

end Bindings

/-- The priority of a clause; where none is written the constraint is required. -/
def clausePriority : Option Nat → Except ResolveError Priority
  | none => .ok .required
  | some value =>
    match Priority.ofNat? value with
    | some priority => .ok priority
    | none => .error (.priorityOutOfRange value)

/-- A part of a line that constraints are made from. -/
inductive Piece (V : Type) where
  /-- A spacing: how far `first` lies beyond `second`, and what a bare dash means there. -/
  | gap (first second : Anchor V) (standard : Number) (spacing : Line.Spacing)
  /-- A clause on the length of a view. -/
  | length (anchor : Anchor V) (clause : Line.Clause)

namespace Piece

/-- The constraint of a clause in a gap. Its target is looked up before its priority. -/
def ofGapClause (bindings : Bindings V) (first second : Anchor V) (clause : Line.Clause) :
    Except ResolveError (Constraint V) := do
  let constant ← bindings.number clause.target
  let priority ← clausePriority clause.priority
  return { first, relation := clause.relation, second := some second, constant, priority }

/-- The constraint of a clause on a length. Its priority is looked at before its target. -/
def ofLengthClause (bindings : Bindings V) (anchor : Anchor V) (clause : Line.Clause) :
    Except ResolveError (Constraint V) := do
  let priority ← clausePriority clause.priority
  let (item, constant) ← bindings.measure clause.target
  return { first := anchor
           relation := clause.relation
           second := item.map (Anchor.mk · anchor.attr)
           constant
           priority }

/-- The required constraint that puts `first` a fixed distance beyond `second`. -/
def fixed (first second : Anchor V) (distance : Number) : Constraint V :=
  { first, relation := .equal, second := some second, constant := distance, priority := .required }

/-- The constraints of a piece: one for each of its clauses, one for a spacing without clauses. -/
def constraints (bindings : Bindings V) : Piece V → Except ResolveError (List (Constraint V))
  | .gap first second _ .flush => .ok [fixed first second .zero]
  | .gap first second standard .standard => .ok [fixed first second standard]
  | .gap first second _ (.gap clauses) => clauses.mapM (ofGapClause bindings first second)
  | .length anchor clause => (ofLengthClause bindings anchor clause).map ([·])

end Piece

namespace Line

/-- A view of a line with the item its name is bound to. -/
abbrev Placed (V : Type) := View × Item V

/-- The length clauses of a view. -/
def lengthPieces (span : Span) (placed : Placed V) : List (Piece V) :=
  placed.1.clauses.map (Piece.length ⟨placed.2, span.length⟩)

/-- The views after `before`, each with the spacing in front of it. -/
def laterPieces (span : Span) (config : StandardSpacing) (before : Item V) :
    List (Placed V) → List Spacing → List (Piece V)
  | [], _ => []
  | placed :: later, spacings =>
    (spacings.head?.map
      (Piece.gap ⟨placed.2, span.start⟩ ⟨before, span.stop⟩ config.between)).toList ++
      lengthPieces span placed ++ laterPieces span config placed.2 later spacings.tail

/-- The pieces of a line in textual order. Edges without a view between them give nothing. -/
def pieces (span : Span) (config : StandardSpacing) (line : Line) :
    List (Placed V) → List (Piece V)
  | [] => []
  | first :: later =>
    let last := ((first :: later).getLast (List.cons_ne_nil _ _)).2
    (line.leading.map
      (Piece.gap ⟨first.2, span.start⟩ ⟨.container, span.start⟩ config.edge)).toList ++
      lengthPieces span first ++ laterPieces span config first.2 later line.spacings ++
      (line.trailing.map
        (Piece.gap ⟨.container, span.stop⟩ ⟨last, span.stop⟩ config.edge)).toList

/-- Ties each item's attribute to that of the item before it. -/
def alignNeighbours (attr : Attribute) : List (Item V) → List (Constraint V)
  | first :: second :: items =>
    Piece.fixed ⟨second, attr⟩ ⟨first, attr⟩ .zero ::
      alignNeighbours attr (second :: items)
  | _ => []

/-- The constraints of one alignment. It must cross the line, however few views there are. -/
def alignmentConstraints (axis : Axis) (items : List (Item V)) (alignment : Flag × Attribute) :
    Except ResolveError (List (Constraint V)) :=
  if alignment.2.axis = axis then .error (.alignmentAlongAxis alignment.1 axis)
  else .ok (alignNeighbours alignment.2 items)

/-- The constraints of a line: those of its pieces in textual order, then those of its alignments.
-/
def resolve (line : Line) (options : Options) (bindings : Bindings V) (config : StandardSpacing) :
    Except ResolveError (List (Constraint V)) := do
  let items ← line.views.mapM (bindings.item ·.name)
  let pieces := line.pieces (Span.along line.axis options) config (line.views.zip items)
  let spaced ← pieces.mapM (Piece.constraints bindings)
  let aligned ← options.alignments.mapM (alignmentConstraints line.axis items)
  return spaced.flatten ++ aligned.flatten

end Line
end LayoutLine
