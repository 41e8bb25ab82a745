import LayoutLine.Attribute
import LayoutLine.Number.Basic
import LayoutLine.Relation

/-!
# Lines of layout

A line arranges views along an axis: an optional spacing from the container's edge, views with the
clauses on their lengths, spacings between neighbours, and an optional spacing to the opposite
edge. Names are not resolved here. A line that was read from text has one spacing fewer than it
has views.
-/

namespace LayoutLine

/-- What a clause compares with. -/
inductive Line.Target where
  /-- A number written out. -/
  | number (value : Number)
  /-- The name of a length or of a view. -/
  | name (name : String)
  deriving DecidableEq

/-- One condition on a length or a gap. -/
structure Line.Clause where
  /-- How the length or gap compares with the target. -/
  relation : Relation
  /-- What it is compared with. -/
  target : Line.Target
  /-- The priority as written, in or out of range. -/
  priority : Option Nat
  deriving DecidableEq

/-- The space between two neighbouring items. -/
inductive Line.Spacing where
  /-- None: the items touch. -/
  | flush
  /-- The standard space of the place. -/
  | standard
  /-- A gap that meets every clause. -/
  | gap (clauses : List Line.Clause)
  deriving DecidableEq

/-- A view in a line. -/
structure Line.View where
  /-- The name of the view. -/
  name : String
  /-- The conditions on its length along the line. -/
  clauses : List Line.Clause
  deriving DecidableEq

/-- A line of layout. -/
structure Line where
  /-- The direction it runs along. -/
  axis : Axis
  /-- The space from the container's first edge to the first view, if the line starts there. -/
  leading : Option Line.Spacing
  /-- The views in order. -/
  views : List Line.View
  /-- The spaces between neighbours: the first lies between the first view and the second. -/
  spacings : List Line.Spacing
  /-- The space from the last view to the container's far edge, if the line ends there. -/
  trailing : Option Line.Spacing
  deriving DecidableEq

namespace Line

/-- The name a clause mentions, if any. -/
def Clause.names (clause : Clause) : List String :=
  match clause.target with
  | .number _ => []
  | .name name => [name]

/-- The names a spacing mentions, in order. -/
def Spacing.names : Spacing → List String
  | .flush | .standard => []
  | .gap clauses => clauses.flatMap Clause.names

/-- A view's own name and the names its clauses mention, in order. -/
def View.names (view : View) : List String := view.name :: view.clauses.flatMap Clause.names

/-- The names that views and the spacings after them mention, in turn. -/
def namesAlong : List View → List Spacing → List String
  | [], _ => []
  | view :: views, spacings =>
    view.names ++ (spacings.head?.map Spacing.names).getD [] ++ namesAlong views spacings.tail

/-- Every name the line mentions, in textual order and with repetitions. -/
def names (line : Line) : List String :=
  (line.leading.map Spacing.names).getD [] ++ namesAlong line.views line.spacings ++
    (line.trailing.map Spacing.names).getD []

end Line
end LayoutLine
