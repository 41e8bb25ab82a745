import LayoutLine.Engine
import LayoutLine.Fragment.Build

/-!
# Rows

A row says what a chain of views and gaps is to mean, before any symbol is chosen: its operands in
order, the links between them, and the container's edges it is tied to. An operand is built where
it stands in the chain, or was built before and is put in as a fragment. The constraints of a row
are written down here from its operands alone; nothing is looked up by name.
-/

namespace LayoutLine
namespace Row

/-! ### Operands -/

/-- A view, and what is asked of its length. -/
inductive ViewOperand (V : Type) where
  /-- Nothing is asked. -/
  | bare (view : V)
  /-- An element around the view, with a length or without one. -/
  | element (view : V) (length : Option Number) (priority : Priority)
  /-- One condition. -/
  | single (view : V) (clause : LengthClause)
  /-- A least and a greatest length. -/
  | between (view : V) (least : Number) (leastPriority : Priority) (greatest : Number)
    (greatestPriority : Priority)
  /-- The whole lengths from `start` up to, but not including, `stop`. -/
  | range (view : V) (start stop : Int) (holds : start < stop)
  /-- A list of conditions. -/
  | all (view : V) (clauses : List LengthClause) (some : clauses ≠ [])
  /-- The length of another view. -/
  | relative (view : V) (relation : Relation) (other : V) (priority : Priority)

/-- What stands in a row: a view, or a gap between views. -/
inductive Operand (V : Type) where
  /-- A view. -/
  | view (operand : ViewOperand V)
  /-- A gap of whole points. -/
  | gap (points : Int)
  /-- A gap of any length, with a priority. -/
  | metric (value : Number) (priority : Priority)

/-- What is asked of the length of a view. -/
inductive Sizing (V : Type) where
  /-- Conditions, or none. -/
  | clauses (list : List LengthClause)
  /-- The length of another view. -/
  | relative (relation : Relation) (other : V) (priority : Priority)

/-- The condition as it is asked for in an expression. -/
def request (clause : LengthClause) : ClauseRequest :=
  ⟨clause.relation, clause.length, clause.priority.value⟩

variable {V : Type}

namespace ViewOperand

/-- The view itself. -/
def view : ViewOperand V → V
  | .bare view | .element view _ _ | .single view _ | .between view _ _ _ _ | .range view _ _ _
  | .all view _ _ | .relative view _ _ _ => view

/-- What is asked of its length. -/
def sizing : ViewOperand V → Sizing V
  | .bare _ | .element _ none _ => .clauses []
  | .element _ (some length) priority => .clauses [⟨.equal, length, priority⟩]
  | .single _ clause => .clauses [clause]
  | .between _ least leastPriority greatest greatestPriority =>
    .clauses [⟨.atLeast, least, leastPriority⟩, ⟨.atMost, greatest, greatestPriority⟩]
  | .range _ start stop _ =>
    .clauses [⟨.atLeast, .ofInt start, .required⟩, ⟨.atMost, .ofInt (stop - 1), .required⟩]
  | .all _ clauses _ => .clauses clauses
  | .relative _ relation other priority => .relative relation other priority

/-- The expression that builds it. -/
def expr : ViewOperand V → Expr V
  | .bare view => .view view
  | .element view length priority => .element (some view) length priority.value
  | .single view clause => .sized view (.single (request clause))
  | .between view least leastPriority greatest greatestPriority =>
    .sized view (.between least leastPriority.value greatest greatestPriority.value)
  | .range view start stop _ => .sized view (.range start stop)
  | .all view clauses _ => .sized view (.all (clauses.map request))
  | .relative view relation other priority =>
    .sized view (.relative relation other priority.value)

/-- How many numbers its symbols need: one for each condition, and at least one. -/
def idCount (operand : ViewOperand V) : Nat :=
  match operand.sizing with
  | .clauses list => max 1 list.length
  | .relative _ _ _ => 2

/-- The fragment it becomes under numbers from the given one on. -/
def fragment (operand : ViewOperand V) (id : SymbolId) : Fragment V :=
  match operand.sizing with
  | .clauses [] => .ofView id operand.view
  | .clauses (clause :: clauses) => .ofLengths id operand.view (clause :: clauses)
  | .relative relation other priority => .ofRelative id operand.view relation other priority

end ViewOperand

namespace Operand

/-- Whether the operand is a view. -/
def isView : Operand V → Bool
  | .view _ => true
  | .gap _ | .metric _ _ => false

/-- The expression that builds it. -/
def expr : Operand V → Expr V
  | .view operand => operand.expr
  | .gap points => .gap points
  | .metric value priority => .metric value priority.value

/-- How many numbers its symbols need. -/
def idCount : Operand V → Nat
  | .view operand => operand.idCount
  | .gap _ => 0
  | .metric _ _ => 1

/-- The fragment it becomes under numbers from the given one on. -/
def fragment (operand : Operand V) (id : SymbolId) : Fragment V :=
  match operand with
  | .view operand => operand.fragment id
  | .gap points => .gap points
  | .metric value priority => .ofMetric id ⟨value, priority⟩

end Operand

/-- An operand with the first of its numbers. -/
structure Placed (V : Type) where
  /-- The first of its numbers. -/
  id : SymbolId
  /-- The operand. -/
  operand : Operand V

namespace Placed

/-- The fragment of the operand. -/
def fragment (p : Placed V) : Fragment V := p.operand.fragment p.id

/-- The first number behind those of the operand. -/
def stop (p : Placed V) : Nat := p.id.val + p.operand.idCount

/-- Whether a number is one of the operand's. -/
def Has (p : Placed V) (n : Nat) : Prop := p.id.val ≤ n ∧ n < p.stop

/-- Two operands that share no number, unless they are one. -/
def Apart (p q : Placed V) : Prop := p = q ∨ ∀ n, p.Has n → ¬q.Has n

end Placed

/-- How an operand comes into a chain. -/
inductive Entry (V : Type) where
  /-- It is built where it stands. -/
  | made (operand : Operand V)
  /-- It was built before, from the same source. -/
  | kept (placed : Placed V)

namespace Entry

/-- The operand. -/
def operand : Entry V → Operand V
  | .made operand => operand
  | .kept placed => placed.operand

/-- The expression that puts it into a chain. -/
def expr : Entry V → Expr V
  | .made operand => operand.expr
  | .kept placed => .fragment placed.fragment

/-- How many numbers its symbols need where it stands. -/
def idCount : Entry V → Nat
  | .made operand => operand.idCount
  | .kept _ => 0

/-- How many numbers it takes where it stands. -/
def taken (entry : Entry V) : Nat := blockSize entry.idCount

/-- The operand with its numbers, when the next number is the given one. -/
def place (next : SymbolId) : Entry V → Placed V
  | .made operand => ⟨next, operand⟩
  | .kept placed => placed

/-- The operand if it was built before. -/
def kept? : Entry V → Option (Placed V)
  | .made _ => none
  | .kept placed => some placed

end Entry

/-- How many numbers the symbols of entries need where they stand. -/
def idCount : List (Link × Entry V) → Nat
  | [] => 0
  | (_, entry) :: steps => entry.idCount + idCount steps

/-- How many numbers entries take where they stand. -/
def takenBy : List (Link × Entry V) → Nat
  | [] => 0
  | (_, entry) :: steps => entry.taken + takenBy steps

/-- The operands of entries with their numbers, from the given one on. -/
def place (next : SymbolId) : List (Link × Entry V) → List (Link × Placed V)
  | [] => []
  | (link, entry) :: steps =>
    (link, entry.place next) :: place (next.advance entry.taken) steps

/-! ### What a row means -/

/-- What is written between two neighbouring views, or between a view and an edge. -/
inductive Space where
  /-- A dash and nothing else. -/
  | dash
  /-- A gap of whole points. -/
  | points (relation : Relation) (distance : Int)
  /-- A gap of any length, under the symbol with the given number. -/
  | metric (relation : Relation) (id : SymbolId) (value : Number) (priority : Priority)

/-- The space as a line writes it. -/
def Space.spacing : Space → Line.Spacing
  | .dash => .standard
  | .points relation distance => .gap [⟨relation, .number (.ofInt distance), none⟩]
  | .metric relation id _ priority =>
    .gap [⟨relation, .name (Symbol.name ⟨.metric, id⟩), some priority.value⟩]

/-- The constraint of the space: how far `first` lies beyond `second`. A dash stands for the given
distance. -/
def Space.constraint (first second : Anchor V) (standard : Number) : Space → Constraint V
  | .dash => Piece.fixed first second standard
  | .points relation distance => ⟨first, relation, some second, .ofInt distance, .required⟩
  | .metric relation _ value priority => ⟨first, relation, some second, value, priority⟩

/-- A view of a row with the space in front of it. -/
structure Hop (V : Type) where
  /-- The space in front of the view. -/
  space : Space
  /-- The number of the view's symbol. -/
  id : SymbolId
  /-- The view. -/
  operand : ViewOperand V

/-- The views of a run of operands, each with the space in front of it, and the space after the
last one. The first argument is what was written before. -/
def hops : Space → List (Link × Placed V) → List (Hop V) × Space
  | space, [] => ([], space)
  | space, (_, ⟨id, .view operand⟩) :: steps =>
    let later := hops .dash steps
    (⟨space, id, operand⟩ :: later.1, later.2)
  | _, (link, ⟨_, .gap points⟩) :: steps => hops (.points link.relation points) steps
  | _, (link, ⟨id, .metric value priority⟩) :: steps =>
    hops (.metric link.relation id value priority) steps

namespace Hop

/-- The name of the view. -/
def name (hop : Hop V) : String := Symbol.name ⟨.view, hop.id⟩

/-- The view under its name. -/
def item (hop : Hop V) : Item V := .view hop.name hop.operand.view

/-- The clauses on the length of the view as a line writes them. -/
def clauses (hop : Hop V) : List Line.Clause :=
  match hop.operand.sizing with
  | .clauses list =>
    List.zipWith (fun symbol clause =>
      ⟨clause.relation, .name symbol.name, some clause.priority.value⟩)
      (Fragment.clauseSymbols hop.id list.length) list
  | .relative relation _ priority =>
    [⟨relation, .name (Symbol.name ⟨.relative, hop.id.advance 1⟩), some priority.value⟩]

/-- The view as a line writes it. -/
def view (hop : Hop V) : Line.View := ⟨hop.name, hop.clauses⟩

/-- The constraints on the length of the view. -/
def lengthConstraints (span : Span) (hop : Hop V) : List (Constraint V) :=
  match hop.operand.sizing with
  | .clauses list => list.map fun clause =>
    ⟨⟨hop.item, span.length⟩, clause.relation, none, clause.length, clause.priority⟩
  | .relative relation other priority =>
    [⟨⟨hop.item, span.length⟩, relation,
      some ⟨.view (Symbol.name ⟨.relative, hop.id.advance 1⟩) other, span.length⟩, .zero, priority⟩]

end Hop

/-- The constraints of views that follow a given one. -/
def laterConstraints (span : Span) (config : StandardSpacing) :
    Item V → List (Hop V) → List (Constraint V)
  | _, [] => []
  | before, hop :: hops =>
    hop.space.constraint ⟨hop.item, span.start⟩ ⟨before, span.stop⟩ config.between ::
      (hop.lengthConstraints span ++ laterConstraints span config hop.item hops)

end Row

/-- Operands with links between them, tied to the container's edges or not. -/
structure Row (V : Type) where
  /-- Whether the row starts at the container's first edge. -/
  leading : Bool
  /-- The first operand. -/
  first : Row.Entry V
  /-- The other operands, each with the link in front of it. -/
  steps : List (Link × Row.Entry V)
  /-- Whether the row ends at the container's far edge. -/
  trailing : Bool

namespace Row

variable {V : Type}

/-- The chain of the row. -/
def chain (row : Row V) : Chain V where
  leading := row.leading
  first := row.first.expr
  steps := row.steps.map fun step => (step.1, step.2.expr)
  trailing := row.trailing

/-- All operands; what ties the first one to an edge is a dash. -/
def entries (row : Row V) : List (Link × Entry V) := (.standard, row.first) :: row.steps

/-- How many numbers the symbols of the row need. -/
def count (row : Row V) : Nat := idCount row.entries

/-- How many numbers building the row takes. -/
def taken (row : Row V) : Nat := takenBy row.entries

/-- The operands with their numbers, when the next number is the given one. -/
def placed (row : Row V) (next : SymbolId) : List (Link × Placed V) := place next row.entries

/-- All operands, each with the link in front of it. -/
def operands (row : Row V) : List (Link × Operand V) :=
  row.entries.map fun step => (step.1, step.2.operand)

/-- Every gap is followed by a dash and a view, or stands at the end before the far edge. The flag
says whether what comes before is a gap. -/
def GapsEnd (trailing : Bool) : Bool → List (Link × Operand V) → Prop
  | afterGap, [] => afterGap → trailing
  | afterGap, (link, operand) :: steps =>
    (afterGap → link = .standard ∧ operand.isView) ∧ GapsEnd trailing (!operand.isView) steps

/-- What makes a row a line of layout. -/
structure Readable (row : Row V) : Prop where
  /-- There is a view. -/
  view : ∃ step ∈ row.operands, step.2.isView
  /-- A row that is not tied to the first edge starts with a view. -/
  start : row.leading = false → row.first.operand.isView
  /-- Gaps lead somewhere. -/
  gaps : GapsEnd row.trailing false row.operands
  /-- Links with a relation lead to gaps only. -/
  links : ∀ step ∈ row.operands, step.1 ≠ .standard → step.2.isView = false

/-- No number stands for two things: there are numbers enough for what is built in the row, and
what was built before took earlier numbers, and different ones each time. -/
structure Fresh (row : Row V) (ids : IdSource) : Prop where
  /-- No number is given out twice. -/
  room : ids.next.val + row.count ≤ 4294967296
  /-- What was built before took earlier numbers. -/
  earlier : ∀ p ∈ row.entries.filterMap (·.2.kept?), p.stop ≤ ids.next.val
  /-- What was built before shares no numbers. -/
  apart : (row.entries.filterMap (·.2.kept?)).Pairwise Placed.Apart

/-- The line the row is written as along an axis. -/
def line (row : Row V) (next : SymbolId) (axis : Axis) : Line where
  axis := axis
  leading :=
    if row.leading then (hops .dash (row.placed next)).1.head?.map (·.space.spacing) else none
  views := (hops .dash (row.placed next)).1.map Hop.view
  spacings := (hops .dash (row.placed next)).1.tail.map (·.space.spacing)
  trailing := if row.trailing then some (hops .dash (row.placed next)).2.spacing else none

/-- The constraints along the axis of the views of a row: of each view, the space in front of it and
its length, and in the end the space up to the far edge. -/
def alongConstraints (row : Row V) (span : Span) (config : StandardSpacing) (first : Hop V)
    (later : List (Hop V)) (space : Space) : List (Constraint V) :=
  let last := (first :: later).getLast (List.cons_ne_nil _ _)
  let start := first.space.constraint ⟨first.item, span.start⟩ ⟨.container, span.start⟩ config.edge
  let stop := space.constraint ⟨.container, span.stop⟩ ⟨last.item, span.stop⟩ config.edge
  (if row.leading then [start] else []) ++ first.lengthConstraints span ++
    laterConstraints span config first.item later ++ (if row.trailing then [stop] else [])

/-- The constraints across the axis: for each alignment, every item tied to the one before it. -/
def acrossConstraints (options : Options) (items : List (Item V)) : List (Constraint V) :=
  options.alignments.flatMap fun alignment =>
    List.zipWith (fun before item => Piece.fixed ⟨item, alignment.2⟩ ⟨before, alignment.2⟩ .zero)
      items items.tail

/-- The constraints of the row along an axis, when the next number is the given one. -/
def constraints (row : Row V) (next : SymbolId) (axis : Axis) (options : Options)
    (config : StandardSpacing) : List (Constraint V) :=
  match hops .dash (row.placed next) with
  | ([], _) => []
  | (first :: later, space) =>
    row.alongConstraints (Span.along axis options) config first later space ++
      acrossConstraints options ((first :: later).map Hop.item)

end Row
end LayoutLine
