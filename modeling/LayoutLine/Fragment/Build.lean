import LayoutLine.Fragment.Basic

/-!
# Building fragments

A builder expression says which fragment to build. Building runs from left to right and takes the
numbers of new symbols from a source, so numbers follow reading order. A constructor checks what
it was given before it takes a number; a number that was taken stays taken when something later
fails.
-/

namespace LayoutLine

/-- Why an expression builds no fragment. -/
inductive BuildError where
  /-- A list of length clauses is empty. -/
  | noClauses
  /-- An element has neither a view nor a length. -/
  | nothingToWrap
  /-- A priority lies outside its range. -/
  | priorityOutOfRange (value : Nat)
  /-- A range of lengths holds none. -/
  | emptyRange (start stop : Int)
  deriving DecidableEq

/-- The complaint as text. -/
def BuildError.message : BuildError → String
  | .noClauses => "A length relation needs at least one predicate"
  | .nothingToWrap => "Nothing to wrap: at least a view or a length is required"
  | .priorityOutOfRange value => Priority.outOfRangeMessage value
  | .emptyRange start stop =>
    "Length range " ++ toString start ++ ".." ++ toString stop ++ " is empty"

/-- A condition on a length whose priority is still to be checked. -/
structure ClauseRequest where
  /-- How the length compares with the given one. -/
  relation : Relation
  /-- The given length. -/
  length : Number
  /-- The priority asked for. -/
  priority : Nat := 1000
  deriving DecidableEq

/-- What a view's length has to meet. Priorities are still to be checked. -/
inductive LengthRule (V : Type) where
  /-- A single condition. -/
  | single (clause : ClauseRequest)
  /-- A least and a greatest length. -/
  | between (least : Number) (leastPriority : Nat) (greatest : Number) (greatestPriority : Nat)
  /-- The whole lengths from `start` up to, but not including, `stop`. -/
  | range (start stop : Int)
  /-- Any list of conditions. -/
  | all (clauses : List ClauseRequest)
  /-- The length of another view. -/
  | relative (relation : Relation) (other : V) (priority : Nat)

/-- How to build a fragment. Priorities are still to be checked. -/
inductive Expr (V : Type) where
  /-- A fragment that is already there. -/
  | fragment (f : Fragment V)
  /-- A view. -/
  | view (view : V)
  /-- A length. -/
  | metric (value : Number) (priority : Nat)
  /-- Text that is taken as it is. -/
  | literal (text : String)
  /-- A gap of whole points. -/
  | gap (points : Int)
  /-- A view, a length, or a view of that length. -/
  | element (view : Option V) (length : Option Number) (priority : Nat)
  /-- A view with a rule for its length. -/
  | sized (view : V) (rule : LengthRule V)
  /-- An expression under other options. -/
  | withOptions (expr : Expr V) (options : Options)
  /-- Two expressions with any glyph between them. -/
  | join (lhs : Expr V) (glyph : String) (rhs : Expr V)
  /-- Two expressions with a link between them. -/
  | link (lhs : Expr V) (link : Link) (rhs : Expr V)
  /-- The container's first edge, a dash, and an expression. -/
  | fromEdge (rhs : Expr V)
  /-- An expression, a dash, and the container's far edge. -/
  | toEdge (lhs : Expr V)

/-- Items linked one after the other, between the container's edges if so wished. -/
structure Chain (V : Type) where
  /-- Whether the chain starts at the container's first edge. -/
  leading : Bool := false
  /-- The first item. -/
  first : Expr V
  /-- The other items, each with the link in front of it. -/
  steps : List (Link × Expr V) := []
  /-- Whether the chain ends at the container's far edge. -/
  trailing : Bool := false

/-- An expression followed by linked items. -/
def Expr.linkAll {V : Type} (start : Expr V) (steps : List (Link × Expr V)) : Expr V :=
  steps.foldl (fun chain step => chain.link step.1 step.2) start

@[simp] theorem Expr.linkAll_nil {V : Type} (start : Expr V) : start.linkAll [] = start := rfl

@[simp] theorem Expr.linkAll_cons {V : Type} (start : Expr V) (step : Link × Expr V)
    (steps : List (Link × Expr V)) :
    start.linkAll (step :: steps) = (start.link step.1 step.2).linkAll steps := rfl

/-- Items may be linked in two goes. -/
theorem Expr.linkAll_append {V : Type} (start : Expr V) (xs ys : List (Link × Expr V)) :
    start.linkAll (xs ++ ys) = (start.linkAll xs).linkAll ys :=
  List.foldl_append

/-- The expression that builds a chain. -/
def Chain.expr {V : Type} (chain : Chain V) : Expr V :=
  let start := if chain.leading then .fromEdge chain.first else chain.first
  let body := start.linkAll chain.steps
  if chain.trailing then .toEdge body else body

/-- A computation that takes numbers from a source and may fail. -/
abbrev Builder := EStateM BuildError IdSource

namespace Builder

/-- Takes the next `count` numbers and returns the first. -/
def take (count : Nat) : Builder SymbolId := fun ids => .ok ids.next (ids.skip count)

/-- A priority, if it lies in its range. -/
def priority (value : Nat) : Builder Priority :=
  match Priority.ofNat? value with
  | some priority => pure priority
  | none => throw (.priorityOutOfRange value)

/-- A clause, if its priority lies in its range. -/
def clause (request : ClauseRequest) : Builder LengthClause := do
  let priority ← priority request.priority
  return ⟨request.relation, request.length, priority⟩

variable {V : Type}

/-- A view under a new symbol. -/
def view (view : V) : Builder (Fragment V) := do
  return .ofView (← take 1) view

/-- A length under a new symbol. -/
def metric (metric : Metric) : Builder (Fragment V) := do
  return .ofMetric (← take 1) metric

/-- A view with clauses on its length, under a block with one number for each clause. -/
def lengths (view : V) (clauses : List LengthClause) : Builder (Fragment V) := do
  return .ofLengths (← take (blockSize clauses.length)) view clauses

/-- A view with the lengths between two given ones. -/
def between (view : V) (least greatest : ClauseRequest) : Builder (Fragment V) := do
  let least ← clause least
  let greatest ← clause greatest
  lengths view [least, greatest]

/-- A view with a rule for its length. -/
def sized (view : V) : LengthRule V → Builder (Fragment V)
  | .single request => do lengths view [← clause request]
  | .between least leastPriority greatest greatestPriority =>
    between view ⟨.atLeast, least, leastPriority⟩ ⟨.atMost, greatest, greatestPriority⟩
  | .range start stop =>
    if start < stop then
      between view { relation := .atLeast, length := .ofInt start }
        { relation := .atMost, length := .ofInt (stop - 1) }
    else throw (.emptyRange start stop)
  | .all requests => do
    let clauses ← requests.mapM clause
    if clauses.isEmpty then throw .noClauses
    lengths view clauses
  | .relative relation other priorityValue => do
    let priority ← priority priorityValue
    return .ofRelative (← take 2) view relation other priority

/-- A view, a length, or a view of that length. -/
def element (view? : Option V) (length? : Option Number) (priority : Priority) :
    Builder (Fragment V) :=
  match view?, length? with
  | some v, some length => lengths v [⟨.equal, length, priority⟩]
  | some v, none => view v
  | none, some length => metric ⟨length, priority⟩
  | none, none => throw .nothingToWrap

end Builder

/-- Builds the fragment of an expression. -/
def Expr.build {V : Type} : Expr V → Builder (Fragment V)
  | .fragment f => pure f
  | .view v => Builder.view v
  | .metric value priority => do Builder.metric ⟨value, ← Builder.priority priority⟩
  | .literal text => pure (.literal text)
  | .gap points => pure (.gap points)
  | .element v length priority => do Builder.element v length (← Builder.priority priority)
  | .sized v rule => Builder.sized v rule
  | .withOptions e options => do return (← e.build).withOptions options
  | .join lhs glyph rhs => do
    let left ← lhs.build
    let right ← rhs.build
    return left.join glyph right
  | .link lhs l rhs => do
    let left ← lhs.build
    let right ← rhs.build
    return left.join l.glyph right
  | .fromEdge rhs => do return Fragment.edge.join Link.standard.glyph (← rhs.build)
  | .toEdge lhs => do return (← lhs.build).join Link.standard.glyph .edge

end LayoutLine
