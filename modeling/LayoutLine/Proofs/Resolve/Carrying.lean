import LayoutLine.Proofs.Resolve

/-!
# Lines carried over

Resolving puts items, attributes and clauses together without looking into them. So whatever is
done to the items, to the attributes of anchors and to the clauses of a line is found done in its
constraints, and a complaint stays in its place. All that has to be known is what happens to single
clauses, to the names of views and to the alignments.
-/

namespace LayoutLine

variable {V W : Type}

/-! ### Parts carried over -/

/-- The anchor on another item and another attribute. -/
def Anchor.map (item : Item V → Item W) (attr : Attribute → Attribute) (anchor : Anchor V) :
    Anchor W := ⟨item anchor.item, attr anchor.attr⟩

/-- The constraint between other anchors. -/
def Constraint.map (item : Item V → Item W) (attr : Attribute → Attribute) (c : Constraint V) :
    Constraint W where
  first := c.first.map item attr
  relation := c.relation
  second := c.second.map (Anchor.map item attr)
  constant := c.constant
  priority := c.priority

/-- The attributes that come in the place of those a line uses. -/
def Span.map (attr : Attribute → Attribute) (span : Span) : Span :=
  ⟨attr span.start, attr span.stop, attr span.length⟩

namespace Line

/-- The spacing with other clauses. -/
def Spacing.map (clause : Clause → Clause) : Spacing → Spacing
  | .flush => .flush
  | .standard => .standard
  | .gap clauses => .gap (clauses.map clause)

/-- The view under another name and with other clauses. -/
def View.map (name : String → String) (clause : Clause → Clause) (view : View) : View :=
  ⟨name view.name, view.clauses.map clause⟩

/-- The line along an axis, with its views under other names and with other clauses. -/
def map (axis : Axis) (name : String → String) (clause : Clause → Clause) (line : Line) : Line where
  axis := axis
  leading := line.leading.map (Spacing.map clause)
  views := line.views.map (View.map name clause)
  spacings := line.spacings.map (Spacing.map clause)
  trailing := line.trailing.map (Spacing.map clause)

@[simp]
theorem Spacing.map_id (spacing : Spacing) : spacing.map id = spacing := by
  cases spacing with
  | flush => rfl
  | standard => rfl
  | gap clauses => rw [map, List.map_id]

@[simp]
theorem View.map_id (view : View) : view.map id id = view := by
  rw [map, List.map_id, id]

@[simp]
theorem map_axis (axis : Axis) (name : String → String) (clause : Clause → Clause) (line : Line) :
    (line.map axis name clause).axis = axis := rfl

/-- A line whose names and clauses are left alone is the line along the other axis. -/
theorem map_id_id (axis : Axis) (line : Line) : line.map axis id id = { line with axis } := by
  have hspacing : Spacing.map id = id := funext Spacing.map_id
  have hview : View.map id id = id := funext View.map_id
  simp only [map, hspacing, hview, Option.map_id_fun, List.map_id_fun, id]

end Line

/-- The piece between other anchors and with other clauses. -/
def Piece.map (item : Item V → Item W) (attr : Attribute → Attribute)
    (clause : Line.Clause → Line.Clause) : Piece V → Piece W
  | .gap first second standard spacing =>
    .gap (first.map item attr) (second.map item attr) standard (spacing.map clause)
  | .length anchor c => .length (anchor.map item attr) (clause c)

variable {item : Item V → Item W} {clause : Line.Clause → Line.Clause}
  {complaint : ResolveError → ResolveError}

/-! ### Pieces -/

namespace Line

/-- The pieces for lengths of a line that is carried over are carried over. -/
theorem lengthPieces_map (name : String → String) (attr : Attribute → Attribute) (span : Span)
    (placed : Placed V) :
    lengthPieces (span.map attr) (placed.map (View.map name clause) item) =
      (lengthPieces span placed).map (Piece.map item attr clause) := by
  simp only [lengthPieces, Prod.map, View.map, List.map_map]
  rfl

/-- So are the pieces behind the first view. -/
theorem laterPieces_map (name : String → String) (attr : Attribute → Attribute) (span : Span)
    (config : StandardSpacing) (before : Item V) (later : List (Placed V))
    (spacings : List Spacing) :
    laterPieces (span.map attr) config (item before)
        (later.map (Prod.map (View.map name clause) item)) (spacings.map (Spacing.map clause)) =
      (laterPieces span config before later spacings).map (Piece.map item attr clause) := by
  induction later generalizing before spacings with
  | nil => rfl
  | cons placed later ih =>
    simp only [List.map_cons, laterPieces, Prod.map_snd, ← List.map_tail, lengthPieces_map, ih,
      List.map_append]
    cases spacings with
    | nil => rfl
    | cons spacing spacings => rfl

/-- The pieces of a line that is carried over, its views beside their items, are those of the line
carried over. -/
theorem pieces_map (hcontainer : item .container = .container) (axis : Axis)
    (name : String → String) (attr : Attribute → Attribute) (span : Span)
    (config : StandardSpacing) (line : Line) (placed : List (Placed V)) :
    (line.map axis name clause).pieces (span.map attr) config
        (placed.map (Prod.map (View.map name clause) item)) =
      (line.pieces span config placed).map (Piece.map item attr clause) := by
  cases placed with
  | nil => rfl
  | cons first later =>
    have hlast : ((first :: later).map (Prod.map (View.map name clause) item)).getLast
        (List.cons_ne_nil _ _) =
          ((first :: later).getLast (List.cons_ne_nil _ _)).map (View.map name clause) item :=
      List.getLast_map _
    simp only [List.map_cons] at hlast
    simp only [List.map_cons, pieces, hlast, Line.map, Prod.map_snd, lengthPieces_map,
      laterPieces_map, List.map_append]
    congr 1
    · congr 1
      congr 1
      cases line.leading with
      | none => rfl
      | some spacing => simp [Piece.map, Anchor.map, Span.map, hcontainer]
    · cases line.trailing with
      | none => rfl
      | some spacing => simp [Piece.map, Anchor.map, Span.map, hcontainer]

/-- Neighbours are tied by any attribute alike. -/
theorem alignNeighbours_map (item : Item V → Item W) (attr : Attribute → Attribute)
    (aligned : Attribute) (items : List (Item V)) :
    alignNeighbours (attr aligned) (items.map item) =
      (alignNeighbours aligned items).map (Constraint.map item attr) := by
  rw [alignNeighbours_eq_zipWith, alignNeighbours_eq_zipWith, List.map_zipWith, ← List.map_tail,
    List.zipWith_map]
  rfl

end Line

/-! ### Constraints -/

/-- Clauses that are carried over come to what they came to, with the items carried over. -/
structure Bindings.Carried (item : Item V → Item W) (clause : Line.Clause → Line.Clause)
    (complaint : ResolveError → ResolveError) (a : Bindings V) (b : Bindings W) : Prop where
  /-- The relations stay. -/
  relation : ∀ c, (clause c).relation = c.relation
  /-- So do the priorities, those out of range included. -/
  priority : ∀ c, clausePriority (clause c).priority =
    carry id complaint (clausePriority c.priority)
  /-- So do the lengths that clauses on gaps compare with. -/
  number : ∀ c, b.number (clause c).target = carry id complaint (a.number c.target)
  /-- What clauses on lengths compare with stays, or is the item carried over. -/
  measure : ∀ c, b.measure (clause c).target =
    carry (Prod.map (Option.map item) id) complaint (a.measure c.target)

/-- Clauses that are left alone come to what they come to. -/
theorem Bindings.carried_id (bindings : Bindings V) : bindings.Carried id id id bindings where
  relation := fun _ => rfl
  priority := fun _ => (carry_id _).symm
  number := fun _ => (carry_id _).symm
  measure := fun _ => by rw [Option.map_id_fun, Prod.map_id, carry_id, id]

namespace Bindings.Carried

variable {a : Bindings V} {b : Bindings W} (h : a.Carried item clause complaint b)
include h

/-- A clause on a gap that is carried over gives the constraint that is, or its complaint. -/
theorem ofGapClause (attr : Attribute → Attribute) (first second : Anchor V) (c : Line.Clause) :
    Piece.ofGapClause b (first.map item attr) (second.map item attr) (clause c) =
      carry (Constraint.map item attr) complaint (Piece.ofGapClause a first second c) := by
  rw [Piece.ofGapClause, Piece.ofGapClause, h.number, h.priority, h.relation]
  exact bind_carry fun constant => bind_carry fun priority => rfl

/-- A clause on a length that is carried over gives the constraint that is, or its complaint. -/
theorem ofLengthClause (attr : Attribute → Attribute) (anchor : Anchor V) (c : Line.Clause) :
    Piece.ofLengthClause b (anchor.map item attr) (clause c) =
      carry (Constraint.map item attr) complaint (Piece.ofLengthClause a anchor c) := by
  rw [Piece.ofLengthClause, Piece.ofLengthClause, h.priority, h.measure, h.relation]
  refine bind_carry fun priority => bind_carry fun measured => ?_
  obtain ⟨other, constant⟩ := measured
  cases other with
  | none => rfl
  | some other => rfl

/-- A piece that is carried over gives the constraints that are, or its complaint. -/
theorem constraints (attr : Attribute → Attribute) (piece : Piece V) :
    (piece.map item attr clause).constraints b =
      carry (List.map (Constraint.map item attr)) complaint (piece.constraints a) := by
  cases piece with
  | gap first second standard spacing =>
    cases spacing with
    | flush => rfl
    | standard => rfl
    | gap clauses => exact mapM_carry (h.ofGapClause attr first second) clauses
  | length anchor c =>
    simp only [Piece.map, Piece.constraints, h.ofLengthClause]
    cases Piece.ofLengthClause a anchor c with
    | error e => rfl
    | ok found => rfl

/-- A line that is carried over gives its constraints carried over, or its complaint. -/
theorem resolve {name : String → String} {attr : Attribute → Attribute} {axis : Axis}
    {options options' : Options} {line : Line} (hcontainer : item .container = .container)
    (hitem : ∀ n, b.item (name n) = carry item complaint (a.item n))
    (hspan : Span.along axis options' = (Span.along line.axis options).map attr)
    (halign : ∀ items : List (Item V),
      options'.alignments.mapM (Line.alignmentConstraints axis (items.map item)) =
        carry (List.map (List.map (Constraint.map item attr))) complaint
          (options.alignments.mapM (Line.alignmentConstraints line.axis items)))
    (config : StandardSpacing) :
    (line.map axis name clause).resolve options' b config =
      carry (List.map (Constraint.map item attr)) complaint
        (line.resolve options a config) := by
  have hitems : (line.map axis name clause).views.mapM (b.item ·.name) =
      carry (List.map item) complaint (line.views.mapM (a.item ·.name)) := by
    rw [Line.map]
    refine mapM_carry ?_ line.views
    intro view
    exact hitem view.name
  have hpieces (items : List (Item V)) :
      ((line.map axis name clause).pieces (Span.along axis options') config
        ((line.map axis name clause).views.zip (items.map item))).mapM (Piece.constraints b) =
        carry (List.map (List.map (Constraint.map item attr))) complaint
          ((line.pieces (Span.along line.axis options) config (line.views.zip items)).mapM
            (Piece.constraints a)) := by
    have hzip : (line.map axis name clause).views.zip (items.map item) =
        (line.views.zip items).map (Prod.map (Line.View.map name clause) item) := List.zip_map
    rw [hspan, hzip, Line.pieces_map hcontainer]
    exact mapM_carry (h.constraints attr) _
  rw [Line.resolve, Line.resolve, hitems]
  refine bind_carry fun items => ?_
  dsimp only [Line.map_axis]
  rw [hpieces]
  refine bind_carry fun spaced => ?_
  rw [halign]
  refine bind_carry fun aligned => ?_
  simp only [carry, pure, Except.pure, List.map_append, List.map_flatten]

end Bindings.Carried
end LayoutLine
