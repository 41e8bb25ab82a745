import LayoutLine.Proofs.Resolve
import LayoutLine.Proofs.Row.Names
import LayoutLine.Proofs.Row.Text

/-!
# Rows end to end

A readable row with fresh numbers is built, written as text, read back and resolved. What comes
out are the constraints of the row, in order.
-/

namespace LayoutLine
namespace Row

variable {V : Type} {bindings : Bindings V}

/-! ### What the pieces of a row need -/

/-- The length of a space, if it has a symbol, is bound. -/
def Space.Bound (bindings : Bindings V) : Space → Prop
  | .dash | .points _ _ => True
  | .metric _ id value _ => bindings.metrics.get? (Symbol.name ⟨.metric, id⟩) = some value

/-- What a view and the space in front of it mention is bound. -/
structure Hop.Bound (bindings : Bindings V) (hop : Hop V) : Prop where
  /-- The space in front is bound. -/
  space : hop.space.Bound bindings
  /-- The symbols of the view are bound. -/
  operand : (hop.operand.fragment hop.id).toBindings.PartOf bindings
  /-- The numbers of the view exist. -/
  fits : hop.id.val + hop.operand.idCount ≤ 4294967296

/-- Where all operands are bound, so are the views and spaces they become. -/
theorem bound_hops {steps : List (Link × Placed V)}
    (hsteps : ∀ step ∈ steps, step.2.fragment.toBindings.PartOf bindings ∧
      step.2.stop ≤ 4294967296)
    (space : Space) (hspace : space.Bound bindings) :
    (∀ hop ∈ (hops space steps).1, hop.Bound bindings) ∧ (hops space steps).2.Bound bindings := by
  induction steps generalizing space with
  | nil => exact ⟨fun _ hop => absurd hop List.not_mem_nil, hspace⟩
  | cons step steps ih =>
    obtain ⟨link, id, operand⟩ := step
    obtain ⟨hpart, hfits⟩ := hsteps _ List.mem_cons_self
    have hlater := fun step hstep => hsteps step (List.mem_cons_of_mem _ hstep)
    cases operand with
    | view operand =>
      have hrest := ih hlater .dash trivial
      refine ⟨fun hop hhop => ?_, hrest.2⟩
      rcases List.mem_cons.mp hhop with rfl | hhop
      · exact ⟨hspace, hpart, hfits⟩
      · exact hrest.1 hop hhop
    | gap points => exact ih hlater (.points link.relation points) trivial
    | metric value priority =>
      refine ih hlater (.metric link.relation id value priority) ?_
      exact hpart.metrics _ value ((get?_singleton _ _ _ _).mpr ⟨rfl, rfl⟩)

/-- A space gives its constraint. -/
theorem constraints_space {space : Space} (h : space.Bound bindings) (first second : Anchor V)
    (standard : Number) :
    (Piece.gap first second standard space.spacing).constraints bindings =
      .ok [space.constraint first second standard] := by
  cases space with
  | dash => rfl
  | points relation distance => rfl
  | metric relation id value priority =>
    have hvalue : bindings.number (.name (Symbol.name ⟨.metric, id⟩)) = .ok value := by
      simp only [Bindings.number, show bindings.metrics.get? _ = some value from h]
    simp only [Space.spacing, Piece.constraints, List.mapM_cons, List.mapM_nil, Piece.ofGapClause,
      hvalue, clausePriority_value]
    rfl

/-- A condition on a length gives its constraint. -/
theorem constraints_symbolClause {p : Symbol × LengthClause}
    (h : bindings.metrics.get? p.1.name = some p.2.length) (anchor : Anchor V) :
    (Piece.length anchor (symbolClause p)).constraints bindings =
      .ok [⟨anchor, p.2.relation, none, p.2.length, p.2.priority⟩] := by
  have hvalue : bindings.measure (.name p.1.name) = .ok (none, p.2.length) := by
    simp only [Bindings.measure, h]
  simp only [Piece.constraints, symbolClause, Piece.ofLengthClause, hvalue, clausePriority_value]
  rfl

theorem yields_symbolClauses {ps : List (Symbol × LengthClause)}
    (h : ∀ p ∈ ps, bindings.metrics.get? p.1.name = some p.2.length) (anchor : Anchor V) :
    Piece.Yields bindings ((ps.map symbolClause).map (Piece.length anchor))
      (ps.map fun p => ⟨anchor, p.2.relation, none, p.2.length, p.2.priority⟩) := by
  induction ps with
  | nil => exact Piece.yields_nil
  | cons p ps ih =>
    exact .cons (constraints_symbolClause (h p List.mem_cons_self) anchor)
      (ih fun q hq => h q (List.mem_cons_of_mem _ hq))

/-- The clauses of a view give the constraints on its length. -/
theorem yields_length {hop : Hop V} (h : hop.Bound bindings)
    (hkinds : ∀ s : Symbol, s.kind ≠ .metric → bindings.metrics.get? s.name = none) (span : Span) :
    Piece.Yields bindings (Line.lengthPieces span (hop.view, hop.item))
      (hop.lengthConstraints span) := by
  simp only [Line.lengthPieces, Hop.view, Hop.clauses, Hop.lengthConstraints]
  cases hsizing : hop.operand.sizing with
  | clauses list =>
    have hlength : (Fragment.clauseSymbols hop.id list.length).length = list.length := by
      simp [Fragment.clauseSymbols]
    have hbound : ∀ p ∈ (Fragment.clauseSymbols hop.id list.length).zip list,
        bindings.metrics.get? p.1.name = some p.2.length := fun p hp =>
      h.operand.metrics _ _ (get?_clause_fragment hsizing h.fits hp)
    have hlist : ((Fragment.clauseSymbols hop.id list.length).zip list).map Prod.snd = list :=
      List.map_snd_zip (Nat.le_of_eq hlength.symm)
    have hyields := yields_symbolClauses hbound ⟨hop.item, span.length⟩
    have hconstraints : (((Fragment.clauseSymbols hop.id list.length).zip list).map fun p =>
        (⟨⟨hop.item, span.length⟩, p.2.relation, none, p.2.length, p.2.priority⟩ : Constraint V)) =
          list.map fun clause =>
            ⟨⟨hop.item, span.length⟩, clause.relation, none, clause.length, clause.priority⟩ := by
      conv_rhs => rw [← hlist, List.map_map]
      rfl
    rw [hconstraints, List.map_zip_eq_zipWith] at hyields
    exact hyields
  | relative relation other priority =>
    have hmetric := hkinds ⟨.relative, hop.id.advance 1⟩ relative_ne_metric
    have hview := h.operand.views _ _ (get?_relative_fragment hsizing hop.id)
    have hmeasure : bindings.measure (.name (Symbol.name ⟨.relative, hop.id.advance 1⟩)) =
        .ok (some (.view (Symbol.name ⟨.relative, hop.id.advance 1⟩) other), .zero) := by
      simp only [Bindings.measure, hmetric, hview]
    refine Piece.yields_singleton ?_
    simp only [Piece.constraints, Piece.ofLengthClause, hmeasure, clausePriority_value]
    rfl

/-! ### Lines -/

theorem item_hop {hop : Hop V} (h : hop.Bound bindings) :
    bindings.item hop.view.name = .ok hop.item := by
  have hview := h.operand.views _ _ (get?_view_fragment hop.operand hop.id)
  simp only [Bindings.item, Hop.view, Hop.name, hview, Hop.item]

/-- Views behind a given one give the constraints of the spaces in front of them and of their
lengths. -/
theorem yields_later {later : List (Hop V)} (h : ∀ hop ∈ later, hop.Bound bindings)
    (hkinds : ∀ s : Symbol, s.kind ≠ .metric → bindings.metrics.get? s.name = none) (span : Span)
    (config : StandardSpacing) (before : Item V) :
    Piece.Yields bindings
      (Line.laterPieces span config before (later.map fun hop => (hop.view, hop.item))
        (later.map (·.space.spacing)))
      (laterConstraints span config before later) := by
  induction later generalizing before with
  | nil => exact Piece.yields_nil
  | cons hop later ih =>
    have hhop := h hop List.mem_cons_self
    have hspace := constraints_space hhop.space ⟨hop.item, span.start⟩ ⟨before, span.stop⟩
      config.between
    have hlater := ih (fun other hother => h other (List.mem_cons_of_mem _ hother)) hop.item
    have hyields := Piece.Yields.cons hspace ((yields_length hhop hkinds span).append hlater)
    exact hyields

theorem yields_edge (tied : Bool) {space : Space} (h : space.Bound bindings)
    (first second : Anchor V) (standard : Number) :
    Piece.Yields bindings
      (((if tied then some space.spacing else none).map (Piece.gap first second standard)).toList)
      (if tied then [space.constraint first second standard] else []) := by
  cases tied with
  | true => exact Piece.yields_singleton (constraints_space h first second standard)
  | false => exact Piece.yields_nil

/-- The pieces of the line of a row give the constraints along the axis. -/
theorem yields_line {row : Row V} {next : SymbolId} {first : Hop V} {later : List (Hop V)}
    {space : Space} (hhops : hops .dash (row.placed next) = (first :: later, space))
    (hbound : ∀ hop ∈ first :: later, hop.Bound bindings) (hspace : space.Bound bindings)
    (hkinds : ∀ s : Symbol, s.kind ≠ .metric → bindings.metrics.get? s.name = none)
    (axis : Axis) (span : Span) (config : StandardSpacing) :
    Piece.Yields bindings
      ((row.line next axis).pieces span config
        ((first :: later).map fun hop => (hop.view, hop.item)))
      (row.alongConstraints span config first later space) := by
  have hfirst := hbound first List.mem_cons_self
  have hrest := fun hop hhop => hbound hop (List.mem_cons_of_mem first hhop)
  let last := (first :: later).getLast (List.cons_ne_nil _ _)
  have hmap : (((first :: later).map fun hop => (hop.view, hop.item)).getLast
      (List.cons_ne_nil _ _)).2 = last.item := by
    rw [List.getLast_map]
  have hlast : (((first.view, first.item) :: later.map fun hop => (hop.view, hop.item)).getLast
      (List.cons_ne_nil _ _)).2 = last.item := hmap
  have hleading := yields_edge row.leading hfirst.space ⟨first.item, span.start⟩
    ⟨.container, span.start⟩ config.edge
  have htrailing := yields_edge row.trailing hspace ⟨.container, span.stop⟩
    ⟨last.item, span.stop⟩ config.edge
  have hlater := yields_later hrest hkinds span config first.item
  simp only [line, hhops, List.head?_cons, Option.map_some, List.tail_cons, List.map_cons,
    Line.pieces]
  rw [hlast]
  exact ((hleading.append (yields_length hfirst hkinds span)).append hlater).append htrailing

/-- The line of a row whose symbols are bound gives the constraints of the row. -/
theorem resolve_line {row : Row V} {next : SymbolId} {first : Hop V} {later : List (Hop V)}
    {space : Space} (hhops : hops .dash (row.placed next) = (first :: later, space))
    (hbound : ∀ hop ∈ first :: later, hop.Bound bindings) (hspace : space.Bound bindings)
    (hkinds : ∀ s : Symbol, s.kind ≠ .metric → bindings.metrics.get? s.name = none)
    {axis : Axis} {options : Options} (config : StandardSpacing)
    (hcross : ∀ alignment ∈ options.alignments, alignment.2.axis ≠ axis) :
    (row.line next axis).resolve options bindings config =
      .ok (row.constraints next axis options config) := by
  have hviews : (row.line next axis).views = (first :: later).map Hop.view := by
    simp only [line, hhops]
  have hitems : (row.line next axis).views.mapM (bindings.item ·.name) =
      .ok ((first :: later).map Hop.item) := by
    rw [hviews, List.mapM_map]
    exact mapM_eq_ok_map fun hop hhop => item_hop (hbound hop hhop)
  have hpieces := yields_line hhops hbound hspace hkinds axis (Span.along axis options) config
  rw [← List.zip_map', ← hviews] at hpieces
  rw [Line.resolve_of_yields hitems hpieces hcross]
  simp only [constraints, hhops, acrossConstraints, Line.alignNeighbours_eq_zipWith]

/-! ### From the chain to the constraints -/

/-- What the builder was told is what the engine answers. The chain of a readable row with fresh
numbers builds; its text, on either axis, is read and resolved under any options that align across
that axis, and the constraints are those of the row. -/
theorem engine_answers_row (row : Row V) (hreadable : row.Readable) (ids : IdSource)
    (hfresh : row.Fresh ids) (axis : Axis) (options : Options)
    (hcross : ∀ alignment ∈ options.alignments, alignment.2.axis ≠ axis) (engine : FormatEngine V) :
    ∃ fragment, row.chain.expr.build ids = .ok fragment (ids.skip row.taken) ∧
      (engine.constraintsFor (fragment.render axis) options fragment.toBindings).1 =
        .ok (row.constraints ids.next axis options engine.config) := by
  refine ⟨row.fragment ids.next, build_chain row ids, ?_⟩
  have hparse : Line.parse ((row.fragment ids.next).render axis) = .ok (row.line ids.next axis) :=
    Line.parse_eq_ok_iff.mpr (hreadable.lineText ids.next axis)
  have hsteps : ∀ step ∈ row.placed ids.next,
      step.2.fragment.toBindings.PartOf (row.fragment ids.next).toBindings ∧
        step.2.stop ≤ 4294967296 :=
    fun step hstep => ⟨hfresh.partOf hstep, hfresh.stop_le hstep⟩
  obtain ⟨hbound, hspace⟩ := bound_hops hsteps .dash trivial
  obtain ⟨first, later, hfirst⟩ := exists_first_hop .dash (hreadable.exists_view ids.next)
  have hhops : hops .dash (row.placed ids.next) =
      (first :: later, (hops .dash (row.placed ids.next)).2) := Prod.ext hfirst rfl
  rw [hfirst] at hbound
  have hresolve := resolve_line hhops hbound hspace (fun s => hfresh.get?_metrics_eq_none)
    engine.config hcross
  exact FormatEngine.constraintsFor_eq_ok_iff.mpr ⟨_, hparse, hresolve⟩

/-- A metric from the first edge to a view that was built before, a gap of at least -4 points to a
view of 10 up to 20 points, and a dash to the far edge. -/
def sampleRow : Row Nat where
  leading := true
  first := .made (.metric (.ofInt 12) .high)
  steps := [(.standard, .kept ⟨0, .view (.bare 7)⟩), (.atLeast, .made (.gap (-4))),
    (.standard, .made (.view (.range 8 10 20 (by decide))))]
  trailing := true

/-- The constraints of the sample row under aligned top edges, by the engine. -/
theorem engine_answers_sampleRow :
    sampleRow.Readable ∧ sampleRow.Fresh ⟨1⟩ ∧
    ∃ fragment, sampleRow.chain.expr.build ⟨1⟩ = .ok fragment ⟨4⟩ ∧
      ((default : FormatEngine Nat).constraintsFor (fragment.render .horizontal)
        (.ofFlag .alignTop) fragment.toBindings).1 =
        .ok (sampleRow.constraints 1 .horizontal (.ofFlag .alignTop) {}) ∧
      sampleRow.constraints 1 .horizontal (.ofFlag .alignTop) {} =
        let a : Item Nat := .view (Symbol.name ⟨.view, 0⟩) 7
        let b : Item Nat := .view (Symbol.name ⟨.view, 2⟩) 8
        [⟨⟨a, .leading⟩, .equal, some ⟨.container, .leading⟩, .ofInt 12, .high⟩,
          ⟨⟨b, .leading⟩, .atLeast, some ⟨a, .trailing⟩, .ofInt (-4), .required⟩,
          ⟨⟨b, .width⟩, .atLeast, none, .ofInt 10, .required⟩,
          ⟨⟨b, .width⟩, .atMost, none, .ofInt 19, .required⟩,
          ⟨⟨.container, .trailing⟩, .equal, some ⟨b, .trailing⟩, .ofInt 20, .required⟩,
          ⟨⟨b, .top⟩, .equal, some ⟨a, .top⟩, .zero, .required⟩] := by
  have hreadable : sampleRow.Readable :=
    { view := ⟨(.standard, .view (.bare 7)),
        by simp [operands, entries, sampleRow, Entry.operand], rfl⟩
      start := fun h => absurd h (by decide)
      gaps := by simp [GapsEnd, operands, entries, sampleRow, Entry.operand, Operand.isView]
      links := by simp [operands, entries, sampleRow, Entry.operand, Operand.isView] }
  have hfresh : sampleRow.Fresh ⟨1⟩ :=
    { room := by decide
      earlier := by simp [entries, sampleRow, Entry.kept?, Placed.stop, Operand.idCount,
        ViewOperand.idCount, ViewOperand.sizing]
      apart := by simp [entries, sampleRow, Entry.kept?] }
  have halignments : (Options.ofFlag .alignTop).alignments = [(.alignTop, .top)] := by decide
  obtain ⟨fragment, hbuild, hanswer⟩ := engine_answers_row sampleRow hreadable ⟨1⟩ hfresh
    .horizontal (.ofFlag .alignTop) (by rw [halignments]; simp [Attribute.axis]) default
  refine ⟨hreadable, hfresh, fragment, hbuild, hanswer, ?_⟩
  rfl

end Row
end LayoutLine
