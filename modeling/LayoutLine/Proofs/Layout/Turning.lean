import LayoutLine.Proofs.Layout.Mirror
import LayoutLine.Proofs.Line.Joining
import LayoutLine.Proofs.Resolve.Carrying

/-!
# Lines from top to bottom

The axis stands in front of a line's text and nowhere in it, so the same text is read behind either
mark, or refused at the same place. What is read resolves along either axis alike, as long as no
option asks for an alignment or a direction: the vertical line is the horizontal one with the top in
the place of the leading edge, the bottom in that of the trailing edge and heights in that of
widths. A layout meets the constraints of the one exactly where the layout with its two directions
exchanged meets those of the other.
-/

namespace LayoutLine

variable {V : Type}

/-! ### Across and down -/

namespace Attribute

/-- The attribute that plays the same part in a vertical line. -/
def upright : Attribute → Attribute
  | .leading => .top
  | .trailing => .bottom
  | .width => .height
  | attr => attr

/-- The attribute is one that a line in the direction of reading uses. -/
def FollowsReading (attr : Attribute) : Prop :=
  attr = .leading ∨ attr = .trailing ∨ attr = .width

instance (attr : Attribute) : Decidable attr.FollowsReading :=
  inferInstanceAs (Decidable (_ ∨ _ ∨ _))

end Attribute

/-- The anchor at the attribute that plays the same part in a vertical line. -/
def Anchor.upright (anchor : Anchor V) : Anchor V := { anchor with attr := anchor.attr.upright }

namespace Constraint

/-- The constraint between the anchors of a vertical line. -/
def upright (c : Constraint V) : Constraint V :=
  { c with first := c.first.upright, second := c.second.map Anchor.upright }

/-- All anchors of the constraint are at attributes that a line in the direction of reading uses. -/
def FollowsReading (c : Constraint V) : Prop :=
  c.first.attr.FollowsReading ∧ ∀ second ∈ c.second, second.attr.FollowsReading

theorem map_upright (c : Constraint V) : c.map id Attribute.upright = c.upright := rfl

end Constraint

/-! ### Layouts with their directions exchanged -/

/-- The frame with the two directions exchanged: what was across is down. -/
def Frame.transpose (frame : Frame) : Frame :=
  { frame with left := frame.top, right := frame.bottom, top := frame.left, bottom := frame.right }

/-- The layout with the two directions exchanged. -/
def Layout.transpose (layout : Layout V) : Layout V :=
  ⟨layout.container.transpose, fun view => (layout.frame view).transpose⟩

/-- A frame put upright measures upright what it measured along the line. -/
theorem Frame.value_transpose (frame : Frame) {attr : Attribute} (h : attr.FollowsReading) :
    frame.transpose.value attr.upright = frame.value attr := by
  rcases h with rfl | rfl | rfl
  · rfl
  · rfl
  · rfl

/-- So does a layout that is put upright. -/
theorem Layout.measure_transpose (layout : Layout V) {anchor : Anchor V}
    (h : anchor.attr.FollowsReading) :
    layout.transpose.assignment.measure anchor.upright = layout.assignment.measure anchor := by
  obtain ⟨item, attr⟩ := anchor
  cases item with
  | view name handle => exact (layout.frame handle).value_transpose h
  | container => exact layout.container.value_transpose h

namespace Constraint

/-- What a constraint says of a layout, the one of the vertical line says of the layout with its
directions exchanged. -/
theorem met_transpose {c : Constraint V} (h : c.FollowsReading) (layout : Layout V) :
    c.upright.Met layout.transpose.assignment ↔ c.Met layout.assignment := by
  have hbase : layout.transpose.assignment.base c.upright = layout.assignment.base c := by
    cases hsecond : c.second with
    | none => simp only [upright, Assignment.base, hsecond, Option.map_none]
    | some second =>
      simp only [upright, Assignment.base, hsecond, Option.map_some]
      exact layout.measure_transpose (h.2 second hsecond)
  have hmeasure : layout.transpose.assignment.measure c.upright.first =
      layout.assignment.measure c.first := layout.measure_transpose h.1
  rw [met_iff_allows, met_iff_allows, hmeasure, hbase]
  rfl

/-- A layout put upright meets the constraints put upright when it met the others. -/
theorem meets_transpose {constraints : List (Constraint V)}
    (h : ∀ c ∈ constraints, c.FollowsReading) (layout : Layout V) :
    layout.transpose.assignment.Meets (constraints.map upright) ↔
      layout.assignment.Meets constraints := by
  simp only [Assignment.Meets, List.forall_mem_map]
  exact forall₂_congr fun c hc => met_transpose (h c hc) layout

end Constraint

/-! ### Resolving along either axis -/

section Plain

variable {options : Options}

/-- Options without flags align nothing. -/
theorem Options.alignments_of_plain (hplain : ∀ flag, options.has flag = false) :
    options.alignments = [] := by
  have hflags : options.flags = [] := List.filter_eq_nil_iff.mpr fun flag _ => by simp [hplain]
  rw [alignments, hflags]
  rfl

/-- Without flags a horizontal line follows the reading direction. -/
theorem Span.along_horizontal_of_plain (hplain : ∀ flag, options.has flag = false) :
    Span.along .horizontal options = ⟨.leading, .trailing, .width⟩ := by
  simp [along, hplain]

namespace Line

/-- Nothing that is done to the attributes of a line is done to anything else. -/
theorem resolve_map_attr (hplain : ∀ flag, options.has flag = false) {line : Line} {axis : Axis}
    {attr : Attribute → Attribute}
    (hspan : Span.along axis options = (Span.along line.axis options).map attr)
    (bindings : Bindings V) (config : StandardSpacing) :
    { line with axis }.resolve options bindings config =
      carry (List.map (Constraint.map id attr)) id (line.resolve options bindings config) := by
  rw [← map_id_id]
  refine bindings.carried_id.resolve rfl (fun name => (carry_id _).symm) hspan ?_ config
  intro items
  rw [Options.alignments_of_plain hplain]
  rfl

/-- A vertical line resolves like the horizontal one. -/
theorem resolve_vertical (hplain : ∀ flag, options.has flag = false) {line : Line}
    (haxis : line.axis = .horizontal) (bindings : Bindings V) (config : StandardSpacing) :
    { line with axis := .vertical }.resolve options bindings config =
      carry (List.map Constraint.upright) id (line.resolve options bindings config) := by
  have hspan : Span.along .vertical options =
      (Span.along line.axis options).map Attribute.upright := by
    rw [haxis, Span.along_horizontal_of_plain hplain]
    rfl
  rw [resolve_map_attr hplain hspan bindings config, funext Constraint.map_upright]

/-- A horizontal line uses the attributes of its span and no others: if all other attributes were
replaced, nothing would change. -/
theorem followsReading_of_resolve (hplain : ∀ flag, options.has flag = false) {line : Line}
    (haxis : line.axis = .horizontal) {bindings : Bindings V} {config : StandardSpacing}
    {constraints : List (Constraint V)}
    (h : line.resolve options bindings config = .ok constraints) :
    ∀ c ∈ constraints, c.FollowsReading := by
  -- The replacement leaves the span as it is and so the constraints, which have been through it.
  let replaced (attr : Attribute) : Attribute := if attr.FollowsReading then attr else .leading
  have hreplaced (attr : Attribute) : (replaced attr).FollowsReading := by
    by_cases hattr : attr.FollowsReading
    · simpa only [replaced, if_pos hattr] using hattr
    · simp only [replaced, if_neg hattr]
      exact .inl rfl
  have hspan : Span.along line.axis options = (Span.along line.axis options).map replaced := by
    rw [haxis, Span.along_horizontal_of_plain hplain]
    decide
  have hsame := resolve_map_attr hplain hspan bindings config
  rw [h] at hsame
  intro c hc
  rw [Except.ok.inj hsame] at hc
  obtain ⟨found, -, rfl⟩ := List.mem_map.mp hc
  refine ⟨hreplaced found.first.attr, fun second hsecond => ?_⟩
  obtain ⟨other, -, rfl⟩ := Option.map_eq_some_iff.mp hsecond
  exact hreplaced other.attr

/-! ### Reading behind either mark -/

/-- The mark of the axis is all that reading finds different: the same complaint comes at the same
place, and otherwise the lines differ in their axis. -/
theorem parse_vertical (text : String) :
    parse (Axis.vertical.render text) =
      carry (fun line => { line with axis := .vertical }) id
        (parse (Axis.horizontal.render text)) := by
  -- Both marks take two bytes, so that everything behind them has the same offset.
  have hoffset (rest : List Char) : byteOffset ([Axis.vertical.letter, ':'] ++ text.toList) rest =
      byteOffset ([Axis.horizontal.letter, ':'] ++ text.toList) rest := rfl
  have hblank (axis : Axis) : ([axis.letter, ':'] ++ text.toList).all Text.isBlank = false := by
    cases axis with
    | horizontal => rfl
    | vertical => rfl
  simp only [parse, Axis.render, String.toList_append, String.toList_ofList, hblank, read,
    Grammar.axis_mark, hoffset]
  cases Grammar.view? (Grammar.leading text.toList).2 with
  | none => rfl
  | some first =>
    dsimp only
    cases (Grammar.trailing (Grammar.moreViews first.2).2).2 with
    | nil => rfl
    | cons c rest => rfl

/-- A rendered text is read along the axis it was rendered for. -/
theorem axis_of_parse_render {text : String} {axis : Axis} {line : Line}
    (h : parse (axis.render text) = .ok line) : line.axis = axis := by
  have htext := parse_eq_ok_iff.mp h
  rw [Axis.render, String.toList_append, String.toList_ofList] at htext
  exact (exists_parts_of_lineText htext).1

/-- A text either has no constraints along either axis, with the same complaint, or it has some
along both. Those of the vertical line are then those of the horizontal one with its leading edges
turned into tops, its trailing edges into bottoms and its widths into heights, which are all the
attributes it has, and a layout meets them when the layout with its directions exchanged meets
those. -/
theorem constraintsOf_vertical (hplain : ∀ flag, options.has flag = false) (text : String)
    (bindings : Bindings V) (config : StandardSpacing) :
    (∃ e, constraintsOf (Axis.horizontal.render text) options bindings config = .error e ∧
      constraintsOf (Axis.vertical.render text) options bindings config = .error e) ∨
    ∃ across : List (Constraint V),
      constraintsOf (Axis.horizontal.render text) options bindings config = .ok across ∧
      constraintsOf (Axis.vertical.render text) options bindings config =
        .ok (across.map Constraint.upright) ∧
      (∀ c ∈ across, c.FollowsReading) ∧
      ∀ layout : Layout V, layout.transpose.assignment.Meets (across.map Constraint.upright) ↔
        layout.assignment.Meets across := by
  rw [constraintsOf, constraintsOf, parse_vertical]
  cases hparse : parse (Axis.horizontal.render text) with
  | error e => exact .inl ⟨.parse e, rfl, rfl⟩
  | ok line =>
    have haxis := axis_of_parse_render hparse
    have hvertical := resolve_vertical hplain haxis bindings config
    simp only [carry, Except.mapError, bind, Except.bind, hvertical]
    cases hresolve : line.resolve options bindings config with
    | error e => exact .inl ⟨.resolve e, rfl, rfl⟩
    | ok across =>
      have hfollows := followsReading_of_resolve hplain haxis hresolve
      exact .inr ⟨across, rfl, rfl, hfollows, Constraint.meets_transpose hfollows⟩

/-- A gap and a length of a line across and of the line down. The option has no meaning. -/
theorem constraintsOf_vertical_gap :
    let text := "[a(b)]-(>=4@250)-[b]"
    let bindings : Bindings Nat := { views := .ofList [("a", 0), ("b", 1)] }
    let a : Item Nat := .view "a" 0
    let b : Item Nat := .view "b" 1
    (∀ flag, (⟨1⟩ : Options).has flag = false) ∧
      (constraintsOf (Axis.horizontal.render text) ⟨1⟩ bindings {}).toOption = some
        [⟨⟨a, .width⟩, .equal, some ⟨b, .width⟩, .zero, .required⟩,
          ⟨⟨b, .leading⟩, .atLeast, some ⟨a, .trailing⟩, .ofInt 4, .low⟩] ∧
      (constraintsOf (Axis.vertical.render text) ⟨1⟩ bindings {}).toOption = some
        [⟨⟨a, .height⟩, .equal, some ⟨b, .height⟩, .zero, .required⟩,
          ⟨⟨b, .top⟩, .atLeast, some ⟨a, .bottom⟩, .ofInt 4, .low⟩] := by
  intro text bindings a b
  have hplain : ∀ flag, (⟨1⟩ : Options).has flag = false := by
    intro flag
    cases flag <;> decide
  have hacross : (constraintsOf (Axis.horizontal.render text) ⟨1⟩ bindings {}).toOption = some
      [⟨⟨a, .width⟩, .equal, some ⟨b, .width⟩, .zero, .required⟩,
        ⟨⟨b, .leading⟩, .atLeast, some ⟨a, .trailing⟩, .ofInt 4, .low⟩] := by
    decide +kernel
  refine ⟨hplain, hacross, ?_⟩
  rcases constraintsOf_vertical hplain text bindings {} with
    ⟨e, herror, -⟩ | ⟨across, hok, hdown, -⟩
  · rw [herror] at hacross
    cases hacross
  · rw [hok] at hacross
    obtain rfl := Option.some.inj hacross
    rw [hdown]
    rfl

end Line
end Plain
end LayoutLine
