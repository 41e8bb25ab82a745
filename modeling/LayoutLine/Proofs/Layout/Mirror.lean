import LayoutLine.Proofs.Layout.Assignment
import LayoutLine.Proofs.Resolve

/-!
# Layouts and their mirror images

A layout gives the container and every view a frame. Its mirror image has the left edges where the
right ones were, on the other side of the origin; lengths and everything vertical stay. A line that
runs from right to left gives the constraints of the line from left to right with the two sides
exchanged in every anchor and nothing else changed: neither the sign of a gap nor its relation. So
what these constraints say of the mirror image is what the original ones would say of the layout
with the opposite gaps.
-/

namespace LayoutLine

/-! ### Frames -/

/-- Where a view lies. -/
structure Frame where
  /-- The left edge. -/
  left : Rat
  /-- The right edge. -/
  right : Rat
  /-- The top edge. -/
  top : Rat
  /-- The bottom edge. -/
  bottom : Rat
  /-- The baseline of the first line of text. -/
  firstBaseline : Rat
  /-- The baseline of the last line of text. -/
  lastBaseline : Rat

namespace Frame

/-- The attributes of the frame; what is read starts at its left. -/
def value (frame : Frame) : Attribute → Rat
  | .left | .leading => frame.left
  | .right | .trailing => frame.right
  | .top => frame.top
  | .bottom => frame.bottom
  | .width => frame.right - frame.left
  | .height => frame.bottom - frame.top
  | .centerX => (frame.left + frame.right) / 2
  | .centerY => (frame.top + frame.bottom) / 2
  | .lastBaseline => frame.lastBaseline
  | .firstBaseline => frame.firstBaseline

/-- The frame on the other side of the origin. -/
def mirror (frame : Frame) : Frame := { frame with left := -frame.right, right := -frame.left }

end Frame

/-- A frame for the container and for each view. -/
structure Layout (V : Type) where
  /-- The frame of the container. -/
  container : Frame
  /-- The frame of a view. -/
  frame : V → Frame

namespace Layout

variable {V : Type}

/-- The attributes of all frames. -/
def assignment (layout : Layout V) : Assignment V :=
  ⟨layout.container.value, fun view => (layout.frame view).value⟩

/-- The layout on the other side of the origin. -/
def mirror (layout : Layout V) : Layout V :=
  ⟨layout.container.mirror, fun view => (layout.frame view).mirror⟩

end Layout

namespace Attribute

/-- The attribute at the same place in the mirror image. -/
def mirror : Attribute → Attribute
  | .left => .right
  | .right => .left
  | attr => attr

/-- The attribute is the left or the right edge. -/
def IsSide (attr : Attribute) : Prop := attr = .left ∨ attr = .right

/-- The attribute is a horizontal length, or it is vertical. -/
def IsLevel (attr : Attribute) : Prop := attr = .width ∨ attr.axis = .vertical

instance (attr : Attribute) : Decidable attr.IsSide := inferInstanceAs (Decidable (_ ∨ _))

instance (attr : Attribute) : Decidable attr.IsLevel := inferInstanceAs (Decidable (_ ∨ _))

/-- What lies level is no side. -/
theorem IsLevel.not_isSide {attr : Attribute} (h : attr.IsLevel) : ¬attr.IsSide := by
  revert h
  cases attr <;> decide

/-- The mirror image of a level attribute is that attribute. -/
theorem IsLevel.mirror_eq {attr : Attribute} (h : attr.IsLevel) : attr.mirror = attr := by
  revert h
  cases attr <;> decide

end Attribute

/-- In the mirror a side lies as far on the other side of zero. -/
theorem Frame.value_mirror_of_isSide (frame : Frame) {attr : Attribute} (h : attr.IsSide) :
    frame.mirror.value attr.mirror = -frame.value attr := by
  rcases h with rfl | rfl
  · rfl
  · rfl

/-- Frames of the same width with the same vertical attributes agree on all level attributes. -/
theorem Frame.value_eq_of_isLevel {a b : Frame} (hwidth : a.right - a.left = b.right - b.left)
    (htop : a.top = b.top) (hbottom : a.bottom = b.bottom)
    (hfirst : a.firstBaseline = b.firstBaseline) (hlast : a.lastBaseline = b.lastBaseline)
    {attr : Attribute} (h : attr.IsLevel) : a.value attr = b.value attr := by
  cases attr with
  | width => exact hwidth
  | left => exact absurd h (by decide)
  | right => exact absurd h (by decide)
  | leading => exact absurd h (by decide)
  | trailing => exact absurd h (by decide)
  | centerX => exact absurd h (by decide)
  | top => exact htop
  | bottom => exact hbottom
  | height => simp only [value, htop, hbottom]
  | centerY => simp only [value, htop, hbottom]
  | lastBaseline => exact hlast
  | firstBaseline => exact hfirst

/-- In the mirror heights and lengths stay as they are. -/
theorem Frame.value_mirror_of_isLevel (frame : Frame) {attr : Attribute} (h : attr.IsLevel) :
    frame.mirror.value attr.mirror = frame.value attr := by
  have hwidth : frame.mirror.right - frame.mirror.left = frame.right - frame.left := by
    simp only [mirror]
    grind
  rw [h.mirror_eq]
  exact value_eq_of_isLevel hwidth rfl rfl rfl rfl h

variable {V : Type}

/-- The anchor at the same place in the mirror image. -/
def Anchor.mirror (anchor : Anchor V) : Anchor V := { anchor with attr := anchor.attr.mirror }

namespace Layout

/-- An anchor on a side measures the opposite in the mirror. -/
theorem measure_mirror_of_isSide (layout : Layout V) {anchor : Anchor V}
    (h : anchor.attr.IsSide) :
    layout.mirror.assignment.measure anchor.mirror = -layout.assignment.measure anchor := by
  obtain ⟨item, attr⟩ := anchor
  cases item with
  | view name handle => exact (layout.frame handle).value_mirror_of_isSide h
  | container => exact layout.container.value_mirror_of_isSide h

/-- An anchor that is level measures the same in the mirror. -/
theorem measure_mirror_of_isLevel (layout : Layout V) {anchor : Anchor V}
    (h : anchor.attr.IsLevel) :
    layout.mirror.assignment.measure anchor.mirror = layout.assignment.measure anchor := by
  obtain ⟨item, attr⟩ := anchor
  cases item with
  | view name handle => exact (layout.frame handle).value_mirror_of_isLevel h
  | container => exact layout.container.value_mirror_of_isLevel h

end Layout

/-! ### Constraints -/

namespace Constraint

/-- The constraint between the anchors at the same places in the mirror image. -/
def mirror (c : Constraint V) : Constraint V :=
  { c with first := c.first.mirror, second := c.second.map Anchor.mirror }

/-- The constraint on a gap with the opposite constant and the opposite relation; any other
constraint as it is. -/
def turned (c : Constraint V) : Constraint V :=
  if c.first.attr.IsSide then
    { c with relation := c.relation.opposite, constant := c.constant.neg }
  else c

/-- The constraint says how far one side lies beyond another. -/
def IsGap (c : Constraint V) : Prop :=
  c.first.attr.IsSide ∧ ∃ second, c.second = some second ∧ second.attr.IsSide

/-- The constraint says nothing of any side, and nothing of the container. -/
def IsLevel (c : Constraint V) : Prop :=
  (c.first.item ≠ .container ∧ c.first.attr.IsLevel) ∧
    ∀ second ∈ c.second, second.item ≠ .container ∧ second.attr.IsLevel

@[simp] theorem first_turned (c : Constraint V) : c.turned.first = c.first := by
  rw [turned]
  split <;> rfl

@[simp] theorem second_turned (c : Constraint V) : c.turned.second = c.second := by
  rw [turned]
  split <;> rfl

/-- A constraint between level anchors is not turned at all. -/
theorem IsLevel.turned_eq {c : Constraint V} (h : c.IsLevel) : c.turned = c :=
  if_neg h.1.2.not_isSide

/-- A turned constraint between sides allows the opposite distances. -/
theorem allows_turned {c : Constraint V} (h : c.first.attr.IsSide) (distance : Rat) :
    c.turned.Allows distance ↔ c.Allows (-distance) := by
  simp only [turned, if_pos h, Allows, Number.value?_neg, Relation.holds_opposite]
  constructor
  · rintro ⟨k, hk, hholds⟩
    obtain ⟨value, hvalue, rfl⟩ := Option.map_eq_some_iff.mp hk
    rw [Rat.neg_neg] at hholds
    exact ⟨value, hvalue, hholds⟩
  · rintro ⟨k, hk, hholds⟩
    refine ⟨-k, by rw [hk]; rfl, ?_⟩
    rwa [Rat.neg_neg]

/-- What a constraint on a gap says of the mirror image, it says of the layout when it is turned. -/
theorem met_mirror_of_isGap {c : Constraint V} (h : c.IsGap) (layout : Layout V) :
    c.mirror.Met layout.mirror.assignment ↔ c.turned.Met layout.assignment := by
  obtain ⟨hfirst, second, hsecond, hside⟩ := h
  have hbase : layout.assignment.base c.turned = layout.assignment.measure second := by
    simp only [Assignment.base, second_turned, hsecond]
  have hbase' : layout.mirror.assignment.base c.mirror = -layout.assignment.measure second := by
    simp only [mirror, Assignment.base, hsecond, Option.map_some]
    exact layout.measure_mirror_of_isSide hside
  have hmeasure : layout.mirror.assignment.measure c.mirror.first =
      -layout.assignment.measure c.first := layout.measure_mirror_of_isSide hfirst
  rw [met_iff_allows, met_iff_allows, hmeasure, hbase', hbase, first_turned, allows_turned hfirst]
  have hdistance : -layout.assignment.measure c.first - -layout.assignment.measure second =
      -(layout.assignment.measure c.first - layout.assignment.measure second) := by grind
  rw [hdistance]
  rfl

/-- What any other constraint says of the mirror image, it says of the layout. -/
theorem met_mirror_of_isLevel {c : Constraint V} (h : c.IsLevel) (layout : Layout V) :
    c.mirror.Met layout.mirror.assignment ↔ c.turned.Met layout.assignment := by
  have hbase : layout.mirror.assignment.base c.mirror = layout.assignment.base c := by
    cases hsecond : c.second with
    | none => simp only [mirror, Assignment.base, hsecond, Option.map_none]
    | some second =>
      simp only [mirror, Assignment.base, hsecond, Option.map_some]
      exact layout.measure_mirror_of_isLevel (h.2 second hsecond).2
  have hmeasure : layout.mirror.assignment.measure c.mirror.first =
      layout.assignment.measure c.first := layout.measure_mirror_of_isLevel h.1.2
  rw [met_iff_allows, met_iff_allows, h.turned_eq, hmeasure, hbase]
  rfl

end Constraint
end LayoutLine
