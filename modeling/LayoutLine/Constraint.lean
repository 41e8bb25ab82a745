import LayoutLine.Attribute
import LayoutLine.Number.Literal
import LayoutLine.Relation

/-!
# Constraints

A constraint relates an anchor, which is an attribute of a view or of the container, either to a
second anchor plus a constant or to the constant alone. In text the constant after a second anchor
carries its sign as an operator, a zero is left out, and a required priority is not written.
-/

namespace LayoutLine

/-- What a constraint holds on to: a view, known by a name and a handle, or the container. -/
inductive Item (V : Type) where
  /-- A view under the name by which the line mentions it. -/
  | view (name : String) (handle : V)
  /-- The container of the views. -/
  | container
  deriving DecidableEq

/-- The name of the item as text. -/
def Item.text {V : Type} : Item V → String
  | .view name _ => name
  | .container => "superview"

/-- An attribute of an item. -/
structure Anchor (V : Type) where
  /-- The item. -/
  item : Item V
  /-- Its attribute. -/
  attr : Attribute
  deriving DecidableEq

/-- The anchor as text, `item.attribute`. -/
def Anchor.text {V : Type} (anchor : Anchor V) : String :=
  anchor.item.text ++ "." ++ anchor.attr.name

/-- `first relation second + constant`, or `first relation constant` without a second anchor. -/
structure Constraint (V : Type) where
  /-- The anchor on the left of the relation. -/
  first : Anchor V
  /-- The relation between both sides. -/
  relation : Relation
  /-- The anchor on the right, if there is one. -/
  second : Option (Anchor V)
  /-- What is added on the right. -/
  constant : Number
  /-- The weight of the constraint. -/
  priority : Priority
  deriving DecidableEq

namespace Constraint

variable {V : Type}

/-- Equality by value: the same anchors, relation and priority, and constants that are equal as
numbers. -/
def sameValue [DecidableEq V] (a b : Constraint V) : Bool :=
  a.first == b.first && a.relation == b.relation && a.second == b.second &&
    a.constant.sameValue b.constant && a.priority == b.priority

/-- The right-hand side as text. -/
def rightText (c : Constraint V) : String :=
  match c.second with
  | none => c.constant.text
  | some second =>
    if c.constant.isZero then second.text
    else if c.constant.isNegative then second.text ++ " - " ++ c.constant.neg.text
    else second.text ++ " + " ++ c.constant.text

/-- The priority as text; nothing for the required one. -/
def priorityText (c : Constraint V) : String :=
  if c.priority.isRequired then "" else " @" ++ c.priority.text

/-- The constraint as text. -/
def text (c : Constraint V) : String :=
  c.first.text ++ " " ++ c.relation.glyph ++ " " ++ c.rightText ++ c.priorityText

end Constraint
end LayoutLine
