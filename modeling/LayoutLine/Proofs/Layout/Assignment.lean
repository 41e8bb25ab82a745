import LayoutLine.Constraint

/-!
# What constraints say

An assignment gives every attribute of every view, and of the container, a rational number. A
constraint is met when its two sides, read exactly, stand in its relation; one whose constant is no
finite number is never met. Priorities play no part.
-/

namespace LayoutLine

/-- The exact value of a finite number. -/
def Number.value? : Number → Option Rat
  | .finite negative m =>
    some (mkRat (if negative then -m.numerator else m.numerator) m.denominator)
  | .nan | .infinity _ => none

/-- The opposite of a number has the opposite value, if it has one. -/
theorem Number.value?_neg (x : Number) : x.neg.value? = x.value?.map (- ·) := by
  cases x with
  | nan => rfl
  | infinity negative => rfl
  | finite negative m => cases negative <;> simp [neg, value?, Rat.neg_mkRat]

theorem Number.value?_zero : Number.zero.value? = some 0 := by
  simp [zero, value?, Magnitude.zero, Magnitude.numerator]

namespace Relation

/-- The relation holds between two numbers. -/
def Holds : Relation → Rat → Rat → Prop
  | .equal, x, y => x = y
  | .atLeast, x, y => y ≤ x
  | .atMost, x, y => x ≤ y

/-- The relation between the negatives of two numbers. -/
def opposite : Relation → Relation
  | .equal => .equal
  | .atLeast => .atMost
  | .atMost => .atLeast

/-- A relation turned round compares the opposite values. -/
@[simp] theorem holds_opposite (r : Relation) (x y : Rat) :
    r.opposite.Holds x y ↔ r.Holds (-x) (-y) := by
  cases r with
  | equal => simp only [opposite, Holds]; grind
  | atLeast => simp only [opposite, Holds]; grind
  | atMost => simp only [opposite, Holds]; grind

/-- A relation to a sum is one to the other summand. -/
theorem holds_add (r : Relation) (x y k : Rat) : r.Holds x (y + k) ↔ r.Holds (x - y) k := by
  cases r with
  | equal => simp only [Holds]; grind
  | atLeast => simp only [Holds]; grind
  | atMost => simp only [Holds]; grind

end Relation

/-- A number for every attribute of the container and of each view. -/
structure Assignment (V : Type) where
  /-- The attributes of the container. -/
  container : Attribute → Rat
  /-- The attributes of a view. -/
  view : V → Attribute → Rat

variable {V : Type}

/-- What an anchor measures. -/
def Assignment.measure (σ : Assignment V) (anchor : Anchor V) : Rat :=
  match anchor.item with
  | .view _ handle => σ.view handle anchor.attr
  | .container => σ.container anchor.attr

/-- The right-hand side of the constraint without its constant. -/
def Assignment.base (σ : Assignment V) (c : Constraint V) : Rat :=
  match c.second with
  | some second => σ.measure second
  | none => 0

namespace Constraint

/-- The constraint allows what it measures to lie this far beyond its right-hand side. -/
def Allows (c : Constraint V) (distance : Rat) : Prop :=
  ∃ k, c.constant.value? = some k ∧ c.relation.Holds distance k

/-- The constraint is met: what it measures is the right-hand side plus the constant, or at least
or at most that. -/
def Met (c : Constraint V) (σ : Assignment V) : Prop :=
  ∃ k, c.constant.value? = some k ∧ c.relation.Holds (σ.measure c.first) (σ.base c + k)

/-- A constraint is met when it allows the distance of its first anchor from what that is measured
by. -/
theorem met_iff_allows (c : Constraint V) (σ : Assignment V) :
    c.Met σ ↔ c.Allows (σ.measure c.first - σ.base c) := by
  simp only [Met, Allows, Relation.holds_add]

end Constraint

/-- Every constraint is met. -/
def Assignment.Meets (σ : Assignment V) (constraints : List (Constraint V)) : Prop :=
  ∀ c ∈ constraints, c.Met σ

end LayoutLine
