/-!
# Relations, links and priorities

A clause relates a length or a gap to a value and weighs that from 1, the weakest, to 1000, which is
required. A link is what the builder writes between two neighbouring items: a dash, followed by the
glyph of its relation unless that is equality.
-/

namespace LayoutLine

/-- How a length or a gap compares with a value. -/
inductive Relation where
  /-- Both are equal; this is what an unwritten relation means. -/
  | equal
  /-- The first is at least the second. -/
  | atLeast
  /-- The first is at most the second. -/
  | atMost
  deriving DecidableEq, Inhabited

/-- The relation as a clause writes it. -/
def Relation.glyph : Relation → String
  | .equal => "=="
  | .atLeast => ">="
  | .atMost => "<="

/-- What stands between two neighbouring items. -/
inductive Link where
  /-- A bare dash: the standard spacing, or the gap written next to it. -/
  | standard
  /-- A dash that opens a gap of at least the value that follows. -/
  | atLeast
  /-- A dash that opens a gap of at most the value that follows. -/
  | atMost
  deriving DecidableEq, Inhabited

namespace Link

/-- The relation a link imposes on the gap it opens. -/
def relation : Link → Relation
  | .standard => .equal
  | .atLeast => .atLeast
  | .atMost => .atMost

/-- The link as text. -/
def glyph : Link → String
  | .standard => "-"
  | .atLeast => "->="
  | .atMost => "-<="

end Link

/-- A weight from 1 to 1000. -/
structure Priority where
  /-- The weight itself. -/
  value : Nat
  /-- A weight is positive. -/
  one_le : 1 ≤ value := by decide
  /-- No weight is above the required one. -/
  le_thousand : value ≤ 1000 := by decide
  deriving DecidableEq

namespace Priority

/-- The constraint has to hold; this is what an unwritten priority means. -/
def required : Priority where value := 1000

/-- A strong wish. -/
def high : Priority where value := 750

/-- A weak wish. -/
def low : Priority where value := 250

/-- The weight of a container's wish to fit its content. -/
def fittingSize : Priority where value := 50

instance : Inhabited Priority := ⟨required⟩

instance : Ord Priority := ⟨fun p q => compare p.value q.value⟩

/-- The priority of this weight, if the weight lies in the range. -/
def ofNat? (value : Nat) : Option Priority :=
  if h : 1 ≤ value ∧ value ≤ 1000 then some ⟨value, h.1, h.2⟩ else none

/-- Whether the constraint has to hold. -/
def isRequired (p : Priority) : Bool := p == required

/-- The weight in decimal digits. -/
def text (p : Priority) : String := Nat.repr p.value

/-- The complaint about a weight outside the range. -/
def outOfRangeMessage (value : Nat) : String :=
  "Priority " ++ Nat.repr value ++ " is outside 1..=1000"

/-- The weight of a priority is the weight of that priority. -/
theorem ofNat?_value (p : Priority) : ofNat? p.value = some p := by
  simp only [ofNat?]
  rw [dif_pos ⟨p.one_le, p.le_thousand⟩]

end Priority
end LayoutLine
