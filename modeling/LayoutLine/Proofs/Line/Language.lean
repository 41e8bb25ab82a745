import LayoutLine.Line.Basic
import LayoutLine.Number.Literal

/-!
# The language of lines

The texts that stand for a line, given by a grammar that says nothing about reading. Each rule
relates a value to the texts that write it:

    line       := (axis ":")? ("|" spacing)? view (spacing view)* (spacing "|")?
    view       := "[" name ("(" clause (blank* "," blank* clause)* ")")? "]"
    spacing    := "-" (clause | "(" clause (blank* "," blank* clause)* ")") "-" | "-" | ""
    clause     := ("==" | ">=" | "<=")? (number | name) ("@" digits)?

An alternative is never preferred to another one here, and no rule takes as much as it can.
-/

namespace LayoutLine.Line.Language

/-- A character a name may start with: an ASCII letter or an underscore. -/
def IsLetter (c : Char) : Prop := ('A' ≤ c ∧ c ≤ 'Z') ∨ ('a' ≤ c ∧ c ≤ 'z') ∨ c = '_'

/-- A decimal digit of ASCII. -/
def IsDigit (c : Char) : Prop := '0' ≤ c ∧ c ≤ '9'

/-- A character that may stand around a comma. -/
def IsSpace (c : Char) : Prop := c = ' ' ∨ c = '\t' ∨ c = '\r' ∨ c = '\n'

/-- At least one digit. -/
def Digits (text : List Char) : Prop := text ≠ [] ∧ ∀ c ∈ text, IsDigit c

/-- Any run of white space, an empty one included. -/
def Spaces (text : List Char) : Prop := ∀ c ∈ text, IsSpace c

/-- The text of a sign. -/
def signText (negative : Bool) : List Char := if negative then ['-'] else []

/-- A name: a letter, then letters and digits. -/
inductive NameText : String → List Char → Prop
  | intro {c : Char} {tail : List Char} (head : IsLetter c)
      (rest : ∀ d ∈ tail, IsLetter d ∨ IsDigit d) : NameText (String.ofList (c :: tail)) (c :: tail)

/-- A number: an optional minus sign, digits, an optional fraction. Its value is the number its
digits are read as. -/
inductive NumberText : Number → List Char → Prop
  | whole {negative : Bool} {digits : List Char} (hdigits : Digits digits) :
      NumberText (.ofDigits negative digits []) (signText negative ++ digits)
  | decimal {negative : Bool} {digits fraction : List Char} (hdigits : Digits digits)
      (hfraction : Digits fraction) :
      NumberText (.ofDigits negative digits fraction)
        (signText negative ++ digits ++ '.' :: fraction)

/-- A relation; equality need not be written. -/
inductive RelationText : Relation → List Char → Prop
  | unwritten : RelationText .equal []
  | equal : RelationText .equal ['=', '=']
  | atLeast : RelationText .atLeast ['>', '=']
  | atMost : RelationText .atMost ['<', '=']

/-- What a clause compares with. -/
inductive TargetText : Target → List Char → Prop
  | number {value : Number} {text : List Char} (h : NumberText value text) :
      TargetText (.number value) text
  | name {name : String} {text : List Char} (h : NameText name text) :
      TargetText (.name name) text

/-- A priority of at most 32 bits after its mark, or none. -/
inductive PriorityText : Option Nat → List Char → Prop
  | unwritten : PriorityText none []
  | written {digits : List Char} (hdigits : Digits digits)
      (hvalue : Nat.ofDigitChars 10 digits 0 ≤ 4294967295) :
      PriorityText (some (Nat.ofDigitChars 10 digits 0)) ('@' :: digits)

/-- One clause. -/
inductive ClauseText : Clause → List Char → Prop
  | intro {relation : Relation} {target : Target} {priority : Option Nat} {a b c : List Char}
      (hrelation : RelationText relation a) (htarget : TargetText target b)
      (hpriority : PriorityText priority c) : ClauseText ⟨relation, target, priority⟩ (a ++ b ++ c)

/-- Clauses with a comma and white space in front of each. -/
inductive MoreClausesText : List Clause → List Char → Prop
  | nil : MoreClausesText [] []
  | cons {clause : Clause} {clauses : List Clause} {a b c d : List Char} (before : Spaces a)
      (after : Spaces b) (hclause : ClauseText clause c) (hmore : MoreClausesText clauses d) :
      MoreClausesText (clause :: clauses) (a ++ ',' :: b ++ c ++ d)

/-- A list of clauses in parentheses. -/
inductive ClausesText : List Clause → List Char → Prop
  | intro {clause : Clause} {clauses : List Clause} {a b : List Char}
      (hclause : ClauseText clause a) (hmore : MoreClausesText clauses b) :
      ClausesText (clause :: clauses) ('(' :: a ++ b ++ [')'])

/-- A view in brackets, with or without clauses. -/
inductive ViewText : View → List Char → Prop
  | bare {name : String} {a : List Char} (hname : NameText name a) :
      ViewText ⟨name, []⟩ ('[' :: a ++ [']'])
  | sized {name : String} {clauses : List Clause} {a b : List Char} (hname : NameText name a)
      (hclauses : ClausesText clauses b) : ViewText ⟨name, clauses⟩ ('[' :: a ++ b ++ [']'])

/-- A spacing: a gap of one clause or of a list of them, a dash, or nothing. -/
inductive SpacingText : Spacing → List Char → Prop
  | single {clause : Clause} {a : List Char} (h : ClauseText clause a) :
      SpacingText (.gap [clause]) ('-' :: a ++ ['-'])
  | list {clauses : List Clause} {a : List Char} (h : ClausesText clauses a) :
      SpacingText (.gap clauses) ('-' :: a ++ ['-'])
  | standard : SpacingText .standard ['-']
  | flush : SpacingText .flush []

/-- Views with a spacing in front of each. -/
inductive MoreViewsText : List (Spacing × View) → List Char → Prop
  | nil : MoreViewsText [] []
  | cons {spacing : Spacing} {view : View} {more : List (Spacing × View)} {a b c : List Char}
      (hspacing : SpacingText spacing a) (hview : ViewText view b) (hmore : MoreViewsText more c) :
      MoreViewsText ((spacing, view) :: more) (a ++ b ++ c)

/-- The axis; the horizontal one need not be written. -/
inductive AxisText : Axis → List Char → Prop
  | unwritten : AxisText .horizontal []
  | horizontal : AxisText .horizontal ['H', ':']
  | vertical : AxisText .vertical ['V', ':']

/-- The letter of an axis and a colon write that axis. -/
theorem axisText_letter (axis : Axis) : AxisText axis [axis.letter, ':'] := by
  cases axis with
  | horizontal => exact .horizontal
  | vertical => exact .vertical

/-- The container's first edge with the spacing after it, or nothing. -/
inductive LeadingText : Option Spacing → List Char → Prop
  | unwritten : LeadingText none []
  | written {spacing : Spacing} {a : List Char} (h : SpacingText spacing a) :
      LeadingText (some spacing) ('|' :: a)

/-- The container's far edge with the spacing before it, or nothing. -/
inductive TrailingText : Option Spacing → List Char → Prop
  | unwritten : TrailingText none []
  | written {spacing : Spacing} {a : List Char} (h : SpacingText spacing a) :
      TrailingText (some spacing) (a ++ ['|'])

/-- What may stand before the first view of a line: an axis and the container's first edge. -/
inductive HeadText : Axis → Option Spacing → List Char → Prop
  | intro {axis : Axis} {leading : Option Spacing} {a b : List Char} (haxis : AxisText axis a)
      (hleading : LeadingText leading b) : HeadText axis leading (a ++ b)

/-- A whole line. -/
inductive LineText : Line → List Char → Prop
  | intro {axis : Axis} {leading trailing : Option Spacing} {first : View}
      {more : List (Spacing × View)} {a b c d : List Char} (hhead : HeadText axis leading a)
      (hfirst : ViewText first b) (hmore : MoreViewsText more c)
      (htrailing : TrailingText trailing d) :
      LineText ⟨axis, leading, first :: more.map Prod.snd, more.map Prod.fst, trailing⟩
        (a ++ b ++ c ++ d)

end LayoutLine.Line.Language
