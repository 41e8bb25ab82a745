import LayoutLine.Options

/-!
# Axes and attributes

A line of layout runs along one of two axes, and the axis stands in front of its text as a letter
and a colon. The edges, lengths, centers and baselines that constraints speak of belong to one axis
each; an alignment flag names the attribute it aligns, and a line uses one attribute each for the
first edge, the far edge and the length of its items.
-/

namespace LayoutLine

/-- The direction a line of layout runs along. -/
inductive Axis where
  /-- From one side to the other. -/
  | horizontal
  /-- From top to bottom. -/
  | vertical
  deriving DecidableEq

namespace Axis

/-- The letter that marks the axis in text. -/
def letter : Axis → Char
  | .horizontal => 'H'
  | .vertical => 'V'

/-- The name of the axis. -/
def name : Axis → String
  | .horizontal => "Horizontal"
  | .vertical => "Vertical"

/-- A line's text with its axis in front, `H:...` or `V:...`. -/
def render (axis : Axis) (text : String) : String :=
  String.ofList [axis.letter, ':'] ++ text

end Axis

/-- A measurable feature of a view or of the container. -/
inductive Attribute where
  /-- The left edge. -/
  | left
  /-- The right edge. -/
  | right
  /-- The top edge. -/
  | top
  /-- The bottom edge. -/
  | bottom
  /-- The edge at which reading starts. -/
  | leading
  /-- The edge at which reading ends. -/
  | trailing
  /-- The horizontal length. -/
  | width
  /-- The vertical length. -/
  | height
  /-- The middle between left and right. -/
  | centerX
  /-- The middle between top and bottom. -/
  | centerY
  /-- The baseline of the last line of text. -/
  | lastBaseline
  /-- The baseline of the first line of text. -/
  | firstBaseline
  deriving DecidableEq

namespace Attribute

/-- The name of the attribute. -/
def name : Attribute → String
  | .left => "left"
  | .right => "right"
  | .top => "top"
  | .bottom => "bottom"
  | .leading => "leading"
  | .trailing => "trailing"
  | .width => "width"
  | .height => "height"
  | .centerX => "centerX"
  | .centerY => "centerY"
  | .lastBaseline => "lastBaseline"
  | .firstBaseline => "firstBaseline"

/-- The axis along which the attribute places or measures. -/
def axis : Attribute → Axis
  | .left | .right | .leading | .trailing | .width | .centerX => .horizontal
  | .top | .bottom | .height | .centerY | .lastBaseline | .firstBaseline => .vertical

end Attribute

/-- The attribute a flag aligns; the direction flags align nothing. -/
def Flag.alignment? : Flag → Option Attribute
  | .alignLeft => some .left
  | .alignRight => some .right
  | .alignTop => some .top
  | .alignBottom => some .bottom
  | .alignLeading => some .leading
  | .alignTrailing => some .trailing
  | .alignCenterX => some .centerX
  | .alignCenterY => some .centerY
  | .alignLastBaseline => some .lastBaseline
  | .alignFirstBaseline => some .firstBaseline
  | .leftToRight | .rightToLeft => none

/-- The attribute that the options align, if they are a single alignment flag and nothing else. -/
def Options.alignment? (options : Options) : Option Attribute :=
  options.single?.bind Flag.alignment?

/-- The alignments the options ask for, in the order of their flags. -/
def Options.alignments (options : Options) : List (Flag × Attribute) :=
  options.flags.filterMap fun flag => flag.alignment?.map (flag, ·)

/-- The attributes a line uses for its items. -/
structure Span where
  /-- The edge an item starts with. -/
  start : Attribute
  /-- The edge an item stops with. -/
  stop : Attribute
  /-- What lies between the two. -/
  length : Attribute
  deriving DecidableEq

/-- The attributes of a line along an axis. A horizontal line follows the reading direction unless
the options fix its direction; right to left prevails over left to right. -/
def Span.along (axis : Axis) (options : Options) : Span :=
  match axis with
  | .vertical => ⟨.top, .bottom, .height⟩
  | .horizontal =>
    if options.has .rightToLeft then ⟨.right, .left, .width⟩
    else if options.has .leftToRight then ⟨.left, .right, .width⟩
    else ⟨.leading, .trailing, .width⟩

end LayoutLine
