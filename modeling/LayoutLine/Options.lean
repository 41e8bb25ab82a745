import LayoutLine.Text

/-!
# Format options

A line carries a 32-bit word of options. Twelve bits have a meaning: ten ask for an alignment, two
fix the direction of horizontal lines. The other bits are carried along and mean nothing.
-/

namespace LayoutLine

/-- The options with a meaning, in the order in which they are declared. -/
inductive Flag where
  /-- Align the left edges. -/
  | alignLeft
  /-- Align the right edges. -/
  | alignRight
  /-- Align the top edges. -/
  | alignTop
  /-- Align the bottom edges. -/
  | alignBottom
  /-- Align the leading edges. -/
  | alignLeading
  /-- Align the trailing edges. -/
  | alignTrailing
  /-- Align the horizontal centers. -/
  | alignCenterX
  /-- Align the vertical centers. -/
  | alignCenterY
  /-- Align the last baselines. -/
  | alignLastBaseline
  /-- Align the first baselines. -/
  | alignFirstBaseline
  /-- Horizontal lines run from left to right. -/
  | leftToRight
  /-- Horizontal lines run from right to left. -/
  | rightToLeft
  deriving DecidableEq

namespace Flag

/-- Every flag, in declaration order. -/
def all : List Flag :=
  [.alignLeft, .alignRight, .alignTop, .alignBottom, .alignLeading, .alignTrailing, .alignCenterX,
    .alignCenterY, .alignLastBaseline, .alignFirstBaseline, .leftToRight, .rightToLeft]

/-- The position of the flag's bit in the word. -/
def position : Flag → Nat
  | .alignLeft => 1
  | .alignRight => 2
  | .alignTop => 3
  | .alignBottom => 4
  | .alignLeading => 5
  | .alignTrailing => 6
  | .alignCenterX => 9
  | .alignCenterY => 10
  | .alignLastBaseline => 11
  | .alignFirstBaseline => 12
  | .leftToRight => 16
  | .rightToLeft => 17

/-- The name of the flag. -/
def name : Flag → String
  | .alignLeft => "ALIGN_ALL_LEFT"
  | .alignRight => "ALIGN_ALL_RIGHT"
  | .alignTop => "ALIGN_ALL_TOP"
  | .alignBottom => "ALIGN_ALL_BOTTOM"
  | .alignLeading => "ALIGN_ALL_LEADING"
  | .alignTrailing => "ALIGN_ALL_TRAILING"
  | .alignCenterX => "ALIGN_ALL_CENTER_X"
  | .alignCenterY => "ALIGN_ALL_CENTER_Y"
  | .alignLastBaseline => "ALIGN_ALL_LAST_BASELINE"
  | .alignFirstBaseline => "ALIGN_ALL_FIRST_BASELINE"
  | .leftToRight => "DIRECTION_LEFT_TO_RIGHT"
  | .rightToLeft => "DIRECTION_RIGHT_TO_LEFT"

/-- The flag of a name, letter for letter. -/
def ofName? (name : String) : Option Flag := all.find? fun flag => flag.name == name

/-- No flag is missing from the list of all flags. -/
theorem mem_all (flag : Flag) : flag ∈ all := by cases flag <;> decide

end Flag

/-- A word of options. -/
structure Options where
  /-- The word itself, bits without a meaning included. -/
  bits : BitVec 32
  deriving DecidableEq

namespace Options

/-- No options. -/
def empty : Options := ⟨0⟩

instance : Inhabited Options := ⟨empty⟩

/-- The word with just the bit of one flag. -/
def ofFlag (flag : Flag) : Options := ⟨BitVec.twoPow 32 flag.position⟩

/-- Whether the bit of a flag is set. -/
def has (options : Options) (flag : Flag) : Bool := options.bits.getLsbD flag.position

/-- The bits set in either word. -/
def union (a b : Options) : Options := ⟨a.bits ||| b.bits⟩

/-- Whether every bit of `b` is set in `a`. -/
def contains (a b : Options) : Bool := a.bits &&& b.bits == b.bits

/-- Whether no bit is set. -/
def isEmpty (options : Options) : Bool := options.bits == 0

/-- The flags that are set, in declaration order. -/
def flags (options : Options) : List Flag := Flag.all.filter options.has

/-- The word with all bits that have a meaning. -/
def declared : Options := Flag.all.foldl (fun word flag => word.union (ofFlag flag)) empty

/-- The word without the bits that mean nothing. -/
def truncate (options : Options) : Options := ⟨options.bits &&& declared.bits⟩

/-- The bits that mean nothing. -/
def unknown (options : Options) : Options := ⟨options.bits &&& ~~~declared.bits⟩

/-- Whether every set bit has a meaning. -/
def isValid (options : Options) : Bool := options.unknown.isEmpty

/-- The only flag that is set, if the word is just that flag. -/
def single? (options : Options) : Option Flag :=
  Flag.all.find? fun flag => ofFlag flag == options

@[simp] theorem union_empty (a : Options) : a.union empty = a := by
  simp [union, empty]

@[simp] theorem empty_union (a : Options) : empty.union a = a := by
  simp [union, empty]

/-- Options may be united in any grouping. -/
theorem union_assoc (a b c : Options) : (a.union b).union c = a.union (b.union c) := by
  simp [union, BitVec.or_assoc]

/-- The word of a flag has that flag and no other one. -/
theorem has_ofFlag (flag other : Flag) : (ofFlag flag).has other = (flag == other) := by
  cases flag <;> cases other <;> decide

/-- The flags of a word are those whose bits are set. -/
@[simp] theorem mem_flags (options : Options) (flag : Flag) :
    flag ∈ options.flags ↔ options.has flag = true := by
  simp [flags, Flag.mem_all]

/-- A flag is set in a union when it is set in one of the two words. -/
@[simp] theorem has_union (a b : Options) (flag : Flag) :
    (a.union b).has flag = (a.has flag || b.has flag) := by
  simp [union, has]

/-! ### Options as text

Options are written as the names of their flags in declaration order, with a bar between two names,
and the bits without a meaning follow as one hexadecimal number. Reading takes names and numbers in
any order and unites them; blank text means no options. -/

/-- The value of a hexadecimal digit of either case. -/
def hexDigit? (c : Char) : Option Nat :=
  if c.isDigit then some (c.toNat - '0'.toNat)
  else if 'a' ≤ c ∧ c ≤ 'f' then some (c.toNat - 'a'.toNat + 10)
  else if 'A' ≤ c ∧ c ≤ 'F' then some (c.toNat - 'A'.toNat + 10)
  else none

/-- The value of a run of hexadecimal digits, after the value of what stands before it. -/
def hexValue? (before : Nat) : List Char → Option Nat
  | [] => some before
  | c :: cs => (hexDigit? c).bind fun digit => hexValue? (16 * before + digit) cs

/-- The word of a hexadecimal number, if it fits. A plus sign may stand before the digits. -/
def ofHex? (cs : List Char) : Option Options :=
  let digits := match cs with
    | '+' :: rest => rest
    | _ => cs
  if digits = [] then none
  else
    (hexValue? 0 digits).bind fun value =>
      if value < 4294967296 then some ⟨BitVec.ofNat 32 value⟩ else none

/-- One part of the text: the name of a flag, or a hexadecimal number after `0x`. -/
def ofPart? (part : List Char) : Option Options :=
  match part with
  | '0' :: 'x' :: digits => ofHex? digits
  | _ => (Flag.ofName? (String.ofList part)).map ofFlag

/-- The parts of a text between bars. -/
def splitBars : List Char → List (List Char)
  | [] => [[]]
  | c :: cs =>
    match splitBars cs with
    | [] => [[c]]
    | part :: parts => if c = '|' then [] :: part :: parts else (c :: part) :: parts

/-- The options a text stands for. -/
def ofText? (text : String) : Option Options :=
  if text.toList.all Text.isBlank then some empty
  else
    (splitBars text.toList).foldlM
      (fun options part => (ofPart? (Text.trim part)).map options.union) empty

/-- The parts of the text of options. -/
def parts (options : Options) : List String :=
  options.flags.map Flag.name ++
    if options.unknown.isEmpty then []
    else ["0x" ++ String.ofList (Nat.toDigits 16 options.unknown.bits.toNat)]

/-- Texts with bars between them. -/
def barSeparated : List String → String
  | [] => ""
  | [text] => text
  | text :: texts => text ++ " | " ++ barSeparated texts

/-- The options as text. -/
def text (options : Options) : String := barSeparated options.parts

end Options
end LayoutLine
