import LayoutLine.Line.Grammar
import LayoutLine.Text

/-!
# Reading a line of layout

A text is read by the grammar from its front. It fails when it holds only white space, when no
view stands where the first one must, or when something is left over; the message gives the place
as a count of bytes in UTF-8.
-/

namespace LayoutLine

/-- Why a text is no line of layout. -/
inductive ParseError where
  /-- The text holds nothing but white space. -/
  | empty
  /-- What is expected does not stand at this offset; the text goes on with `found`. -/
  | unexpected (offset : Nat) (expected found : String)
  /-- A line ends at this offset, and `rest` follows it. -/
  | unread (offset : Nat) (rest : String)
  deriving DecidableEq

/-- The complaint as text. -/
def ParseError.message : ParseError → String
  | .empty => "Empty visual format"
  | .unexpected offset expected found =>
    "Unexpected input at offset " ++ Nat.repr offset ++ ": expected " ++ expected ++ ", found " ++
      Text.quote found
  | .unread offset rest =>
    "Unparsed input at offset " ++ Nat.repr offset ++ ": " ++ Text.quote rest

namespace Line

/-- The number of bytes of a text in UTF-8. -/
def byteLength : List Char → Nat
  | [] => 0
  | c :: cs => c.utf8Size + byteLength cs

/-- Where the end `rest` of the text `source` starts, in bytes. -/
def byteOffset (source rest : List Char) : Nat := byteLength source - byteLength rest

/-- How much of the text a complaint about a missing view quotes, in characters. -/
def excerptLength : Nat := 16

/-- Reads a line off the front of a text that is not blank, and gives what follows it. -/
def read (source : List Char) : Except ParseError (Line × List Char) :=
  let axis := Grammar.axis source
  let leading := Grammar.leading axis.2
  match Grammar.view? leading.2 with
  | none =>
    .error (.unexpected (byteOffset source leading.2) "a view"
      (String.ofList (leading.2.take excerptLength)))
  | some (first, rest) =>
    let more := Grammar.moreViews rest
    let trailing := Grammar.trailing more.2
    .ok ({ axis := axis.1
           leading := leading.1
           views := first :: more.1.map Prod.snd
           spacings := more.1.map Prod.fst
           trailing := trailing.1 }, trailing.2)

/-- The line a text stands for. -/
def parse (text : String) : Except ParseError Line :=
  let source := text.toList
  if source.all Text.isBlank then .error .empty
  else
    match read source with
    | .error e => .error e
    | .ok (line, []) => .ok line
    | .ok (_, rest) => .error (.unread (byteOffset source rest) (String.ofList rest))

/-- The length in bytes adds up over parts of a text. -/
theorem byteLength_append (a b : List Char) :
    byteLength (a ++ b) = byteLength a + byteLength b := by
  induction a with
  | nil => rw [List.nil_append, byteLength, Nat.zero_add]
  | cons c a ih => rw [List.cons_append, byteLength, byteLength, ih, Nat.add_assoc]

/-- The offset of an end of the text is the length of what comes before it. -/
theorem byteOffset_append (front rest : List Char) :
    byteOffset (front ++ rest) rest = byteLength front := by
  simp [byteOffset, byteLength_append]

end Line
end LayoutLine
