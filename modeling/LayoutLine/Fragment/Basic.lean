import LayoutLine.Resolve
import LayoutLine.Symbol

/-!
# Fragments

A fragment is a piece of a line's text together with what its symbols stand for and the options of
the line. Joining two fragments puts their texts next to each other with a glyph in between,
merges the tables and unites the options; the empty fragment is a unit for this.
-/

namespace LayoutLine

/-- A length that a symbol is bound to. -/
structure Metric where
  /-- The length. -/
  value : Number
  /-- The priority it is written with. -/
  priority : Priority
  deriving DecidableEq

/-- A condition on a view's length. -/
structure LengthClause where
  /-- How the view's length compares with the given one. -/
  relation : Relation
  /-- The given length. -/
  length : Number
  /-- The priority of the condition. -/
  priority : Priority
  deriving DecidableEq

/-- Text of a line with the bindings of its symbols and the options of the line. -/
structure Fragment (V : Type) extends Bindings V where
  /-- The text, without an axis. -/
  text : String := ""
  /-- The options of the line. -/
  options : Options := .empty

namespace Fragment

variable {V : Type}

/-- No text and no bindings. -/
def empty : Fragment V := {}

instance : Inhabited (Fragment V) := ⟨empty⟩

/-- Text that binds no symbols. -/
def literal (text : String) : Fragment V := { text }

/-- A gap of whole points, written in decimal digits. -/
def gap (points : Int) : Fragment V := literal (toString points)

/-- The edge of the container. -/
def edge : Fragment V := literal "|"

/-- A view in brackets, under the symbol with the given number. -/
def ofView (id : SymbolId) (view : V) : Fragment V :=
  let symbol : Symbol := ⟨.view, id⟩
  { text := "[" ++ symbol.name ++ "]"
    views := .singleton symbol.name view }

/-- A length with its priority, under the symbol with the given number. -/
def ofMetric (id : SymbolId) (metric : Metric) : Fragment V :=
  let symbol : Symbol := ⟨.metric, id⟩
  { text := symbol.name ++ "@" ++ metric.priority.text
    metrics := .singleton symbol.name metric.value }

/-- Texts with commas between them. -/
def commaSeparated : List String → String
  | [] => ""
  | [text] => text
  | text :: texts => text ++ "," ++ commaSeparated texts

/-- The symbols for the lengths in a list of clauses, numbered upwards from the given number. A
source stays at the last number, but within a list the first number comes after it. -/
def clauseSymbols (first : SymbolId) (count : Nat) : List Symbol :=
  (List.range count).map fun i => ⟨.metric, first.around i⟩

/-- A clause on a length as text. -/
def clauseText (symbol : Symbol) (clause : LengthClause) : String :=
  clause.relation.glyph ++ symbol.name ++ "@" ++ clause.priority.text

/-- A view with clauses on its length. The view has the number of the first clause's symbol. -/
def ofLengths (first : SymbolId) (view : V) (clauses : List LengthClause) : Fragment V :=
  let subject : Symbol := ⟨.view, first⟩
  let symbols := clauseSymbols first clauses.length
  let lengths := List.zipWith (fun symbol clause => (symbol.name, clause.length)) symbols clauses
  { text := "[" ++ subject.name ++ "(" ++
      commaSeparated (List.zipWith clauseText symbols clauses) ++ ")]"
    views := .singleton subject.name view
    metrics := .ofList lengths }

/-- A view whose length is related to that of another view, which has the number after the first. -/
def ofRelative (first : SymbolId) (view : V) (relation : Relation) (other : V)
    (priority : Priority) : Fragment V :=
  let subject : Symbol := ⟨.view, first⟩
  let reference : Symbol := ⟨.relative, first.advance 1⟩
  { text := "[" ++ subject.name ++ "(" ++ relation.glyph ++ reference.name ++ "@" ++
      priority.text ++ ")]"
    views := .ofList [(subject.name, view), (reference.name, other)] }

/-- Both fragments with a glyph between their texts. Where a name is bound in both, the binding on
the right counts and its place on the left is kept. -/
def join (lhs : Fragment V) (glyph : String) (rhs : Fragment V) : Fragment V where
  text := lhs.text ++ glyph ++ rhs.text
  views := lhs.views.merge rhs.views
  metrics := lhs.metrics.merge rhs.metrics
  options := lhs.options.union rhs.options

/-- The fragment with other options. -/
def withOptions (f : Fragment V) (options : Options) : Fragment V := { f with options }

/-- The text of the whole line along an axis. -/
def render (f : Fragment V) (axis : Axis) : String := axis.render f.text

/-- The names of the bound symbols, views before lengths. -/
def symbols (f : Fragment V) : List String := f.views.names ++ f.metrics.names

/-- Whether there is no text. -/
def isEmpty (f : Fragment V) : Bool := f.text == ""

/-- Equality by value: the same text and options, and the same bindings in any order. -/
def sameValue [BEq V] (a b : Fragment V) : Bool :=
  a.text == b.text && a.options == b.options && a.views.sameEntries (· == ·) b.views &&
    a.metrics.sameEntries Number.sameValue b.metrics

end Fragment
end LayoutLine
