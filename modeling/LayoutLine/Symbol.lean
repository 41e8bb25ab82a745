/-!
# Symbols

A fragment's text names its views and lengths by symbols. A symbol is a kind and a 32-bit number;
its name is the kind's stem and the number in decimal digits. Reading a name accepts exactly a
stem followed by digits whose value fits, so leading zeros are dropped and nothing else is a
symbol.
-/

namespace LayoutLine

/-- The number of a symbol, 32 bits wide. -/
abbrev SymbolId := Fin 4294967296

/-- The number `count` places further on; the last number stands for all beyond it. -/
def SymbolId.advance (id : SymbolId) (count : Nat) : SymbolId :=
  ⟨min (id.val + count) 4294967295, by omega⟩

/-- The number `count` places further on, where the first number comes after the last one. -/
def SymbolId.around (id : SymbolId) (count : Nat) : SymbolId :=
  ⟨(id.val + count) % 4294967296, Nat.mod_lt _ (by decide)⟩

namespace SymbolId

@[simp] theorem val_advance (id : SymbolId) (count : Nat) :
    (id.advance count).val = min (id.val + count) 4294967295 := rfl

/-- No move at all, at the last number too. -/
@[simp] theorem advance_zero (id : SymbolId) : id.advance 0 = id := by
  apply Fin.ext
  rw [val_advance]
  omega

/-- Two moves are one move of the summed length, at the last number too. -/
theorem advance_advance (id : SymbolId) (a b : Nat) :
    (id.advance a).advance b = id.advance (a + b) := by
  apply Fin.ext
  simp only [val_advance]
  omega

@[simp] theorem val_around (id : SymbolId) (count : Nat) :
    (id.around count).val = (id.val + count) % 4294967296 := rfl

/-- As long as there are numbers enough, it makes no difference what comes after the last one. -/
theorem around_eq_advance {id : SymbolId} {count : Nat} (h : id.val + count < 4294967296) :
    id.around count = id.advance count := by
  apply Fin.ext
  rw [val_around, val_advance]
  omega

end SymbolId

/-- What a symbol stands for. -/
inductive Symbol.Kind where
  /-- A view. -/
  | view
  /-- A view that only serves as the measure of another one. -/
  | relative
  /-- A length. -/
  | metric
  deriving DecidableEq, Ord

/-- What the name of a symbol starts with. -/
def Symbol.Kind.stem : Symbol.Kind → String
  | .view => "view_"
  | .relative => "viewR_"
  | .metric => "metric_"

/-- A generated name for a view or a length. Symbols are ordered by kind, then by number. -/
structure Symbol where
  /-- What the symbol stands for. -/
  kind : Symbol.Kind
  /-- Its number. -/
  id : SymbolId
  deriving DecidableEq, Ord

/-- Where the next symbol's number comes from. -/
structure IdSource where
  /-- The number of the next symbol. -/
  next : SymbolId
  deriving DecidableEq

/-- The source that no number has been taken from. -/
def IdSource.start : IdSource := ⟨⟨0, by decide⟩⟩

/-- How many numbers a block for `count` symbols gets. The size of a block has 32 bits, so whole
rounds through all numbers are left out of it. -/
def blockSize (count : Nat) : Nat := count % 4294967296

/-- A block for fewer symbols than there are numbers has a number for each. -/
theorem blockSize_of_lt {count : Nat} (h : count < 4294967296) : blockSize count = count :=
  Nat.mod_eq_of_lt h

/-- The source after the next `count` numbers have been taken. -/
def IdSource.skip (ids : IdSource) (count : Nat) : IdSource := ⟨ids.next.advance count⟩

@[simp] theorem IdSource.skip_zero (ids : IdSource) : ids.skip 0 = ids := by
  simp only [skip, SymbolId.advance_zero]

/-- Numbers may be taken in two goes. -/
theorem IdSource.skip_skip (ids : IdSource) (a b : Nat) :
    (ids.skip a).skip b = ids.skip (a + b) := by
  simp only [skip, SymbolId.advance_advance]

namespace Symbol

/-- Whether the symbol stands for a view. -/
def isView (s : Symbol) : Bool := s.kind != .metric

/-- The name of the symbol. -/
def name (s : Symbol) : String := s.kind.stem ++ Nat.repr s.id

/-- The number written by a text of one or more digits, if it fits. -/
def idOf? (cs : List Char) : Option SymbolId :=
  if cs ≠ [] ∧ cs.all Char.isDigit then
    if h : Nat.ofDigitChars 10 cs 0 < 4294967296 then some ⟨_, h⟩ else none
  else none

/-- What follows a stem at the front of a text. -/
def afterStem? (kind : Kind) (cs : List Char) : Option (List Char) :=
  if kind.stem.toList.isPrefixOf cs then some (cs.drop kind.stem.toList.length) else none

/-- The symbol of a name. No stem starts another, so the order in which they are tried is
immaterial. -/
def parse? (name : String) : Option Symbol :=
  [Kind.relative, .view, .metric].findSome? fun kind =>
    (afterStem? kind name.toList).bind fun digits => (idOf? digits).map (Symbol.mk kind)

/-- Symbols in their order, views before lengths. -/
def sort (symbols : List Symbol) : List Symbol :=
  symbols.mergeSort fun a b => (compare a b).isLE

end Symbol
end LayoutLine
