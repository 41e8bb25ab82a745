import LayoutLine.Line.Parse
import LayoutLine.Resolve

/-!
# Layout engines

An engine turns the text of a line into constraints and takes in constraints for a container. The
engine given here reads and resolves the text, and keeps what it was given; it solves nothing.
-/

namespace LayoutLine

/-- What installing a line asks of an engine of type `E`. -/
class LayoutEngine (E : Type) (V C Err : outParam Type) where
  /-- The constraints of a line's text under options and bindings, or why there are none. -/
  constraintsFor : E → String → Options → Bindings V → Except Err (List C) × E
  /-- Takes in constraints for a container. -/
  addConstraints : E → V → List C → E

/-- Why a text gives no constraints. -/
inductive FormatError where
  /-- The text is no line. -/
  | parse (error : ParseError)
  /-- The line cannot be resolved. -/
  | resolve (error : ResolveError)
  deriving DecidableEq

/-- The complaint as text. -/
def FormatError.message : FormatError → String
  | .parse error => error.message
  | .resolve error => error.message

/-- The constraints of a text: it is read, then resolved. -/
def Line.constraintsOf {V : Type} (text : String) (options : Options) (bindings : Bindings V)
    (config : StandardSpacing) : Except FormatError (List (Constraint V)) := do
  let line ← (Line.parse text).mapError .parse
  (line.resolve options bindings config).mapError .resolve

/-- An engine that keeps the texts it understood and the constraints it was given. -/
structure FormatEngine (V : Type) where
  /-- What bare dashes stand for. -/
  config : StandardSpacing := {}
  /-- The texts that gave constraints, in order. -/
  formats : List String := []
  /-- The constraints with their containers, in order. -/
  installed : List (V × Constraint V) := []

namespace FormatEngine

variable {V : Type}

instance : Inhabited (FormatEngine V) := ⟨{}⟩

/-- The constraints of a text. The text is kept when it has some, and nothing changes otherwise. -/
def constraintsFor (engine : FormatEngine V) (text : String) (options : Options)
    (bindings : Bindings V) : Except FormatError (List (Constraint V)) × FormatEngine V :=
  match Line.constraintsOf text options bindings engine.config with
  | .ok constraints => (.ok constraints, { engine with formats := engine.formats ++ [text] })
  | .error error => (.error error, engine)

/-- Keeps constraints for a container. -/
def addConstraints (engine : FormatEngine V) (container : V) (constraints : List (Constraint V)) :
    FormatEngine V :=
  { engine with installed := engine.installed ++ constraints.map (container, ·) }

instance : LayoutEngine (FormatEngine V) V (Constraint V) FormatError where
  constraintsFor := constraintsFor
  addConstraints := addConstraints

/-- How many constraints are kept. -/
def size (engine : FormatEngine V) : Nat := engine.installed.length

/-- Whether no constraints are kept. -/
def isEmpty (engine : FormatEngine V) : Bool := engine.installed.isEmpty

/-- The constraints kept for a container, in order. -/
def constraintsOn [BEq V] (engine : FormatEngine V) (container : V) : List (Constraint V) :=
  (engine.installed.filter (·.1 == container)).map Prod.snd

end FormatEngine

/-- An engine that may be told to refuse every text. -/
structure Guarded (E : Type) where
  /-- The engine behind the guard. -/
  engine : E
  /-- Why texts are refused, if they are. -/
  refusal : Option String := none

/-- Why a guarded engine gives no constraints. -/
inductive Guarded.Failure (Err : Type) where
  /-- Texts are refused. -/
  | refused (reason : String)
  /-- The engine behind the guard gave none. -/
  | engine (error : Err)
  deriving DecidableEq

instance {E V C Err : Type} [LayoutEngine E V C Err] :
    LayoutEngine (Guarded E) V C (Guarded.Failure Err) where
  constraintsFor guarded text options bindings :=
    match guarded.refusal with
    | some reason => (.error (.refused reason), guarded)
    | none =>
      let (answer, engine) := LayoutEngine.constraintsFor guarded.engine text options bindings
      (answer.mapError .engine, { guarded with engine })
  addConstraints guarded container constraints :=
    { guarded with engine := LayoutEngine.addConstraints guarded.engine container constraints }

end LayoutLine
