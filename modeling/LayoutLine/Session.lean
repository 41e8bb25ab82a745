import LayoutLine.Fragment.Build
import LayoutLine.Install

/-!
# Sessions

A session is one run of layout work: a source of symbol numbers, fragments kept under names, a
view tree and an engine. Numbers that were taken stay taken when building fails, and the fragment
is then not kept.
-/

namespace LayoutLine

/-- The state of a run of layout work. -/
structure Session where
  /-- Where symbol numbers come from. -/
  ids : IdSource := .start
  /-- The fragments by name. -/
  fragments : Table (Fragment ViewId) := .empty
  /-- The views. -/
  tree : ViewTree := {}
  /-- The engine. -/
  engine : FormatEngine ViewId := {}

namespace Session

/-- Takes the next `count` numbers and returns the first. -/
def take (s : Session) (count : Nat) : SymbolId × Session :=
  (s.ids.next, { s with ids := s.ids.skip count })

/-- Starts numbering afresh. -/
def resetIds (s : Session) : Session := { s with ids := .start }

/-- Builds a fragment. -/
def build (s : Session) (expr : Expr ViewId) : Except BuildError (Fragment ViewId) × Session :=
  match expr.build s.ids with
  | .ok fragment ids => (.ok fragment, { s with ids })
  | .error error ids => (.error error, { s with ids })

/-- Keeps a fragment under a name. -/
def keep (s : Session) (name : String) (fragment : Fragment ViewId) : Session :=
  { s with fragments := s.fragments.insert name fragment }

/-- Asks the engine for the constraints of a text, and gives them back to it for a container if
one is named. -/
def format (s : Session) (text : String) (options : Options) (bindings : Bindings ViewId)
    (container : Option ViewId) : Except FormatError (List (Constraint ViewId)) × Session :=
  match s.engine.constraintsFor text options bindings with
  | (.error error, engine) => (.error error, { s with engine })
  | (.ok constraints, engine) =>
    let engine := match container with
      | some container => engine.addConstraints container constraints
      | none => engine
    (.ok constraints, { s with engine })

/-- Installs a fragment in a container, through a guard when there is a reason to refuse. -/
def install (s : Session) (container : ViewId) (fragment : Fragment ViewId) (axis : Axis)
    (release : Bool) (refusal : Option String) :
    Installation (Guarded (FormatEngine ViewId)) (Guarded.Failure FormatError) × Session :=
  let outcome := LayoutLine.install s.tree (⟨s.engine, refusal⟩ : Guarded (FormatEngine ViewId))
    container fragment axis release
  (outcome, { s with tree := outcome.tree, engine := outcome.engine.engine })

end Session
end LayoutLine
