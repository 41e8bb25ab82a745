import LayoutLine.Engine
import LayoutLine.Fragment.Basic
import LayoutLine.ViewTree

/-!
# Installing fragments

Installing a fragment in a container first readies its views, in the order of its table: each is
freed of the constraints of its own frame, if so wished, and made a child of the container unless
it is the container or its child already. Then the engine is asked for the constraints of the text
and given them back for the container. Views stay readied when the engine fails.
-/

namespace LayoutLine

/-- A call that installing makes on the tree or on the engine. -/
inductive InstallCall where
  /-- A view's frame was said to count as constraints or not. -/
  | setAutoresizing (view : ViewId) (enabled : Bool)
  /-- The tree was asked whether a view is a child of the container. -/
  | contains (container view : ViewId) (answer : Bool)
  /-- A view was made a child of the container. -/
  | addChild (container view : ViewId)
  /-- The engine was asked for the constraints of a text. -/
  | format (options : Options) (text : String)
  /-- The engine was given constraints for the container. -/
  | addConstraints (container : ViewId) (count : Nat)
  deriving DecidableEq

/-- The call as a line of a log. -/
def InstallCall.text : InstallCall → String
  | .setAutoresizing view enabled => "autoresizing " ++ view.label ++ " " ++ toString enabled
  | .contains container view answer =>
    "contains " ++ container.label ++ " " ++ view.label ++ " " ++ toString answer
  | .addChild container view => "add_child " ++ container.label ++ " " ++ view.label
  | .format options text => "format " ++ Nat.repr options.bits.toNat ++ " " ++ text
  | .addConstraints container count =>
    "constraints " ++ container.label ++ " " ++ Nat.repr count

namespace ViewTree

/-- Readies one view for a container, and tells the calls made. -/
def readyView (container : ViewId) (release : Bool) (t : ViewTree) (view : ViewId) :
    ViewTree × List InstallCall :=
  let freed := if release then t.setAutoresizing view false else t
  let freeing := if release then [InstallCall.setAutoresizing view false] else []
  if view = container then (freed, freeing)
  else if freed.contains container view then
    (freed, freeing ++ [.contains container view true])
  else
    (freed.attach container view,
      freeing ++ [.contains container view false, .addChild container view])

/-- Readies views for a container one after the other, and tells the calls made. -/
def readyViews (container : ViewId) (release : Bool) (t : ViewTree) :
    List ViewId → ViewTree × List InstallCall
  | [] => (t, [])
  | view :: views =>
    let first := t.readyView container release view
    let later := first.1.readyViews container release views
    (later.1, first.2 ++ later.2)

end ViewTree

/-- What comes of installing a fragment. -/
structure Installation (E Err : Type) where
  /-- How many constraints were given to the engine, or why there are none. -/
  result : Except Err Nat
  /-- The tree afterwards. -/
  tree : ViewTree
  /-- The engine afterwards. -/
  engine : E
  /-- The calls made, in order. -/
  calls : List InstallCall

/-- Installs a fragment in a container along an axis. With `release`, views are freed of the
constraints of their own frames. -/
def install {E C Err : Type} [LayoutEngine E ViewId C Err] (tree : ViewTree) (engine : E)
    (container : ViewId) (fragment : Fragment ViewId) (axis : Axis) (release : Bool) :
    Installation E Err :=
  let ready := tree.readyViews container release fragment.views.values
  let text := fragment.render axis
  let asked := ready.2 ++ [.format fragment.options text]
  match LayoutEngine.constraintsFor engine text fragment.options fragment.toBindings with
  | (.error error, engine) => ⟨.error error, ready.1, engine, asked⟩
  | (.ok constraints, engine) =>
    ⟨.ok constraints.length, ready.1, LayoutEngine.addConstraints engine container constraints,
      asked ++ [.addConstraints container constraints.length]⟩

end LayoutLine
