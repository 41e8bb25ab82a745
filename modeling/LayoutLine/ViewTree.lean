/-!
# View trees

Views are numbered in the order in which they are made. Each has at most one parent, and a parent
knows its children in the order in which they were attached. Attaching a view moves it: it leaves
its former parent and the list of roots and becomes the last child of the new parent. A view is
not attached to itself, and views that do not exist are never attached to or attached.
-/

namespace LayoutLine

/-- The number of a view. -/
abbrev ViewId := Nat

/-- The number with its mark, `#3`. -/
def ViewId.label (view : ViewId) : String := "#" ++ Nat.repr view

/-- A view of a tree. -/
structure ViewNode where
  /-- The name it was made with. -/
  name : String
  /-- The view it is attached to, if any. -/
  parent : Option ViewId := none
  /-- The views attached to it, in order. -/
  children : List ViewId := []
  /-- Whether its frame counts as constraints of its own. -/
  autoresizing : Bool := true
  deriving DecidableEq

/-- Views with their parents and children. -/
structure ViewTree where
  /-- The views; the place of a view is its number. -/
  nodes : List ViewNode := []
  /-- The views made as roots and attached to nothing since, in order. -/
  roots : List ViewId := []
  deriving DecidableEq

namespace ViewTree

/-- The tree without views. -/
def empty : ViewTree := {}

instance : Inhabited ViewTree := ⟨empty⟩

/-- The view of a number. -/
def node? (t : ViewTree) (view : ViewId) : Option ViewNode := t.nodes[view]?

/-- Whether there is a view of this number. -/
def knows (t : ViewTree) (view : ViewId) : Bool := (t.node? view).isSome

/-- The parent of a view. -/
def parent? (t : ViewTree) (view : ViewId) : Option ViewId := (t.node? view).bind ViewNode.parent

/-- The children of a view. -/
def children (t : ViewTree) (view : ViewId) : List ViewId :=
  ((t.node? view).map ViewNode.children).getD []

/-- Whether the frame of a view counts as constraints of its own. -/
def autoresizing (t : ViewTree) (view : ViewId) : Bool :=
  ((t.node? view).map ViewNode.autoresizing).getD false

/-- Whether a view is a child of another. -/
def contains (t : ViewTree) (container view : ViewId) : Bool := t.parent? view == some container

/-- Whether there are no views. -/
def isEmpty (t : ViewTree) : Bool := t.nodes.isEmpty

/-- Makes a view without a parent, and returns its number. -/
def addView (t : ViewTree) (name : String) : ViewId × ViewTree :=
  (t.nodes.length, { t with nodes := t.nodes ++ [{ name }] })

/-- Makes a root, and returns its number. -/
def addRoot (t : ViewTree) (name : String) : ViewId × ViewTree :=
  let (view, t) := t.addView name
  (view, { t with roots := t.roots ++ [view] })

/-- Changes the node of a view; without such a view, nothing changes. -/
def update (t : ViewTree) (view : ViewId) (change : ViewNode → ViewNode) : ViewTree :=
  { t with nodes := t.nodes.modify view change }

/-- Says whether the frame of a view counts as constraints of its own. -/
def setAutoresizing (t : ViewTree) (view : ViewId) (enabled : Bool) : ViewTree :=
  t.update view fun node => { node with autoresizing := enabled }

/-- Takes a view out of its parent's children and out of the roots. -/
def detach (t : ViewTree) (view : ViewId) : ViewTree :=
  let without := match t.parent? view with
    | some parent => t.update parent fun node =>
      { node with children := node.children.filter (· != view) }
    | none => t
  { without with roots := without.roots.filter (· != view) }

/-- Moves a view to the end of another view's children. -/
def attach (t : ViewTree) (container view : ViewId) : ViewTree :=
  if container ≠ view ∧ t.knows container ∧ t.knows view then
    let moved := (t.detach view).update view fun node => { node with parent := some container }
    moved.update container fun node => { node with children := node.children ++ [view] }
  else t

/-- A change of one node is seen at that node and nowhere else. -/
theorem node?_update (t : ViewTree) (view other : ViewId) (change : ViewNode → ViewNode) :
    (t.update view change).node? other =
      if view = other then (t.node? other).map change else t.node? other := by
  simp only [node?, update, List.getElem?_modify]
  split <;> simp

@[simp] theorem roots_update (t : ViewTree) (view : ViewId) (change : ViewNode → ViewNode) :
    (t.update view change).roots = t.roots := rfl

/-- No view comes in or gets lost when a node is changed. -/
@[simp] theorem knows_update (t : ViewTree) (view other : ViewId) (change : ViewNode → ViewNode) :
    (t.update view change).knows other = t.knows other := by
  simp only [knows, node?_update]
  split <;> simp

/-- Attaching a view to itself, or where one of the two views does not exist, changes nothing. -/
theorem attach_of_not {t : ViewTree} {container view : ViewId}
    (h : ¬(container ≠ view ∧ t.knows container ∧ t.knows view)) : t.attach container view = t := by
  simp only [attach, if_neg h]

end ViewTree
end LayoutLine
