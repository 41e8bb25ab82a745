import LayoutLine.Proofs.ViewTree.Links

/-!
# What calls do to children and roots

The children of a view and the list of roots say in other words what the parent links say. As long
as the children of each view are the views it is the parent of, attaching a view takes it out of
every list it stood in and puts it at the end of its container's children.
-/

namespace LayoutLine
namespace ViewTree

/-- The children of a view are the views it is the parent of. -/
def ChildrenLinked (t : ViewTree) : Prop :=
  ∀ container view, view ∈ t.children container ↔ t.parent? view = some container

variable {t : ViewTree} {container view : ViewId}

/-- A change of a node that keeps its children keeps all children. -/
theorem children_update_of_keeps (t : ViewTree) (view other : ViewId)
    (change : ViewNode → ViewNode) (hkeeps : ∀ node, (change node).children = node.children) :
    (t.update view change).children other = t.children other :=
  congrArg (·.getD []) (map_node?_update ViewNode.children t view other hkeeps)

/-- A change of one node's children changes the children of that view only. -/
theorem children_update {t : ViewTree} {view : ViewId} (hknows : t.knows view) (other : ViewId)
    (rearrange : List ViewId → List ViewId) :
    (t.update view fun node => { node with children := rearrange node.children }).children other =
      if view = other then rearrange (t.children other) else t.children other := by
  simp only [children, node?_update]
  split_ifs with hview
  · subst hview
    obtain ⟨node, hnode⟩ := Option.isSome_iff_exists.mp hknows
    rw [hnode]
    rfl
  · rfl

/-- A new view has no children, as the number it got had none. -/
theorem children_addView (t : ViewTree) (name : String) (other : ViewId) :
    (t.addView name).2.children other = t.children other := by
  simp only [children, node?, addView, List.getElem?_append]
  rcases Nat.lt_or_ge other t.nodes.length with hold | hnew
  · rw [if_pos hold]
  · have hnone : t.nodes[other]? = none := List.getElem?_eq_none hnew
    rw [if_neg (Nat.not_lt.mpr hnew), hnone]
    cases other - t.nodes.length <;> rfl

/-- A view that does not exist has no children. -/
theorem knows_of_mem_children (h : view ∈ t.children container) : t.knows container := by
  cases hnode : t.node? container with
  | none => simp [children, hnode] at h
  | some node => simp [knows, hnode]

/-- Taking a view out of its parent's children takes it out of all children. -/
theorem ChildrenLinked.children_detach (h : t.ChildrenLinked) (view other : ViewId) :
    (t.detach view).children other = (t.children other).filter (· != view) := by
  have hother : t.parent? view ≠ some other → (t.children other).filter (· != view) =
      t.children other := by
    intro hparent
    refine List.filter_eq_self.mpr fun child hchild => bne_iff_ne.mpr ?_
    rintro rfl
    exact hparent ((h other child).mp hchild)
  unfold detach
  cases hparent : t.parent? view with
  | none =>
    rw [hother (by rw [hparent]; exact nofun)]
    rfl
  | some parent =>
    have hknows : t.knows parent := knows_of_mem_children ((h parent view).mpr hparent)
    refine (children_update hknows other (List.filter (· != view))).trans ?_
    split_ifs with heq
    · rfl
    · exact (hother (by rw [hparent]; exact fun hsome => heq (Option.some.inj hsome))).symm

/-- Attaching takes the view out of the children it was among and puts it behind those of the
container. -/
theorem ChildrenLinked.children_attach (h : t.ChildrenLinked) (hcan : t.CanAttach container view)
    (other : ViewId) :
    (t.attach container view).children other = (t.children other).filter (· != view) ++
      if container = other then [view] else [] := by
  let moved := (t.detach view).update view fun node => { node with parent := some container }
  have hknows : moved.knows container := by
    rw [knows_update, (t.sameLinks_detach view).knows]
    exact hcan.2.1
  have hmoved : moved.children other = (t.detach view).children other :=
    children_update_of_keeps _ view other _ fun _ => rfl
  rw [attach_of_canAttach hcan, children_update hknows other (· ++ [view]), hmoved,
    h.children_detach]
  split_ifs
  · rfl
  · rw [List.append_nil]

/-- Attaching makes no view. -/
theorem length_nodes_attach (t : ViewTree) (container view : ViewId) :
    (t.attach container view).nodes.length = t.nodes.length := by
  by_cases hcan : t.CanAttach container view
  · rw [attach_of_canAttach hcan, detach]
    cases t.parent? view <;> simp only [update, List.length_modify]
  · rw [attach_of_not_canAttach hcan]

/-- Attaching takes the view out of the roots. -/
theorem roots_attach (hcan : t.CanAttach container view) :
    (t.attach container view).roots = t.roots.filter (· != view) := by
  rw [attach_of_canAttach hcan, roots_update, roots_update, detach]
  cases t.parent? view with
  | none => rfl
  | some parent => rfl

/-! ### What calls keep -/

theorem childrenLinked_empty : ViewTree.empty.ChildrenLinked := by
  intro container view
  simp [children, parent?, node?, empty]

/-- A new view is nobody's child and has none. -/
theorem ChildrenLinked.addView (h : t.ChildrenLinked) (name : String) :
    (t.addView name).2.ChildrenLinked := by
  intro other view
  rw [children_addView, parent?_addView]
  exact h other view

/-- An attached view leaves the list of its old parent when it comes into that of the new one. -/
theorem ChildrenLinked.attach (h : t.ChildrenLinked) (container view : ViewId) :
    (t.attach container view).ChildrenLinked := by
  by_cases hcan : t.CanAttach container view
  · intro other child
    rw [h.children_attach hcan, List.mem_append, List.mem_filter, h, parent?_attach, bne_iff_ne]
    by_cases hchild : child = view
    · subst hchild
      by_cases hother : container = other
      · subst hother
        simp [hcan]
      · simp [hcan, hother]
    · simp only [hchild, and_false, if_false, ne_eq, not_false_eq_true, and_true]
      split_ifs <;> simp [hchild]
  · rw [attach_of_not_canAttach hcan]
    exact h

theorem ChildrenLinked.setAutoresizing (h : t.ChildrenLinked) (view : ViewId) (enabled : Bool) :
    (t.setAutoresizing view enabled).ChildrenLinked := by
  intro other child
  have hchildren : (t.setAutoresizing view enabled).children other = t.children other :=
    t.children_update_of_keeps view other _ fun _ => rfl
  rw [hchildren, (t.sameLinks_setAutoresizing view enabled).parent]
  exact h other child

end ViewTree
end LayoutLine
