import LayoutLine.Install
import Mathlib.Tactic.SplitIfs

/-!
# What calls do to parent links

Only attaching changes who is whose parent, and it changes the parent of one view. Making views
and marking them leaves every link alone. Installing is, for the links, to attach the views of
the fragment to the container one after the other.
-/

namespace LayoutLine

/-- A call on a view tree. Installing brings the engine it asks. -/
inductive TreeCall (E : Type) where
  /-- A root is made. -/
  | addRoot (name : String)
  /-- A view without a parent is made. -/
  | addView (name : String)
  /-- A view is attached to a container. -/
  | attach (container view : ViewId)
  /-- A view's frame is said to count as constraints or not. -/
  | setAutoresizing (view : ViewId) (enabled : Bool)
  /-- A fragment is installed in a container. -/
  | install (engine : E) (container : ViewId) (fragment : Fragment ViewId) (axis : Axis)
    (release : Bool)

/-- The tree after a call. -/
def TreeCall.run {E C Err : Type} [LayoutEngine E ViewId C Err] (t : ViewTree) :
    TreeCall E → ViewTree
  | .addRoot name => (t.addRoot name).2
  | .addView name => (t.addView name).2
  | .attach container view => t.attach container view
  | .setAutoresizing view enabled => t.setAutoresizing view enabled
  | .install engine container fragment axis release =>
    (LayoutLine.install t engine container fragment axis release).tree

namespace ViewTree

/-- The tree after a run of calls. -/
def runAll {E C Err : Type} [LayoutEngine E ViewId C Err] (t : ViewTree)
    (calls : List (TreeCall E)) : ViewTree :=
  calls.foldl TreeCall.run t

/-- Views are attached to a container one after the other. -/
def attachAll (t : ViewTree) (container : ViewId) (views : List ViewId) : ViewTree :=
  views.foldl (fun t view => t.attach container view) t

/-- Whether attaching does anything: both views exist and they are two. -/
def CanAttach (t : ViewTree) (container view : ViewId) : Prop :=
  container ≠ view ∧ t.knows container ∧ t.knows view

instance (t : ViewTree) (container view : ViewId) : Decidable (t.CanAttach container view) :=
  inferInstanceAs (Decidable (_ ∧ _))

/-- Two trees with the same views and the same parents. -/
structure SameLinks (t u : ViewTree) : Prop where
  /-- The same views exist. -/
  knows : ∀ view, t.knows view = u.knows view
  /-- Each has the same parent. -/
  parent : ∀ view, t.parent? view = u.parent? view

/-- Every parent is a view of the tree. -/
def ParentsKnown (t : ViewTree) : Prop :=
  ∀ view parent, t.parent? view = some parent → t.knows parent

/-! ### Changing a node -/

/-- A change of a node that keeps a field keeps that field of all nodes. -/
theorem map_node?_update {α : Type} (field : ViewNode → α) (t : ViewTree) (view other : ViewId)
    {change : ViewNode → ViewNode} (hkeeps : ∀ node, field (change node) = field node) :
    ((t.update view change).node? other).map field = (t.node? other).map field := by
  rw [node?_update]
  split_ifs
  · rw [Option.map_map]
    exact congrArg (fun f => (t.node? other).map f) (funext hkeeps)
  · rfl

/-! ### Making and marking views -/

/-- A new view has no parent, as the number it got had none. -/
theorem parent?_addView (t : ViewTree) (name : String) (view : ViewId) :
    (t.addView name).2.parent? view = t.parent? view := by
  simp only [parent?, node?, addView, List.getElem?_append]
  rcases Nat.lt_or_ge view t.nodes.length with hold | hnew
  · rw [if_pos hold]
  · have hnone : t.nodes[view]? = none := List.getElem?_eq_none hnew
    rw [if_neg (Nat.not_lt.mpr hnew), hnone]
    cases view - t.nodes.length <;> rfl

/-- The views after making one are those before and the new one. -/
theorem knows_addView (t : ViewTree) (name : String) (view : ViewId) :
    (t.addView name).2.knows view ↔ t.knows view ∨ view = t.nodes.length := by
  simp only [knows, node?, addView, isSome_getElem?, List.length_append, List.length_singleton]
  exact Nat.lt_succ_iff_lt_or_eq

/-- A root differs from another new view in the list of roots only. -/
theorem sameLinks_addRoot (t : ViewTree) (name : String) :
    SameLinks (t.addRoot name).2 (t.addView name).2 :=
  ⟨fun _ => rfl, fun _ => rfl⟩

/-- A change of a node that keeps its parent keeps all parents. -/
theorem parent?_update_of_keeps (t : ViewTree) (view other : ViewId)
    {change : ViewNode → ViewNode} (hkeeps : ∀ node, (change node).parent = node.parent) :
    (t.update view change).parent? other = t.parent? other := by
  have hjoin (node? : Option ViewNode) :
      node?.bind ViewNode.parent = (node?.map ViewNode.parent).join := by
    cases node? <;> rfl
  rw [parent?, parent?, hjoin, hjoin, map_node?_update ViewNode.parent t view other hkeeps]

/-- The flag of a view is no matter of links. -/
theorem sameLinks_setAutoresizing (t : ViewTree) (view : ViewId) (enabled : Bool) :
    SameLinks (t.setAutoresizing view enabled) t where
  knows := fun other => t.knows_update view other _
  parent := fun other => t.parent?_update_of_keeps view other fun _ => rfl

/-! ### Attaching -/

/-- Taking a view out of the lists of children and roots leaves every link as it is. -/
theorem sameLinks_detach (t : ViewTree) (view : ViewId) : SameLinks (t.detach view) t := by
  unfold detach
  cases t.parent? view with
  | none => exact ⟨fun _ => rfl, fun _ => rfl⟩
  | some parent =>
    exact ⟨fun other => t.knows_update parent other _,
      fun other => t.parent?_update_of_keeps parent other fun _ => rfl⟩

/-- What can be attached is taken from where it is and put below the container. -/
theorem attach_of_canAttach {t : ViewTree} {container view : ViewId}
    (h : t.CanAttach container view) :
    t.attach container view =
      ((t.detach view).update view fun node => { node with parent := some container }).update
        container fun node => { node with children := node.children ++ [view] } :=
  if_pos h

/-- Where nothing can be attached the tree stays as it is. -/
theorem attach_of_not_canAttach {t : ViewTree} {container view : ViewId}
    (h : ¬t.CanAttach container view) : t.attach container view = t :=
  attach_of_not h

/-- Attaching makes no view. -/
@[simp] theorem knows_attach (t : ViewTree) (container view other : ViewId) :
    (t.attach container view).knows other = t.knows other := by
  by_cases hcan : t.CanAttach container view
  · rw [attach_of_canAttach hcan, knows_update, knows_update, (t.sameLinks_detach view).knows]
  · rw [attach_of_not_canAttach hcan]

/-- An attached view has the container as its parent. -/
theorem parent?_attach_self {t : ViewTree} {container view : ViewId}
    (h : t.CanAttach container view) : (t.attach container view).parent? view = some container := by
  have hnode : ((t.detach view).node? view).isSome := by
    rw [← knows, (t.sameLinks_detach view).knows]
    exact h.2.2
  obtain ⟨node, hnode⟩ := Option.isSome_iff_exists.mp hnode
  rw [attach_of_canAttach h, parent?_update_of_keeps]
  · rw [parent?, node?_update, if_pos rfl, hnode]
    rfl
  · exact fun _ => rfl

/-- Attaching a view leaves the parents of all others alone. -/
theorem parent?_attach_of_ne (t : ViewTree) {container view other : ViewId} (h : other ≠ view) :
    (t.attach container view).parent? other = t.parent? other := by
  by_cases hcan : t.CanAttach container view
  · rw [attach_of_canAttach hcan, parent?_update_of_keeps]
    · rw [parent?, node?_update, if_neg (Ne.symm h)]
      exact (t.sameLinks_detach view).parent other
    · exact fun _ => rfl
  · rw [attach_of_not_canAttach hcan]

/-- Attaching changes one parent, that of the attached view. -/
theorem parent?_attach (t : ViewTree) (container view other : ViewId) :
    (t.attach container view).parent? other =
      if t.CanAttach container view ∧ other = view then some container else t.parent? other := by
  split_ifs with hboth
  · obtain ⟨hcan, rfl⟩ := hboth
    exact parent?_attach_self hcan
  · by_cases hother : other = view
    · rw [attach_of_not_canAttach fun hcan => hboth ⟨hcan, hother⟩]
    · exact parent?_attach_of_ne t hother

namespace SameLinks

variable {t u w : ViewTree}

theorem refl (t : ViewTree) : SameLinks t t := ⟨fun _ => rfl, fun _ => rfl⟩

theorem symm (h : SameLinks t u) : SameLinks u t :=
  ⟨fun view => (h.knows view).symm, fun view => (h.parent view).symm⟩

theorem trans (h : SameLinks t u) (h' : SameLinks u w) : SameLinks t w :=
  ⟨fun view => (h.knows view).trans (h'.knows view),
    fun view => (h.parent view).trans (h'.parent view)⟩

/-- Whether attaching does anything is a matter of which views exist. -/
theorem canAttach_iff (h : SameLinks t u) (container view : ViewId) :
    t.CanAttach container view ↔ u.CanAttach container view := by
  simp only [CanAttach, h.knows]

/-- Where the links are the same they are so after attaching. -/
theorem attach (h : SameLinks t u) (container view : ViewId) :
    SameLinks (t.attach container view) (u.attach container view) := by
  refine ⟨fun other => ?_, fun other => ?_⟩
  · rw [knows_attach, knows_attach, h.knows]
  · simp only [parent?_attach, h.parent, h.canAttach_iff]

/-- So they are after attaching several views in turn. -/
theorem attachAll (h : SameLinks t u) (container : ViewId) (views : List ViewId) :
    SameLinks (t.attachAll container views) (u.attachAll container views) := by
  induction views generalizing t u with
  | nil => exact h
  | cons view views ih => exact ih (h.attach container view)

end SameLinks

/-! ### Installing -/

/-- Attaching a view to the parent it has changes no link. -/
theorem sameLinks_attach_of_contains {t : ViewTree} {container view : ViewId}
    (h : t.contains container view) : SameLinks (t.attach container view) t := by
  have hparent : t.parent? view = some container := by simpa [contains] using h
  refine ⟨fun other => t.knows_attach container view other, fun other => ?_⟩
  rw [parent?_attach]
  split_ifs with hboth
  · rw [hboth.2, hparent]
  · rfl

/-- Readying a view is, for the links, to attach it. -/
theorem sameLinks_readyView (t : ViewTree) (container view : ViewId) (release : Bool) :
    SameLinks (t.readyView container release view).1 (t.attach container view) := by
  let freed := if release then t.setAutoresizing view false else t
  have hfreed : SameLinks freed t := by
    cases release with
    | true => exact t.sameLinks_setAutoresizing view false
    | false => exact .refl t
  have hattach := hfreed.attach container view
  have hready : (t.readyView container release view).1 =
      if view = container then freed
      else if freed.contains container view then freed else freed.attach container view := by
    simp only [readyView, freed]
    split_ifs <;> rfl
  rw [hready]
  by_cases hself : view = container
  · subst hself
    have hnot : ¬t.CanAttach view view := fun h => h.1 rfl
    rw [if_pos rfl, attach_of_not_canAttach hnot]
    exact hfreed
  · rw [if_neg hself]
    by_cases hcontains : freed.contains container view
    · rw [if_pos hcontains]
      exact (sameLinks_attach_of_contains hcontains).symm.trans hattach
    · rw [if_neg hcontains]
      exact hattach

/-- Readying views is, for the links, to attach them one after the other. -/
theorem sameLinks_readyViews (t : ViewTree) (container : ViewId) (release : Bool)
    (views : List ViewId) :
    SameLinks (t.readyViews container release views).1 (t.attachAll container views) := by
  induction views generalizing t with
  | nil => exact .refl t
  | cons view views ih =>
    have hfirst := t.sameLinks_readyView container view release
    exact (ih (t.readyView container release view).1).trans (hfirst.attachAll container views)

/-- Installing readies the views of the fragment, whatever the engine answers. -/
theorem install_tree {E C Err : Type} [LayoutEngine E ViewId C Err] (t : ViewTree) (engine : E)
    (container : ViewId) (fragment : Fragment ViewId) (axis : Axis) (release : Bool) :
    (install t engine container fragment axis release).tree =
      (t.readyViews container release fragment.views.values).1 := by
  simp only [install]
  split <;> rfl

/-! ### Parents are views -/

/-- In the empty tree there is no parent to be known. -/
theorem parentsKnown_empty : ViewTree.empty.ParentsKnown := by
  intro view parent h
  simp [parent?, node?, empty] at h

/-- Whether parents are known is a matter of links. -/
theorem ParentsKnown.of_sameLinks {t u : ViewTree} (h : u.ParentsKnown) (hsame : SameLinks t u) :
    t.ParentsKnown := by
  intro view parent hparent
  rw [hsame.parent] at hparent
  rw [hsame.knows]
  exact h view parent hparent

/-- A new view has no parent. -/
theorem ParentsKnown.addView {t : ViewTree} (h : t.ParentsKnown) (name : String) :
    (t.addView name).2.ParentsKnown := by
  intro view parent hparent
  rw [parent?_addView] at hparent
  exact (t.knows_addView name parent).mpr (.inl (h view parent hparent))

/-- A container has to be known for anything to be attached to it. -/
theorem ParentsKnown.attach {t : ViewTree} (h : t.ParentsKnown) (container view : ViewId) :
    (t.attach container view).ParentsKnown := by
  intro other parent hparent
  rw [parent?_attach] at hparent
  rw [knows_attach]
  split_ifs at hparent with hboth
  · cases hparent
    exact hboth.1.2.1
  · exact h other parent hparent

/-- So the parents stay known when several views are attached in turn. -/
theorem ParentsKnown.attachAll {t : ViewTree} (h : t.ParentsKnown) (container : ViewId)
    (views : List ViewId) : (t.attachAll container views).ParentsKnown := by
  induction views generalizing t with
  | nil => exact h
  | cons view views ih => exact ih (h.attach container view)

variable {E C Err : Type} [LayoutEngine E ViewId C Err]

/-- After any call, parents are views again. -/
theorem ParentsKnown.run {t : ViewTree} (h : t.ParentsKnown) (call : TreeCall E) :
    (call.run t).ParentsKnown := by
  cases call with
  | addRoot name => exact (h.addView name).of_sameLinks (t.sameLinks_addRoot name)
  | addView name => exact h.addView name
  | attach container view => exact h.attach container view
  | setAutoresizing view enabled =>
    exact h.of_sameLinks (t.sameLinks_setAutoresizing view enabled)
  | install engine container fragment axis release =>
    have hready := t.sameLinks_readyViews container release fragment.views.values
    simp only [TreeCall.run, install_tree]
    exact (h.attachAll container _).of_sameLinks hready

/-- After any run of calls, parents are views again. -/
theorem ParentsKnown.runAll {t : ViewTree} (h : t.ParentsKnown) (calls : List (TreeCall E)) :
    (t.runAll calls).ParentsKnown := by
  induction calls generalizing t with
  | nil => exact h
  | cons call calls ih => exact ih (h.run call)

end ViewTree
end LayoutLine
