import LayoutLine.Proofs.ViewTree.Children
import Mathlib.Tactic.Tauto

/-!
# What installing does to the tree

Installing moves views to the container: those of the fragment that exist, are not the container
and are not its children yet. They go behind the children that are there, in the order in which the
fragment first names them, and leave the lists they stood in. Nothing else moves. A view of the
fragment is also freed of the constraints of its own frame, if so wished. After that all is as
installing wants it, and doing it again changes nothing.
-/

namespace LayoutLine
namespace ViewTree

/-- The name a view was made with. -/
def name? (t : ViewTree) (view : ViewId) : Option String := (t.node? view).map ViewNode.name

/-- Whether readying the view moves it: it can be attached to the container and is no child of it
yet. -/
def Joins (t : ViewTree) (container view : ViewId) : Prop :=
  t.CanAttach container view ∧ t.parent? view ≠ some container

instance (t : ViewTree) (container view : ViewId) : Decidable (t.Joins container view) :=
  inferInstanceAs (Decidable (_ ∧ _))

/-- The views that are moved to the container when these are readied for it, in the order in which
they are first named. -/
def joiners (t : ViewTree) (container : ViewId) (views : List ViewId) : List ViewId :=
  (views.filter fun view => t.Joins container view).eraseDups

/-- The second tree is the first one with these views readied for a container. -/
structure Readied (container : ViewId) (release : Bool) (views : List ViewId) (t u : ViewTree) :
    Prop where
  /-- The views are the same and have their names. -/
  name : ∀ view, u.name? view = t.name? view
  /-- The views that were moved have the container as their parent, and no other parent changes. -/
  parent : ∀ view, u.parent? view =
    if view ∈ t.joiners container views then some container else t.parent? view
  /-- The views that were moved stand behind the other children of the container. -/
  arrived : u.children container = t.children container ++ t.joiners container views
  /-- They have left the children of all other views. -/
  left : ∀ other, other ≠ container →
    u.children other = (t.children other).filter (· ∉ t.joiners container views)
  /-- They have left the roots. -/
  roots : u.roots = t.roots.filter (· ∉ t.joiners container views)
  /-- Where that is wished the views are freed, and nothing else is. -/
  autoresizing : ∀ view, u.autoresizing view =
    if release ∧ view ∈ views then false else t.autoresizing view

variable {t u w : ViewTree} {container view : ViewId} {release : Bool}

/-! ### Nodes -/

/-- Attaching a view keeps every field of a node but its links. -/
theorem map_node?_attach {α : Type} (field : ViewNode → α)
    (hparent : ∀ node parent, field { node with parent } = field node)
    (hchildren : ∀ node children, field { node with children } = field node)
    (t : ViewTree) (container view other : ViewId) :
    ((t.attach container view).node? other).map field = (t.node? other).map field := by
  by_cases hcan : t.CanAttach container view
  · have hdetach : ((t.detach view).node? other).map field = (t.node? other).map field := by
      unfold detach
      cases t.parent? view with
      | none => rfl
      | some parent => exact map_node?_update field t parent other fun node => hchildren node _
    rw [attach_of_canAttach hcan, map_node?_update field _ _ _ fun node => hchildren node _,
      map_node?_update field _ _ _ fun node => hparent node _, hdetach]
  · rw [attach_of_not_canAttach hcan]

theorem knows_eq_isSome_name? (t : ViewTree) (view : ViewId) :
    t.knows view = (t.name? view).isSome := Option.isSome_map.symm

/-- A change that leaves a node as it is changes nothing. -/
theorem update_eq_self {change : ViewNode → ViewNode}
    (h : ∀ node, t.node? view = some node → change node = node) : t.update view change = t := by
  have hnodes : t.nodes.modify view change = t.nodes := by
    refine List.ext_getElem? fun i => ?_
    rw [List.getElem?_modify]
    cases hnode : t.nodes[i]? with
    | none => rfl
    | some node =>
      split_ifs with hi
      · subst hi
        exact congrArg some (h node hnode)
      · rfl
  rw [update, hnodes]

/-! ### Freeing a view -/

/-- Frees a view of the constraints of its own frame, if so wished. -/
def free (release : Bool) (t : ViewTree) (view : ViewId) : ViewTree :=
  if release then t.setAutoresizing view false else t

/-- Freeing a view changes no link. -/
theorem sameLinks_free (release : Bool) (t : ViewTree) (view : ViewId) :
    SameLinks (t.free release view) t := by
  cases release with
  | false => exact .refl t
  | true => exact t.sameLinks_setAutoresizing view false

theorem children_free (release : Bool) (t : ViewTree) (view other : ViewId) :
    (t.free release view).children other = t.children other := by
  cases release with
  | false => rfl
  | true => exact t.children_update_of_keeps view other _ fun _ => rfl

theorem roots_free (release : Bool) (t : ViewTree) (view : ViewId) :
    (t.free release view).roots = t.roots := by
  cases release <;> rfl

theorem name?_free (release : Bool) (t : ViewTree) (view other : ViewId) :
    (t.free release view).name? other = t.name? other := by
  cases release with
  | false => rfl
  | true => exact map_node?_update ViewNode.name t view other fun _ => rfl

/-- Only the freed view loses its flag, and only when views are to be freed. -/
theorem autoresizing_free (release : Bool) (t : ViewTree) (view other : ViewId) :
    (t.free release view).autoresizing other =
      if release ∧ other = view then false else t.autoresizing other := by
  cases release with
  | false => simp [free]
  | true =>
    simp only [free, if_true, autoresizing, setAutoresizing, node?_update, true_and]
    by_cases hview : view = other
    · subst hview
      cases t.node? view <;> simp
    · rw [if_neg hview, if_neg (Ne.symm hview)]

/-- A view that is free already need not be freed. -/
theorem free_eq_self (h : release → t.autoresizing view = false) : t.free release view = t := by
  cases release with
  | false => rfl
  | true =>
    refine update_eq_self fun node hnode => ?_
    have hfree : node.autoresizing = false := by
      simpa [autoresizing, hnode] using h rfl
    rw [← hfree]

/-! ### Readying one view -/

/-- Readying frees the view, and attaches it when that moves it. -/
theorem readyView_eq (t : ViewTree) (container view : ViewId) (release : Bool) :
    (t.readyView container release view).1 =
      if t.Joins container view then (t.free release view).attach container view
      else t.free release view := by
  have hfree := sameLinks_free release t view
  have hready : (t.readyView container release view).1 =
      if view = container then t.free release view
      else if (t.free release view).contains container view then t.free release view
      else (t.free release view).attach container view := by
    simp only [readyView, free]
    split_ifs <;> rfl
  have hcontains : (t.free release view).contains container view ↔
      t.parent? view = some container := by
    rw [contains, hfree.parent]
    exact beq_iff_eq
  rw [hready]
  by_cases hcan : t.CanAttach container view
  · rw [if_neg (Ne.symm hcan.1)]
    by_cases hchild : t.parent? view = some container
    · rw [if_pos (hcontains.mpr hchild), if_neg fun hjoins => hjoins.2 hchild]
    · rw [if_neg (mt hcontains.mp hchild), if_pos ⟨hcan, hchild⟩]
  · have hidle : (t.free release view).attach container view = t.free release view :=
      attach_of_not_canAttach (mt (hfree.canAttach_iff container view).mp hcan)
    rw [hidle, ite_self, ite_self, ite_self]

/-! ### The views that move -/

/-- The views that come to a container are those of the list that are not in it yet and can be
attached. -/
theorem mem_joiners {views : List ViewId} :
    view ∈ t.joiners container views ↔ view ∈ views ∧ t.Joins container view := by
  rw [joiners, List.mem_eraseDups, List.mem_filter, decide_eq_true_iff]

theorem joiners_singleton (t : ViewTree) (container view : ViewId) :
    t.joiners container [view] = if t.Joins container view then [view] else [] := by
  by_cases hjoins : t.Joins container view
  · simp [joiners, hjoins, List.eraseDups_cons]
  · simp [joiners, hjoins]

namespace Readied

variable {xs ys : List ViewId}

/-- Readying views makes none and loses none. -/
theorem knows (h : Readied container release xs t u) (view : ViewId) :
    u.knows view = t.knows view := by
  rw [knows_eq_isSome_name?, knows_eq_isSome_name?, h.name]

/-- A view that was moved is where it should be, and moves no more. -/
theorem joins_iff (h : Readied container release xs t u) (view : ViewId) :
    u.Joins container view ↔ t.Joins container view ∧ view ∉ t.joiners container xs := by
  simp only [Joins, CanAttach, h.knows, h.parent]
  split_ifs with hmoved
  · simp [hmoved]
  · simp [hmoved]

/-- What moves when views are readied after others are those that were not moved before. -/
theorem joiners_append (h : Readied container release xs t u) (ys : List ViewId) :
    t.joiners container (xs ++ ys) = t.joiners container xs ++ u.joiners container ys := by
  have hlater : (ys.filter fun view => t.Joins container view).removeAll
      (xs.filter fun view => t.Joins container view) =
        ys.filter fun view => u.Joins container view := by
    rw [List.removeAll, List.filter_filter]
    refine List.filter_congr fun view _ => ?_
    rw [Bool.eq_iff_iff]
    simp only [Bool.and_eq_true, Bool.not_eq_true', List.elem_eq_mem, decide_eq_false_iff_not,
      List.mem_filter, decide_eq_true_iff, h.joins_iff, mem_joiners]
    exact and_comm
  rw [joiners, List.filter_append, List.eraseDups_append, hlater]
  rfl

protected theorem nil (container : ViewId) (release : Bool) (t : ViewTree) :
    Readied container release [] t t where
  name := fun _ => rfl
  parent := fun _ => rfl
  arrived := (List.append_nil _).symm
  left := fun other _ => (List.filter_eq_self.mpr fun _ _ => rfl).symm
  roots := (List.filter_eq_self.mpr fun _ _ => rfl).symm
  autoresizing := fun view => by simp

/-- Views are readied one after the other. -/
protected theorem append (h : Readied container release xs t u)
    (h' : Readied container release ys u w) : Readied container release (xs ++ ys) t w where
  name := fun view => (h'.name view).trans (h.name view)
  parent := fun view => by
    rw [h'.parent, h.parent, h.joiners_append]
    by_cases hlater : view ∈ u.joiners container ys
    · simp [hlater]
    · simp [hlater]
  arrived := by rw [h'.arrived, h.arrived, h.joiners_append, List.append_assoc]
  left := fun other hother => by
    rw [h'.left other hother, h.left other hother, h.joiners_append, List.filter_filter]
    simp only [List.mem_append, not_or, Bool.decide_and, Bool.and_comm]
  roots := by
    rw [h'.roots, h.roots, h.joiners_append, List.filter_filter]
    simp only [List.mem_append, not_or, Bool.decide_and, Bool.and_comm]
  autoresizing := fun view => by
    rw [h'.autoresizing, h.autoresizing]
    cases release with
    | false => simp
    | true =>
      by_cases hlater : view ∈ ys
      · simp [hlater]
      · simp [hlater]

/-- The children of each view are still the views it is the parent of. -/
theorem childrenLinked (h : Readied container release xs t u) (hlinked : t.ChildrenLinked) :
    u.ChildrenLinked := by
  intro other view
  rw [h.parent]
  by_cases hother : other = container
  · subst hother
    rw [h.arrived, List.mem_append, hlinked]
    split_ifs with hmoved
    · simp [hmoved]
    · simp [hmoved]
  · rw [h.left other hother, List.mem_filter, hlinked]
    split_ifs with hmoved
    · simp [hmoved, Ne.symm hother]
    · simp [hmoved]

end Readied

/-! ### Readying views for a container -/

/-- A view that does not move is only freed. -/
theorem readied_free (hstays : ¬t.Joins container view) (release : Bool) :
    Readied container release [view] t (t.free release view) := by
  have hmoved : t.joiners container [view] = [] := by
    rw [joiners_singleton, if_neg hstays]
  have hnone (views : List ViewId) : views.filter (· ∉ t.joiners container [view]) = views := by
    rw [hmoved]
    exact List.filter_eq_self.mpr fun _ _ => rfl
  refine ⟨name?_free release t view, fun other => ?_, ?_, fun other _ => ?_, ?_, fun other => ?_⟩
  · rw [hmoved, (sameLinks_free release t view).parent, if_neg List.not_mem_nil]
  · rw [hmoved, children_free, List.append_nil]
  · rw [hnone, children_free]
  · rw [hnone, roots_free]
  · simp only [List.mem_singleton]
    exact autoresizing_free release t view other

/-- A view that moves leaves the lists it stands in and goes behind the children of the
container. -/
theorem readied_attach_free (hlinked : t.ChildrenLinked) (hjoins : t.Joins container view)
    (release : Bool) :
    Readied container release [view] t ((t.free release view).attach container view) := by
  have hfree := sameLinks_free release t view
  have hcan := (hfree.canAttach_iff container view).mpr hjoins.1
  have hmoved : t.joiners container [view] = [view] := by
    rw [joiners_singleton, if_pos hjoins]
  have hothers (views : List ViewId) :
      views.filter (· ∉ t.joiners container [view]) = views.filter (· != view) := by
    rw [hmoved]
    simp only [List.mem_singleton, bne, decide_not]
    rfl
  have hlists (other : ViewId) := ChildrenLinked.children_attach (t := t.free release view)
    (fun other child => by rw [children_free, hfree.parent, hlinked]) hcan other
  have hnew : (t.children container).filter (· != view) = t.children container := by
    refine List.filter_eq_self.mpr fun child hchild => bne_iff_ne.mpr ?_
    rintro rfl
    exact hjoins.2 ((hlinked container child).mp hchild)
  refine ⟨fun other => ?_, fun other => ?_, ?_, fun other hother => ?_, ?_, fun other => ?_⟩
  · rw [← name?_free release t view other]
    exact map_node?_attach ViewNode.name (fun _ _ => rfl) (fun _ _ => rfl) _ _ _ _
  · rw [parent?_attach, hmoved, hfree.parent]
    simp only [hcan, true_and, List.mem_singleton]
  · rw [hlists, children_free, hmoved, hnew, if_pos rfl]
  · rw [hlists, children_free, hothers, if_neg (Ne.symm hother), List.append_nil]
  · rw [roots_attach hcan, roots_free, hothers]
  · simp only [List.mem_singleton]
    rw [← autoresizing_free]
    exact congrArg (·.getD false)
      (map_node?_attach ViewNode.autoresizing (fun _ _ => rfl) (fun _ _ => rfl) _ _ _ _)

/-- Readying one view does to the tree what is said of a list with just that view. -/
theorem readied_readyView (hlinked : t.ChildrenLinked) (container view : ViewId) (release : Bool) :
    Readied container release [view] t (t.readyView container release view).1 := by
  rw [readyView_eq]
  split_ifs with hjoins
  · exact readied_attach_free hlinked hjoins release
  · exact readied_free hjoins release

/-- Views are readied in the order in which they are given. -/
theorem readied_readyViews (hlinked : t.ChildrenLinked) (container : ViewId) (release : Bool)
    (views : List ViewId) :
    Readied container release views t (t.readyViews container release views).1 := by
  -- The views behind the first one are readied in the tree it leaves, which is linked as well.
  induction views generalizing t with
  | nil => exact .nil container release t
  | cons view views ih =>
    have hfirst := readied_readyView hlinked container view release
    exact hfirst.append (ih (hfirst.childrenLinked hlinked))

/-- Where no view moves and all are free, readying them changes nothing. -/
theorem readyViews_eq_self {views : List ViewId}
    (hstay : ∀ view ∈ views, ¬t.Joins container view)
    (hfree : release → ∀ view ∈ views, t.autoresizing view = false) :
    (t.readyViews container release views).1 = t := by
  induction views with
  | nil => rfl
  | cons view views ih =>
    have hfirst : (t.readyView container release view).1 = t := by
      rw [readyView_eq, if_neg (hstay view List.mem_cons_self)]
      exact free_eq_self fun hrelease => hfree hrelease view List.mem_cons_self
    rw [readyViews, hfirst]
    exact ih (fun other hother => hstay other (List.mem_cons_of_mem view hother))
      fun hrelease other hother => hfree hrelease other (List.mem_cons_of_mem view hother)

/-- Views that have been readied stay as they are when they are readied again. -/
theorem Readied.readyViews_eq_self {views : List ViewId}
    (h : Readied container release views t u) :
    (u.readyViews container release views).1 = u := by
  refine ViewTree.readyViews_eq_self (fun view hview hjoins => ?_) fun hrelease view hview => ?_
  · obtain ⟨hjoined, hnot⟩ := (h.joins_iff view).mp hjoins
    exact hnot (mem_joiners.mpr ⟨hview, hjoined⟩)
  · rw [h.autoresizing, if_pos ⟨hrelease, hview⟩]

/-! ### Runs of calls -/

variable {E C Err : Type} [LayoutEngine E ViewId C Err]

/-- After any call, the children of each view are the views it is the parent of. -/
theorem ChildrenLinked.run (h : t.ChildrenLinked) (call : TreeCall E) :
    (call.run t).ChildrenLinked := by
  cases call with
  | addRoot name => exact h.addView name
  | addView name => exact h.addView name
  | attach container view => exact h.attach container view
  | setAutoresizing view enabled => exact h.setAutoresizing view enabled
  | install engine container fragment axis release =>
    simp only [TreeCall.run, install_tree]
    exact (readied_readyViews h container release _).childrenLinked h

/-- After any run of calls, the children of each view are the views it is the parent of. -/
theorem ChildrenLinked.runAll (h : t.ChildrenLinked) (calls : List (TreeCall E)) :
    (t.runAll calls).ChildrenLinked := by
  induction calls generalizing t with
  | nil => exact h
  | cons call calls ih => exact ih (h.run call)

/-- **What installing does to the tree, and only that.** After any run of calls and whatever the
engine answers, the views of the fragment that exist and are not the container have the container
as their parent, and all others the parent they had. Those that were no children of it yet have
moved: they stand behind its other children, in the order in which the table first names them, and
have left the children of all other views and the roots. Names stay; the views of the fragment are
freed if so wished, and no others. Installing again, with whatever engine, leaves the tree as it
is. -/
theorem install_moves_views (calls : List (TreeCall E)) (engine again : E) (container : ViewId)
    (fragment : Fragment ViewId) (axis : Axis) (release : Bool)
    (hknown : (runAll .empty calls).knows container) :
    let before := runAll .empty calls
    let after := (install before engine container fragment axis release).tree
    let views := fragment.views.values
    let moved := before.joiners container views
    (∀ view, after.parent? view =
      if view ∈ views ∧ before.knows view ∧ view ≠ container then some container
      else before.parent? view) ∧
    after.children container = before.children container ++ moved ∧
    (∀ other, other ≠ container →
      after.children other = (before.children other).filter (· ∉ moved)) ∧
    after.roots = before.roots.filter (· ∉ moved) ∧
    (∀ view, after.name? view = before.name? view) ∧
    (∀ view, after.autoresizing view =
      if release ∧ view ∈ views then false else before.autoresizing view) ∧
    (install after again container fragment axis release).tree = after := by
  intro before after views moved
  have hafter : after = (before.readyViews container release views).1 :=
    install_tree before engine container fragment axis release
  have hready : Readied container release views before after := by
    rw [hafter]
    exact readied_readyViews (childrenLinked_empty.runAll calls) container release views
  refine ⟨fun view => ?_, hready.arrived, hready.left, hready.roots, hready.name,
    hready.autoresizing, ?_⟩
  · have hmoved : view ∈ before.joiners container views ↔
        (view ∈ views ∧ before.knows view ∧ view ≠ container) ∧
          before.parent? view ≠ some container := by
      rw [mem_joiners, Joins, CanAttach, ne_comm]
      simp only [before, hknown, true_and]
      tauto
    rw [hready.parent]
    simp only [hmoved]
    by_cases hnamed : view ∈ views ∧ before.knows view ∧ view ≠ container
    · rw [if_pos hnamed]
      split_ifs with hjoined
      · rfl
      · exact not_not.mp fun hother => hjoined ⟨hnamed, hother⟩
    · rw [if_neg hnamed, if_neg fun hjoined => hnamed hjoined.1]
  · rw [install_tree]
    exact hready.readyViews_eq_self

/-- A window (0) with the views 1 and 2, of which 2 has the view 3, and a root 4. -/
def crowdedCalls : List (TreeCall (FormatEngine ViewId)) :=
  [.addRoot "window", .addView "pane", .addView "box", .addView "field", .addRoot "label",
    .attach 0 1, .attach 0 2, .attach 2 3]

/-- A fragment that binds the label twice, the field, the pane, the window itself and a view that
does not exist. Its text is no line. -/
def crowdedFragment : Fragment ViewId where
  views := .ofList [("view_0", 4), ("view_1", 9), ("view_2", 3), ("view_3", 0), ("view_4", 4),
    ("view_5", 1)]

/-- The label and the field go behind the pane and the box, though the engine fails. -/
theorem install_moves_views_crowded :
    let before := runAll .empty crowdedCalls
    let outcome := install before (default : FormatEngine ViewId) 0 crowdedFragment .horizontal true
    before.knows 0 ∧ before.children 0 = [1, 2] ∧ before.children 2 = [3] ∧
      before.roots = [0, 4] ∧ outcome.result.toOption = none ∧
      outcome.tree.children 0 = [1, 2] ++ [4, 3] ∧ outcome.tree.children 2 = [] ∧
      outcome.tree.roots = [0] ∧
      (install outcome.tree outcome.engine 0 crowdedFragment .horizontal true).tree =
        outcome.tree := by
  have hknown : (runAll .empty crowdedCalls).knows 0 := by decide
  obtain ⟨-, harrived, hleft, hroots, -, -, hagain⟩ :=
    install_moves_views crowdedCalls default _ 0 crowdedFragment .horizontal true hknown
  exact ⟨hknown, by decide, by decide, by decide, by rfl, harrived.trans (by decide),
    (hleft 2 (by decide)).trans (by decide), hroots.trans (by decide), hagain⟩

end ViewTree
end LayoutLine
