import LayoutLine.Engine
import LayoutLine.Proofs.ViewTree.Links
import Mathlib.Logic.Relation
import Mathlib.Order.WellFoundedSet

/-!
# When a view tree is a forest

Going from a view to its parent, and on from there, ends at a view without a parent as long as no
view lies under itself. Attaching refuses to make a view its own parent and looks no further: a
container may lie under the view that is attached to it. Attaching such a view closes a loop
through the container, and attaching other views to the container does not open it again. Every
other call on a forest gives a forest.
-/

open Relation (ReflTransGen TransGen)

namespace LayoutLine
namespace ViewTree

/-- The link from a view to its parent. -/
def ChildOf (t : ViewTree) (view parent : ViewId) : Prop := t.parent? view = some parent

/-- One or more parent links lead from a view to another. -/
def Under (t : ViewTree) : ViewId → ViewId → Prop := TransGen t.ChildOf

/-- Parent links lead from a view to a view without a parent. -/
inductive Rooted (t : ViewTree) : ViewId → Prop
  | root {view : ViewId} (hknows : t.knows view) (hparent : t.parent? view = none) : Rooted t view
  | child {view parent : ViewId} (hlink : t.ChildOf view parent) (hparent : Rooted t parent) :
      Rooted t view

/-- From every view, parent links lead to a view without a parent. -/
def Forest (t : ViewTree) : Prop := ∀ view, t.knows view → t.Rooted view

variable {t u : ViewTree} {container view : ViewId}

/-- A view with a parent is known. -/
theorem knows_of_childOf (h : t.ChildOf view container) : t.knows view := by
  cases hnode : t.node? view with
  | none => simp [ChildOf, parent?, hnode] at h
  | some node => simp [knows, hnode]

/-- A view has one parent at most. -/
theorem ChildOf.unique {parent other : ViewId} (h : t.ChildOf view parent)
    (h' : t.ChildOf view other) : parent = other :=
  Option.some.inj (h.symm.trans h')

/-- A view without a parent is nobody's child. -/
theorem not_childOf_of_root (h : t.parent? view = none) (parent : ViewId) :
    ¬t.ChildOf view parent := fun hlink => by
  cases h.symm.trans hlink

/-- What has something below it is known. -/
theorem knows_of_under (h : t.Under container view) : t.knows container := by
  obtain ⟨parent, hlink, -⟩ := TransGen.head'_iff.mp h
  exact knows_of_childOf hlink

/-- A view below a root is known. -/
theorem Rooted.knows (h : t.Rooted view) : t.knows view := by
  cases h with
  | root hknows _ => exact hknows
  | child hlink _ => exact knows_of_childOf hlink

/-- What lies above a rooted view is rooted. -/
theorem Rooted.of_under (h : t.Rooted container) (habove : t.Under container view) :
    t.Rooted view := by
  induction habove with
  | single hlink =>
    cases h with
    | root _ hnone => exact absurd hlink (not_childOf_of_root hnone _)
    | child hlink' hparent => exact hlink'.unique hlink ▸ hparent
  | tail _ hlink ih =>
    cases ih with
    | root _ hnone => exact absurd hlink (not_childOf_of_root hnone _)
    | child hlink' hparent => exact hlink'.unique hlink ▸ hparent

/-- A rooted view does not lie under itself: the loop would run through its parent, and so on up to
the root, which has no parent. -/
theorem Rooted.not_under_self (h : t.Rooted view) : ¬t.Under view view := by
  induction h with
  | root _ hnone =>
    intro hloop
    obtain ⟨parent, hlink, -⟩ := TransGen.head'_iff.mp hloop
    exact not_childOf_of_root hnone parent hlink
  | @child view parent hlink _ ih =>
    intro hloop
    obtain ⟨above, hlink', hrest⟩ := TransGen.head'_iff.mp hloop
    obtain rfl := hlink.unique hlink'
    exact ih (TransGen.tail' hrest hlink)

/-- A tree whose parents are views is a forest exactly when no view lies under itself. There are
finitely many views, so going up without coming back has an end. -/
theorem forest_iff_not_under_self (h : t.ParentsKnown) :
    t.Forest ↔ ∀ view, ¬t.Under view view := by
  constructor
  · intro hforest view hloop
    exact (hforest view (knows_of_under hloop)).not_under_self hloop
  · intro hloops
    let views : Set ViewId := { view | t.knows view }
    have hfinite : views.Finite := by
      refine (Set.finite_lt_nat t.nodes.length).subset fun view hview => ?_
      simpa [views, knows, node?] using hview
    have horder : IsStrictOrder ViewId fun upper lower => t.Under lower upper :=
      { irrefl := hloops, trans := fun _ _ _ hab hbc => TransGen.trans hbc hab }
    intro view hview
    have hwell : views.WellFoundedOn fun upper lower => t.Under lower upper :=
      hfinite.wellFoundedOn
    refine hwell.induction hview fun view hview ih => ?_
    cases hparent : t.parent? view with
    | none => exact .root hview hparent
    | some parent => exact .child hparent (ih parent (h view parent hparent) (.single hparent))

/-! ### Attaching -/

/-- What is attached is then a child of the container. -/
theorem childOf_attach_self (h : t.CanAttach container view) :
    (t.attach container view).ChildOf view container :=
  parent?_attach_self h

/-- Any other view has the parent it had. -/
theorem childOf_attach_of_ne {other parent : ViewId} (h : other ≠ view) :
    (t.attach container view).ChildOf other parent ↔ t.ChildOf other parent := by
  rw [ChildOf, parent?_attach_of_ne t h, ChildOf]

/-- Above the container nothing changes unless the attached view is there. -/
theorem under_attach_iff (h : ¬t.Under container view) (above : ViewId) :
    (t.attach container view).Under container above ↔ t.Under container above := by
  by_cases hself : container = view
  · rw [attach_of_not_canAttach fun hcan => hcan.1 hself]
  constructor
  · intro habove
    induction habove with
    | single hlink => exact .single ((childOf_attach_of_ne hself).mp hlink)
    | tail _ hlink ih =>
      have hne : _ ≠ view := fun heq => h (heq ▸ ih)
      exact ih.tail ((childOf_attach_of_ne hne).mp hlink)
  · intro habove
    induction habove with
    | single hlink => exact .single ((childOf_attach_of_ne hself).mpr hlink)
    | tail hfirst hlink ih =>
      have hne : _ ≠ view := fun heq => h (heq ▸ hfirst)
      exact ih.tail ((childOf_attach_of_ne hne).mpr hlink)

/-- What lay above the container still does, or the container has come to lie under itself: where
the way up ran through the attached view, it now turns back. -/
theorem reach_attach_or_loop (hself : container ≠ view) {above : ViewId}
    (h : ReflTransGen t.ChildOf container above) :
    ReflTransGen (t.attach container view).ChildOf container above ∨
      (t.attach container view).Under container container := by
  by_cases hcan : t.CanAttach container view
  · induction h with
    | refl => exact .inl .refl
    | @tail middle above _ hlink ih =>
      rcases ih with hreach | hloop
      · by_cases hview : middle = view
        · subst hview
          exact .inr (TransGen.tail' hreach (childOf_attach_self hcan))
        · exact .inl (hreach.tail ((childOf_attach_of_ne hview).mpr hlink))
      · exact .inr hloop
  · rw [attach_of_not_canAttach hcan]
    exact .inl h

/-- Attaching a view to a container that lies under it closes a loop. -/
theorem under_self_attach (hcan : t.CanAttach container view) (h : t.Under container view) :
    (t.attach container view).Under container container := by
  rcases reach_attach_or_loop hcan.1 h.to_reflTransGen with hreach | hloop
  · exact TransGen.tail' hreach (childOf_attach_self hcan)
  · exact hloop

/-- A loop through the container outlives attaching views to it. -/
theorem under_self_attachAll (views : List ViewId) (h : t.Under container container) :
    (t.attachAll container views).Under container container := by
  induction views generalizing t with
  | nil => exact h
  | cons view views ih =>
    refine ih (t := t.attach container view) ?_
    by_cases hcan : t.CanAttach container view
    · obtain ⟨last, hreach, hlink⟩ := TransGen.tail'_iff.mp h
      rcases reach_attach_or_loop hcan.1 hreach with hreach | hloop
      · by_cases hlast : last = view
        · subst hlast
          exact TransGen.tail' hreach (childOf_attach_self hcan)
        · exact TransGen.tail' hreach ((childOf_attach_of_ne hlast).mpr hlink)
      · exact hloop
    · rw [attach_of_not_canAttach hcan]
      exact h

/-- A rooted view stays rooted when a view that is not above it is attached elsewhere. -/
theorem Rooted.attach_of_not_above {other : ViewId} (h : t.Rooted other)
    (habove : ¬ReflTransGen t.ChildOf other view) : (t.attach container view).Rooted other := by
  induction h with
  | @root other hknows hparent =>
    have hne : other ≠ view := fun heq => habove (heq ▸ .refl)
    refine .root (by rwa [knows_attach]) ?_
    rw [parent?_attach_of_ne t hne]
    exact hparent
  | @child other parent hlink _ ih =>
    have hne : other ≠ view := fun heq => habove (heq ▸ .refl)
    have hrooted := ih fun hparent => habove (hparent.head hlink)
    exact .child ((childOf_attach_of_ne hne).mpr hlink) hrooted

/-- Attaching a view keeps a forest as long as the container does not lie under the view. -/
theorem Forest.attach (h : t.Forest) (hunder : ¬t.Under container view) :
    (t.attach container view).Forest := by
  by_cases hcan : t.CanAttach container view
  · have hcontainer : (t.attach container view).Rooted container := by
      refine (h container hcan.2.1).attach_of_not_above fun hreach => ?_
      rcases ReflTransGen.cases_head_iff.mp hreach with heq | ⟨parent, hlink, hreach⟩
      · exact hcan.1 heq
      · exact hunder (TransGen.head' hlink hreach)
    intro other hother
    rw [knows_attach] at hother
    induction h other hother with
    | @root other hknows hparent =>
      by_cases hview : other = view
      · subst hview
        exact .child (childOf_attach_self hcan) hcontainer
      · refine .root (by rwa [knows_attach]) ?_
        rw [parent?_attach_of_ne t hview]
        exact hparent
    | @child other parent hlink hparent ih =>
      by_cases hview : other = view
      · subst hview
        exact .child (childOf_attach_self hcan) hcontainer
      · exact .child ((childOf_attach_of_ne hview).mpr hlink) (ih hparent.knows)
  · rwa [attach_of_not_canAttach hcan]

/-- Attaching views to one container makes a forest of a forest exactly when the container lies
under none of them. -/
theorem forest_attachAll_iff (h : t.Forest) (container : ViewId) (views : List ViewId) :
    (t.attachAll container views).Forest ↔ ∀ view ∈ views, ¬t.Under container view := by
  induction views generalizing t with
  | nil => simpa [attachAll] using h
  | cons view views ih =>
    by_cases hunder : t.Under container view
    · have hrooted := h container (knows_of_under hunder)
      have hcan : t.CanAttach container view := by
        refine ⟨fun heq => hrooted.not_under_self (heq ▸ hunder), knows_of_under hunder, ?_⟩
        exact (hrooted.of_under hunder).knows
      have hloop : (t.attachAll container (view :: views)).Under container container :=
        under_self_attachAll views (under_self_attach hcan hunder)
      constructor
      · intro hforest
        exact absurd hloop (hforest container (knows_of_under hloop)).not_under_self
      · intro hnone
        exact absurd hunder (hnone view List.mem_cons_self)
    · have hlater := ih (h.attach hunder)
      simp only [under_attach_iff hunder] at hlater
      rw [List.forall_mem_cons]
      exact ⟨fun hforest => ⟨hunder, hlater.mp hforest⟩, fun hnone => hlater.mpr hnone.2⟩

/-! ### Calls -/

/-- Whether a tree is a forest is a matter of links. -/
theorem forest_of_sameLinks (hsame : SameLinks t u) (h : u.Forest) : t.Forest := by
  intro view hview
  rw [hsame.knows] at hview
  induction h view hview with
  | root hknows hparent =>
    exact .root (by rwa [hsame.knows]) (by rwa [hsame.parent])
  | child hlink hparent ih =>
    exact .child (by rwa [ChildOf, hsame.parent]) (ih hparent.knows)

theorem forest_iff_of_sameLinks (hsame : SameLinks t u) : t.Forest ↔ u.Forest :=
  ⟨forest_of_sameLinks hsame.symm, forest_of_sameLinks hsame⟩

/-- A new view without a parent is one more root. -/
theorem Forest.addView (h : t.Forest) (name : String) : (t.addView name).2.Forest := by
  intro view hview
  have hold (other : ViewId) (hrooted : t.Rooted other) : (t.addView name).2.Rooted other := by
    induction hrooted with
    | root hknows hparent =>
      exact .root ((t.knows_addView name _).mpr (.inl hknows)) (by rwa [parent?_addView])
    | child hlink _ ih => exact .child (by rwa [ChildOf, parent?_addView]) ih
  rcases (t.knows_addView name view).mp hview with hknows | rfl
  · exact hold view (h view hknows)
  · refine .root hview ?_
    rw [parent?_addView, parent?, node?, List.getElem?_eq_none (Nat.le_refl _)]
    rfl

end ViewTree

/-- A call that attaches no view to a container under it, be it by itself or by installing. -/
def TreeCall.Upright {E : Type} (t : ViewTree) : TreeCall E → Prop
  | .attach container view => ¬t.Under container view
  | .install _ container fragment _ _ => ∀ view ∈ fragment.views.values, ¬t.Under container view
  | _ => True

namespace ViewTree

variable {E C Err : Type} [LayoutEngine E ViewId C Err]

/-- A call makes a forest of a forest exactly when it is upright. -/
theorem forest_run_iff {t : ViewTree} (h : t.Forest) (call : TreeCall E) :
    (call.run t).Forest ↔ call.Upright t := by
  cases call with
  | addRoot name =>
    exact iff_of_true (forest_of_sameLinks (t.sameLinks_addRoot name) (h.addView name)) trivial
  | addView name => exact iff_of_true (h.addView name) trivial
  | attach container view =>
    have hattach := forest_attachAll_iff h container [view]
    rwa [List.forall_mem_singleton] at hattach
  | setAutoresizing view enabled =>
    exact iff_of_true (forest_of_sameLinks (t.sameLinks_setAutoresizing view enabled) h) trivial
  | install engine container fragment axis release =>
    have hready := t.sameLinks_readyViews container release fragment.views.values
    simp only [TreeCall.run, TreeCall.Upright, install_tree, forest_iff_of_sameLinks hready]
    exact forest_attachAll_iff h container _

/-- The empty tree is a forest. -/
theorem forest_empty : ViewTree.empty.Forest := by
  intro view hview
  simp [knows, node?, empty] at hview

/-- The last call acts on the tree that the others left. -/
theorem runAll_append_singleton (t : ViewTree) (calls : List (TreeCall E)) (call : TreeCall E) :
    t.runAll (calls ++ [call]) = call.run (t.runAll calls) := by
  rw [runAll, List.foldl_append]
  rfl

/-- The trees along a run out of nothing are all forests exactly when every call of the run is
upright for the tree it finds. In each of these trees, that parent links end at a root is the same
as that no view lies under itself. -/
theorem forests_along_run_iff (calls : List (TreeCall E)) :
    ((∀ done, done <+: calls → (runAll .empty done).Forest) ↔
      ∀ done call, done ++ [call] <+: calls → call.Upright (runAll .empty done)) ∧
    ((runAll .empty calls).Forest ↔ ∀ view, ¬(runAll .empty calls).Under view view) := by
  refine ⟨⟨?_, ?_⟩, forest_iff_not_under_self (parentsKnown_empty.runAll calls)⟩
  · intro hforests done call hprefix
    have hbefore : (runAll .empty done).Forest :=
      hforests done ((List.prefix_append done [call]).trans hprefix)
    have hafter := hforests (done ++ [call]) hprefix
    rw [runAll_append_singleton] at hafter
    exact (forest_run_iff hbefore call).mp hafter
  · intro hupright done
    induction done using List.reverseRecOn with
    | nil => exact fun _ => forest_empty
    | append_singleton done call ih =>
      intro hprefix
      have hbefore := ih ((List.prefix_append done [call]).trans hprefix)
      rw [runAll_append_singleton]
      exact (forest_run_iff hbefore call).mpr (hupright done call hprefix)

/-- Two roots attached to each other in turn lie under themselves, and their tree is no forest. -/
theorem not_forest_after_mutual_attach :
    (runAll .empty ([.addRoot "a", .addRoot "b", .attach 0 1, .attach 1 0] :
      List (TreeCall (FormatEngine ViewId)))).Under 0 0 ∧
    ¬(runAll .empty ([.addRoot "a", .addRoot "b", .attach 0 1, .attach 1 0] :
      List (TreeCall (FormatEngine ViewId)))).Forest := by
  have hloop : (runAll .empty ([.addRoot "a", .addRoot "b", .attach 0 1, .attach 1 0] :
      List (TreeCall (FormatEngine ViewId)))).Under 0 0 :=
    .tail (.single (b := 1) rfl) rfl
  exact ⟨hloop, fun hforest => (hforest 0 rfl).not_under_self hloop⟩

end ViewTree
end LayoutLine
