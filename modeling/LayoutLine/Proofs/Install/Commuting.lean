import LayoutLine.Proofs.Install.Frame
import LayoutLine.Proofs.Install.History
import Mathlib.Data.List.Lattice

/-!
# Installing in either order

Two installations meet in the tree: one may take views from the children of the other's container,
or move that container itself. As long as the containers are two and no view is in both fragments
they do not get in each other's way. What either moves does not depend on the other, and views that
go behind the children of a container are not those that the other takes away. The engine keeps what
it is given by container. So it makes no difference which of the two comes first.
-/

namespace LayoutLine
namespace ViewTree

/-- A tree is known by its roots and by what it says of each view. -/
theorem ext_views {t u : ViewTree} (hname : ∀ view, t.name? view = u.name? view)
    (hparent : ∀ view, t.parent? view = u.parent? view)
    (hchildren : ∀ view, t.children view = u.children view)
    (hautoresizing : ∀ view, t.autoresizing view = u.autoresizing view)
    (hroots : t.roots = u.roots) : t = u := by
  have hnode (view : ViewId) : t.node? view = u.node? view := by
    have hknown := t.knows_eq_isSome_name? view
    rw [hname, ← knows_eq_isSome_name?, knows, knows] at hknown
    specialize hname view
    specialize hparent view
    specialize hchildren view
    specialize hautoresizing view
    simp only [name?, parent?, children, autoresizing] at hname hparent hchildren hautoresizing
    cases ht : t.node? view with
    | none =>
      rw [ht] at hknown
      exact (Option.isNone_iff_eq_none.mp (by simpa using hknown.symm)).symm
    | some node =>
      cases hu : u.node? view with
      | none => simp [ht, hu] at hknown
      | some other =>
        obtain ⟨name, parent, children, autoresizing⟩ := node
        obtain ⟨name', parent', children', autoresizing'⟩ := other
        simp only [ht, hu, Option.map_some, Option.bind_some, Option.getD_some,
          Option.some.injEq] at hname hparent hchildren hautoresizing
        simp only [hname, hparent, hchildren, hautoresizing]
  obtain ⟨nodes, roots⟩ := t
  obtain ⟨nodes', roots'⟩ := u
  obtain rfl : nodes = nodes' := List.ext_getElem? hnode
  obtain rfl : roots = roots' := hroots
  rfl

namespace Readied

variable {t u w u' w' : ViewTree} {c d : ViewId} {r s : Bool} {xs ys : List ViewId}

theorem notMem_joiners {view : ViewId} (t : ViewTree) (c : ViewId) (h : view ∉ xs) :
    view ∉ t.joiners c xs := fun hmoved => h (mem_joiners.mp hmoved).1

/-- Readying other views does not change which views move. -/
theorem joiners_of_disjoint (h : Readied c r xs t u) (hdisjoint : xs.Disjoint ys) (d : ViewId) :
    u.joiners d ys = t.joiners d ys := by
  have hjoins : ∀ view ∈ ys, (u.Joins d view ↔ t.Joins d view) := by
    intro view hview
    have hother := notMem_joiners t c fun hmem => hdisjoint hmem hview
    simp only [Joins, CanAttach, h.knows, h.parent, if_neg hother]
  rw [joiners, joiners,
    List.filter_congr fun view hview => decide_eq_decide.mpr (hjoins view hview)]

/-- The children that a container has got stay when other views are readied for another one. -/
theorem children_comm (h : Readied c r xs t u) (k : Readied d s ys u w) (k' : Readied d s ys t u')
    (h' : Readied c r xs u' w') (hcd : c ≠ d) (hdisjoint : xs.Disjoint ys) :
    w.children c = w'.children c := by
  have harrived : (t.joiners c xs).filter (· ∉ t.joiners d ys) = t.joiners c xs := by
    refine List.filter_eq_self.mpr fun view hview => decide_eq_true ?_
    exact notMem_joiners t d (hdisjoint (mem_joiners.mp hview).1)
  rw [k.left c hcd, h.arrived, h'.arrived, k'.left c hcd, h.joiners_of_disjoint hdisjoint,
    k'.joiners_of_disjoint hdisjoint.symm, List.filter_append, harrived]

/-- Views that are readied for one container and others for another one may be readied in either
order. -/
theorem comm (h : Readied c r xs t u) (k : Readied d s ys u w) (k' : Readied d s ys t u')
    (h' : Readied c r xs u' w') (hcd : c ≠ d) (hdisjoint : xs.Disjoint ys) : w = w' := by
  have hmoved := h.joiners_of_disjoint hdisjoint d
  have hmoved' := k'.joiners_of_disjoint hdisjoint.symm c
  refine ext_views (fun view => ?_) (fun view => ?_) (fun view => ?_) (fun view => ?_) ?_
  · rw [k.name, h.name, h'.name, k'.name]
  · rw [k.parent, h.parent, h'.parent, k'.parent, hmoved, hmoved']
    by_cases hview : view ∈ xs
    · have hother := notMem_joiners t d (hdisjoint hview)
      rw [if_neg hother, if_neg hother]
    · have hother := notMem_joiners t c hview
      rw [if_neg hother, if_neg hother]
  · by_cases hc : view = c
    · rw [hc]
      exact h.children_comm k k' h' hcd hdisjoint
    · by_cases hd : view = d
      · rw [hd]
        exact (k'.children_comm h' h k hcd.symm hdisjoint.symm).symm
      · rw [k.left view hd, h.left view hc, h'.left view hc, k'.left view hd, hmoved, hmoved',
          List.filter_filter, List.filter_filter]
        simp only [Bool.and_comm]
  · rw [k.autoresizing, h.autoresizing, h'.autoresizing, k'.autoresizing]
    split_ifs <;> rfl
  · rw [k.roots, h.roots, h'.roots, k'.roots, hmoved, hmoved', List.filter_filter,
      List.filter_filter]
    simp only [Bool.and_comm]

end Readied
end ViewTree

namespace InstallJob

variable {E C Err : Type} [LayoutEngine E ViewId C Err]

/-- The successes for a container are those of the jobs that are for it. -/
theorem filter_successes (config : StandardSpacing) (container : ViewId) (jobs : List InstallJob) :
    (successes config jobs).filter (·.1.container == container) =
      successes config (jobs.filter (·.container == container)) := by
  induction jobs with
  | nil => rfl
  | cons job jobs ih =>
    rw [List.filter_cons]
    cases hanswer : job.answer config with
    | error error =>
      rw [successes_cons_of_error hanswer, ih]
      split
      · rw [successes_cons_of_error hanswer]
      · rfl
    | ok constraints =>
      rw [successes_cons_of_ok hanswer, List.filter_cons, ih]
      split
      · rw [successes_cons_of_ok hanswer]
      · rfl

/-- What a job does to the tree is to ready its views. -/
theorem readied_run {tree : ViewTree} (hlinked : tree.ChildrenLinked) (job : InstallJob)
    (engine : FormatEngine ViewId) :
    ViewTree.Readied job.container job.release job.fragment.views.values tree
      (job.run tree engine).tree := by
  rw [run, ViewTree.install_tree]
  exact ViewTree.readied_readyViews hlinked job.container job.release _

/-- **Installs into different containers commute.** Two fragments that have no view in common may be
installed in two containers in either order, in any tree that calls can make and on any engine, and
either of them may move the container of the other. Each call returns the same, a number of
constraints or the reason there are none. The tree is the same afterwards, with its parents, the
children of each view and the roots in their order and the marks of the views; and every container
has the same constraints in the same order. -/
theorem installs_commute (calls : List (TreeCall E)) (engine : FormatEngine ViewId)
    (a b : InstallJob) (hcontainers : a.container ≠ b.container)
    (hviews : a.fragment.views.values.Disjoint b.fragment.views.values) :
    let tree := ViewTree.runAll .empty calls
    let ab := runAll tree engine [a, b]
    let ba := runAll tree engine [b, a]
    (∃ resultA resultB, ab.results = [resultA, resultB] ∧ ba.results = [resultB, resultA]) ∧
    ab.tree = ba.tree ∧
    ∀ container, ab.engine.constraintsOn container = ba.engine.constraintsOn container := by
  intro tree ab ba
  have hlinked : tree.ChildrenLinked := ViewTree.childrenLinked_empty.runAll calls
  have ha := readied_run hlinked a engine
  have hb := readied_run hlinked b engine
  have hcomm := ha.comm (readied_run (ha.childrenLinked hlinked) b (a.run tree engine).engine) hb
    (readied_run (hb.childrenLinked hlinked) a (b.run tree engine).engine) hcontainers hviews
  have hab := runAll_eq tree engine [a, b]
  have hba := runAll_eq tree engine [b, a]
  refine ⟨?_, ?_, fun container => ?_⟩
  · rw [hab.2, hba.2]
    exact ⟨_, _, rfl, rfl⟩
  · simp only [ab, ba, runAll]
    exact hcomm
  · have hjobs : [a, b].filter (·.container == container) =
        [b, a].filter (·.container == container) := by
      by_cases ha : a.container = container
      · have hb : b.container ≠ container := fun hb => hcontainers (ha.trans hb.symm)
        simp [ha, hb]
      · simp [List.filter_cons, ha]
    rw [hab.1, hba.1, FormatEngine.constraintsOn_extend, FormatEngine.constraintsOn_extend,
      filter_successes, filter_successes, hjobs]

/-- A job that puts the box, which is the container of the next one, and its field under the label.
-/
def movingJob : InstallJob where
  container := 4
  fragment :=
    { text := "[view_0]-[view_1]", views := .ofList [("view_0", 2), ("view_1", 3)] }
  axis := .horizontal
  release := true

/-- A job that puts the pane into the box. Its text is no line. -/
def failingJob : InstallJob where
  container := 2
  fragment := { text := "[view_2]-", views := .ofList [("view_2", 1)] }
  axis := .vertical
  release := false

/-- The box loses its field and gets the pane, whether it is moved before or after. -/
theorem installs_commute_moved_container :
    let tree := ViewTree.runAll .empty ViewTree.crowdedCalls
    let ab := runAll tree {} [movingJob, failingJob]
    let ba := runAll tree {} [failingJob, movingJob]
    movingJob.container ≠ failingJob.container ∧
      movingJob.fragment.views.values.Disjoint failingJob.fragment.views.values ∧
      tree.children 0 = [1, 2] ∧ tree.children 2 = [3] ∧
      ab.results.map Except.toOption = [some 1, none] ∧
      ba.results.map Except.toOption = [none, some 1] ∧ ab.tree = ba.tree ∧
      ab.tree.children 0 = [] ∧ ab.tree.children 4 = [2, 3] ∧ ab.tree.children 2 = [1] ∧
      ab.engine.constraintsOn 4 = ba.engine.constraintsOn 4 ∧
      (ab.engine.constraintsOn 4).length = 1 := by
  intro tree ab ba
  have hcontainers : movingJob.container ≠ failingJob.container := by decide
  have hapart : ∀ view ∈ movingJob.fragment.views.values,
      view ∉ failingJob.fragment.views.values := by decide
  have hviews : movingJob.fragment.views.values.Disjoint failingJob.fragment.views.values :=
    fun view hmem => hapart view hmem
  obtain ⟨⟨resultA, resultB, hresults, hresults'⟩, htree, hkept⟩ :=
    installs_commute ViewTree.crowdedCalls {} movingJob failingJob hcontainers hviews
  have hreturned : ab.results.map Except.toOption = [some 1, none] := by decide +kernel
  have hreturned' : ba.results.map Except.toOption = [none, some 1] := by
    rw [hresults] at hreturned
    rw [hresults']
    simpa [and_comm] using hreturned
  have hchildren : ab.tree.children 0 = [] ∧ ab.tree.children 4 = [2, 3] ∧
      ab.tree.children 2 = [1] := by decide +kernel
  exact ⟨hcontainers, hviews, by decide, by decide, hreturned, hreturned', htree, hchildren.1,
    hchildren.2.1, hchildren.2.2, hkept 4, by decide +kernel⟩

end InstallJob
end LayoutLine
