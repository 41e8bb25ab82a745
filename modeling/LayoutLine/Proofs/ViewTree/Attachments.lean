import LayoutLine.Proofs.ViewTree.Children
import Mathlib.Data.List.Induction

/-!
# View trees as records of attachments

A log holds the calls that make views and attach them, and the place of a call in it is its time.
Attaching is effective when the container and the view have both been made by then and are two. The
log alone tells the whole tree: the parent of a view comes from its last effective attachment, the
children of a view stand in the order of theirs, and the roots are the views that were made as roots
and never effectively attached.
-/

namespace LayoutLine

/-- A call that makes a view or attaches one. -/
inductive TreeStep where
  /-- A root is made. -/
  | addRoot (name : String)
  /-- A view without a parent is made. -/
  | addView (name : String)
  /-- A view is to be attached to a container. -/
  | attach (container view : ViewId)

namespace TreeStep

/-- The tree after a step. -/
def run (t : ViewTree) : TreeStep → ViewTree
  | .addRoot name => (t.addRoot name).2
  | .addView name => (t.addView name).2
  | .attach container view => t.attach container view

/-- Whether the step makes a view. -/
def makesView : TreeStep → Bool
  | .addRoot _ | .addView _ => true
  | .attach _ _ => false

end TreeStep

/-! ### Logs -/

namespace TreeLog

/-- The tree that the steps of a log make out of nothing. -/
def tree (log : List TreeStep) : ViewTree := log.foldl TreeStep.run .empty

/-- How many views the steps of a log make. -/
def viewCount (log : List TreeStep) : Nat := log.countP TreeStep.makesView

/-- Attaching after this log is effective: both views have been made, and they are two. -/
def Effective (log : List TreeStep) (container view : ViewId) : Prop :=
  container ≠ view ∧ container < viewCount log ∧ view < viewCount log

/-- At this time the view is made, as a root. A view has the number of those made before it. -/
def RootMadeAt (log : List TreeStep) (time : Nat) (view : ViewId) : Prop :=
  ∃ name, log[time]? = some (.addRoot name) ∧ view = viewCount (log.take time)

/-- At this time the view is effectively attached to the container. -/
def AttachedAt (log : List TreeStep) (time : Nat) (container view : ViewId) : Prop :=
  log[time]? = some (.attach container view) ∧ Effective (log.take time) container view

/-- At this time the view is effectively attached to the container, and never again later. -/
def LastAttachedAt (log : List TreeStep) (time : Nat) (container view : ViewId) : Prop :=
  AttachedAt log time container view ∧
    ∀ later other, AttachedAt log later other view → later ≤ time

/-- The container has got both views for good, the first one earlier than the second. -/
def AttachedBefore (log : List TreeStep) (container a b : ViewId) : Prop :=
  ∃ early late, early < late ∧ LastAttachedAt log early container a ∧
    LastAttachedAt log late container b

/-- Both views were made as roots, the first one earlier than the second. -/
def MadeBefore (log : List TreeStep) (a b : ViewId) : Prop :=
  ∃ early late, early < late ∧ RootMadeAt log early a ∧ RootMadeAt log late b

/-- The step attaches nothing. -/
def Idle (log : List TreeStep) (step : TreeStep) : Prop :=
  ∀ container view, step = .attach container view → ¬Effective log container view

variable {log : List TreeStep} {step : TreeStep} {time : Nat} {container view : ViewId}

/-- The last step of a log is taken on the tree that the others made. -/
theorem tree_append_singleton (log : List TreeStep) (step : TreeStep) :
    tree (log ++ [step]) = step.run (tree log) := by
  rw [tree, List.foldl_append]
  rfl

/-- No view is unmade, so an earlier part of a log has made no more views. -/
theorem viewCount_take_le (log : List TreeStep) (time : Nat) :
    viewCount (log.take time) ≤ viewCount log :=
  (List.take_sublist time log).countP_le

/-- A step that makes a view makes one. -/
theorem viewCount_append_of_makes (h : step.makesView) :
    viewCount (log ++ [step]) = viewCount log + 1 := by
  rw [viewCount, List.countP_append, List.countP_singleton, if_pos h]
  rfl

/-- Attaching makes no view. -/
theorem viewCount_append_attach (log : List TreeStep) (container view : ViewId) :
    viewCount (log ++ [.attach container view]) = viewCount log := by
  rw [viewCount, List.countP_append, List.countP_singleton]
  rfl

/-- A step of the longer log is one of the shorter log or the new one, and what came before it is
the same in both. -/
theorem step_append_singleton (log : List TreeStep) (step found : TreeStep) (time : Nat)
    (P : List TreeStep → Prop) :
    ((log ++ [step])[time]? = some found ∧ P ((log ++ [step]).take time)) ↔
      (log[time]? = some found ∧ P (log.take time)) ∨
        (time = log.length ∧ step = found ∧ P log) := by
  rcases Nat.lt_trichotomy time log.length with hold | rfl | hbeyond
  · rw [List.getElem?_append_left hold, List.take_append_of_le_length (Nat.le_of_lt hold)]
    have hne : time ≠ log.length := Nat.ne_of_lt hold
    simp only [hne, false_and, or_false]
  · rw [List.getElem?_append_right (Nat.le_refl _), Nat.sub_self, List.take_left,
      List.getElem?_eq_none (Nat.le_refl _)]
    simp
  · have hnone : (log ++ [step])[time]? = none := by
      rw [List.getElem?_eq_none]
      simp only [List.length_append, List.length_singleton]
      omega
    have hne : time ≠ log.length := Nat.ne_of_gt hbeyond
    rw [hnone, List.getElem?_eq_none (Nat.le_of_lt hbeyond)]
    simp [hne]

/-- One more step adds at most one attachment, at its own time and if it is effective then. -/
theorem attachedAt_append :
    AttachedAt (log ++ [step]) time container view ↔ AttachedAt log time container view ∨
      (time = log.length ∧ step = .attach container view ∧ Effective log container view) :=
  step_append_singleton log step (.attach container view) time (Effective · container view)

/-- One more step makes at most one root, with the number of the views before it. -/
theorem rootMadeAt_append :
    RootMadeAt (log ++ [step]) time view ↔ RootMadeAt log time view ∨
      (time = log.length ∧ (∃ name, step = .addRoot name) ∧ view = viewCount log) := by
  have hstep (name : String) :=
    step_append_singleton log step (.addRoot name) time (view = viewCount ·)
  simp only [RootMadeAt, hstep, exists_or, exists_and_left, exists_and_right]

/-- What a log tells has happened within it. -/
theorem AttachedAt.lt_length (h : AttachedAt log time container view) : time < log.length :=
  (List.getElem?_eq_some_iff.mp h.1).1

/-- So have the roots been made. -/
theorem RootMadeAt.lt_length (h : RootMadeAt log time view) : time < log.length := by
  obtain ⟨name, hstep, -⟩ := h
  exact (List.getElem?_eq_some_iff.mp hstep).1

/-- A step that makes a view attaches nothing. -/
theorem Idle.of_makesView (h : step.makesView) (log : List TreeStep) : Idle log step := by
  rintro container view rfl
  cases h

/-- A step that attaches nothing leaves all attachments as they were. -/
theorem Idle.attachedAt_append (h : Idle log step) :
    AttachedAt (log ++ [step]) time container view ↔ AttachedAt log time container view :=
  TreeLog.attachedAt_append.trans (or_iff_left fun hnew => h _ _ hnew.2.1 hnew.2.2)

/-- It also leaves those that are the last of their views. -/
theorem Idle.lastAttachedAt_append (h : Idle log step) :
    LastAttachedAt (log ++ [step]) time container view ↔
      LastAttachedAt log time container view := by
  simp only [LastAttachedAt, h.attachedAt_append]

/-- The view that is effectively attached was never attached later; the other views keep their
last attachments. -/
theorem lastAttachedAt_append_attach {other moved : ViewId} (h : Effective log other moved) :
    LastAttachedAt (log ++ [.attach other moved]) time container view ↔
      if view = moved then time = log.length ∧ container = other
      else LastAttachedAt log time container view := by
  have hlast : AttachedAt (log ++ [.attach other moved]) log.length other moved :=
    attachedAt_append.mpr (.inr ⟨rfl, rfl, h⟩)
  split_ifs with hview
  · subst hview
    constructor
    · rintro ⟨hattached, hnone⟩
      rcases attachedAt_append.mp hattached with hold | ⟨htime, hstep, -⟩
      · exact absurd hold.lt_length (Nat.not_lt.mpr (hnone _ _ hlast))
      · cases hstep
        exact ⟨htime, rfl⟩
    · rintro ⟨rfl, rfl⟩
      refine ⟨hlast, fun later other hlater => ?_⟩
      rcases attachedAt_append.mp hlater with hold | ⟨htime, -⟩
      · exact Nat.le_of_lt hold.lt_length
      · exact Nat.le_of_eq htime
  · have hsame (time : Nat) (container : ViewId) :
        AttachedAt (log ++ [.attach other moved]) time container view ↔
          AttachedAt log time container view := by
      rw [attachedAt_append]
      refine or_iff_left fun hnew => hview ?_
      cases hnew.2.1
      rfl
    simp only [LastAttachedAt, hsame]

/-- No view comes before itself among those of a container. -/
theorem AttachedBefore.ne {a b : ViewId} (h : AttachedBefore log container a b) : a ≠ b := by
  rintro rfl
  obtain ⟨early, late, hlt, hearly, hlate⟩ := h
  exact absurd (hearly.2 late container hlate.1) (Nat.not_le.mpr hlt)

/-- A view is made after those with smaller numbers. -/
theorem MadeBefore.lt {a b : ViewId} (h : MadeBefore log a b) : a < b := by
  obtain ⟨early, late, hlt, ⟨name, hearly, rfl⟩, -, -, rfl⟩ := h
  have hsucc : log.take (early + 1) = log.take early ++ [.addRoot name] := by
    rw [List.take_add_one, hearly]
    rfl
  have hcount : viewCount (log.take (early + 1)) = viewCount (log.take early) + 1 := by
    rw [hsucc]
    exact viewCount_append_of_makes rfl
  have hmono : viewCount (log.take (early + 1)) ≤ viewCount (log.take late) :=
    (List.take_sublist_take_left hlt).countP_le
  exact Nat.lt_of_lt_of_le (Nat.lt_of_succ_le (Nat.le_of_eq hcount.symm)) hmono

/-! ### What a log tells of links -/

/-- The log tells which views the tree has and how they hang together. -/
structure TellsLinks (log : List TreeStep) (t : ViewTree) : Prop where
  /-- The views are those that were made. -/
  count : t.nodes.length = viewCount log
  /-- The parent of a view comes from its last effective attachment. -/
  parent : ∀ view container,
    t.parent? view = some container ↔ ∃ time, LastAttachedAt log time container view
  /-- A view without a parent was never effectively attached. -/
  orphan : ∀ view, t.parent? view = none → ∀ time container, ¬AttachedAt log time container view
  /-- The children of a view are those it is the parent of. -/
  children : t.ChildrenLinked
  /-- They stand in the order of their last effective attachments. -/
  order : ∀ container, (t.children container).Pairwise (AttachedBefore log container)

namespace TellsLinks

variable {t u : ViewTree}

/-- The tree knows the views that have been made and no other ones. -/
theorem knows_iff (h : TellsLinks log t) (view : ViewId) : t.knows view ↔ view < viewCount log := by
  rw [← h.count, ViewTree.knows, ViewTree.node?, isSome_getElem?]

/-- The tree takes an attachment exactly when the log has made both views and they are two. -/
theorem canAttach_iff (h : TellsLinks log t) (container view : ViewId) :
    t.CanAttach container view ↔ Effective log container view := by
  rw [ViewTree.CanAttach, Effective, h.knows_iff, h.knows_iff]

/-- Before the first step there are no views and no links. -/
theorem empty : TellsLinks [] .empty where
  count := rfl
  parent _ _ := ⟨nofun, fun ⟨_, h⟩ => nomatch h.1.1⟩
  orphan _ _ _ _ h := nomatch h.1
  children := ViewTree.childrenLinked_empty
  order _ := .nil

/-- A step that attaches nothing keeps what the log tells, if the tree keeps its links. -/
theorem of_idle (h : TellsLinks log t) (hidle : Idle log step)
    (hcount : u.nodes.length = viewCount (log ++ [step]))
    (hparent : ∀ view, u.parent? view = t.parent? view)
    (hchildren : ∀ view, u.children view = t.children view) : TellsLinks (log ++ [step]) u where
  count := hcount
  parent view container := by
    simp only [hparent, h.parent, hidle.lastAttachedAt_append]
  orphan view hnone time container := by
    rw [hidle.attachedAt_append]
    exact h.orphan view (by rwa [← hparent]) time container
  children container view := by rw [hchildren, hparent, h.children]
  order container := by
    rw [hchildren]
    refine (h.order container).imp fun {a b} hbefore => ?_
    simpa only [AttachedBefore, hidle.lastAttachedAt_append] using hbefore

/-- An effective attachment puts the view where the log has it: under the container, behind the
views that are there. -/
theorem attach (h : TellsLinks log t) {other moved : ViewId}
    (heffective : Effective log other moved) :
    TellsLinks (log ++ [.attach other moved]) (t.attach other moved) := by
  have hcan := (h.canAttach_iff other moved).mpr heffective
  have hparent (view : ViewId) : (t.attach other moved).parent? view =
      if view = moved then some other else t.parent? view := by
    simp only [ViewTree.parent?_attach, hcan, true_and]
  have hchildren := h.children.children_attach hcan
  have hend (container view : ViewId) :
      view ∈ (if other = container then [moved] else []) ↔ other = container ∧ view = moved := by
    split_ifs with heq
    · simp [heq]
    · simp [heq]
  have hkept {time : Nat} {container view : ViewId} (hview : view ≠ moved)
      (hlast : LastAttachedAt log time container view) :
      LastAttachedAt (log ++ [.attach other moved]) time container view :=
    (lastAttachedAt_append_attach heffective).mpr (by rwa [if_neg hview])
  have hnew : LastAttachedAt (log ++ [.attach other moved]) log.length other moved :=
    (lastAttachedAt_append_attach heffective).mpr (by rw [if_pos rfl]; exact ⟨rfl, rfl⟩)
  refine ⟨?_, fun view container => ?_, fun view hnone time container => ?_,
    h.children.attach other moved, fun container => ?_⟩
  · rw [viewCount_append_attach, ← h.count, ViewTree.length_nodes_attach]
  · rw [hparent]
    simp only [lastAttachedAt_append_attach heffective]
    split_ifs
    · simp [eq_comm]
    · exact h.parent view container
  · rw [hparent] at hnone
    split_ifs at hnone with hview
    rw [attachedAt_append]
    rintro (hold | ⟨-, hstep, -⟩)
    · exact h.orphan view hnone time container hold
    · cases hstep
      exact hview rfl
  · rw [hchildren, List.pairwise_append]
    -- Those that stay keep their order, and the new one comes behind all of them.
    refine ⟨?_, ?_, fun a ha b hb => ?_⟩
    · refine ((h.order container).filter _).imp_of_mem ?_
      rintro a b ha hb ⟨early, late, hlt, hearly, hlate⟩
      have hmoved (view : ViewId) (hmem : view ∈ (t.children container).filter (· != moved)) :
          view ≠ moved := bne_iff_ne.mp (List.mem_filter.mp hmem).2
      exact ⟨early, late, hlt, hkept (hmoved a ha) hearly, hkept (hmoved b hb) hlate⟩
    · split_ifs
      · exact List.pairwise_singleton _ _
      · exact .nil
    · obtain ⟨rfl, rfl⟩ := (hend container b).mp hb
      obtain ⟨hchild, hmoved⟩ := List.mem_filter.mp ha
      obtain ⟨time, hlast⟩ := (h.parent a other).mp ((h.children other a).mp hchild)
      exact ⟨time, log.length, hlast.1.lt_length, hkept (bne_iff_ne.mp hmoved) hlast, hnew⟩

end TellsLinks

/-! ### What a log tells of roots -/

/-- The log tells which views are roots. -/
structure TellsRoots (log : List TreeStep) (t : ViewTree) : Prop where
  /-- The roots are the views made as roots that were never effectively attached. -/
  mem : ∀ view, view ∈ t.roots ↔
    (∃ time, RootMadeAt log time view) ∧ ∀ time container, ¬AttachedAt log time container view
  /-- They stand in the order in which they were made. -/
  order : t.roots.Pairwise (MadeBefore log)

namespace TellsRoots

variable {t u : ViewTree}

/-- Before the first step there are no roots. -/
theorem empty : TellsRoots [] .empty where
  mem _ := ⟨nofun, fun ⟨⟨_, _, h, _⟩, _⟩ => nomatch h⟩
  order := .nil

/-- A root that was made stays a root that was made. -/
theorem made_append (h : RootMadeAt log time view) (step : TreeStep) :
    RootMadeAt (log ++ [step]) time view :=
  rootMadeAt_append.mpr (.inl h)

/-- The order in which roots were made stays as it was. -/
theorem madeBefore_append {a b : ViewId} (h : MadeBefore log a b) (step : TreeStep) :
    MadeBefore (log ++ [step]) a b := by
  obtain ⟨early, late, hlt, hearly, hlate⟩ := h
  exact ⟨early, late, hlt, made_append hearly step, made_append hlate step⟩

/-- No other step makes a root. -/
theorem rootMadeAt_append_of_ne (h : ∀ name, step ≠ .addRoot name) :
    RootMadeAt (log ++ [step]) time view ↔ RootMadeAt log time view := by
  refine rootMadeAt_append.trans (or_iff_left ?_)
  rintro ⟨-, ⟨name, hstep⟩, -⟩
  exact h name hstep

/-- A step that neither makes a root nor attaches leaves the roots as they are. -/
theorem of_idle (h : TellsRoots log t) (hidle : Idle log step)
    (hstep : ∀ name, step ≠ .addRoot name) (hroots : u.roots = t.roots) :
    TellsRoots (log ++ [step]) u where
  mem view := by
    simp only [hroots, h.mem, rootMadeAt_append_of_ne hstep, hidle.attachedAt_append]
  order := by
    rw [hroots]
    exact h.order.imp fun hbefore => madeBefore_append hbefore step

/-- A new root is the last one. Its number is new, so it was never attached. -/
theorem addRoot (h : TellsRoots log t) (hcount : t.nodes.length = viewCount log) (name : String) :
    TellsRoots (log ++ [.addRoot name]) (t.addRoot name).2 := by
  have hidle : Idle log (.addRoot name) := .of_makesView rfl log
  have hroots : (t.addRoot name).2.roots = t.roots ++ [viewCount log] := by
    rw [← hcount]
    rfl
  have hnew : RootMadeAt (log ++ [.addRoot name]) log.length (viewCount log) :=
    rootMadeAt_append.mpr (.inr ⟨rfl, ⟨name, rfl⟩, rfl⟩)
  have hfresh (time : Nat) (container : ViewId) :
      ¬AttachedAt log time container (viewCount log) := fun hattached =>
    absurd hattached.2.2.2 (Nat.not_lt.mpr (viewCount_take_le log time))
  refine ⟨fun view => ?_, ?_⟩
  · simp only [hroots, List.mem_append, List.mem_singleton, h.mem, hidle.attachedAt_append]
    constructor
    · rintro (⟨⟨time, hmade⟩, hnone⟩ | rfl)
      · exact ⟨⟨time, made_append hmade _⟩, hnone⟩
      · exact ⟨⟨log.length, hnew⟩, hfresh⟩
    · rintro ⟨⟨time, hmade⟩, hnone⟩
      rcases rootMadeAt_append.mp hmade with hold | ⟨-, -, rfl⟩
      · exact .inl ⟨⟨time, hold⟩, hnone⟩
      · exact .inr rfl
  · rw [hroots, List.pairwise_append]
    refine ⟨h.order.imp fun hbefore => madeBefore_append hbefore _, List.pairwise_singleton _ _,
      fun a ha b hb => ?_⟩
    obtain rfl := List.mem_singleton.mp hb
    obtain ⟨⟨time, hmade⟩, -⟩ := (h.mem a).mp ha
    exact ⟨time, log.length, hmade.lt_length, made_append hmade _, hnew⟩

/-- A view that is effectively attached is a root no longer. -/
theorem attach (h : TellsRoots log t) {other moved : ViewId} (hcan : t.CanAttach other moved)
    (heffective : Effective log other moved) :
    TellsRoots (log ++ [.attach other moved]) (t.attach other moved) := by
  have hstep (name : String) : TreeStep.attach other moved ≠ .addRoot name := nofun
  have hattached (view : ViewId) :
      (∀ time container, ¬AttachedAt (log ++ [.attach other moved]) time container view) ↔
        (∀ time container, ¬AttachedAt log time container view) ∧ view ≠ moved := by
    simp only [attachedAt_append, not_or, forall_and]
    refine and_congr_right fun _ => ⟨?_, ?_⟩
    · rintro hnone rfl
      exact hnone log.length other ⟨rfl, rfl, heffective⟩
    · rintro hne time container ⟨-, heq, -⟩
      cases heq
      exact hne rfl
  refine ⟨fun view => ?_, ?_⟩
  · rw [ViewTree.roots_attach hcan, List.mem_filter, bne_iff_ne, h.mem, hattached, and_assoc]
    simp only [rootMadeAt_append_of_ne hstep]
  · rw [ViewTree.roots_attach hcan]
    exact (h.order.filter _).imp fun hbefore => madeBefore_append hbefore _

end TellsRoots

/-! ### Runs -/

/-- A log that tells a tree tells the tree after one more step. -/
theorem tells_step {t : ViewTree} (hlinks : TellsLinks log t) (hroots : TellsRoots log t)
    (step : TreeStep) :
    TellsLinks (log ++ [step]) (step.run t) ∧ TellsRoots (log ++ [step]) (step.run t) := by
  have hlength (name : String) : (t.addView name).2.nodes.length = viewCount log + 1 := by
    rw [← hlinks.count]
    exact List.length_append
  cases step with
  | addRoot name =>
    have hidle : Idle log (.addRoot name) := .of_makesView rfl log
    have hcount : (t.addRoot name).2.nodes.length = viewCount (log ++ [.addRoot name]) :=
      (hlength name).trans (viewCount_append_of_makes rfl).symm
    exact ⟨hlinks.of_idle hidle hcount (t.parent?_addView name) (t.children_addView name),
      hroots.addRoot hlinks.count name⟩
  | addView name =>
    have hidle : Idle log (.addView name) := .of_makesView rfl log
    have hcount : (t.addView name).2.nodes.length = viewCount (log ++ [.addView name]) :=
      (hlength name).trans (viewCount_append_of_makes rfl).symm
    exact ⟨hlinks.of_idle hidle hcount (t.parent?_addView name) (t.children_addView name),
      hroots.of_idle hidle nofun rfl⟩
  | attach container view =>
    by_cases hcan : t.CanAttach container view
    · have heffective := (hlinks.canAttach_iff container view).mp hcan
      exact ⟨hlinks.attach heffective, hroots.attach hcan heffective⟩
    · have hidle : Idle log (.attach container view) := by
        rintro other moved ⟨⟩ heffective
        exact hcan ((hlinks.canAttach_iff container view).mpr heffective)
      have hsame : TreeStep.run t (.attach container view) = t :=
        ViewTree.attach_of_not_canAttach hcan
      have hcount : t.nodes.length = viewCount (log ++ [.attach container view]) :=
        hlinks.count.trans (viewCount_append_attach log container view).symm
      rw [hsame]
      exact ⟨hlinks.of_idle hidle hcount (fun _ => rfl) fun _ => rfl,
        hroots.of_idle hidle nofun rfl⟩

/-- By induction on its steps, a log tells the links and the roots of the tree it makes. -/
theorem tells_tree (log : List TreeStep) :
    TellsLinks log (tree log) ∧ TellsRoots log (tree log) := by
  induction log using List.reverseRecOn with
  | nil => exact ⟨.empty, .empty⟩
  | append_singleton log step ih =>
    rw [tree_append_singleton]
    exact tells_step ih.1 ih.2 step

/-- The tree after any log is the one the log tells. Views are numbered as they are made. The parent
of a view comes from its last effective attachment, and it has none if it was never effectively
attached. The children of a view are those it is the parent of, each once, in the order of their
last effective attachments. The roots are the views made as roots and never effectively attached,
each once, in the order in which they were made. Attaching that is not effective changes nothing. -/
theorem tree_as_told (log : List TreeStep) :
    (∀ view, (tree log).knows view ↔ view < viewCount log) ∧
    (∀ name, ((tree log).addView name).1 = viewCount log ∧
      ((tree log).addRoot name).1 = viewCount log) ∧
    (∀ view, (∀ container, (tree log).parent? view = some container ↔
        ∃ time, LastAttachedAt log time container view) ∧
      ((tree log).parent? view = none ↔ ∀ time container, ¬AttachedAt log time container view)) ∧
    (∀ container,
      (∀ view, view ∈ (tree log).children container ↔ (tree log).parent? view = some container) ∧
      ((tree log).children container).Nodup ∧
      ((tree log).children container).Pairwise (AttachedBefore log container)) ∧
    ((∀ view, view ∈ (tree log).roots ↔ (∃ time, RootMadeAt log time view) ∧
        ∀ time container, ¬AttachedAt log time container view) ∧
      (tree log).roots.Nodup ∧ (tree log).roots.Pairwise (MadeBefore log)) ∧
    ∀ container view, Effective log container view ∨
      (tree log).attach container view = tree log := by
  obtain ⟨hlinks, hroots⟩ := tells_tree log
  refine ⟨hlinks.knows_iff, fun _ => ⟨hlinks.count, hlinks.count⟩,
    fun view => ⟨hlinks.parent view, hlinks.orphan view, fun hnone => ?_⟩,
    fun container => ⟨hlinks.children container, ?_, hlinks.order container⟩,
    ⟨hroots.mem, ?_, hroots.order⟩, fun container view => ?_⟩
  · cases hparent : (tree log).parent? view with
    | none => rfl
    | some container =>
      obtain ⟨time, hlast⟩ := (hlinks.parent view container).mp hparent
      exact absurd hlast.1 (hnone time container)
  · exact (hlinks.order container).imp AttachedBefore.ne
  · exact hroots.order.imp fun hbefore => Nat.ne_of_lt hbefore.lt
  · refine or_iff_not_imp_left.mpr fun hidle => ?_
    exact ViewTree.attach_of_not_canAttach fun hcan =>
      hidle ((hlinks.canAttach_iff container view).mp hcan)

/-- A view that is attached to its parent again becomes the last of the children. -/
example : (tree [.addRoot "a", .addView "b", .addView "c", .attach 0 1, .attach 0 2,
    .attach 0 1]).children 0 = [2, 1] := rfl

end TreeLog
end LayoutLine
