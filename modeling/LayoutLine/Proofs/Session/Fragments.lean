import LayoutLine.Proofs.Fragment.Bindings
import LayoutLine.Session
import Mathlib.Data.Fintype.EquivFin

/-!
# The fragments of a session

A session keeps fragments under names, and what it builds is put together from those it keeps. It
may give a name away again, and then the fragment is gone; fragments that are only made one after
the other are never lost. Still both come to the same: a session keeps nothing that cannot be made
so, with the source where it is, and whatever can be made so some session keeps. So what is true of
all fragments that can be made is true of every fragment a session keeps.
-/

namespace LayoutLine

/-- The fragment is kept under some name. -/
def Session.Keeps (s : Session) (f : Fragment ViewId) : Prop :=
  ∃ name, s.fragments.get? name = some f

/-! ### Steps -/

/-- What a session may do. -/
inductive SessionStep where
  /-- Takes numbers. -/
  | take (count : Nat)
  /-- Starts numbering afresh. -/
  | resetIds
  /-- Builds an expression, and keeps what it built under a name. -/
  | keep (name : String) (e : Expr ViewId)
  /-- Keeps a fragment with other options, under a name that may be its own. -/
  | setOptions (name : String) (f : Fragment ViewId) (options : Options)
  /-- Asks the engine for the constraints of a text. -/
  | format (text : String) (options : Options) (bindings : Bindings ViewId)
    (container : Option ViewId)
  /-- Builds an expression, and installs what it built in a container. -/
  | install (container : ViewId) (e : Expr ViewId) (axis : Axis) (release : Bool)
    (refusal : Option String)
  /-- Puts other views and another engine in the place of its own. -/
  | replace (tree : ViewTree) (engine : FormatEngine ViewId)

namespace SessionStep

/-- The session after the step. What cannot be built is neither kept nor installed. -/
def run (s : Session) : SessionStep → Session
  | .take count => (s.take count).2
  | .resetIds => s.resetIds
  | .keep name e =>
    match s.build e with
    | (.ok f, s) => s.keep name f
    | (.error _, s) => s
  | .setOptions name f options => s.keep name (f.withOptions options)
  | .format text options bindings container => (s.format text options bindings container).2
  | .install container e axis release refusal =>
    match s.build e with
    | (.ok f, s) => (s.install container f axis release refusal).2
    | (.error _, s) => s
  | .replace tree engine => { s with tree, engine }

/-- The step mentions no fragment but those that are kept, and takes no text as it is. -/
def Allowed (s : Session) : SessionStep → Prop
  | .keep _ e | .install _ e _ _ _ => e.Over s.Keeps
  | .setOptions _ f _ => s.Keeps f
  | .take _ | .resetIds | .format _ _ _ _ | .replace _ _ => True

end SessionStep

/-- What a session comes to from nothing. -/
inductive Session.Arises : Session → Prop
  | start : Arises {}
  | step {s : Session} (h : Arises s) (step : SessionStep) (hstep : step.Allowed s) :
    Arises (step.run s)

namespace Session

variable {s : Session} {f g : Fragment ViewId} {name : String}

/-! ### Keeping and building -/

/-- A fragment is kept under the name it was given. -/
theorem keeps_keep : (s.keep name f).Keeps f :=
  ⟨name, by rw [keep, Table.get?_insert, if_pos rfl]⟩

/-- Keeping a fragment brings in no other one. -/
theorem Keeps.of_keep (h : (s.keep name f).Keeps g) : g = f ∨ s.Keeps g := by
  obtain ⟨other, hother⟩ := h
  rw [keep, Table.get?_insert] at hother
  split at hother
  · exact .inl (Option.some.inj hother).symm
  · exact .inr ⟨other, hother⟩

/-- Under a new name a fragment takes the place of no other one. -/
theorem Keeps.keep (h : s.Keeps g) (hname : name ∉ s.fragments.names) :
    (s.keep name f).Keeps g := by
  obtain ⟨other, hother⟩ := h
  have hne : other ≠ name := by
    rintro rfl
    exact hname (Table.mem_names_of_get? hother)
  refine ⟨other, ?_⟩
  rw [Session.keep, Table.get?_insert, if_neg hne]
  exact hother

/-- There is always a name that nothing is kept under. -/
theorem exists_new_name (s : Session) : ∃ name, name ∉ s.fragments.names := by
  obtain ⟨name, hname⟩ := Infinite.exists_notMem_finset s.fragments.names.toFinset
  exact ⟨name, fun hmem => hname (List.mem_toFinset.mpr hmem)⟩

/-- Building moves the source and changes nothing else. -/
theorem build_of_ok {e : Expr ViewId} {ids : IdSource} (h : e.build s.ids = .ok f ids) :
    s.build e = (.ok f, { s with ids }) := by
  rw [build, h]

/-- So it does when it fails. -/
theorem build_of_error {e : Expr ViewId} {ids : IdSource} {error : BuildError}
    (h : e.build s.ids = .error error ids) : s.build e = (.error error, { s with ids }) := by
  rw [build, h]

/-! ### What is kept can be made -/

/-- The fragments can be made one after the other, the source is then where it is in the session,
and the session keeps no others. -/
structure AccountedBy (s : Session) (made : List (Fragment ViewId)) : Prop where
  /-- The fragments can be made. -/
  reachable : Fragment.Reachable s.ids made
  /-- What is kept is among them. -/
  kept : ∀ f, s.Keeps f → f ∈ made

namespace AccountedBy

variable {made : List (Fragment ViewId)}

/-- Views and engine are no matter of fragments. -/
theorem of_same (h : s.AccountedBy made) {t : Session} (hids : t.ids = s.ids)
    (hfragments : t.fragments = s.fragments) : t.AccountedBy made where
  reachable := by
    rw [hids]
    exact h.reachable
  kept := by
    intro f ⟨name, hname⟩
    rw [hfragments] at hname
    exact h.kept f ⟨name, hname⟩

/-- A fragment that was made may be kept under any name, also one that was given before. -/
theorem keep (h : s.AccountedBy made) (hf : f ∈ made) (name : String) :
    (s.keep name f).AccountedBy made where
  reachable := h.reachable
  kept := by
    intro g hg
    rcases hg.of_keep with rfl | hg
    · exact hf
    · exact h.kept g hg

/-- Building from what is kept makes at most one fragment more. When it fails the source may have
moved, and nothing else has happened. -/
theorem build (h : s.AccountedBy made) {e : Expr ViewId} (hover : e.Over s.Keeps) :
    ∃ made', (s.build e).2.AccountedBy made' ∧ ∀ f, (s.build e).1 = .ok f → f ∈ made' := by
  have hmade : e.Over (· ∈ made) := hover.mono h.kept
  cases hbuild : e.build s.ids with
  | ok f ids =>
    have hkept : ∀ g, s.Keeps g → g ∈ f :: made := fun g hg => List.mem_cons_of_mem f (h.kept g hg)
    rw [build_of_ok hbuild]
    refine ⟨f :: made, ⟨h.reachable.build hmade hbuild, hkept⟩, fun g hg => ?_⟩
    obtain rfl := Except.ok.inj hg
    exact List.mem_cons_self
  | error error ids =>
    rw [build_of_error hbuild]
    exact ⟨made, ⟨h.reachable.fail hmade hbuild, h.kept⟩, nofun⟩

/-- One step keeps the session accounted for: it makes at most one fragment more. -/
theorem run (h : s.AccountedBy made) {step : SessionStep} (hstep : step.Allowed s) :
    ∃ made', (step.run s).AccountedBy made' := by
  cases step with
  | take count => exact ⟨made, h.reachable.take count, h.kept⟩
  | resetIds => exact ⟨made, h.reachable.reset, h.kept⟩
  | keep name e =>
    obtain ⟨made', hafter, hbuilt⟩ := h.build hstep
    rw [SessionStep.run]
    split
    · rename_i f after hbuild
      rw [hbuild] at hafter hbuilt
      exact ⟨made', hafter.keep (hbuilt f rfl) name⟩
    · rename_i error after hbuild
      rw [hbuild] at hafter
      exact ⟨made', hafter⟩
  | setOptions name f options =>
    have hkept : ∀ g, s.Keeps g → g ∈ f.withOptions options :: made := fun g hg =>
      List.mem_cons_of_mem _ (h.kept g hg)
    have hmade : s.AccountedBy (f.withOptions options :: made) :=
      ⟨h.reachable.setOptions (h.kept f hstep) options, hkept⟩
    exact ⟨_, hmade.keep List.mem_cons_self name⟩
  | format text options bindings container =>
    refine ⟨made, h.of_same ?_ ?_⟩ <;>
    · rw [SessionStep.run, format]
      split <;> rfl
  | install container e axis release refusal =>
    obtain ⟨made', hafter, -⟩ := h.build hstep
    rw [SessionStep.run]
    split
    · rename_i f after hbuild
      rw [hbuild] at hafter
      exact ⟨made', hafter.of_same rfl rfl⟩
    · rename_i error after hbuild
      rw [hbuild] at hafter
      exact ⟨made', hafter⟩
  | replace tree engine => exact ⟨made, h.of_same rfl rfl⟩

end AccountedBy

/-- So a session is accounted for from its first step to its last. -/
theorem Arises.exists_accountedBy (h : s.Arises) : ∃ made, s.AccountedBy made := by
  induction h with
  | start => exact ⟨[], .start, fun f ⟨name, hname⟩ => nomatch hname⟩
  | step _ _ hstep ih =>
    obtain ⟨made, hmade⟩ := ih
    exact hmade.run hstep

/-- Every fragment that a session keeps is bound, with whatever options, after any failures and
however often numbering started afresh. -/
theorem Arises.bound (h : s.Arises) (hf : s.Keeps f) : f.Bound := by
  obtain ⟨made, hmade⟩ := h.exists_accountedBy
  exact hmade.reachable.bound f (hmade.kept f hf)

/-! ### What can be made is kept -/

/-- What is made one after the other a session keeps under a new name each time. -/
theorem exists_arises {ids : IdSource} {made : List (Fragment ViewId)}
    (h : Fragment.Reachable ids made) : ∃ s : Session, s.Arises ∧ s.ids = ids ∧
      ∀ f ∈ made, s.Keeps f := by
  induction h with
  | start => exact ⟨{}, .start, rfl, List.forall_mem_nil _⟩
  | take _ count ih =>
    obtain ⟨s, hs, rfl, hkept⟩ := ih
    exact ⟨_, hs.step (.take count) trivial, rfl, hkept⟩
  | reset _ ih =>
    obtain ⟨s, hs, rfl, hkept⟩ := ih
    exact ⟨_, hs.step .resetIds trivial, rfl, hkept⟩
  | @build _ ids' _ e f _ hover hbuild ih =>
    -- A name given before would put the new fragment in the place of an old one.
    obtain ⟨s, hs, rfl, hkept⟩ := ih
    obtain ⟨name, hname⟩ := s.exists_new_name
    have hrun : (SessionStep.keep name e).run s =
        ({ s with ids := ids' } : Session).keep name f := by
      rw [SessionStep.run, build_of_ok hbuild]
    have hstep := hs.step (.keep name e) (hover.mono hkept)
    rw [hrun] at hstep
    exact ⟨_, hstep, rfl,
      List.forall_mem_cons.mpr ⟨keeps_keep, fun g hg => (hkept g hg).keep hname⟩⟩
  | @fail _ ids' _ e error _ hover hbuild ih =>
    obtain ⟨s, hs, rfl, hkept⟩ := ih
    have hrun : (SessionStep.keep "" e).run s = { s with ids := ids' } := by
      rw [SessionStep.run, build_of_error hbuild]
    have hstep := hs.step (.keep "" e) (hover.mono hkept)
    rw [hrun] at hstep
    exact ⟨_, hstep, rfl, hkept⟩
  | @setOptions _ _ f _ hf options ih =>
    obtain ⟨s, hs, rfl, hkept⟩ := ih
    obtain ⟨name, hname⟩ := s.exists_new_name
    exact ⟨_, hs.step (.setOptions name f options) (hkept f hf), rfl,
      List.forall_mem_cons.mpr ⟨keeps_keep, fun g hg => (hkept g hg).keep hname⟩⟩

/-- Some session with its source at a number keeps certain fragments exactly when they can be made
one after the other up to that number. -/
theorem exists_arises_iff (ids : IdSource) (fragments : List (Fragment ViewId)) :
    (∃ s : Session, s.Arises ∧ s.ids = ids ∧ ∀ f ∈ fragments, s.Keeps f) ↔
      ∃ made, Fragment.Reachable ids made ∧ fragments ⊆ made := by
  constructor
  · rintro ⟨s, hs, rfl, hkeeps⟩
    obtain ⟨made, hmade⟩ := hs.exists_accountedBy
    exact ⟨made, hmade.reachable, fun f hf => hmade.kept f (hkeeps f hf)⟩
  · rintro ⟨made, hreachable, hsubset⟩
    obtain ⟨s, hs, hids, hkept⟩ := exists_arises hreachable
    exact ⟨s, hs, hids, fun f hf => hkept f (hsubset hf)⟩

end Session
end LayoutLine
