import LayoutLine.Proofs.Line.Accepted
import LayoutLine.Proofs.Resolve.Clauses

/-!
# Lengths of the same value

Lengths are compared by value: the two zeros are the same, and what is no number is not even the
same as itself. Resolving passes lengths on and never computes with them. So bindings of the same
views and of lengths of the same value give constraints of the same value, one for one and in the
same order, or the same complaint. What a line writes out is always a number; of the standard
spacings it has to be known.
-/

namespace LayoutLine

variable {V : Type}

/-! ### Outcomes of two runs -/

/-- Values that are related, or the same complaint. -/
inductive OutcomeRel {α β ε : Type} (R : α → β → Prop) : Except ε α → Except ε β → Prop
  /-- Both give a value, and the values are related. -/
  | ok {a : α} {b : β} (h : R a b) : OutcomeRel R (.ok a) (.ok b)
  /-- Both complain of the same. -/
  | error (e : ε) : OutcomeRel R (.error e) (.error e)

namespace OutcomeRel

variable {α β γ δ ε : Type} {R : α → β → Prop} {S : γ → δ → Prop}

/-- An outcome is like itself when its value is related to itself. -/
theorem of_self {R : α → α → Prop} {x : Except ε α} (h : ∀ a, x = .ok a → R a a) :
    OutcomeRel R x x := by
  cases x with
  | error e => exact .error e
  | ok a => exact .ok (h a rfl)

/-- Going on alike from related values leads to related outcomes, and a complaint stays the
complaint it was. -/
theorem bind {x : Except ε α} {y : Except ε β} {next : α → Except ε γ} {next' : β → Except ε δ}
    (h : OutcomeRel R x y) (hnext : ∀ a b, R a b → OutcomeRel S (next a) (next' b)) :
    OutcomeRel S (x >>= next) (y >>= next') := by
  cases h with
  | ok hab => exact hnext _ _ hab
  | error e => exact .error e

/-- Where both go on from one outcome, it matters only how they go on from its value. -/
theorem bind_self {x : Except ε α} {next : α → Except ε γ} {next' : α → Except ε δ}
    (h : ∀ a, x = .ok a → OutcomeRel S (next a) (next' a)) :
    OutcomeRel S (x >>= next) (x >>= next') := by
  cases x with
  | error e => exact .error e
  | ok a => exact h a rfl

/-- Functions that keep values related may be applied to two outcomes. -/
theorem map {x : Except ε α} {y : Except ε β} {f : α → γ} {g : β → δ} (h : OutcomeRel R x y)
    (hmap : ∀ a b, R a b → S (f a) (g b)) : OutcomeRel S (x.map f) (y.map g) := by
  cases h with
  | ok hab => exact .ok (hmap _ _ hab)
  | error e => exact .error e

/-- Complaints may be passed on in another form. -/
theorem mapError {ε' : Type} {x : Except ε α} {y : Except ε β} (h : OutcomeRel R x y) (f : ε → ε') :
    OutcomeRel R (x.mapError f) (y.mapError f) := by
  cases h with
  | ok hab => exact .ok hab
  | error e => exact .error (f e)

/-- Traversals whose steps are alike are alike. -/
theorem mapM {f : γ → Except ε α} {g : γ → Except ε β} {xs : List γ}
    (h : ∀ x ∈ xs, OutcomeRel R (f x) (g x)) :
    OutcomeRel (List.Forall₂ R) (xs.mapM f) (xs.mapM g) := by
  induction xs with
  | nil => exact .ok .nil
  | cons x xs ih =>
    obtain ⟨hfirst, hlater⟩ := List.forall_mem_cons.mp h
    rw [List.mapM_cons, List.mapM_cons]
    exact hfirst.bind fun _ _ hab => (ih hlater).bind fun _ _ hrest => .ok (.cons hab hrest)

end OutcomeRel

/-! ### Numbers that are written out -/

/-- A number has its own value; what is no number has none. -/
theorem Number.sameValue_self_iff {x : Number} : x.sameValue x = true ↔ x ≠ .nan := by
  cases x with
  | nan => simp [sameValue]
  | infinity negative => simp [sameValue]
  | finite negative m => simp [sameValue]

theorem Number.zero_ne_nan : zero ≠ .nan := nofun

/-- Digits are always read as a number. -/
theorem Number.ofDigits_ne_nan (negative : Bool) (whole fraction : List Char) :
    ofDigits negative whole fraction ≠ .nan := by
  rw [ofDigits, ofDecimal, ofRatio]
  split
  · exact nofun
  · exact nofun

namespace Line

/-- If the clause compares with something written out, it is a number. -/
def Clause.Definite (clause : Clause) : Prop := clause.target ≠ .number .nan

/-- The clauses of the spacing compare with numbers and names. -/
def Spacing.Definite : Spacing → Prop
  | .flush | .standard => True
  | .gap clauses => ∀ clause ∈ clauses, clause.Definite

/-- All clauses of the line compare with numbers and names. -/
structure Definite (line : Line) : Prop where
  /-- Those of the spacings do. -/
  spacings : ∀ spacing ∈ line.allSpacings, spacing.Definite
  /-- Those on lengths do. -/
  views : ∀ view ∈ line.views, ∀ clause ∈ view.clauses, clause.Definite

section Written

open Line.Language

/-- What is written out as a number is one. -/
theorem ne_nan_of_numberText {value : Number} {text : List Char} (h : NumberText value text) :
    value ≠ .nan := by
  cases h with
  | whole _ => exact Number.ofDigits_ne_nan _ _ _
  | decimal _ _ => exact Number.ofDigits_ne_nan _ _ _

/-- A clause that was read compares with a number or with a name. -/
theorem definite_of_clauseText {clause : Clause} {text : List Char} (h : ClauseText clause text) :
    clause.Definite := by
  obtain ⟨-, htarget, -⟩ := h
  cases htarget with
  | name _ => exact nofun
  | number h => exact fun heq => ne_nan_of_numberText h (Target.number.inj heq)

/-- So do the clauses behind the first one of a list. -/
theorem definite_of_moreClausesText {clauses : List Clause} {text : List Char}
    (h : MoreClausesText clauses text) : ∀ clause ∈ clauses, clause.Definite := by
  induction h with
  | nil => exact List.forall_mem_nil _
  | cons _ _ hclause _ ih => exact List.forall_mem_cons.mpr ⟨definite_of_clauseText hclause, ih⟩

/-- So do all clauses of a list. -/
theorem definite_of_clausesText {clauses : List Clause} {text : List Char}
    (h : ClausesText clauses text) : ∀ clause ∈ clauses, clause.Definite := by
  obtain ⟨hclause, hmore⟩ := h
  exact List.forall_mem_cons.mpr
    ⟨definite_of_clauseText hclause, definite_of_moreClausesText hmore⟩

/-- So do those of a spacing, whichever of its forms was read. -/
theorem definite_of_spacingText {spacing : Spacing} {text : List Char}
    (h : SpacingText spacing text) : spacing.Definite := by
  cases h with
  | single h => exact List.forall_mem_singleton.mpr (definite_of_clauseText h)
  | list h => exact definite_of_clausesText h
  | standard => exact trivial
  | flush => exact trivial

/-- So do those of a view. -/
theorem definite_of_viewText {view : View} {text : List Char} (h : ViewText view text) :
    ∀ clause ∈ view.clauses, clause.Definite := by
  cases h with
  | bare _ => exact List.forall_mem_nil _
  | sized _ h => exact definite_of_clausesText h

/-- So do those of all views after the first one, and of the spacings in front of them. -/
theorem definite_of_moreViewsText {more : List (Spacing × View)} {text : List Char}
    (h : MoreViewsText more text) :
    (∀ spacing ∈ more.map Prod.fst, spacing.Definite) ∧
      ∀ view ∈ more.map Prod.snd, ∀ clause ∈ view.clauses, clause.Definite := by
  induction h with
  | nil => exact ⟨List.forall_mem_nil _, List.forall_mem_nil _⟩
  | cons hspacing hview _ ih =>
    exact ⟨List.forall_mem_cons.mpr ⟨definite_of_spacingText hspacing, ih.1⟩,
      List.forall_mem_cons.mpr ⟨definite_of_viewText hview, ih.2⟩⟩

/-- A line that was read compares with numbers and names. -/
theorem definite_of_lineText {line : Line} {text : List Char} (h : LineText line text) :
    line.Definite := by
  cases h with
  | intro hhead hfirst hmore htrailing =>
    obtain ⟨-, hleading⟩ := hhead
    obtain ⟨hspacings, hviews⟩ := definite_of_moreViewsText hmore
    refine ⟨?_, List.forall_mem_cons.mpr ⟨definite_of_viewText hfirst, hviews⟩⟩
    simp only [allSpacings, List.forall_mem_append]
    refine ⟨⟨?_, hspacings⟩, ?_⟩
    · cases hleading with
      | unwritten => exact List.forall_mem_nil _
      | written h => exact List.forall_mem_singleton.mpr (definite_of_spacingText h)
    · cases htrailing with
      | unwritten => exact List.forall_mem_nil _
      | written h => exact List.forall_mem_singleton.mpr (definite_of_spacingText h)

end Written
end Line

/-! ### Pieces -/

/-- The piece gives no constant that is not a number, unless a name stands for it. -/
def Piece.Definite : Piece V → Prop
  | .gap _ _ standard spacing => standard ≠ .nan ∧ spacing.Definite
  | .length _ clause => clause.Definite

/-- Where the standard spacings are numbers, no piece of the line gives a constant that is none
unless a name stands for it. -/
theorem Line.Definite.pieces {line : Line} (h : line.Definite) {config : StandardSpacing}
    (hbetween : config.between ≠ .nan) (hedge : config.edge ≠ .nan) (span : Span)
    (items : List (Item V)) :
    ∀ piece ∈ line.pieces span config (line.views.zip items), piece.Definite := by
  have hspacing : ∀ spacing ∈ line.spacings, spacing.Definite := fun spacing hmem =>
    h.spacings spacing (List.mem_append_left _ (List.mem_append_right _ hmem))
  rw [forall_pieces_iff]
  refine ⟨?_, ?_, ?_, ?_⟩
  · intro spacing hmem first _
    exact ⟨hedge, h.spacings spacing (List.mem_append_left _ (List.mem_append_left _
      (Option.mem_toList.mpr hmem)))⟩
  · intro i spacing hmem a _ b _
    exact ⟨hbetween, hspacing spacing (List.mem_of_getElem? hmem)⟩
  · intro spacing hmem last _
    exact ⟨hedge, h.spacings spacing (List.mem_append_right _ (Option.mem_toList.mpr hmem))⟩
  · intro placed hplaced piece hpiece
    obtain ⟨clause, hclause, rfl⟩ := List.mem_map.mp hpiece
    exact h.views placed.1 (List.of_mem_zip hplaced).1 clause hclause

/-! ### Two resolutions -/

namespace Constraint

variable [DecidableEq V]

/-- Constraints of the same value differ at most in how a zero is written. -/
theorem sameValue_iff {c d : Constraint V} : c.sameValue d = true ↔
    c.first = d.first ∧ c.relation = d.relation ∧ c.second = d.second ∧
      c.constant.sameValue d.constant = true ∧ c.priority = d.priority := by
  simp only [sameValue, Bool.and_eq_true, beq_iff_eq, and_assoc]

/-- A constraint whose constant is a number has its own value. -/
theorem sameValue_self {c : Constraint V} (h : c.constant ≠ .nan) : c.sameValue c = true :=
  sameValue_iff.mpr ⟨rfl, rfl, rfl, Number.sameValue_self_iff.mpr h, rfl⟩

end Constraint

/-- The same names are bound, to the same views and to lengths of the same value. -/
structure Bindings.SameValue (a b : Bindings V) : Prop where
  /-- The views are the same. -/
  views : ∀ name, a.views.get? name = b.views.get? name
  /-- The lengths have the same value. -/
  metrics : ∀ name, Option.Rel (fun x y => x.sameValue y = true) (a.metrics.get? name)
    (b.metrics.get? name)

namespace Bindings.SameValue

variable {a b : Bindings V} (h : a.SameValue b)
include h

theorem item (name : String) : a.item name = b.item name := by
  rw [Bindings.item, Bindings.item, h.views]

/-- A clause on a gap finds lengths of the same value. -/
theorem number {clause : Line.Clause} (hclause : clause.Definite) :
    OutcomeRel (fun x y => x.sameValue y = true) (a.number clause.target)
      (b.number clause.target) := by
  obtain ⟨relation, target, priority⟩ := clause
  cases target with
  | number value =>
    exact .ok (Number.sameValue_self_iff.mpr fun heq => hclause (congrArg _ heq))
  | name name =>
    have hlength := h.metrics name
    simp only [Bindings.number]
    generalize a.metrics.get? name = x, b.metrics.get? name = y at hlength
    cases hlength with
    | some hsame => exact .ok hsame
    | none => exact .error _

/-- A clause on a length finds the same view, or lengths of the same value. -/
theorem measure {clause : Line.Clause} (hclause : clause.Definite) :
    OutcomeRel (fun m n => m.1 = n.1 ∧ m.2.sameValue n.2 = true) (a.measure clause.target)
      (b.measure clause.target) := by
  obtain ⟨relation, target, priority⟩ := clause
  cases target with
  | number value =>
    exact .ok ⟨rfl, Number.sameValue_self_iff.mpr fun heq => hclause (congrArg _ heq)⟩
  | name name =>
    have hlength := h.metrics name
    simp only [Bindings.measure, h.views]
    generalize a.metrics.get? name = x, b.metrics.get? name = y at hlength
    cases hlength with
    | some hsame => exact .ok ⟨rfl, hsame⟩
    -- Where the name is no length, it is that of the same view in both, if any.
    | none =>
      cases b.views.get? name with
      | none => exact .error _
      | some handle => exact .ok ⟨rfl, Number.sameValue_self_iff.mpr Number.zero_ne_nan⟩

variable [DecidableEq V]

/-- A clause on a gap gives constraints of the same value. -/
theorem ofGapClause {clause : Line.Clause} (hclause : clause.Definite) (first second : Anchor V) :
    OutcomeRel (fun c d => c.sameValue d = true) (Piece.ofGapClause a first second clause)
      (Piece.ofGapClause b first second clause) := by
  refine (h.number hclause).bind fun x y hsame => .bind_self fun priority _ => ?_
  exact .ok (Constraint.sameValue_iff.mpr ⟨rfl, rfl, rfl, hsame, rfl⟩)

/-- A clause on a length gives constraints of the same value. -/
theorem ofLengthClause {clause : Line.Clause} (hclause : clause.Definite) (anchor : Anchor V) :
    OutcomeRel (fun c d => c.sameValue d = true) (Piece.ofLengthClause a anchor clause)
      (Piece.ofLengthClause b anchor clause) := by
  refine .bind_self fun priority _ => (h.measure hclause).bind fun m n hmeasure => ?_
  obtain ⟨hitem, hsame⟩ := hmeasure
  exact .ok (Constraint.sameValue_iff.mpr ⟨rfl, rfl,
    congrArg (Option.map (Anchor.mk · anchor.attr)) hitem, hsame, rfl⟩)

/-- A piece gives constraints of the same value. -/
theorem constraints {piece : Piece V} (hpiece : piece.Definite) :
    OutcomeRel (List.Forall₂ fun c d => c.sameValue d = true) (piece.constraints a)
      (piece.constraints b) := by
  cases piece with
  | gap first second standard spacing =>
    cases spacing with
    | flush => exact .ok (.cons (Constraint.sameValue_self Number.zero_ne_nan) .nil)
    | standard => exact .ok (.cons (Constraint.sameValue_self hpiece.1) .nil)
    | gap clauses =>
      exact .mapM fun clause hmem => h.ofGapClause (hpiece.2 clause hmem) first second
  | length anchor clause =>
    exact (h.ofLengthClause hpiece anchor).map fun _ _ hsame => .cons hsame .nil

end Bindings.SameValue

namespace Line

/-- Aligned neighbours are tied without a distance. -/
theorem constant_of_mem_alignNeighbours {attr : Attribute} {items : List (Item V)}
    {c : Constraint V} (h : c ∈ alignNeighbours attr items) : c.constant = .zero := by
  fun_induction alignNeighbours attr items with
  | case1 first second items ih =>
    rcases List.mem_cons.mp h with rfl | h
    · rfl
    · exact ih h
  | case2 => cases h

variable [DecidableEq V]

/-- Alignments add nothing, and so they have their own value. -/
theorem outcomeRel_alignmentConstraints (axis : Axis) (items : List (Item V))
    (alignment : Flag × Attribute) :
    OutcomeRel (List.Forall₂ fun c d => c.sameValue d = true)
      (alignmentConstraints axis items alignment) (alignmentConstraints axis items alignment) := by
  refine .of_self fun tied htied => List.forall₂_same.mpr fun c hc => Constraint.sameValue_self ?_
  rw [alignmentConstraints] at htied
  split at htied
  · cases htied
  · obtain rfl := Except.ok.inj htied
    rw [constant_of_mem_alignNeighbours hc]
    exact Number.zero_ne_nan

/-- A line that writes numbers resolves to constraints of the same value, or to the same complaint,
with bindings of the same value. -/
theorem Definite.resolve {line : Line} (hline : line.Definite) {a b : Bindings V}
    (h : a.SameValue b) (options : Options) {config : StandardSpacing}
    (hbetween : config.between ≠ .nan) (hedge : config.edge ≠ .nan) :
    OutcomeRel (List.Forall₂ fun c d => c.sameValue d = true) (line.resolve options a config)
      (line.resolve options b config) := by
  have hitems : line.views.mapM (a.item ·.name) = line.views.mapM (b.item ·.name) :=
    mapM_congr fun view _ => h.item view.name
  rw [Line.resolve, Line.resolve, hitems]
  refine .bind_self fun items _ => ?_
  have hpieces := hline.pieces hbetween hedge (Span.along line.axis options) items
  refine (OutcomeRel.mapM fun piece hmem => h.constraints (hpieces piece hmem)).bind
    fun spaced spaced' hspaced => ?_
  refine (OutcomeRel.mapM fun alignment _ =>
    outcomeRel_alignmentConstraints line.axis items alignment).bind
      fun aligned aligned' haligned => ?_
  exact .ok (List.rel_append (List.rel_flatten hspaced) (List.rel_flatten haligned))

end Line
end LayoutLine
