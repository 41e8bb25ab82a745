import LayoutLine.Engine
import LayoutLine.Fragment.Basic
import LayoutLine.Proofs.Resolve.Values
import LayoutLine.Proofs.Table

/-!
# Fragments that nothing tells apart

Fragments have the same value when text and options are the same and the same names are bound, in
any order, to the same views and to lengths of the same value. That is all there is to be seen of a
fragment: what is joined to it comes to the same value, and so do the constraints of its line along
either axis.
-/

namespace LayoutLine

variable {V : Type} [DecidableEq V]

namespace Fragment

/-- Fragments have the same value when their texts and options are the same and their names stand
for the same. -/
theorem sameValue_iff {f g : Fragment V} : f.sameValue g = true ↔
    f.text = g.text ∧ f.options = g.options ∧ f.toBindings.SameValue g.toBindings := by
  simp only [sameValue, Bool.and_eq_true, beq_iff_eq, Table.sameEntries_iff, rel_eq_iff]
  constructor
  · rintro ⟨⟨⟨htext, hoptions⟩, hviews⟩, hmetrics⟩
    exact ⟨htext, hoptions, hviews, hmetrics⟩
  · rintro ⟨htext, hoptions, hviews, hmetrics⟩
    exact ⟨⟨⟨htext, hoptions⟩, hviews⟩, hmetrics⟩

/-- Joined fragments have the same value when their parts have, also where a name is in both. -/
theorem sameValue_join {f f' g g' : Fragment V} (hf : f.sameValue f' = true)
    (hg : g.sameValue g' = true) (glyph : String) :
    (f.join glyph g).sameValue (f'.join glyph g') = true := by
  simp only [sameValue, Bool.and_eq_true, beq_iff_eq] at hf hg ⊢
  obtain ⟨⟨⟨htext, hoptions⟩, hviews⟩, hmetrics⟩ := hf
  obtain ⟨⟨⟨htext', hoptions'⟩, hviews'⟩, hmetrics'⟩ := hg
  refine ⟨⟨⟨?_, ?_⟩, Table.sameEntries_merge hviews hviews'⟩,
    Table.sameEntries_merge hmetrics hmetrics'⟩
  · rw [join, join, htext, htext']
  · rw [join, join, hoptions, hoptions']

end Fragment

/-- A text comes to constraints of the same value with bindings of the same value, or to the same
complaint. -/
theorem Bindings.SameValue.constraintsOf {a b : Bindings V} (h : a.SameValue b) (text : String)
    (options : Options) {config : StandardSpacing} (hbetween : config.between ≠ .nan)
    (hedge : config.edge ≠ .nan) :
    OutcomeRel (List.Forall₂ fun c d => c.sameValue d = true)
      (Line.constraintsOf text options a config) (Line.constraintsOf text options b config) := by
  refine .bind_self fun line hparse => ?_
  have hline : line.Definite :=
    Line.definite_of_lineText (Line.parse_eq_ok_iff.mp (mapError_eq_ok_iff.mp hparse))
  exact (hline.resolve h options hbetween hedge).mapError FormatError.resolve

namespace Fragment

/-- Nothing tells fragments of the same value apart. Joined to fragments of the same value they have
the same value, also where names are in both parts; and an engine whose standard spacings are
numbers answers with the same complaint, or with constraints of the same value in the same order,
and is the same engine afterwards. -/
theorem sameValue_indistinguishable {f f' g g' : Fragment V} (hf : f.sameValue f' = true)
    (hg : g.sameValue g' = true) :
    (∀ glyph, (f.join glyph g).sameValue (f'.join glyph g') = true) ∧
      ∀ (axis : Axis) (engine : FormatEngine V), engine.config.between ≠ .nan →
        engine.config.edge ≠ .nan →
        (∃ e, engine.constraintsFor (f.render axis) f.options f.toBindings = (.error e, engine) ∧
          engine.constraintsFor (f'.render axis) f'.options f'.toBindings = (.error e, engine)) ∨
        ∃ constraints constraints' after,
          engine.constraintsFor (f.render axis) f.options f.toBindings = (.ok constraints, after) ∧
          engine.constraintsFor (f'.render axis) f'.options f'.toBindings =
            (.ok constraints', after) ∧
          List.Forall₂ (fun c d => c.sameValue d = true) constraints constraints' := by
  refine ⟨sameValue_join hf hg, fun axis engine hbetween hedge => ?_⟩
  obtain ⟨htext, hoptions, hbindings⟩ := sameValue_iff.mp hf
  have hanswers := hbindings.constraintsOf (axis.render f.text) f.options hbetween hedge
  simp only [FormatEngine.constraintsFor, render, ← htext, ← hoptions]
  generalize Line.constraintsOf (axis.render f.text) f.options f.toBindings engine.config = x,
    Line.constraintsOf (axis.render f.text) f.options f'.toBindings engine.config = y at hanswers ⊢
  cases hanswers with
  | ok hsame => exact .inr ⟨_, _, _, rfl, rfl, hsame⟩
  | error e => exact .inl ⟨e, rfl, rfl⟩

/-- One length is a zero of either sign, the entries stand in another order, and a name is in both
parts: the constraints differ in the sign of a zero and in nothing else. -/
theorem sameValue_indistinguishable_zeros :
    let text := "|-(m)-[a(n)]"
    let f : Fragment Nat :=
      { text
        views := .ofList [("a", 0)]
        metrics := .ofList [("m", .zero), ("n", .ofInt 12)] }
    let f' : Fragment Nat :=
      { text
        views := .ofList [("a", 0)]
        metrics := .ofList [("n", .ofInt 12), ("m", Number.zero.neg)] }
    let g : Fragment Nat := { text := "[b]-|", views := .ofList [("a", 2), ("b", 1)] }
    let g' : Fragment Nat := { text := "[b]-|", views := .ofList [("b", 1), ("a", 2)] }
    let engine : FormatEngine Nat := default
    f.sameValue f' = true ∧ g.sameValue g' = true ∧
      (f.join "-" g).sameValue (f'.join "-" g') = true ∧
      engine.config.between ≠ .nan ∧ engine.config.edge ≠ .nan ∧
      ∃ constraints constraints' after,
        engine.constraintsFor (f.render .vertical) f.options f.toBindings =
          (.ok constraints, after) ∧
        engine.constraintsFor (f'.render .vertical) f'.options f'.toBindings =
          (.ok constraints', after) ∧
        List.Forall₂ (fun c d => c.sameValue d = true) constraints constraints' ∧
        constraints ≠ constraints' := by
  intro text f f' g g' engine
  have hf : f.sameValue f' = true := by decide
  have hg : g.sameValue g' = true := by decide
  have hbetween : engine.config.between ≠ .nan := by decide
  have hedge : engine.config.edge ≠ .nan := by decide
  have hdiffer : (engine.constraintsFor (f.render .vertical) f.options f.toBindings).1.toOption ≠
      (engine.constraintsFor (f'.render .vertical) f'.options f'.toBindings).1.toOption := by
    decide +kernel
  obtain ⟨hjoin, hanswers⟩ := sameValue_indistinguishable hf hg
  refine ⟨hf, hg, hjoin "-", hbetween, hedge, ?_⟩
  rcases hanswers .vertical engine hbetween hedge with
    ⟨e, hleft, hright⟩ | ⟨constraints, constraints', after, hleft, hright, hsame⟩
  · rw [hleft, hright] at hdiffer
    exact absurd rfl hdiffer
  · rw [hleft, hright] at hdiffer
    exact ⟨constraints, constraints', after, hleft, hright, hsame,
      fun heq => hdiffer (congrArg some heq)⟩

end Fragment
end LayoutLine
