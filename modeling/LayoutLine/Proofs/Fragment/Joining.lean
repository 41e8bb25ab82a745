import LayoutLine.Engine
import LayoutLine.Proofs.Line.Joining
import LayoutLine.Proofs.Row.Names
import LayoutLine.Proofs.Row.Text

/-!
# Joining fragments joins their constraints

Two fragments that bind no name in common keep their bindings when they are joined, and no view of
the one is hidden by a length of the other. So each of them means in the joined fragment what it
meant alone, and a dash between them adds the one constraint that keeps them apart.
-/

namespace LayoutLine

open Line.Language

variable {V : Type}

/-! ### Bindings that are kept -/

/-- What the names of `a` stand for they stand for in `b`: its bindings are there, and those of its
views that are no lengths stay without one. -/
structure Bindings.KeptIn (a b : Bindings V) : Prop extends a.PartOf b where
  /-- No view is hidden by a length. -/
  unhidden : ∀ name view, a.views.get? name = some view → a.metrics.get? name = none →
    b.metrics.get? name = none

namespace Bindings.KeptIn

variable {a b : Bindings V} (h : a.KeptIn b)
include h

/-- A view that one part finds is found by all. -/
theorem item {name : String} {item : Item V} (hitem : a.item name = .ok item) :
    b.item name = .ok item := by
  obtain ⟨handle, hhandle, rfl⟩ := exists_of_item hitem
  rw [Bindings.item, h.views name handle hhandle]

/-- A length that one part finds is found by all, since no part binds it differently. -/
theorem number {target : Line.Target} {value : Number} (hvalue : a.number target = .ok value) :
    b.number target = .ok value := by
  cases target with
  | number x => exact hvalue
  | name name =>
    simp only [Bindings.number] at hvalue ⊢
    split at hvalue
    · rename_i found hfound
      rw [h.metrics name found hfound]
      exact hvalue
    · cases hvalue

/-- What one part measures a length by is found by all. -/
theorem measure {target : Line.Target} {found : Option (Item V) × Number}
    (hfound : a.measure target = .ok found) : b.measure target = .ok found := by
  cases target with
  | number x => exact hfound
  | name name =>
    simp only [Bindings.measure] at hfound ⊢
    split at hfound
    · rename_i value hvalue
      simp only [h.metrics name value hvalue]
      exact hfound
    · rename_i handle hnone hhandle
      simp only [h.unhidden name handle hhandle hnone, h.views name handle hhandle]
      exact hfound
    · cases hfound

/-- A piece of a line gives the constraints it gave. -/
theorem constraints {piece : Piece V} {constraints : List (Constraint V)}
    (hpiece : piece.constraints a = .ok constraints) : piece.constraints b = .ok constraints := by
  cases piece with
  | gap first second standard spacing =>
    cases spacing with
    | flush => exact hpiece
    | standard => exact hpiece
    | gap clauses =>
      refine mapM_eq_ok_of_steps (fun clause c hclause => ?_) hpiece
      obtain ⟨constant, hconstant, hrest⟩ := exists_of_bind_ok hclause
      rw [Piece.ofGapClause, h.number hconstant]
      exact hrest
  | length anchor clause =>
    obtain ⟨c, hclause, rfl⟩ := exists_of_map_ok hpiece
    obtain ⟨priority, hpriority, hrest⟩ := exists_of_bind_ok hclause
    obtain ⟨found, hfound, hrest⟩ := exists_of_bind_ok hrest
    have hkept : Piece.ofLengthClause b anchor clause = .ok c := by
      rw [Piece.ofLengthClause, hpriority, h.measure hfound]
      exact hrest
    rw [Piece.constraints, hkept]
    rfl

/-- A line gives the constraints it gave. -/
theorem resolve {line : Line} {options : Options} {config : StandardSpacing}
    {constraints : List (Constraint V)}
    (hline : line.resolve options a config = .ok constraints) :
    line.resolve options b config = .ok constraints := by
  obtain ⟨items, spaced, hitems, ⟨parts, hparts, rfl⟩, hcross, rfl⟩ :=
    Line.exists_of_resolve hline
  exact Line.resolve_of_yields (mapM_eq_ok_of_steps (fun _ _ => h.item) hitems)
    ⟨parts, mapM_eq_ok_of_steps (fun _ _ => h.constraints) hparts, rfl⟩ hcross

/-- The views of a line that resolves are bound, and they stay what they are. -/
theorem exists_handle {line : Line} {options : Options} {config : StandardSpacing}
    {constraints : List (Constraint V)} (hline : line.resolve options a config = .ok constraints)
    {view : Line.View} (hview : view ∈ line.views) {item : Item V}
    (hitem : b.item view.name = .ok item) :
    ∃ handle, a.views.get? view.name = some handle ∧ item = .view view.name handle := by
  obtain ⟨items, -, hitems, -⟩ := Line.exists_of_resolve hline
  obtain ⟨own, hown⟩ := exists_of_mapM_ok hitems hview
  obtain rfl := Except.ok.inj ((h.item hown).symm.trans hitem)
  exact exists_of_item hown

end Bindings.KeptIn

/-! ### Tables without a common name -/

namespace Fragment

theorem mem_symbols_of_view {f : Fragment V} {name : String} {view : V}
    (h : f.views.get? name = some view) : name ∈ f.symbols :=
  List.mem_append_left _ (Table.mem_names_of_get? h)

theorem mem_symbols_of_metric {f : Fragment V} {name : String} {value : Number}
    (h : f.metrics.get? name = some value) : name ∈ f.symbols :=
  List.mem_append_right _ (Table.mem_names_of_get? h)

/-- What is no symbol of a fragment is bound to no view in it and to no length. -/
theorem get?_eq_none_of_notMem_symbols {f : Fragment V} {name : String} (h : name ∉ f.symbols) :
    f.views.get? name = none ∧ f.metrics.get? name = none := by
  rw [symbols, List.mem_append, not_or] at h
  exact ⟨(f.views.get?_eq_none_iff name).mpr h.1, (f.metrics.get?_eq_none_iff name).mpr h.2⟩

/-- Joining keeps what the first fragment binds if the second has none of its symbols. -/
theorem keptIn_join_left {f g : Fragment V} (h : f.symbols.Disjoint g.symbols) (glyph : String) :
    f.toBindings.KeptIn (f.join glyph g).toBindings where
  views := fun name view hview => by
    have hnone := get?_eq_none_of_notMem_symbols (h (mem_symbols_of_view hview))
    rw [Row.get?_join_views, hnone.1, Option.none_or, hview]
  metrics := fun name value hvalue => by
    have hnone := get?_eq_none_of_notMem_symbols (h (mem_symbols_of_metric hvalue))
    rw [Row.get?_join_metrics, hnone.2, Option.none_or, hvalue]
  unhidden := fun name view hview hmetric => by
    have hnone := get?_eq_none_of_notMem_symbols (h (mem_symbols_of_view hview))
    rw [Row.get?_join_metrics, hnone.2, Option.none_or, hmetric]

/-- Joining keeps what the second fragment binds; none of its views is hidden if the first has none
of its symbols. -/
theorem keptIn_join_right {f g : Fragment V} (h : f.symbols.Disjoint g.symbols) (glyph : String) :
    g.toBindings.KeptIn (f.join glyph g).toBindings where
  views := fun name view hview => by rw [Row.get?_join_views, hview, Option.some_or]
  metrics := fun name value hvalue => by rw [Row.get?_join_metrics, hvalue, Option.some_or]
  unhidden := fun name view hview hmetric => by
    have hnone := get?_eq_none_of_notMem_symbols fun hname => h hname (mem_symbols_of_view hview)
    rw [Row.get?_join_metrics, hmetric, Option.none_or, hnone.2]

/-! ### From fragments to constraints -/

/-- The constraints of two fragments joined by a dash. When they have no symbol in common and no
options, and what is read of the first ends with a view and of the second starts with one, the
engine gives for both together the constraints of the first, the one that keeps the two views at the
seam the standard space apart, and the constraints of the second. -/
theorem join_concatenates_constraints {f g : Fragment V} (hf : f.options = .empty)
    (hg : g.options = .empty) (hapart : f.symbols.Disjoint g.symbols) (axis : Axis)
    (engine : FormatEngine V) {constraints later : List (Constraint V)}
    (hconstraints :
      (engine.constraintsFor (f.render axis) f.options f.toBindings).1 = .ok constraints)
    (hlater : (engine.constraintsFor (g.render axis) g.options g.toBindings).1 = .ok later)
    {before after : Line} (hbefore : Line.parse (f.render axis) = .ok before)
    (hend : before.trailing = none) (hafter : Line.parse (g.render axis) = .ok after)
    (hstart : after.leading = none) :
    ∃ last first handle handle', before.views.getLast? = some last ∧
      after.views.head? = some first ∧ f.views.get? last.name = some handle ∧
      g.views.get? first.name = some handle' ∧
      (engine.constraintsFor ((f.join "-" g).render axis) (f.join "-" g).options
        (f.join "-" g).toBindings).1 = .ok (constraints ++
          ⟨⟨.view first.name handle', (Span.along axis .empty).start⟩, .equal,
            some ⟨.view last.name handle, (Span.along axis .empty).stop⟩, engine.config.between,
            .required⟩ :: later) := by
  obtain ⟨line, hline, hresolve⟩ := FormatEngine.constraintsFor_eq_ok_iff.mp hconstraints
  obtain rfl := Except.ok.inj (hbefore.symm.trans hline)
  obtain ⟨line', hline', hresolve'⟩ := FormatEngine.constraintsFor_eq_ok_iff.mp hlater
  obtain rfl := Except.ok.inj (hafter.symm.trans hline')
  rw [hf] at hresolve
  rw [hg] at hresolve'
  have htext := Line.parse_eq_ok_iff.mp hbefore
  have htext' := Line.parse_eq_ok_iff.mp hafter
  have hviews := Line.length_spacings_of_lineText htext
  have hviews' := Line.length_spacings_of_lineText htext'
  rw [Row.toList_render] at htext htext'
  obtain ⟨haxis, -⟩ := Line.exists_parts_of_lineText htext
  obtain ⟨haxis', -⟩ := Line.exists_parts_of_lineText htext'
  -- Both lines are resolved with the bindings of the whole before they are put together.
  have hkept := keptIn_join_left hapart "-"
  have hkept' := keptIn_join_right hapart "-"
  obtain ⟨last, first, item, item', hlast, hfirst, hitem, hitem', hjoin⟩ :=
    Line.resolve_join .standard (haxis'.trans haxis.symm) hend hstart (by decide) hviews
      (List.ne_nil_of_length_eq_add_one hviews'.symm) (hkept.resolve hresolve)
      (hkept'.resolve hresolve')
  obtain ⟨handle, hhandle, rfl⟩ :=
    hkept.exists_handle hresolve (List.mem_of_getLast? hlast) hitem
  obtain ⟨handle', hhandle', rfl⟩ :=
    hkept'.exists_handle hresolve' (List.mem_of_head? hfirst) hitem'
  refine ⟨last, first, handle, handle', hlast, hfirst, hhandle, hhandle',
    FormatEngine.constraintsFor_eq_ok_iff.mpr ⟨before.join .standard after, ?_, ?_⟩⟩
  · rw [Line.parse_eq_ok_iff, Row.toList_render]
    have hjoined := Line.lineText_join htext hend .standard htext' hstart
    simpa only [join, String.toList_append, String.reduceToList] using hjoined
  · have hnone : (f.join "-" g).options = .empty := by
      simp only [join, hf, hg, Options.union_empty]
    rw [hnone, hjoin _ rfl, haxis]
    rfl

/-- A view at the near edge, its length a symbol. -/
def nearPart : Fragment Nat where
  text := "|-[a(p)]"
  views := .ofList [("a", 0)]
  metrics := .ofList [("p", .ofInt 12)]

/-- Two views of one length at the far edge. -/
def farPart : Fragment Nat where
  text := "[b(c)][c]-|"
  views := .ofList [("b", 1), ("c", 2)]

/-- Both parts from edge to edge, top to bottom. -/
theorem join_concatenates_parts :
    ∃ (constraints later : List (Constraint Nat)) (before after : Line),
      nearPart.options = .empty ∧ farPart.options = .empty ∧
      nearPart.symbols.Disjoint farPart.symbols ∧
      ((default : FormatEngine Nat).constraintsFor (nearPart.render .vertical) nearPart.options
        nearPart.toBindings).1 = .ok constraints ∧
      ((default : FormatEngine Nat).constraintsFor (farPart.render .vertical) farPart.options
        farPart.toBindings).1 = .ok later ∧
      Line.parse (nearPart.render .vertical) = .ok before ∧ before.trailing = none ∧
      Line.parse (farPart.render .vertical) = .ok after ∧ after.leading = none ∧
      ((default : FormatEngine Nat).constraintsFor ((nearPart.join "-" farPart).render .vertical)
        (nearPart.join "-" farPart).options (nearPart.join "-" farPart).toBindings).1 =
        .ok (constraints ++ ⟨⟨.view "b" 1, .top⟩, .equal, some ⟨.view "a" 0, .bottom⟩, .ofInt 8,
          .required⟩ :: later) ∧
      constraints.length = 2 ∧ later.length = 3 := by
  let before : Line :=
    ⟨.vertical, some .standard, [⟨"a", [⟨.equal, .name "p", none⟩]⟩], [], none⟩
  let after : Line :=
    ⟨.vertical, none, [⟨"b", [⟨.equal, .name "c", none⟩]⟩, ⟨"c", []⟩], [.flush], some .standard⟩
  let a : Item Nat := .view "a" 0
  let b : Item Nat := .view "b" 1
  let c : Item Nat := .view "c" 2
  let constraints : List (Constraint Nat) :=
    [⟨⟨a, .top⟩, .equal, some ⟨.container, .top⟩, .ofInt 20, .required⟩,
      ⟨⟨a, .height⟩, .equal, none, .ofInt 12, .required⟩]
  let later : List (Constraint Nat) :=
    [⟨⟨b, .height⟩, .equal, some ⟨c, .height⟩, .zero, .required⟩,
      ⟨⟨c, .top⟩, .equal, some ⟨b, .bottom⟩, .zero, .required⟩,
      ⟨⟨.container, .bottom⟩, .equal, some ⟨c, .bottom⟩, .ofInt 20, .required⟩]
  have hname (c : Char) (hc : IsLetter c) : NameText (String.ofList [c]) [c] :=
    .intro hc (by simp)
  have hsized {name target : String} {s t : List Char} (hs : NameText name s)
      (ht : NameText target t) : ViewText ⟨name, [⟨.equal, .name target, none⟩]⟩
        ('[' :: s ++ ('(' :: ([] ++ t ++ []) ++ [] ++ [')']) ++ [']']) :=
    .sized hs (.intro (.intro .unwritten (.name ht) .unwritten) .nil)
  have hbefore : Line.parse (nearPart.render .vertical) = .ok before := by
    rw [Line.parse_eq_ok_iff, Row.toList_render]
    exact .intro (.intro .vertical (.written .standard))
      (hsized (hname 'a' (by decide)) (hname 'p' (by decide))) .nil .unwritten
  have hafter : Line.parse (farPart.render .vertical) = .ok after := by
    rw [Line.parse_eq_ok_iff, Row.toList_render]
    exact .intro (.intro .vertical .unwritten)
      (hsized (hname 'b' (by decide)) (hname 'c' (by decide)))
      (.cons .flush (.bare (hname 'c' (by decide))) .nil) (.written .standard)
  have hanswer : ((default : FormatEngine Nat).constraintsFor (nearPart.render .vertical)
      nearPart.options nearPart.toBindings).1 = .ok constraints :=
    FormatEngine.constraintsFor_eq_ok_iff.mpr ⟨before, hbefore, rfl⟩
  have hanswer' : ((default : FormatEngine Nat).constraintsFor (farPart.render .vertical)
      farPart.options farPart.toBindings).1 = .ok later :=
    FormatEngine.constraintsFor_eq_ok_iff.mpr ⟨after, hafter, rfl⟩
  have hapart : nearPart.symbols.Disjoint farPart.symbols := List.disjoint_left.mpr (by decide)
  obtain ⟨last, first, handle, handle', hlast, hfirst, hhandle, hhandle', hjoin⟩ :=
    join_concatenates_constraints rfl rfl hapart .vertical default hanswer hanswer' hbefore rfl
      hafter rfl
  obtain rfl := Option.some.inj hlast
  obtain rfl := Option.some.inj hfirst
  obtain rfl := Option.some.inj hhandle
  obtain rfl := Option.some.inj hhandle'
  exact ⟨constraints, later, before, after, rfl, rfl, hapart, hanswer, hanswer', hbefore, rfl,
    hafter, rfl, hjoin, rfl, rfl⟩

end Fragment
end LayoutLine
