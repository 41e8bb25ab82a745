import LayoutLine.Proofs.Row.Text

/-!
# Which rows are read

The text of a row is read as a line exactly when the row is readable. That readable rows are read
is shown where their text is; here every other row is shown to be refused. The reader never goes
back behind a dash, so what it makes of a dash depends on what follows: a gap that is closed by
another dash, else an item, else nothing that can be read on.
-/

namespace LayoutLine
namespace Line.Grammar

open Line.Language

/-! ### Texts that are read to their end -/

/-- Views with spacings in front of them, and perhaps the far edge, make up the whole text. -/
def ReadsOut (cs : List Char) : Prop := (trailing (moreViews cs).2).2 = []

theorem readsOut_of_nextView? {cs rest : List Char} {next : Spacing × View}
    (h : nextView? cs = some (next, rest)) : ReadsOut cs ↔ ReadsOut rest := by
  rw [ReadsOut, moreViews_of_some h, ReadsOut]

theorem viewText_bracket {view : View} {text : List Char} (h : ViewText view text) :
    ∃ tail, text = '[' :: tail := by
  cases h with
  | bare _ => exact ⟨_, rfl⟩
  | sized _ _ => exact ⟨_, rfl⟩

/-- What is read as a view begins with a bracket. -/
theorem itemStart_of_view? {cs rest : List Char} {view : View} (h : view? cs = some (view, rest)) :
    ItemStart cs := by
  obtain ⟨used, hused, rfl⟩ := view?_sound _ _ _ h
  exact viewText_itemStart hused rest

/-- A text with something in it is read out only if an item follows its first spacing. -/
theorem ReadsOut.itemStart {cs : List Char} (h : ReadsOut cs) (hne : cs ≠ []) :
    ItemStart (spacing cs).2 := by
  cases hnext : nextView? cs with
  | some found =>
    obtain ⟨⟨view, rest⟩, hview, -⟩ := Option.map_eq_some_iff.mp hnext
    exact itemStart_of_view? hview
  | none =>
    rw [ReadsOut, moreViews_of_none hnext, trailing] at h
    split at h
    · rename_i space rest heq
      rw [heq]
      exact ⟨'|', rest, rfl, .inr rfl⟩
    · exact absurd h hne

/-- Nothing that is read out begins with a dash and a text that is no item, unless the dash opens
a gap. -/
theorem not_readsOut_dash {c : Char} {cs : List Char} (hgap : gap? ('-' :: c :: cs) = none)
    (hc : c ≠ '[' ∧ c ≠ '|') : ¬ReadsOut ('-' :: c :: cs) := by
  intro h
  have hstart := h.itemStart (List.cons_ne_nil _ _)
  rw [spacing, hgap] at hstart
  obtain ⟨d, tail, heq, hd⟩ := hstart
  obtain rfl := (List.cons.inj heq).1
  exact hd.elim hc.1 hc.2

/-- A clause that nothing follows is not closed by a dash. -/
theorem gap?_unclosed {clause : Clause} {a : List Char} (h : ClauseText clause a) :
    gap? ('-' :: a) = none := by
  have hend : ClauseEnd [] := ⟨by simp [TargetEnd], by simp⟩
  have hread := clause?_complete h hend
  obtain ⟨c, tail, rfl, hc⟩ := clauseText_head h
  rw [List.append_nil] at hread
  rw [gap?, clauses?_eq_none hc.2.1, hread]
  rfl

/-- A relation in front of an item begins no clause. -/
theorem gap?_relation (relation : Relation) (hrelation : relation ≠ .equal) {rest : List Char}
    (h : ItemStart rest) : gap? ('-' :: (relation.glyph.toList ++ rest)) = none := by
  obtain ⟨c, tail, rfl, rfl | rfl⟩ := h
  all_goals
    cases relation with
    | equal => exact absurd rfl hrelation
    | atLeast => rfl
    | atMost => rfl

/-- The reader goes past the axis, and needs a view behind the first edge or in its stead. -/
theorem exists_view_of_read {a : Axis} {body : List Char} {line : Line}
    (h : read ([a.letter, ':'] ++ body) = .ok (line, [])) :
    ∃ view rest, view? (leading body).2 = some (view, rest) ∧ ReadsOut rest := by
  rw [read, axis_mark] at h
  simp only at h
  cases hview : view? (leading body).2 with
  | none =>
    rw [hview] at h
    cases h
  | some found =>
    rw [hview] at h
    exact ⟨found.1, found.2, rfl, (Prod.mk.inj (Except.ok.inj h)).2⟩

/-- Where the first edge of the container is not written, nothing is read for it. -/
theorem leading_of_ne {c : Char} {cs : List Char} (hc : c ≠ '|') :
    leading (c :: cs) = (none, c :: cs) := by
  unfold leading
  split
  · rename_i heq
    exact absurd (List.cons.inj heq).1 hc
  · rfl

end Line.Grammar

namespace Row

open Line.Language Line.Grammar

variable {V : Type}

/-! ### Operands as text -/

/-- A gap is the text of a clause that compares with equality, and stays one behind a relation. -/
theorem exists_clauseText {p : Placed V} (h : p.operand.isView = false) {relation : Relation}
    {text : List Char} (hrelation : RelationText relation text) :
    ∃ clause, ClauseText clause (text ++ p.fragment.text.toList) := by
  obtain ⟨id, operand⟩ := p
  cases operand with
  | view operand => exact absurd h (by simp [Operand.isView])
  | gap points =>
    have hclause := ClauseText.intro hrelation (.number (numberText_ofInt points)) .unwritten
    rw [List.append_nil] at hclause
    exact ⟨_, hclause⟩
  | metric value priority =>
    have hclause := ClauseText.intro hrelation (.name (nameText_symbol ⟨.metric, id⟩))
      (priorityText_value priority)
    have htext : (Placed.fragment ⟨id, .metric value priority⟩ : Fragment V).text.toList =
        (Symbol.name ⟨.metric, id⟩).toList ++ '@' :: priority.text.toList := by
      simp only [Placed.fragment, Operand.fragment, Fragment.ofMetric, String.toList_append,
        String.reduceToList, List.append_assoc, List.cons_append, List.nil_append]
    rw [List.append_assoc] at hclause
    rw [htext]
    exact ⟨_, hclause⟩

/-- A view is written as a view of the grammar. -/
theorem exists_viewText {p : Placed V} (h : p.operand.isView) :
    ∃ view, ViewText view p.fragment.text.toList := by
  obtain ⟨operand, hfragment, -⟩ := exists_hop h
  rw [hfragment]
  exact ⟨_, viewText_hop (⟨.dash, p.id, operand⟩ : Hop V)⟩

/-- An operand's text begins with a bracket if it is a view, and never with an edge. -/
theorem exists_head (p : Placed V) :
    ∃ c tail, p.fragment.text.toList = c :: tail ∧ c ≠ '|' ∧ (c = '[' ↔ p.operand.isView) := by
  cases hview : p.operand.isView with
  | true =>
    obtain ⟨view, hviewText⟩ := exists_viewText hview
    obtain ⟨tail, htext⟩ := viewText_bracket hviewText
    exact ⟨'[', tail, htext, by decide, by simp⟩
  | false =>
    obtain ⟨clause, hclause⟩ := exists_clauseText hview .unwritten
    obtain ⟨c, tail, htext, hc⟩ := clauseText_head hclause
    exact ⟨c, tail, htext, hc.2.2.2, by simp [hc.2.2.1]⟩

/-- Only a view begins with an item of the grammar. -/
theorem isView_of_itemStart {p : Placed V} {rest : List Char}
    (h : ItemStart (p.fragment.text.toList ++ rest)) : p.operand.isView := by
  obtain ⟨c, tail, htext, hedge, hview⟩ := exists_head p
  obtain ⟨d, rest', heq, hd⟩ := h
  rw [htext] at heq
  obtain rfl := (List.cons.inj heq).1
  exact hview.mp (hd.resolve_right hedge)

/-- What is written of the spacing in front of an operand: nothing after a view, and after a gap
the gap without the dash that closes it. -/
inductive Front : Bool → List Char → Prop
  | none : Front false []
  | gap {clause : Line.Clause} {a : List Char} (h : ClauseText clause a) : Front true ('-' :: a)

/-- Links with a relation lead to gaps only. -/
def LinksOpenGaps (steps : List (Link × Operand V)) : Prop :=
  ∀ step ∈ steps, step.1 ≠ .standard → step.2.isView = false

theorem linksOpenGaps_cons {link : Link} {operand : Operand V} {steps : List (Link × Operand V)} :
    LinksOpenGaps ((link, operand) :: steps) ↔
      (link ≠ .standard → operand.isView = false) ∧ LinksOpenGaps steps := by
  simp only [LinksOpenGaps, List.forall_mem_cons]

/-! ### What is refused -/

/-- Behind a gap that is not closed yet, only a bare dash and a view, or the far edge, are read. -/
theorem view_of_readsOut_gap {clause : Line.Clause} {a : List Char} (hclause : ClauseText clause a)
    {link : Link} {p : Placed V} {rest : List Char}
    (h : ReadsOut ('-' :: a ++ (link.glyph.toList ++ (p.fragment.text.toList ++ rest)))) :
    link = .standard ∧ p.operand.isView := by
  obtain ⟨text, hrelation, hglyph⟩ := linkText_glyph link
  have hclosed : '-' :: a ++ (link.glyph.toList ++ (p.fragment.text.toList ++ rest)) =
      '-' :: a ++ ['-'] ++ (text ++ (p.fragment.text.toList ++ rest)) := by
    rw [hglyph]
    simp only [List.append_assoc, List.cons_append, List.nil_append]
  rw [hclosed] at h
  have hstart := h.itemStart (List.cons_ne_nil _ _)
  unfold spacing at hstart
  rw [gap?_complete (.single hclause)] at hstart
  cases link with
  | standard =>
    obtain rfl : text = [] := (List.cons.inj hglyph).2.symm
    exact ⟨rfl, isView_of_itemStart hstart⟩
  | atLeast =>
    obtain rfl : text = ['>', '='] := (List.cons.inj hglyph).2.symm
    obtain ⟨c, tail, heq, hc⟩ := hstart
    obtain rfl := (List.cons.inj heq).1
    exact absurd hc (by decide)
  | atMost =>
    obtain rfl : text = ['<', '='] := (List.cons.inj hglyph).2.symm
    obtain ⟨c, tail, heq, hc⟩ := hstart
    obtain rfl := (List.cons.inj heq).1
    exact absurd hc (by decide)

/-- A link with a relation is not read in front of a view. -/
theorem standard_of_readsOut_view {link : Link} {p : Placed V} (hview : p.operand.isView)
    {rest : List Char}
    (h : ReadsOut (link.glyph.toList ++ (p.fragment.text.toList ++ rest))) : link = .standard := by
  obtain ⟨view, htext⟩ := exists_viewText hview
  have hstart := viewText_itemStart htext rest
  cases link with
  | standard => rfl
  | atLeast =>
    have hnone := gap?_relation .atLeast (by decide) hstart
    exact absurd h (not_readsOut_dash hnone (by decide))
  | atMost =>
    have hnone := gap?_relation .atMost (by decide) hstart
    exact absurd h (not_readsOut_dash hnone (by decide))

/-- A bare dash and a view behind it are read, with the gap in front of the dash if there is one. -/
theorem readsOut_view {afterGap : Bool} {front : List Char} (hfront : Front afterGap front)
    {p : Placed V} (hview : p.operand.isView) (rest : List Char) :
    ReadsOut (front ++ (Link.standard.glyph.toList ++ (p.fragment.text.toList ++ rest))) ↔
      ReadsOut rest := by
  obtain ⟨view, htext⟩ := exists_viewText hview
  have hspacing : ∃ space, SpacingText space (front ++ ['-']) := by
    cases hfront with
    | none => exact ⟨_, .standard⟩
    | gap hclause => exact ⟨_, .single hclause⟩
  obtain ⟨space, hspacing⟩ := hspacing
  have hnext : nextView? (front ++ ['-'] ++ (p.fragment.text.toList ++ rest)) =
      some ((space, view), rest) := nextView?_complete hspacing htext
  rw [List.append_assoc] at hnext
  exact readsOut_of_nextView? hnext

/-- Operands that are read out meet the conditions on gaps and links. -/
theorem gapsEnd_of_readsOut {trailing : Bool} (steps : List (Link × Placed V)) {afterGap : Bool}
    {front : List Char} (hfront : Front afterGap front)
    (h : ReadsOut (front ++ (stepsText steps ++ farText trailing))) :
    GapsEnd trailing afterGap (steps.map fun step => (step.1, step.2.operand)) ∧
      LinksOpenGaps (steps.map fun step => (step.1, step.2.operand)) := by
  induction steps generalizing afterGap front with
  | nil =>
    refine ⟨fun hgap => ?_, by simp [LinksOpenGaps]⟩
    cases trailing with
    | true => rfl
    | false =>
      cases hfront with
      | none => cases hgap
      | gap hclause =>
        obtain ⟨c, tail, rfl, hc⟩ := clauseText_head hclause
        rw [stepsText, farText, if_neg Bool.false_ne_true, List.append_nil, List.append_nil] at h
        exact absurd h (not_readsOut_dash (gap?_unclosed hclause) ⟨hc.2.2.1, hc.2.2.2⟩)
  | cons step steps ih =>
    obtain ⟨link, p⟩ := step
    rw [stepsText, List.append_assoc, List.append_assoc] at h
    rw [List.map_cons, linksOpenGaps_cons]
    cases hview : p.operand.isView with
    | true =>
      have hlink : link = .standard := by
        cases hfront with
        | none => exact standard_of_readsOut_view hview h
        | gap hclause => exact (view_of_readsOut_gap hclause h).1
      subst hlink
      have hlater := ih .none ((readsOut_view hfront hview _).mp h)
      refine ⟨⟨fun _ => ⟨rfl, hview⟩, ?_⟩, fun hne => absurd rfl hne, hlater.2⟩
      rw [hview]
      exact hlater.1
    | false =>
      cases hfront with
      | gap hclause =>
        exact absurd (hview.symm.trans (view_of_readsOut_gap hclause h).2) (by decide)
      | none =>
        obtain ⟨text, hrelation, hglyph⟩ := linkText_glyph link
        obtain ⟨clause, hclause⟩ := exists_clauseText hview hrelation
        have hopen : [] ++ (link.glyph.toList ++
            (p.fragment.text.toList ++ (stepsText steps ++ farText trailing))) =
            '-' :: (text ++ p.fragment.text.toList) ++ (stepsText steps ++ farText trailing) := by
          rw [hglyph]
          simp only [List.append_assoc, List.cons_append, List.nil_append]
        rw [hopen] at h
        have hlater := ih (.gap hclause) h
        refine ⟨⟨fun hgap => absurd hgap Bool.false_ne_true, ?_⟩, fun _ => rfl, hlater.2⟩
        rw [hview]
        exact hlater.1

/-- Operands that meet the condition on gaps, with no view among them, are a single gap in front of
the far edge. -/
theorem GapsEnd.no_view {trailing : Bool} {steps : List (Link × Operand V)}
    (h : GapsEnd trailing false steps) (hnone : ∀ step ∈ steps, step.2.isView = false) :
    steps = [] ∨ ∃ step, steps = [step] ∧ trailing := by
  cases steps with
  | nil => exact .inl rfl
  | cons step steps =>
    obtain ⟨link, operand⟩ := step
    have hoperand : operand.isView = false := hnone _ List.mem_cons_self
    have hgaps := h.2
    rw [hoperand] at hgaps
    cases steps with
    | nil => exact .inr ⟨_, rfl, hgaps rfl⟩
    | cons next steps =>
      have hnext := hnone _ (List.mem_cons_of_mem _ List.mem_cons_self)
      exact absurd (hnext.symm.trans (hgaps.1 rfl).2) (by decide)

/-! ### Rows -/

/-- A lone gap between the edges is not read: what follows its second dash is the far edge. -/
theorem not_nextView?_gap {p : Placed V} (h : p.operand.isView = false) :
    nextView? (stepsText [(.standard, p)] ++ farText true) = none := by
  obtain ⟨clause, hclause⟩ := exists_clauseText h .unwritten
  have hedge := nextView?_edge (.single hclause) []
  simpa only [stepsText, farText, toList_glyph_standard, if_true, List.append_assoc,
    List.cons_append, List.nil_append] using hedge

/-- A row from the container's first edge on: the edge and the dash behind it are read like the
dash behind a view. -/
theorem readable_of_leading {row : Row V} {next : SymbolId} (hleading : row.leading = true)
    {found : Line.View} {rest : List Char}
    (hfound : view? (spacing (stepsText (row.placed next) ++ farText row.trailing)).2 =
      some (found, rest)) (hrest : ReadsOut rest) : row.Readable := by
  have hnext : nextView? (stepsText (row.placed next) ++ farText row.trailing) =
      some (((spacing (stepsText (row.placed next) ++ farText row.trailing)).1, found), rest) := by
    rw [nextView?, hfound]
    rfl
  have hends := gapsEnd_of_readsOut (row.placed next) .none
    ((readsOut_of_nextView? hnext).mpr hrest)
  rw [placed, operands_placed] at hends
  refine ⟨?_, fun hnot => absurd (hnot.symm.trans hleading) (by decide), hends.1, hends.2⟩
  by_cases hview : ∃ step ∈ row.operands, step.2.isView
  · exact hview
  · have hnone : ∀ step ∈ row.operands, step.2.isView = false := fun step hstep =>
      Bool.eq_false_iff.mpr fun h => hview ⟨step, hstep, h⟩
    rcases GapsEnd.no_view hends.1 hnone with hnil | ⟨step, hone, htrailing⟩
    · cases hnil
    · have hsteps : row.steps = [] := List.map_eq_nil_iff.mp (List.cons.inj hone).2
      have hfirst : (row.first.place next).operand.isView = false := by
        rw [operand_place]
        exact hnone _ List.mem_cons_self
      have hplaced : row.placed next = [(.standard, row.first.place next)] := by
        rw [placed, entries, hsteps]
        rfl
      rw [hplaced, htrailing, not_nextView?_gap hfirst] at hnext
      cases hnext

/-- A row that is not tied to the first edge: its text begins with the first operand. -/
theorem readable_of_first {row : Row V} {next : SymbolId} {steps : List (Link × Placed V)}
    (hplaced : row.placed next = (.standard, row.first.place next) :: steps)
    {found : Line.View} {rest : List Char}
    (hfound : view? (Line.Grammar.leading ((row.first.place next).fragment.text.toList ++
      (stepsText steps ++ farText row.trailing))).2 = some (found, rest))
    (hrest : ReadsOut rest) : row.Readable := by
  have hlead : ∀ text, Line.Grammar.leading ((row.first.place next).fragment.text.toList ++ text) =
      (none, (row.first.place next).fragment.text.toList ++ text) := by
    intro text
    obtain ⟨c, tail, htext, hedge, -⟩ := exists_head (row.first.place next)
    rw [htext, List.cons_append]
    exact leading_of_ne hedge
  rw [hlead] at hfound
  have hplace : (row.first.place next).operand.isView :=
    isView_of_itemStart (itemStart_of_view? hfound)
  obtain ⟨view, htext⟩ := exists_viewText hplace
  rw [view?_complete htext] at hfound
  obtain rfl := (Prod.mk.inj (Option.some.inj hfound)).2
  have hends := gapsEnd_of_readsOut steps .none hrest
  have hoperands : row.operands =
      (.standard, row.first.operand) :: steps.map fun step => (step.1, step.2.operand) := by
    rw [operands, ← operands_placed row.entries next, ← placed, hplaced, List.map_cons,
      operand_place]
  have hfirst : row.first.operand.isView := by rwa [operand_place] at hplace
  refine ⟨⟨_, List.mem_cons_self, hfirst⟩, fun _ => hfirst, ?_, ?_⟩
  · rw [hoperands, GapsEnd, hfirst]
    exact ⟨fun hgap => absurd hgap Bool.false_ne_true, hends.1⟩
  · rw [hoperands]
    exact linksOpenGaps_cons.mpr ⟨fun hne => absurd rfl hne, hends.2⟩

/-- A row whose text is read as a line is readable. -/
theorem readable_of_lineText {row : Row V} {next : SymbolId} {axis : Axis} {line : Line}
    (h : LineText line ((row.fragment next).render axis).toList) : row.Readable := by
  let steps := place (next.advance row.first.taken) row.steps
  have hread := Line.read_lineText h
  rw [toList_render, toList_text_fragment] at hread
  obtain ⟨view, rest, hview, hrest⟩ := exists_view_of_read hread
  cases hleading : row.leading with
  | true =>
    have htext : (if row.leading then ['|', '-'] else []) ++
        ((row.first.place next).fragment.text.toList ++ (stepsText steps ++ farText row.trailing)) =
          '|' :: (stepsText (row.placed next) ++ farText row.trailing) := by
      have hplaced : row.placed next = (.standard, row.first.place next) :: steps := rfl
      simp only [hleading, if_true, hplaced, stepsText, toList_glyph_standard,
        List.append_assoc, List.cons_append, List.nil_append]
    rw [htext] at hview
    exact readable_of_leading hleading hview hrest
  | false =>
    rw [hleading] at hview
    exact readable_of_first rfl hview hrest

/-- The chain of a row always builds. Its text is read as a line exactly when the row is readable,
and the line has then the views of the row in order with the clauses of their operands, and between
them the spaces that were written there. -/
theorem parse_render_iff (row : Row V) (ids : IdSource) :
    ∃ f, row.chain.expr.build ids = .ok f (ids.skip row.taken) ∧ ∀ axis line,
      Line.parse (f.render axis) = .ok line ↔ row.Readable ∧ line = row.line ids.next axis := by
  refine ⟨row.fragment ids.next, build_chain row ids, fun axis line => ?_⟩
  constructor
  · intro h
    have hreadable := readable_of_lineText (Line.parse_eq_ok_iff.mp h)
    have hparse := Line.parse_eq_ok_iff.mpr (hreadable.lineText ids.next axis)
    exact ⟨hreadable, Except.ok.inj (h.symm.trans hparse)⟩
  · rintro ⟨hreadable, rfl⟩
    exact Line.parse_eq_ok_iff.mpr (hreadable.lineText ids.next axis)

end Row
end LayoutLine
