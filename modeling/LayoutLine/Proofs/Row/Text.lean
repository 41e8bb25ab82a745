import LayoutLine.Proofs.Line.Accepted
import LayoutLine.Proofs.Row.Build
import LayoutLine.Proofs.Symbol

/-!
# Rows as text

The text of a readable row is a text of the grammar. It stands for the line in which each view has
the clauses of its operand, and each space is a dash or the one gap that was written there.
-/

namespace LayoutLine
namespace Row

open Line.Language
open Line.Grammar (digits_toDigits)

variable {V : Type}

/-! ### Numbers, names and priorities -/

/-- The digits of a natural are read as that natural. -/
theorem ofDigits_toDigits (negative : Bool) (n : Nat) :
    Number.ofDigits negative (Nat.toDigits 10 n) [] = Number.ofRatio negative n 1 := by
  rw [Number.ofDigits, List.append_nil, Nat.ofDigitChars_ten_toDigits]
  simp [Number.ofDecimal]

/-- An integer is written as a sign, below zero, and the digits of its size. -/
theorem toList_toString_int (points : Int) :
    (toString points).toList =
      signText (decide (points < 0)) ++ Nat.toDigits 10 points.natAbs := by
  rw [Int.toString_eq_repr, Int.repr_eq_if]
  by_cases h : 0 ≤ points
  · have hneg : ¬points < 0 := by omega
    have habs : points.toNat = points.natAbs := by omega
    rw [if_pos h, Nat.toList_repr, habs, decide_eq_false hneg]
    rfl
  · have hneg : points < 0 := by omega
    have habs : (-points).toNat = points.natAbs := by omega
    rw [if_neg h, String.toList_append, Nat.toList_repr, habs, decide_eq_true hneg]
    rfl

/-- Whole points are written as a number that is read back. -/
theorem numberText_ofInt (points : Int) :
    NumberText (.ofInt points) (toString points).toList := by
  have hvalue : Number.ofInt points =
      Number.ofDigits (decide (points < 0)) (Nat.toDigits 10 points.natAbs) [] :=
    (ofDigits_toDigits _ points.natAbs).symm
  rw [toList_toString_int, hvalue]
  exact .whole (digits_toDigits points.natAbs)

/-- The name of a symbol is a name of the language of lines. -/
theorem nameText_symbol (s : Symbol) : NameText s.name s.name.toList := by
  have hdigits : ∀ d ∈ Nat.toDigits 10 s.id.val, IsLetter d ∨ IsDigit d :=
    fun d hd => .inr ((digits_toDigits s.id.val).2 d hd)
  have hstem : ∃ c tail, s.kind.stem.toList = c :: tail ∧ IsLetter c ∧
      tail.all Line.Grammar.continuesName = true := by
    cases s.kind with
    | view => exact ⟨'v', _, rfl, by decide, by decide⟩
    | relative => exact ⟨'v', _, rfl, by decide, by decide⟩
    | metric => exact ⟨'m', _, rfl, by decide, by decide⟩
  obtain ⟨c, tail, hstem, hhead, htail⟩ := hstem
  have hname : s.name.toList = c :: (tail ++ Nat.toDigits 10 s.id.val) := by
    rw [Symbol.toList_name, hstem, List.cons_append]
  have hrest : ∀ d ∈ tail ++ Nat.toDigits 10 s.id.val, IsLetter d ∨ IsDigit d := fun d hd =>
    (List.mem_append.mp hd).elim
      (fun hd => Line.Grammar.continuesName_iff.mp (List.all_eq_true.mp htail d hd)) (hdigits d)
  have htext : NameText (String.ofList s.name.toList) s.name.toList := by
    rw [hname]
    exact .intro hhead hrest
  rwa [String.ofList_toList] at htext

/-- A priority is written with its mark. -/
theorem priorityText_value (p : Priority) :
    PriorityText (some p.value) ('@' :: p.text.toList) := by
  have hvalue : Nat.ofDigitChars 10 (Nat.toDigits 10 p.value) 0 = p.value :=
    Nat.ofDigitChars_ten_toDigits
  have hsmall : Nat.ofDigitChars 10 (Nat.toDigits 10 p.value) 0 ≤ 4294967295 := by
    have hle := p.le_thousand
    omega
  have htext := PriorityText.written (digits_toDigits p.value) hsmall
  rw [hvalue] at htext
  rwa [Priority.text, Nat.toList_repr]

/-- A relation is written as its glyph. -/
theorem relationText_glyph (relation : Relation) : RelationText relation relation.glyph.toList := by
  cases relation with
  | equal => exact .equal
  | atLeast => exact .atLeast
  | atMost => exact .atMost

/-! ### Views -/

/-- A clause with a symbol as its target. -/
theorem clauseText_symbol (relation : Relation) (s : Symbol) (priority : Priority) :
    ClauseText ⟨relation, .name s.name, some priority.value⟩
      (relation.glyph ++ s.name ++ "@" ++ priority.text).toList := by
  have htext := ClauseText.intro (relationText_glyph relation) (.name (nameText_symbol s))
    (priorityText_value priority)
  simpa only [String.toList_append, String.reduceToList, List.append_assoc, List.cons_append,
    List.nil_append] using htext

/-- The clause a symbol and a condition stand for. -/
def symbolClause (p : Symbol × LengthClause) : Line.Clause :=
  ⟨p.2.relation, .name p.1.name, some p.2.priority.value⟩

/-- The conditions on a length are written as a list of clauses. -/
theorem moreClausesText_commaSeparated (p : Symbol × LengthClause)
    (ps : List (Symbol × LengthClause)) :
    ∃ text more, ClauseText (symbolClause p) text ∧ MoreClausesText (ps.map symbolClause) more ∧
      (Fragment.commaSeparated ((p :: ps).map fun p => Fragment.clauseText p.1 p.2)).toList =
        text ++ more := by
  have hclause (p : Symbol × LengthClause) :
      ClauseText (symbolClause p) (Fragment.clauseText p.1 p.2).toList :=
    clauseText_symbol p.2.relation p.1 p.2.priority
  induction ps generalizing p with
  | nil => exact ⟨_, [], hclause p, .nil, (List.append_nil _).symm⟩
  | cons q ps ih =>
    obtain ⟨text, more, htext, hmore, heq⟩ := ih q
    have hnone : Spaces [] := by simp [Spaces]
    refine ⟨_, [] ++ ',' :: [] ++ text ++ more, hclause p, .cons hnone hnone htext hmore, ?_⟩
    have hsplit :
        Fragment.commaSeparated ((p :: q :: ps).map fun p => Fragment.clauseText p.1 p.2) =
          Fragment.clauseText p.1 p.2 ++ "," ++
            Fragment.commaSeparated ((q :: ps).map fun p => Fragment.clauseText p.1 p.2) := rfl
    rw [hsplit, String.toList_append, String.toList_append, heq]
    simp only [String.reduceToList, List.nil_append, List.append_assoc, List.cons_append]

/-- The text of a view without conditions writes it. -/
theorem viewText_ofView (id : SymbolId) (view : V) :
    ViewText ⟨Symbol.name ⟨.view, id⟩, []⟩ (Fragment.ofView id view).text.toList := by
  have hview := ViewText.bare (nameText_symbol ⟨.view, id⟩)
  simpa only [Fragment.ofView, String.toList_append, String.reduceToList, List.cons_append,
    List.nil_append] using hview

/-- The text of a view with a list of conditions writes it with a clause for each of them. -/
theorem viewText_ofLengths (id : SymbolId) (view : V) (clause : LengthClause)
    (clauses : List LengthClause) :
    ViewText ⟨Symbol.name ⟨.view, id⟩, ((Fragment.clauseSymbols id (clauses.length + 1)).zip
        (clause :: clauses)).map symbolClause⟩
      (Fragment.ofLengths id view (clause :: clauses)).text.toList := by
  cases hsymbols : Fragment.clauseSymbols id (clauses.length + 1) with
  | nil => simp [Fragment.clauseSymbols] at hsymbols
  | cons symbol symbols =>
    obtain ⟨text, more, htext, hmore, heq⟩ :=
      moreClausesText_commaSeparated (symbol, clause) (symbols.zip clauses)
    have hview := ViewText.sized (nameText_symbol ⟨.view, id⟩) (.intro htext hmore)
    have hlist : List.zipWith Fragment.clauseText (symbol :: symbols) (clause :: clauses) =
        ((symbol, clause) :: symbols.zip clauses).map fun p => Fragment.clauseText p.1 p.2 := by
      rw [← List.zip_cons_cons, List.map_zip_eq_zipWith]
      rfl
    rw [List.map_cons] at hlist heq
    simpa only [Fragment.ofLengths, List.length_cons, hsymbols, hlist, heq, String.toList_append,
      String.reduceToList, List.append_assoc, List.cons_append, List.nil_append,
      List.zip_cons_cons, List.map_cons] using hview

/-- The text of a view that is measured by another writes it with one clause, on the symbol of that
view. -/
theorem viewText_ofRelative (id : SymbolId) (view : V) (relation : Relation) (other : V)
    (priority : Priority) :
    ViewText ⟨Symbol.name ⟨.view, id⟩,
        [⟨relation, .name (Symbol.name ⟨.relative, id.advance 1⟩), some priority.value⟩]⟩
      (Fragment.ofRelative id view relation other priority).text.toList := by
  have hclause := clauseText_symbol relation ⟨.relative, id.advance 1⟩ priority
  have hview := ViewText.sized (nameText_symbol ⟨.view, id⟩) (.intro hclause .nil)
  simpa only [Fragment.ofRelative, String.toList_append, String.reduceToList, List.append_assoc,
    List.cons_append, List.nil_append] using hview

/-- The fragment of a view is a view of the grammar. -/
theorem viewText_hop (hop : Hop V) :
    ViewText hop.view (hop.operand.fragment hop.id).text.toList := by
  simp only [Hop.view, Hop.name, Hop.clauses, ViewOperand.fragment]
  cases hop.operand.sizing with
  | clauses list =>
    cases list with
    | nil => exact viewText_ofView hop.id hop.operand.view
    | cons clause clauses =>
      have hview := viewText_ofLengths hop.id hop.operand.view clause clauses
      rwa [List.map_zip_eq_zipWith] at hview
  | relative relation other priority =>
    exact viewText_ofRelative hop.id hop.operand.view relation other priority

/-! ### Rows -/

theorem toList_glyph_standard : Link.standard.glyph.toList = ['-'] := rfl

/-- Operands with their links as text. -/
def stepsText : List (Link × Placed V) → List Char
  | [] => []
  | (link, p) :: steps => link.glyph.toList ++ (p.fragment.text.toList ++ stepsText steps)

/-- The far edge as text. -/
def farText (trailing : Bool) : List Char := if trailing then ['-', '|'] else []

/-- Joining operands in turn puts their texts behind what is there. -/
theorem toList_text_joinAll (steps : List (Link × Placed V)) (f : Fragment V) :
    (joinAll f steps).text.toList = f.text.toList ++ stepsText steps := by
  induction steps generalizing f with
  | nil => exact (List.append_nil _).symm
  | cons step steps ih =>
    rw [joinAll, ih, Fragment.join, String.toList_append, String.toList_append, stepsText]
    simp only [List.append_assoc]

/-- The text of a row: its operands from edge to edge. -/
theorem toList_text_fragment (row : Row V) (next : SymbolId) :
    (row.fragment next).text.toList =
      (if row.leading then ['|', '-'] else []) ++
        ((row.first.place next).fragment.text.toList ++
          (stepsText (place (next.advance row.first.taken) row.steps) ++
            farText row.trailing)) := by
  have hedge : (Fragment.edge : Fragment V).text.toList = ['|'] := by
    simp only [Fragment.edge, Fragment.literal, String.reduceToList]
  simp only [fragment, farText]
  by_cases hleading : row.leading = true <;> by_cases htrailing : row.trailing = true <;>
    simp only [hleading, htrailing, if_true, if_false, Bool.false_eq_true, Fragment.join,
      String.toList_append, toList_text_joinAll, hedge, toList_glyph_standard, List.append_assoc,
      List.cons_append, List.nil_append, List.append_nil]

/-- A link is written as a dash and its relation, which is not written when it is equality. -/
theorem linkText_glyph (link : Link) :
    ∃ text, RelationText link.relation text ∧ link.glyph.toList = '-' :: text := by
  cases link with
  | standard => exact ⟨[], .unwritten, rfl⟩
  | atLeast => exact ⟨_, .atLeast, rfl⟩
  | atMost => exact ⟨_, .atMost, rfl⟩

/-- A gap of whole points between two dashes, the first one with its relation, writes a spacing. -/
theorem spacingText_points (link : Link) (points : Int) :
    SpacingText (Space.points link.relation points).spacing
      (link.glyph.toList ++ (Fragment.gap points : Fragment V).text.toList ++ ['-']) := by
  obtain ⟨text, hrelation, hglyph⟩ := linkText_glyph link
  have hclause := ClauseText.intro hrelation (.number (numberText_ofInt points)) .unwritten
  have hspacing := SpacingText.single hclause
  rw [List.append_nil] at hspacing
  rw [hglyph]
  exact hspacing

/-- So does a gap of any length, under its symbol. -/
theorem spacingText_metric (link : Link) (id : SymbolId) (value : Number) (priority : Priority) :
    SpacingText (Space.metric link.relation id value priority).spacing
      (link.glyph.toList ++
        (Fragment.ofMetric id ⟨value, priority⟩ : Fragment V).text.toList ++ ['-']) := by
  obtain ⟨text, hrelation, hglyph⟩ := linkText_glyph link
  have hclause := ClauseText.intro hrelation (.name (nameText_symbol ⟨.metric, id⟩))
    (priorityText_value priority)
  have hspacing := SpacingText.single hclause
  rw [hglyph, Space.spacing]
  simpa only [Fragment.ofMetric, String.toList_append, String.reduceToList, List.append_assoc,
    List.cons_append, List.nil_append] using hspacing

/-- A gap becomes the space in front of the next view. Behind its link, and closed by a dash, it is
a spacing of the grammar. -/
theorem exists_space (link : Link) {p : Placed V} (h : p.operand.isView = false) :
    ∃ space, (∀ before steps, hops before ((link, p) :: steps) = hops space steps) ∧
      SpacingText space.spacing (link.glyph.toList ++ p.fragment.text.toList ++ ['-']) := by
  obtain ⟨id, operand⟩ := p
  cases operand with
  | view operand => exact absurd h (by simp [Operand.isView])
  | gap points => exact ⟨_, fun _ _ => rfl, spacingText_points link points⟩
  | metric value priority => exact ⟨_, fun _ _ => rfl, spacingText_metric link id value priority⟩

/-- A view closes the space in front of it. -/
theorem exists_hop {p : Placed V} (h : p.operand.isView) :
    ∃ operand, p.fragment = operand.fragment p.id ∧ ∀ link space steps,
      hops space ((link, p) :: steps) =
        (⟨space, p.id, operand⟩ :: (hops .dash steps).1, (hops .dash steps).2) := by
  obtain ⟨id, operand⟩ := p
  cases operand with
  | view operand => exact ⟨operand, rfl, fun _ _ _ => rfl⟩
  | gap points => exact absurd h (by simp [Operand.isView])
  | metric value priority => exact absurd h (by simp [Operand.isView])

/-- The operands behind a view, an edge or a gap are views with spacings in front of them, and a
spacing before the far edge. What is already written of the first spacing is `front`; it is
nothing unless a gap came before. -/
theorem moreViewsText_hops {trailing : Bool} {steps : List (Link × Placed V)} {afterGap : Bool}
    {space : Space} {front : List Char} (hspace : SpacingText space.spacing (front ++ ['-']))
    (hfront : afterGap = false → front = [])
    (hgaps : GapsEnd trailing afterGap (steps.map fun step => (step.1, step.2.operand)))
    (hlinks : ∀ step ∈ steps, step.1 ≠ .standard → step.2.operand.isView = false) :
    ∃ a b, MoreViewsText ((hops space steps).1.map fun hop => (hop.space.spacing, hop.view)) a ∧
      TrailingText (if trailing then some (hops space steps).2.spacing else none) b ∧
      front ++ (stepsText steps ++ farText trailing) = a ++ b := by
  -- `front` is what stands of the space in front of the next view, up to its last dash.
  induction steps generalizing afterGap space front with
  | nil =>
    cases trailing with
    | true =>
      have htext : front ++ (stepsText ([] : List (Link × Placed V)) ++ farText true) =
          [] ++ (front ++ ['-'] ++ ['|']) := by
        simp [stepsText, farText]
      exact ⟨[], _, .nil, .written hspace, htext⟩
    | false =>
      have hnone : afterGap = false := Bool.eq_false_iff.mpr fun hgap => by simpa using hgaps hgap
      rw [hfront hnone]
      exact ⟨[], [], .nil, .unwritten, rfl⟩
  | cons step steps ih =>
    obtain ⟨link, p⟩ := step
    obtain ⟨hafter, hgaps⟩ := hgaps
    have hlater := fun step hstep => hlinks step (List.mem_cons_of_mem _ hstep)
    cases hview : p.operand.isView with
    | true =>
      have hlink : link = .standard := Decidable.byContradiction fun hlink =>
        absurd ((hlinks _ List.mem_cons_self hlink).symm.trans hview) (by decide)
      obtain ⟨operand, hfragment, hhops⟩ := exists_hop hview
      rw [hview] at hgaps
      have hdash : SpacingText Space.dash.spacing ([] ++ ['-']) := .standard
      obtain ⟨a, b, hmore, htrailing, htext⟩ := ih hdash (fun _ => rfl) hgaps hlater
      have hfirst := viewText_hop (⟨space, p.id, operand⟩ : Hop V)
      rw [hhops]
      refine ⟨_, b, .cons hspace hfirst hmore, htrailing, ?_⟩
      rw [stepsText, hfragment, hlink, toList_glyph_standard]
      simp only [List.append_assoc, ← htext, List.nil_append]
    | false =>
      have hnone : afterGap = false := Bool.eq_false_iff.mpr fun hgap =>
        absurd (hview.symm.trans (hafter hgap).2) (by decide)
      obtain ⟨space', hhops, hspace'⟩ := exists_space link hview
      rw [hview] at hgaps
      obtain ⟨a, b, hmore, htrailing, htext⟩ := ih hspace' (by simp) hgaps hlater
      rw [hhops]
      refine ⟨a, b, hmore, htrailing, ?_⟩
      rw [hfront hnone, ← htext, stepsText]
      simp only [List.append_assoc, List.nil_append]

/-- An entry stands for the same operand wherever it is placed. -/
theorem operand_place (entry : Entry V) (next : SymbolId) :
    (entry.place next).operand = entry.operand := by
  cases entry with
  | made operand => rfl
  | kept placed => rfl

/-- A run of entries has the same links and operands wherever it is placed. -/
theorem operands_placed (steps : List (Link × Entry V)) (next : SymbolId) :
    ((place next steps).map fun step => (step.1, step.2.operand)) =
      steps.map fun step => (step.1, step.2.operand) := by
  induction steps generalizing next with
  | nil => rfl
  | cons step steps ih =>
    obtain ⟨link, entry⟩ := step
    rw [place, List.map_cons, List.map_cons, ih, operand_place]

/-- Where there is a view there is a first one. -/
theorem exists_first_hop {steps : List (Link × Placed V)} (space : Space)
    (h : ∃ step ∈ steps, step.2.operand.isView) :
    ∃ first later, (hops space steps).1 = first :: later := by
  induction steps generalizing space with
  | nil => simp at h
  | cons step steps ih =>
    obtain ⟨link, p⟩ := step
    cases hview : p.operand.isView with
    | true =>
      obtain ⟨operand, -, hhops⟩ := exists_hop hview
      exact ⟨_, _, congrArg Prod.fst (hhops link space steps)⟩
    | false =>
      obtain ⟨space', hhops, -⟩ := exists_space link hview
      rw [hhops]
      refine ih space' ?_
      obtain ⟨step, hstep, hstepView⟩ := h
      rcases List.mem_cons.mp hstep with rfl | hstep
      · exact absurd (hview.symm.trans hstepView) (by decide)
      · exact ⟨step, hstep, hstepView⟩

/-- A rendered fragment has the letter of its axis and a colon in front of its text. -/
theorem toList_render (f : Fragment V) (axis : Axis) :
    (f.render axis).toList = [axis.letter, ':'] ++ f.text.toList := by
  rw [Fragment.render, Axis.render, String.toList_append, String.toList_ofList]

/-- A head, views with the spaces between them and an end make up a line. -/
theorem lineText_hops {axis : Axis} {leading trailing : Option Line.Spacing} {first : Hop V}
    {later : List (Hop V)} {a b c d : List Char} (hhead : HeadText axis leading a)
    (hfirst : ViewText first.view b)
    (hmore : MoreViewsText (later.map fun hop => (hop.space.spacing, hop.view)) c)
    (htrailing : TrailingText trailing d) :
    LineText ⟨axis, leading, (first :: later).map Hop.view, later.map (·.space.spacing), trailing⟩
      (a ++ b ++ c ++ d) := by
  have hline := LineText.intro hhead hfirst hmore htrailing
  rw [List.map_map, List.map_map] at hline
  exact hline

/-- A row that can be read has a view. -/
theorem Readable.exists_view {row : Row V} (h : row.Readable) (next : SymbolId) :
    ∃ step ∈ row.placed next, step.2.operand.isView := by
  obtain ⟨written, hwritten, hview⟩ := h.view
  rw [operands, ← operands_placed row.entries next] at hwritten
  obtain ⟨step, hstep, rfl⟩ := List.mem_map.mp hwritten
  exact ⟨step, hstep, hview⟩

/-- The text of a readable row stands for the row's line. -/
theorem Readable.lineText {row : Row V} (h : row.Readable) (next : SymbolId) (axis : Axis) :
    LineText (row.line next axis) ((row.fragment next).render axis).toList := by
  let rest := place (next.advance row.first.taken) row.steps
  have hplaced : row.placed next = (.standard, row.first.place next) :: rest := rfl
  have hoperands : ((row.placed next).map fun step => (step.1, step.2.operand)) = row.operands :=
    operands_placed row.entries next
  have hlinks : ∀ step ∈ row.placed next, step.1 ≠ .standard → step.2.operand.isView = false := by
    intro step hstep
    refine h.links (step.1, step.2.operand) ?_
    rw [← hoperands]
    exact List.mem_map.mpr ⟨step, hstep, rfl⟩
  have hgaps := h.gaps
  rw [← hoperands] at hgaps
  have hdash : SpacingText Space.dash.spacing ([] ++ ['-']) := .standard
  have htext : ((row.fragment next).render axis).toList =
      [axis.letter, ':'] ++ ((if row.leading then ['|', '-'] else []) ++
        ((row.first.place next).fragment.text.toList ++
          (stepsText rest ++ farText row.trailing))) := by
    rw [toList_render, toList_text_fragment]
  rw [htext]
  by_cases hleading : row.leading = true
  · obtain ⟨first, later, hhops⟩ := exists_first_hop .dash (h.exists_view next)
    obtain ⟨a, b, hviews, htrailing, hsplit⟩ :=
      moreViewsText_hops hdash (fun _ => rfl) hgaps hlinks
    rw [hhops, List.map_cons] at hviews
    cases hviews with
    | @cons _ _ _ c d e hspacing hfirst hmore =>
      have hline := lineText_hops (.intro (axisText_letter axis) (.written hspacing)) hfirst hmore
        htrailing
      have hstart : ['|', '-'] ++ ((row.first.place next).fragment.text.toList ++
          (stepsText rest ++ farText row.trailing)) = '|' :: (c ++ d ++ e ++ b) := by
        rw [← hsplit, hplaced, stepsText]
        simp only [toList_glyph_standard, List.append_assoc, List.cons_append, List.nil_append]
      rw [if_pos hleading, hstart]
      simp only [line, hhops, hleading, if_true, List.head?_cons, Option.map_some, List.tail_cons]
      simpa only [List.append_assoc, List.cons_append, List.nil_append] using hline
  · have hfirstView : (row.first.place next).operand.isView := by
      rw [operand_place]
      exact h.start (by simpa using hleading)
    obtain ⟨operand, hfragment, hhops⟩ := exists_hop hfirstView
    have hrestGaps :
        GapsEnd row.trailing false (rest.map fun step => (step.1, step.2.operand)) := by
      have hrest := hgaps.2
      rwa [hfirstView] at hrest
    obtain ⟨a, b, hmore, htrailing, hsplit⟩ := moreViewsText_hops hdash (fun _ => rfl) hrestGaps
      fun step hstep => hlinks step (List.mem_cons_of_mem _ hstep)
    have hfirst := viewText_hop (⟨.dash, (row.first.place next).id, operand⟩ : Hop V)
    have hline := lineText_hops (.intro (axisText_letter axis) .unwritten) hfirst hmore htrailing
    rw [List.nil_append] at hsplit
    rw [if_neg hleading, List.nil_append, hsplit, hfragment]
    simp only [line, hplaced, hhops, if_neg hleading, List.tail_cons]
    simpa only [List.append_assoc, List.cons_append, List.nil_append] using hline

end Row
end LayoutLine
