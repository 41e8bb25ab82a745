import LayoutLine.Proofs.Line.Accepted
import LayoutLine.Proofs.Text.Runs

/-!
# The names of a line are the runs of its text

Whatever else a line writes, such as brackets, dashes, relations, numbers, priorities and white
space, has no letters in it, and no letter or digit follows a name. So the names that a line
mentions can be read off its text without the grammar: behind the mark of the axis they are the runs
of the text, each as often as it is written.
-/

namespace LayoutLine.Line

open Line.Language
open Text (NamesIn NameEnd nameEnd_nil nameEnd_cons namesIn_nameText)

/-! ### Texts without letters -/

theorem not_isLetter_of_all {cs : List Char} (h : cs.all fun c => ¬IsLetter c) :
    ∀ c ∈ cs, ¬IsLetter c :=
  fun c hc => of_decide_eq_true (List.all_eq_true.mp h c hc)

/-- No digit is a letter. -/
theorem not_isLetter_of_isDigit {c : Char} (h : IsDigit c) : ¬IsLetter c :=
  fun hletter => Grammar.not_isDigit_of_isLetter hletter h

theorem not_isLetter_of_digits {cs : List Char} (h : Digits cs) : ∀ c ∈ cs, ¬IsLetter c :=
  fun c hc => not_isLetter_of_isDigit (h.2 c hc)

/-- White space has no letters. -/
theorem not_isLetter_of_spaces {cs : List Char} (h : Spaces cs) : ∀ c ∈ cs, ¬IsLetter c := by
  intro c hc
  rcases h c hc with rfl | rfl | rfl | rfl <;> decide

/-- A number is written with digits, a sign and a point. -/
theorem of_mem_numberText {value : Number} {cs : List Char} (h : NumberText value cs) :
    ∀ c ∈ cs, IsDigit c ∨ c = '-' ∨ c = '.' := by
  have hsign (negative : Bool) : ∀ c ∈ signText negative, IsDigit c ∨ c = '-' ∨ c = '.' := by
    cases negative with
    | false => exact nofun
    | true => exact List.forall_mem_singleton.mpr (.inr (.inl rfl))
  have hrun {digits : List Char} (hdigits : Digits digits) :
      ∀ c ∈ digits, IsDigit c ∨ c = '-' ∨ c = '.' := fun c hc => .inl (hdigits.2 c hc)
  cases h with
  | whole hdigits => exact List.forall_mem_append.mpr ⟨hsign _, hrun hdigits⟩
  | decimal hdigits hfraction =>
    refine List.forall_mem_append.mpr ⟨?_, ?_⟩
    · exact List.forall_mem_append.mpr ⟨hsign _, hrun hdigits⟩
    · exact List.forall_mem_cons.mpr ⟨.inr (.inr rfl), hrun hfraction⟩

/-- The text of a number has no letters: no exponent is ever written. -/
theorem not_isLetter_of_numberText {value : Number} {cs : List Char} (h : NumberText value cs) :
    ∀ c ∈ cs, ¬IsLetter c := by
  intro c hc
  rcases of_mem_numberText h c hc with hdigit | rfl | rfl
  · exact not_isLetter_of_isDigit hdigit
  · decide
  · decide

/-- The text of a relation has no letters. -/
theorem not_isLetter_of_relationText {relation : Relation} {cs : List Char}
    (h : RelationText relation cs) : ∀ c ∈ cs, ¬IsLetter c :=
  not_isLetter_of_all (by cases h <;> decide)

/-- The text of a priority has no letters. -/
theorem not_isLetter_of_priorityText {priority : Option Nat} {cs : List Char}
    (h : PriorityText priority cs) : ∀ c ∈ cs, ¬IsLetter c := by
  cases h with
  | unwritten => exact nofun
  | written hdigits _ => exact List.forall_mem_cons.mpr ⟨by decide, not_isLetter_of_digits hdigits⟩

/-! ### Where names end -/

/-- A name ends where a priority follows it. -/
theorem nameEnd_priorityText {priority : Option Nat} {cs : List Char}
    (h : PriorityText priority cs) : NameEnd cs := by
  cases h with
  | unwritten => exact nameEnd_nil
  | written _ _ => exact nameEnd_cons (by decide) _

/-- A name ends where more clauses or none follow it. -/
theorem nameEnd_moreClausesText {clauses : List Clause} {cs : List Char}
    (h : MoreClausesText clauses cs) : NameEnd cs := by
  cases h with
  | nil => exact nameEnd_nil
  | @cons _ _ a b c d before _ _ _ =>
    rw [List.append_assoc, List.append_assoc]
    refine NameEnd.append ?_ (nameEnd_cons (by decide) _)
    cases a with
    | nil => exact nameEnd_nil
    | cons c a =>
      refine nameEnd_cons ?_ a
      rcases before c List.mem_cons_self with rfl | rfl | rfl | rfl <;> decide

/-- A name ends where a spacing follows it. -/
theorem nameEnd_spacingText {spacing : Spacing} {cs : List Char} (h : SpacingText spacing cs) :
    NameEnd cs := by
  cases h with
  | single _ => exact nameEnd_cons (by decide) _
  | list _ => exact nameEnd_cons (by decide) _
  | standard => exact nameEnd_cons (by decide) _
  | flush => exact nameEnd_nil

/-- A name ends where a view follows it. -/
theorem nameEnd_viewText {view : View} {cs : List Char} (h : ViewText view cs) : NameEnd cs := by
  cases h with
  | bare _ => exact nameEnd_cons (by decide) _
  | sized _ _ => exact nameEnd_cons (by decide) _

/-- A name ends where more views or none follow it. -/
theorem nameEnd_moreViewsText {more : List (Spacing × View)} {cs : List Char}
    (h : MoreViewsText more cs) : NameEnd cs := by
  induction h with
  | nil => exact nameEnd_nil
  | cons hspacing hview _ ih =>
    exact ((nameEnd_spacingText hspacing).append (nameEnd_viewText hview)).append ih

/-- A name ends where the far edge or nothing follows it. -/
theorem nameEnd_trailingText {trailing : Option Spacing} {cs : List Char}
    (h : TrailingText trailing cs) : NameEnd cs := by
  cases h with
  | unwritten => exact nameEnd_nil
  | written hspacing => exact (nameEnd_spacingText hspacing).append (nameEnd_cons (by decide) _)

/-! ### Names in the texts of the grammar -/

/-- The runs in the text of a clause are the names it compares with, of which there is at most one.
-/
theorem namesIn_clauseText {clause : Clause} {cs : List Char} (h : ClauseText clause cs) :
    NamesIn clause.names cs := by
  cases h with
  | @intro relation target priority a b c hrelation htarget hpriority =>
    have hafter : NamesIn [] c := .none (not_isLetter_of_priorityText hpriority)
    rw [List.append_assoc]
    refine NamesIn.prepend ?_ (not_isLetter_of_relationText hrelation)
    cases htarget with
    | number h => exact hafter.prepend (not_isLetter_of_numberText h)
    | name h => exact (namesIn_nameText h).append hafter (nameEnd_priorityText hpriority)

/-- The runs in the text of further clauses are the names these compare with. -/
theorem namesIn_moreClausesText {clauses : List Clause} {cs : List Char}
    (h : MoreClausesText clauses cs) : NamesIn (clauses.flatMap Clause.names) cs := by
  induction h with
  | nil => exact .none nofun
  | @cons clause clauses a b c d before after hclause hmore ih =>
    have hcomma : ∀ c ∈ a ++ ',' :: b, ¬IsLetter c :=
      List.forall_mem_append.mpr ⟨not_isLetter_of_spaces before,
        List.forall_mem_cons.mpr ⟨by decide, not_isLetter_of_spaces after⟩⟩
    rw [List.append_assoc, List.flatMap_cons]
    exact ((namesIn_clauseText hclause).append ih (nameEnd_moreClausesText hmore)).prepend hcomma

/-- The runs in a list of clauses are the names these compare with. -/
theorem namesIn_clausesText {clauses : List Clause} {cs : List Char}
    (h : ClausesText clauses cs) : NamesIn (clauses.flatMap Clause.names) cs := by
  cases h with
  | @intro clause clauses a b hclause hmore =>
    have hlist := ((namesIn_clauseText hclause).append (namesIn_moreClausesText hmore)
      (nameEnd_moreClausesText hmore)).close (c := ')') (by decide)
    exact hlist.cons (by decide)

/-- The runs in the text of a spacing are the names of its clauses. -/
theorem namesIn_spacingText {spacing : Spacing} {cs : List Char} (h : SpacingText spacing cs) :
    NamesIn spacing.names cs := by
  have gap {clauses : List Clause} {a : List Char} (h : NamesIn (clauses.flatMap Clause.names) a) :
      NamesIn (Spacing.gap clauses).names ('-' :: a ++ ['-']) :=
    (h.close (c := '-') (by decide)).cons (by decide)
  cases h with
  | @single clause a h =>
    refine gap ?_
    rw [List.flatMap_singleton]
    exact namesIn_clauseText h
  | list h => exact gap (namesIn_clausesText h)
  | standard => exact .none (not_isLetter_of_all (by decide))
  | flush => exact .none nofun

/-- The runs in the text of a view are its own name and those of its clauses. -/
theorem namesIn_viewText {view : View} {cs : List Char} (h : ViewText view cs) :
    NamesIn view.names cs := by
  have bracketed {names : List String} {a : List Char} (h : NamesIn names a) :
      NamesIn names ('[' :: a ++ [']']) :=
    (h.close (c := ']') (by decide)).cons (by decide)
  cases h with
  | bare hname => exact bracketed (namesIn_nameText hname)
  | @sized name clauses a b hname hclauses =>
    have hparen : NameEnd b := by
      cases hclauses with
      | intro _ _ => exact nameEnd_cons (by decide) _
    exact bracketed ((namesIn_nameText hname).append (namesIn_clausesText hclauses) hparen)

/-- The runs in the text of further views are the names of the spacings and the views in turn. -/
theorem namesIn_moreViewsText {more : List (Spacing × View)} {cs : List Char}
    (h : MoreViewsText more cs) :
    NamesIn (more.flatMap fun next => next.1.names ++ next.2.names) cs := by
  induction h with
  | nil => exact .none nofun
  | cons hspacing hview hmore ih =>
    rw [List.flatMap_cons]
    exact ((namesIn_spacingText hspacing).append (namesIn_viewText hview)
      (nameEnd_viewText hview)).append ih (nameEnd_moreViewsText hmore)

/-- The runs in the text of the first edge are the names of its spacing. -/
theorem namesIn_leadingText {leading : Option Spacing} {cs : List Char}
    (h : LeadingText leading cs) : NamesIn ((leading.map Spacing.names).getD []) cs := by
  cases h with
  | unwritten => exact .none nofun
  | written hspacing => exact (namesIn_spacingText hspacing).cons (by decide)

/-- The runs in the text of the far edge are the names of its spacing. -/
theorem namesIn_trailingText {trailing : Option Spacing} {cs : List Char}
    (h : TrailingText trailing cs) : NamesIn ((trailing.map Spacing.names).getD []) cs := by
  cases h with
  | unwritten => exact .none nofun
  | written hspacing => exact (namesIn_spacingText hspacing).close (by decide)

/-! ### Whole lines -/

/-- Where there is one spacing fewer than there are views, the names are those of the first view and
then those of each spacing and of the view behind it. -/
theorem namesAlong_cons (first : View) (more : List (Spacing × View)) :
    namesAlong (first :: more.map Prod.snd) (more.map Prod.fst) =
      first.names ++ more.flatMap fun next => next.1.names ++ next.2.names := by
  induction more generalizing first with
  | nil => simp [namesAlong]
  | cons next more ih =>
    rw [List.map_cons, List.map_cons, namesAlong, List.tail_cons, ih, List.flatMap_cons]
    simp

/-- The names of a line stand in its text behind the mark of the axis. -/
theorem namesIn_lineText {line : Line} {cs : List Char} (h : LineText line cs) :
    NamesIn line.names (Grammar.axis cs).2 := by
  cases h with
  | @intro axis leading trailing first more a b c d hhead hfirst hmore htrailing =>
    cases hhead with
    | @intro mark a haxis hleading =>
      have hstart := Grammar.leadingText_itemStart hleading hfirst (c ++ d)
      have hviews := ((namesIn_leadingText hleading).append (namesIn_viewText hfirst)
        (nameEnd_viewText hfirst)).append (namesIn_moreViewsText hmore)
        (nameEnd_moreViewsText hmore)
      have hall := hviews.append (namesIn_trailingText htrailing) (nameEnd_trailingText htrailing)
      simp only [List.append_assoc] at hall ⊢
      rw [Grammar.axis_complete haxis hstart, names, namesAlong_cons]
      simpa only [List.append_assoc] using hall

/-- The names of a line that is read are exactly the runs of its text behind the mark of the axis,
from left to right and with repetitions. -/
theorem names_are_runs {text : String} {line : Line} (h : parse text = .ok line) :
    ∃ runs, Text.Runs (Grammar.axis text.toList).2 runs ∧
      line.names = runs.map fun run => String.ofList run.chars :=
  (namesIn_lineText (parse_eq_ok_iff.mp h)).exists_runs

/-- A line in which a length, a view and a gap are named twice, and a number with a priority stands
between names. -/
theorem names_are_runs_repeated :
    ∃ line, parse "V:|-(m , 4@750)-[a(b)][b]-m-|" = .ok line ∧
      line.names = ["m", "a", "b", "b", "m"] ∧
      ∃ runs, Text.Runs "|-(m , 4@750)-[a(b)][b]-m-|".toList runs ∧
        line.names = runs.map fun run => String.ofList run.chars := by
  have hname (c : Char) (hc : IsLetter c) : NameText (String.ofList [c]) [c] := .intro hc nofun
  have hclause {name : String} {cs : List Char} (h : NameText name cs) :
      ClauseText ⟨.equal, .name name, none⟩ ([] ++ cs ++ []) :=
    .intro .unwritten (.name h) .unwritten
  have hspace : Spaces [' '] := List.forall_mem_singleton.mpr (.inl rfl)
  have hgap := hclause (hname 'm' (by decide))
  have hfour : ClauseText ⟨.equal, .number (.ofDigits false ['4'] []), some 750⟩ "4@750".toList :=
    .intro .unwritten (.number (@NumberText.whole false ['4'] (by decide)))
      (@PriorityText.written ['7', '5', '0'] (by decide) (by decide))
  have hlist := ClausesText.intro hgap (.cons hspace hspace hfour .nil)
  have hfirst := ViewText.sized (hname 'a' (by decide))
    (.intro (hclause (hname 'b' (by decide))) .nil)
  have hline := LineText.intro (.intro .vertical (.written (.list hlist))) hfirst
    (.cons .flush (.bare (hname 'b' (by decide))) .nil) (.written (.single hgap))
  have hparse : parse "V:|-(m , 4@750)-[a(b)][b]-m-|" = .ok _ := parse_eq_ok_iff.mpr hline
  exact ⟨_, hparse, by decide, names_are_runs hparse⟩

end LayoutLine.Line
