import LayoutLine.Line.Grammar
import LayoutLine.Proofs.Line.Language
import Mathlib.Tactic.Tauto

/-!
# What the rules read is in the language

A rule that succeeds has taken a text that writes its value off the front of its input. The rules
are followed one by one, from the classes of characters up to the views after the first one.
-/

namespace LayoutLine.Line.Grammar

open Line.Language
open Text (digits? digitRun)

/-- Whatever the rule reads is written by the text it takes. -/
def Sound {α : Type} (rule : Rule α) (written : α → List Char → Prop) : Prop :=
  ∀ cs a rest, rule cs = some (a, rest) → ∃ used, written a used ∧ cs = used ++ rest

/-! ### Classes of characters -/

/-- The test for a digit is the grammar's class of digits. -/
theorem isDigit_iff {c : Char} : c.isDigit = true ↔ IsDigit c := by
  simp only [Char.isDigit, IsDigit, Char.le_def, Bool.and_eq_true, decide_eq_true_eq, ge_iff_le]

/-- What may stand around a comma is white space in the narrow sense: space, tab, carriage return
and line feed. -/
theorem isWhitespace_iff {c : Char} : c.isWhitespace = true ↔ IsSpace c := by
  simp only [Char.isWhitespace, IsSpace, Bool.or_eq_true, decide_eq_true_eq, or_assoc]

theorem isUpper_iff {c : Char} : c.isUpper = true ↔ 'A' ≤ c ∧ c ≤ 'Z' := decide_eq_true_iff

/-- The small letters are those of ASCII. -/
theorem isLower_iff {c : Char} : c.isLower = true ↔ 'a' ≤ c ∧ c ≤ 'z' := by
  have hlower : c.isLower = (decide ('a' ≤ c) && decide (c ≤ 'z')) := rfl
  rw [hlower, Bool.and_eq_true, decide_eq_true_eq, decide_eq_true_eq]

/-- The letters are those of ASCII, large and small. -/
theorem isAlpha_iff {c : Char} :
    c.isAlpha = true ↔ ('A' ≤ c ∧ c ≤ 'Z') ∨ ('a' ≤ c ∧ c ≤ 'z') := by
  have halpha : c.isAlpha = (c.isUpper || c.isLower) := rfl
  rw [halpha, Bool.or_eq_true, isUpper_iff, isLower_iff]

/-- The rule for names starts with what the grammar lets a name start with. -/
theorem startsName_iff {c : Char} : startsName c = true ↔ IsLetter c := by
  simp only [startsName, IsLetter, Bool.or_eq_true, isAlpha_iff, beq_iff_eq, or_assoc]

/-- It goes on with letters and digits, as the grammar does. -/
theorem continuesName_iff {c : Char} : continuesName c = true ↔ IsLetter c ∨ IsDigit c := by
  simp only [continuesName, Char.isAlphanum, IsLetter, Bool.or_eq_true, isAlpha_iff, isDigit_iff,
    beq_iff_eq]
  tauto

/-! ### Names, numbers and clauses -/

/-- A run that is split off consists of at least one digit, and it stood in front of what is left.
-/
theorem digits?_sound {cs run rest : List Char} (h : digits? cs = some (run, rest)) :
    Digits run ∧ cs = run ++ rest := by
  obtain ⟨happ, hne⟩ := Text.eq_append_of_digits? h
  refine ⟨⟨hne, ?_⟩, happ⟩
  intro c hc
  simp only [digits?] at h
  split at h
  · cases h
  · have hrun : (digitRun cs).1 = run := congrArg Prod.fst (Option.some.inj h)
    rw [← hrun] at hc
    exact isDigit_iff.mp (Text.isDigit_of_mem_digitRun hc)

/-- What is taken as a name is a letter with letters and digits behind it. -/
theorem name?_sound : Sound name? NameText := by
  intro cs name rest h
  cases cs with
  | nil => cases h
  | cons c cs =>
    simp only [name?] at h
    split at h
    · rename_i hc
      obtain ⟨rfl, rfl⟩ := Prod.mk.inj (Option.some.inj h)
      refine ⟨c :: cs.takeWhile continuesName, .intro (startsName_iff.mp hc) ?_, ?_⟩
      · intro d hd
        have hall := List.all_eq_true.mp (List.all_takeWhile (p := continuesName) (l := cs))
        exact continuesName_iff.mp (hall d hd)
      · rw [List.cons_append, List.takeWhile_append_dropWhile]
    · cases h

/-- Digits, with or without a fraction, are the text of a number once its sign is in front. -/
theorem unsigned?_sound {negative : Bool} {cs rest : List Char} {value : Number}
    (h : unsigned? negative cs = some (value, rest)) :
    ∃ used, NumberText value (signText negative ++ used) ∧ cs = used ++ rest := by
  obtain ⟨⟨whole, afterWhole⟩, hdigits, hread⟩ := Option.map_eq_some_iff.mp h
  obtain ⟨hwhole, rfl⟩ := digits?_sound hdigits
  dsimp only at hread
  split at hread
  · rename_i tail
    split at hread
    · rename_i fraction afterFraction hfraction
      obtain ⟨hdecimal, rfl⟩ := digits?_sound hfraction
      obtain ⟨rfl, rfl⟩ := Prod.mk.inj hread
      refine ⟨whole ++ '.' :: fraction, ?_, by simp⟩
      rw [← List.append_assoc]
      exact .decimal hwhole hdecimal
    · obtain ⟨rfl, rfl⟩ := Prod.mk.inj hread
      exact ⟨whole, .whole hwhole, rfl⟩
  · obtain ⟨rfl, rfl⟩ := Prod.mk.inj hread
    exact ⟨whole, .whole hwhole, rfl⟩

/-- What is taken as a number writes the number that is read. -/
theorem number?_sound : Sound number? NumberText := by
  intro cs value rest h
  unfold number? at h
  split at h
  · obtain ⟨used, hnumber, rfl⟩ := unsigned?_sound h
    exact ⟨'-' :: used, hnumber, rfl⟩
  · obtain ⟨used, hnumber, rfl⟩ := unsigned?_sound h
    exact ⟨used, hnumber, rfl⟩

/-- What is taken as a relation writes it. Nothing is taken for equality that is not written. -/
theorem relation_sound (cs : List Char) :
    ∃ used, RelationText (relation cs).1 used ∧ cs = used ++ (relation cs).2 := by
  unfold relation
  split
  · exact ⟨['=', '='], .equal, rfl⟩
  · exact ⟨['>', '='], .atLeast, rfl⟩
  · exact ⟨['<', '='], .atMost, rfl⟩
  · exact ⟨[], .unwritten, rfl⟩

/-- A clause compares with a number or with a name, and the text that was taken writes it. -/
theorem target?_sound : Sound target? TargetText := by
  intro cs target rest h
  simp only [target?] at h
  split at h
  · rename_i value afterValue hnumber
    obtain ⟨rfl, rfl⟩ := Prod.mk.inj (Option.some.inj h)
    obtain ⟨used, hvalue, rfl⟩ := number?_sound _ _ _ hnumber
    exact ⟨used, .number hvalue, rfl⟩
  · obtain ⟨⟨name, afterName⟩, hname, hread⟩ := Option.map_eq_some_iff.mp h
    obtain ⟨rfl, rfl⟩ := Prod.mk.inj hread
    obtain ⟨used, hused, rfl⟩ := name?_sound _ _ _ hname
    exact ⟨used, .name hused, rfl⟩

/-- Either a mark with the digits of at most 32 bits was taken, or nothing and no priority is read.
-/
theorem priority_sound (cs : List Char) :
    ∃ used, PriorityText (priority cs).1 used ∧ cs = used ++ (priority cs).2 := by
  unfold priority
  split
  · rename_i cs
    split
    · rename_i run rest hdigits
      obtain ⟨hrun, rfl⟩ := digits?_sound hdigits
      dsimp only
      split
      · rename_i hvalue
        exact ⟨'@' :: run, .written hrun hvalue, rfl⟩
      · exact ⟨[], .unwritten, rfl⟩
    · exact ⟨[], .unwritten, rfl⟩
  · exact ⟨[], .unwritten, rfl⟩

/-- Relation, target and priority are written one after the other by the text of a clause. -/
theorem clause?_sound : Sound clause? ClauseText := by
  intro cs clause rest h
  obtain ⟨⟨target, afterTarget⟩, htarget, hread⟩ := Option.map_eq_some_iff.mp h
  obtain ⟨rfl, rfl⟩ := Prod.mk.inj hread
  obtain ⟨a, ha, hcs⟩ := relation_sound cs
  obtain ⟨b, hb, hafter⟩ := target?_sound _ _ _ htarget
  obtain ⟨c, hc, hrest⟩ := priority_sound afterTarget
  refine ⟨a ++ b ++ c, .intro ha hb hc, ?_⟩
  rw [List.append_assoc, List.append_assoc, ← hrest, ← hafter]
  exact hcs

/-! ### Lists of clauses -/

/-- White space, a comma and white space come off the front of the text. -/
theorem comma?_sound {cs rest : List Char} (h : comma? cs = some rest) :
    ∃ before after, Spaces before ∧ Spaces after ∧ cs = before ++ ',' :: after ++ rest := by
  simp only [comma?] at h
  split at h
  · rename_i tail heq
    obtain rfl := Option.some.inj h
    have spaces (l : List Char) : Spaces (l.takeWhile Char.isWhitespace) := fun c hc =>
      isWhitespace_iff.mp (List.all_eq_true.mp List.all_takeWhile c hc)
    refine ⟨cs.takeWhile Char.isWhitespace, tail.takeWhile Char.isWhitespace, spaces cs,
      spaces tail, ?_⟩
    have hcs := List.takeWhile_append_dropWhile (p := Char.isWhitespace) (l := cs)
    have htail := List.takeWhile_append_dropWhile (p := Char.isWhitespace) (l := tail)
    rw [heq] at hcs
    rw [List.append_assoc, List.cons_append, htail]
    exact hcs.symm
  · cases h

/-- The clauses after the first one are written with a comma in front of each. -/
theorem moreClauses_sound (cs : List Char) :
    ∃ used, MoreClausesText (moreClauses cs).1 used ∧ cs = used ++ (moreClauses cs).2 := by
  fun_induction moreClauses cs with
  | case1 cs h => exact ⟨[], .nil, rfl⟩
  | case2 cs clause rest h more ih =>
    obtain ⟨body, hcomma, hclause⟩ := Option.bind_eq_some_iff.mp h
    obtain ⟨before, after, hbefore, hafter, rfl⟩ := comma?_sound hcomma
    obtain ⟨used, hused, rfl⟩ := clause?_sound _ _ _ hclause
    obtain ⟨later, hlater, hrest⟩ := ih
    refine ⟨before ++ ',' :: after ++ used ++ later, .cons hbefore hafter hused hlater, ?_⟩
    rw [List.append_assoc _ later, ← hrest]
    simp only [List.append_assoc, List.cons_append]

/-- A list of clauses stands in parentheses. -/
theorem clauses?_sound : Sound clauses? ClausesText := by
  intro cs clauses rest h
  unfold clauses? at h
  split at h
  · rename_i cs
    obtain ⟨⟨first, afterFirst⟩, hfirst, hmore⟩ := Option.bind_eq_some_iff.mp h
    obtain ⟨a, ha, rfl⟩ := clause?_sound _ _ _ hfirst
    obtain ⟨b, hb, hafter⟩ := moreClauses_sound afterFirst
    dsimp only at hmore
    split at hmore
    · rename_i more afterMore heq
      obtain ⟨rfl, rfl⟩ := Prod.mk.inj (Option.some.inj hmore)
      rw [heq] at hb hafter
      refine ⟨'(' :: a ++ b ++ [')'], .intro ha hb, ?_⟩
      rw [hafter]
      simp only [List.cons_append, List.append_assoc, List.nil_append]
    · cases hmore
  · cases h

/-! ### Views and spacings -/

/-- A view is a name in brackets, with or without a list of clauses behind the name. -/
theorem view?_sound : Sound view? ViewText := by
  intro cs view rest h
  unfold view? at h
  split at h
  · rename_i cs
    obtain ⟨⟨name, afterName⟩, hname, hrest⟩ := Option.bind_eq_some_iff.mp h
    obtain ⟨a, ha, rfl⟩ := name?_sound _ _ _ hname
    dsimp only at hrest
    split at hrest
    · rename_i clauses afterClauses heq
      obtain ⟨rfl, rfl⟩ := Prod.mk.inj (Option.some.inj hrest)
      cases hclauses : clauses? afterName with
      | none =>
        rw [hclauses] at heq
        obtain ⟨rfl, rfl⟩ := Prod.mk.inj heq
        exact ⟨'[' :: a ++ [']'], .bare ha, by simp⟩
      | some read =>
        rw [hclauses] at heq
        obtain rfl : read = (clauses, ']' :: afterClauses) := heq
        obtain ⟨b, hb, rfl⟩ := clauses?_sound _ _ _ hclauses
        exact ⟨'[' :: a ++ b ++ [']'], .sized ha hb, by simp⟩
    · cases hrest
  · cases h

/-- A gap is a clause or a list of clauses between two dashes. -/
theorem gap?_sound : Sound gap? fun clauses used => SpacingText (.gap clauses) used := by
  intro cs clauses rest h
  unfold gap? at h
  split at h
  · rename_i cs
    obtain ⟨⟨gap, afterGap⟩, hgap, hrest⟩ := Option.bind_eq_some_iff.mp h
    dsimp only at hrest
    split at hrest
    · rename_i afterDash
      obtain ⟨rfl, rfl⟩ := Prod.mk.inj (Option.some.inj hrest)
      cases hclauses : clauses? cs with
      | some read =>
        rw [hclauses] at hgap
        obtain rfl := Option.some.inj hgap
        obtain ⟨a, ha, rfl⟩ := clauses?_sound _ _ _ hclauses
        exact ⟨'-' :: a ++ ['-'], .list ha, by simp⟩
      | none =>
        rw [hclauses] at hgap
        obtain ⟨⟨clause, afterClause⟩, hclause, hread⟩ := Option.map_eq_some_iff.mp hgap
        obtain ⟨rfl, rfl⟩ := Prod.mk.inj hread
        obtain ⟨a, ha, rfl⟩ := clause?_sound _ _ _ hclause
        exact ⟨'-' :: a ++ ['-'], .single ha, by simp⟩
    · cases hrest
  · cases h

/-- A spacing is always read: a gap, else a dash, else nothing. -/
theorem spacing_sound (cs : List Char) :
    ∃ used, SpacingText (spacing cs).1 used ∧ cs = used ++ (spacing cs).2 := by
  unfold spacing
  split
  · rename_i gap rest h
    exact gap?_sound _ _ _ h
  · split
    · exact ⟨['-'], .standard, rfl⟩
    · exact ⟨[], .flush, rfl⟩

/-- The views after the first one are written with a spacing in front of each. -/
theorem moreViews_sound (cs : List Char) :
    ∃ used, MoreViewsText (moreViews cs).1 used ∧ cs = used ++ (moreViews cs).2 := by
  fun_induction moreViews cs with
  | case1 cs h => exact ⟨[], .nil, rfl⟩
  | case2 cs next rest h more ih =>
    obtain ⟨⟨view, afterView⟩, hview, hread⟩ := Option.map_eq_some_iff.mp h
    obtain ⟨rfl, rfl⟩ := Prod.mk.inj hread
    obtain ⟨a, ha, hcs⟩ := spacing_sound cs
    obtain ⟨b, hb, hafter⟩ := view?_sound _ _ _ hview
    obtain ⟨c, hc, hrest⟩ := ih
    refine ⟨a ++ b ++ c, .cons ha hb hc, ?_⟩
    rw [List.append_assoc, List.append_assoc, ← hrest, ← hafter]
    exact hcs

/-! ### The ends of a line -/

/-- The axis is written by its letter and a colon, or nothing is taken for the horizontal one. -/
theorem axis_sound (cs : List Char) :
    ∃ used, AxisText (axis cs).1 used ∧ cs = used ++ (axis cs).2 := by
  unfold axis
  split
  · exact ⟨['H', ':'], .horizontal, rfl⟩
  · exact ⟨['V', ':'], .vertical, rfl⟩
  · exact ⟨[], .unwritten, rfl⟩

/-- The container's first edge is a bar with a spacing behind it. -/
theorem leading_sound (cs : List Char) :
    ∃ used, LeadingText (leading cs).1 used ∧ cs = used ++ (leading cs).2 := by
  unfold leading
  split
  · rename_i cs
    obtain ⟨a, ha, hcs⟩ := spacing_sound cs
    exact ⟨'|' :: a, .written ha, congrArg ('|' :: ·) hcs⟩
  · exact ⟨[], .unwritten, rfl⟩

/-- The container's far edge is a bar with a spacing in front of it. When the bar is missing the
spacing is not taken either. -/
theorem trailing_sound (cs : List Char) :
    ∃ used, TrailingText (trailing cs).1 used ∧ cs = used ++ (trailing cs).2 := by
  obtain ⟨a, ha, hcs⟩ := spacing_sound cs
  unfold trailing
  split
  · rename_i space rest heq
    rw [heq] at ha hcs
    exact ⟨a ++ ['|'], .written ha, by simpa using hcs⟩
  · exact ⟨[], .unwritten, rfl⟩

end LayoutLine.Line.Grammar
