import LayoutLine.Line.Basic
import LayoutLine.Number.Literal
import LayoutLine.Text

/-!
# The grammar of lines

    line    := (axis ":")? ("|" spacing)? view (spacing view)* (spacing "|")?
    view    := "[" name clauses? "]"
    clauses := "(" clause (space "," space clause)* ")"
    spacing := "-" (clause | clauses) "-" | "-" | ""
    clause  := ("==" | ">=" | "<=")? (number | name) ("@" digits)?

A rule reads a value off the front of a text and gives the text that follows it. Choices are tried
in the order in which they are written, and the first that fits is taken for good. Every rule that
can fail consumes at least one character when it succeeds, so the two repetitions end.
-/

namespace LayoutLine.Line.Grammar

open Text (digits?)

/-- A rule of the grammar that may refuse a text. -/
abbrev Rule (α : Type) := List Char → Option (α × List Char)

/-- A rule whose results always leave a shorter text, what is left being the end of the text. -/
def Consuming {α : Type} (rule : Rule α) : Prop :=
  ∀ cs a rest, rule cs = some (a, rest) → ∃ used, used ≠ [] ∧ cs = used ++ rest

/-- Whether a name may start with the character. -/
def startsName (c : Char) : Bool := c.isAlpha || c == '_'

/-- Whether a name may go on with the character. -/
def continuesName (c : Char) : Bool := c.isAlphanum || c == '_'

/-- A name: a letter or an underscore, then letters, digits and underscores. -/
def name? : Rule String
  | [] => none
  | c :: cs =>
    if startsName c then
      some (String.ofList (c :: cs.takeWhile continuesName), cs.dropWhile continuesName)
    else none

/-- A number without its sign: digits, and a fraction if a point and a digit follow. -/
def unsigned? (negative : Bool) : Rule Number := fun cs =>
  (digits? cs).map fun (whole, rest) =>
    match rest with
    | '.' :: tail =>
      match digits? tail with
      | some (fraction, rest) => (.ofDigits negative whole fraction, rest)
      | none => (.ofDigits negative whole [], rest)
    | _ => (.ofDigits negative whole [], rest)

/-- A number: an optional minus sign, digits, an optional fraction. -/
def number? : Rule Number
  | '-' :: cs => unsigned? true cs
  | cs => unsigned? false cs

/-- A relation; where none is written, equality is meant. -/
def relation : List Char → Relation × List Char
  | '=' :: '=' :: cs => (.equal, cs)
  | '>' :: '=' :: cs => (.atLeast, cs)
  | '<' :: '=' :: cs => (.atMost, cs)
  | cs => (.equal, cs)

/-- What a clause compares with: a number, or else a name. -/
def target? : Rule Target := fun cs =>
  match number? cs with
  | some (value, rest) => some (.number value, rest)
  | none => (name? cs).map fun (name, rest) => (.name name, rest)

/-- A priority after its mark, if one of at most 32 bits is written. -/
def priority : List Char → Option Nat × List Char
  | '@' :: cs =>
    match digits? cs with
    | some (run, rest) =>
      let value := Nat.ofDigitChars 10 run 0
      if value ≤ 4294967295 then (some value, rest) else (none, '@' :: cs)
    | none => (none, '@' :: cs)
  | cs => (none, cs)

/-- One clause. -/
def clause? : Rule Clause := fun cs =>
  (target? (relation cs).2).map fun (target, rest) =>
    (⟨(relation cs).1, target, (priority rest).1⟩, (priority rest).2)

/-- A comma with white space around it. -/
def comma? (cs : List Char) : Option (List Char) :=
  match cs.dropWhile Char.isWhitespace with
  | ',' :: rest => some (rest.dropWhile Char.isWhitespace)
  | _ => none

/-- A clause after a comma. -/
def nextClause? : Rule Clause := fun cs => (comma? cs).bind clause?

/-! ### What the rules consume -/

/-- A name has at least its first letter. -/
theorem name?_consuming : Consuming name? := by
  intro cs a rest h
  cases cs with
  | nil => simp [name?] at h
  | cons c cs =>
    simp only [name?] at h
    split at h
    · obtain ⟨-, rfl⟩ := Prod.mk.inj (Option.some.inj h)
      exact ⟨c :: cs.takeWhile continuesName, by simp, by simp⟩
    · simp at h

/-- A number has at least one digit, whatever its sign. -/
theorem unsigned?_consuming (negative : Bool) : Consuming (unsigned? negative) := by
  intro cs a rest h
  obtain ⟨⟨whole, afterWhole⟩, hdigits, hread⟩ := Option.map_eq_some_iff.1 h
  obtain ⟨rfl, hne⟩ := Text.eq_append_of_digits? hdigits
  dsimp only at hread
  split at hread
  · rename_i tail
    split at hread
    · rename_i fraction afterFraction hfraction
      obtain ⟨rfl, -⟩ := Text.eq_append_of_digits? hfraction
      obtain ⟨-, rfl⟩ := Prod.mk.inj hread
      exact ⟨whole ++ '.' :: fraction, by simp, by simp⟩
    · obtain ⟨-, rfl⟩ := Prod.mk.inj hread
      exact ⟨whole, hne, rfl⟩
  · obtain ⟨-, rfl⟩ := Prod.mk.inj hread
    exact ⟨whole, hne, rfl⟩

/-- A number consumes its digits, and a sign in front of them. -/
theorem number?_consuming : Consuming number? := by
  intro cs a rest h
  unfold number? at h
  split at h
  · rename_i cs
    obtain ⟨used, -, rfl⟩ := unsigned?_consuming true _ _ _ h
    exact ⟨'-' :: used, by simp, rfl⟩
  · exact unsigned?_consuming false _ _ _ h

/-- A target consumes the number or the name it is. -/
theorem target?_consuming : Consuming target? := by
  intro cs a rest h
  simp only [target?] at h
  split at h
  · rename_i value afterValue hnumber
    obtain ⟨-, rfl⟩ := Prod.mk.inj (Option.some.inj h)
    exact number?_consuming _ _ _ hnumber
  · obtain ⟨⟨name, afterName⟩, hname, hread⟩ := Option.map_eq_some_iff.1 h
    obtain ⟨-, rfl⟩ := Prod.mk.inj hread
    exact name?_consuming _ _ _ hname

/-- An optional relation leaves the end of the text. -/
theorem relation_append (cs : List Char) : ∃ used, cs = used ++ (relation cs).2 := by
  unfold relation
  split
  · exact ⟨['=', '='], rfl⟩
  · exact ⟨['>', '='], rfl⟩
  · exact ⟨['<', '='], rfl⟩
  · exact ⟨[], rfl⟩

/-- An optional priority leaves the end of the text. -/
theorem priority_append (cs : List Char) : ∃ used, cs = used ++ (priority cs).2 := by
  unfold priority
  split
  · rename_i cs
    split
    · rename_i run rest h
      obtain ⟨rfl, -⟩ := Text.eq_append_of_digits? h
      dsimp only
      split
      · exact ⟨'@' :: run, rfl⟩
      · exact ⟨[], rfl⟩
    · exact ⟨[], rfl⟩
  · exact ⟨[], rfl⟩

/-- A clause consumes at least its target, if neither relation nor priority is written. -/
theorem clause?_consuming : Consuming clause? := by
  intro cs a rest h
  obtain ⟨⟨target, afterTarget⟩, htarget, hread⟩ := Option.map_eq_some_iff.1 h
  obtain ⟨used, hne, hused⟩ := target?_consuming _ _ _ htarget
  obtain ⟨front, hfront⟩ := relation_append cs
  obtain ⟨back, hback⟩ := priority_append afterTarget
  obtain ⟨-, rfl⟩ := Prod.mk.inj hread
  refine ⟨front ++ used ++ back, by simp [hne], ?_⟩
  rw [hfront, hused, List.append_assoc, List.append_assoc]
  exact congrArg (fun l => front ++ (used ++ l)) hback

/-- A comma and the white space around it come off the front of the text. -/
theorem eq_append_of_comma? {cs rest : List Char} (h : comma? cs = some rest) :
    ∃ used, used ≠ [] ∧ cs = used ++ rest := by
  simp only [comma?] at h
  split at h
  · rename_i tail heq
    obtain rfl := Option.some.inj h
    refine ⟨cs.takeWhile Char.isWhitespace ++ ',' :: tail.takeWhile Char.isWhitespace, by simp, ?_⟩
    have hcs := List.takeWhile_append_dropWhile (p := Char.isWhitespace) (l := cs)
    rw [heq] at hcs
    simpa using hcs.symm
  · simp at h

/-- A clause after a comma consumes the comma too. -/
theorem nextClause?_consuming : Consuming nextClause? := by
  intro cs a rest h
  obtain ⟨body, hcomma, hclause⟩ := Option.bind_eq_some_iff.1 h
  obtain ⟨front, -, rfl⟩ := eq_append_of_comma? hcomma
  obtain ⟨used, hne, rfl⟩ := clause?_consuming _ _ _ hclause
  exact ⟨front ++ used, by simp [hne], by simp⟩

/-- What a consuming rule leaves is shorter than the text. -/
theorem Consuming.length_lt {α : Type} {rule : Rule α} (hr : Consuming rule) {cs rest : List Char}
    {a : α} (h : rule cs = some (a, rest)) : rest.length < cs.length := by
  obtain ⟨used, hne, rfl⟩ := hr _ _ _ h
  have := List.length_pos_iff.2 hne
  simp only [List.length_append]
  omega

/-! ### Lists of clauses, views and spacings -/

/-- As many clauses after commas as follow one another. -/
def moreClauses (cs : List Char) : List Clause × List Char :=
  match _h : nextClause? cs with
  | none => ([], cs)
  | some (clause, rest) =>
    let more := moreClauses rest
    (clause :: more.1, more.2)
termination_by cs.length
decreasing_by exact nextClause?_consuming.length_lt ‹_›

/-- A list of clauses in parentheses. -/
def clauses? : Rule (List Clause)
  | '(' :: cs =>
    (clause? cs).bind fun (first, rest) =>
      match moreClauses rest with
      | (more, ')' :: rest) => some (first :: more, rest)
      | _ => none
  | _ => none

/-- A view in brackets. -/
def view? : Rule View
  | '[' :: cs =>
    (name? cs).bind fun (name, rest) =>
      match (clauses? rest).getD ([], rest) with
      | (clauses, ']' :: rest) => some (⟨name, clauses⟩, rest)
      | _ => none
  | _ => none

/-- A gap between two dashes: a list of clauses, or a single one. -/
def gap? : Rule (List Clause)
  | '-' :: cs =>
    ((clauses? cs).or ((clause? cs).map fun (clause, rest) => ([clause], rest))).bind
      fun (gap, rest) =>
        match rest with
        | '-' :: rest => some (gap, rest)
        | _ => none
  | _ => none

/-- A spacing: a gap, or else a dash, or else nothing at all. -/
def spacing (cs : List Char) : Spacing × List Char :=
  match gap? cs with
  | some (clauses, rest) => (.gap clauses, rest)
  | none =>
    match cs with
    | '-' :: rest => (.standard, rest)
    | _ => (.flush, cs)

/-- A view and the spacing in front of it. -/
def nextView? : Rule (Spacing × View) := fun cs =>
  (view? (spacing cs).2).map fun (view, rest) => (((spacing cs).1, view), rest)

/-- What is left after further clauses is the end of the text. -/
theorem moreClauses_append (cs : List Char) : ∃ used, cs = used ++ (moreClauses cs).2 := by
  fun_induction moreClauses cs with
  | case1 cs h => exact ⟨[], rfl⟩
  | case2 cs clause rest h more ih =>
    obtain ⟨front, -, rfl⟩ := nextClause?_consuming _ _ _ h
    obtain ⟨back, hback⟩ := ih
    exact ⟨front ++ back, by rw [List.append_assoc]; exact congrArg (front ++ ·) hback⟩

/-- A list of clauses consumes its parentheses. -/
theorem clauses?_consuming : Consuming clauses? := by
  intro cs a rest h
  unfold clauses? at h
  split at h
  · rename_i cs
    obtain ⟨⟨first, afterFirst⟩, hfirst, hmore⟩ := Option.bind_eq_some_iff.1 h
    obtain ⟨front, -, rfl⟩ := clause?_consuming _ _ _ hfirst
    obtain ⟨back, hback⟩ := moreClauses_append afterFirst
    dsimp only at hmore
    split at hmore
    · rename_i more afterMore heq
      obtain ⟨-, rfl⟩ := Prod.mk.inj (Option.some.inj hmore)
      rw [heq] at hback
      exact ⟨'(' :: (front ++ back ++ [')']), by simp, by simp [hback]⟩
    · simp at hmore
  · simp at h

/-- A view consumes its brackets. -/
theorem view?_consuming : Consuming view? := by
  intro cs a rest h
  unfold view? at h
  split at h
  · rename_i cs
    obtain ⟨⟨name, afterName⟩, hname, hrest⟩ := Option.bind_eq_some_iff.1 h
    obtain ⟨front, -, rfl⟩ := name?_consuming _ _ _ hname
    dsimp only at hrest
    split at hrest
    · rename_i clauses afterClauses heq
      obtain ⟨-, rfl⟩ := Prod.mk.inj (Option.some.inj hrest)
      cases hclauses : clauses? afterName with
      | none =>
        rw [hclauses] at heq
        obtain ⟨-, rfl⟩ := Prod.mk.inj heq
        exact ⟨'[' :: (front ++ [']']), by simp, by simp⟩
      | some read =>
        obtain ⟨list, afterList⟩ := read
        rw [hclauses] at heq
        obtain ⟨-, rfl⟩ := Prod.mk.inj heq
        obtain ⟨back, -, rfl⟩ := clauses?_consuming _ _ _ hclauses
        exact ⟨'[' :: (front ++ back ++ [']']), by simp, by simp⟩
    · simp at hrest
  · simp at h

/-- A gap consumes its dashes. -/
theorem gap?_consuming : Consuming gap? := by
  intro cs a rest h
  unfold gap? at h
  split at h
  · rename_i cs
    obtain ⟨⟨gap, afterGap⟩, hgap, hrest⟩ := Option.bind_eq_some_iff.1 h
    have hfront : ∃ front, cs = front ++ afterGap := by
      cases hclauses : clauses? cs with
      | some read =>
        rw [hclauses] at hgap
        obtain rfl := Option.some.inj hgap
        obtain ⟨front, -, hcs⟩ := clauses?_consuming _ _ _ hclauses
        exact ⟨front, hcs⟩
      | none =>
        rw [hclauses] at hgap
        obtain ⟨⟨clause, afterClause⟩, hclause, hread⟩ := Option.map_eq_some_iff.1 hgap
        obtain ⟨-, rfl⟩ := Prod.mk.inj hread
        obtain ⟨front, -, hcs⟩ := clause?_consuming _ _ _ hclause
        exact ⟨front, hcs⟩
    obtain ⟨front, rfl⟩ := hfront
    dsimp only at hrest
    split at hrest
    · obtain ⟨-, rfl⟩ := Prod.mk.inj (Option.some.inj hrest)
      exact ⟨'-' :: (front ++ ['-']), by simp, by simp⟩
    · simp at hrest
  · simp at h

/-- A spacing leaves the end of the text. -/
theorem spacing_append (cs : List Char) : ∃ used, cs = used ++ (spacing cs).2 := by
  unfold spacing
  split
  · rename_i gap rest h
    obtain ⟨used, -, rfl⟩ := gap?_consuming _ _ _ h
    exact ⟨used, rfl⟩
  · split
    · exact ⟨['-'], rfl⟩
    · exact ⟨[], rfl⟩

/-- A view after a spacing consumes something even when the spacing is nothing. -/
theorem nextView?_consuming : Consuming nextView? := by
  intro cs a rest h
  obtain ⟨⟨view, afterView⟩, hview, hread⟩ := Option.map_eq_some_iff.1 h
  obtain ⟨front, hfront⟩ := spacing_append cs
  obtain ⟨used, hne, hused⟩ := view?_consuming _ _ _ hview
  obtain ⟨-, rfl⟩ := Prod.mk.inj hread
  exact ⟨front ++ used, by simp [hne], by rw [List.append_assoc, ← hused]; exact hfront⟩

/-- As many views with the spacings in front of them as follow one another. -/
def moreViews (cs : List Char) : List (Spacing × View) × List Char :=
  match _h : nextView? cs with
  | none => ([], cs)
  | some (next, rest) =>
    let more := moreViews rest
    (next :: more.1, more.2)
termination_by cs.length
decreasing_by exact nextView?_consuming.length_lt ‹_›

/-! ### The ends of a line -/

/-- The axis a text starts with; horizontal where none is written. -/
def axis : List Char → Axis × List Char
  | 'H' :: ':' :: cs => (.horizontal, cs)
  | 'V' :: ':' :: cs => (.vertical, cs)
  | cs => (.horizontal, cs)

/-- The container's first edge and the spacing after it, if the edge is written. -/
def leading : List Char → Option Spacing × List Char
  | '|' :: cs => (some (spacing cs).1, (spacing cs).2)
  | cs => (none, cs)

/-- The spacing before the container's far edge, if that edge follows. -/
def trailing (cs : List Char) : Option Spacing × List Char :=
  match spacing cs with
  | (space, '|' :: rest) => (some space, rest)
  | _ => (none, cs)

end LayoutLine.Line.Grammar
