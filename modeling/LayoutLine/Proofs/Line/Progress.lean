import LayoutLine.Proofs.Line.Faults

/-!
# Progress of reading

A rule that reads a value takes at least one character off the front of the text, and what it
leaves is the end of the text. Only an optional part may take nothing, and then it reads the value
that stands for its absence. So a rule cannot be repeated for ever, and where reading stops is
always a place between two characters of the text.
-/

namespace LayoutLine.Line

open Line.Language

namespace Grammar

variable {α : Type}

/-- An optional part leaves the end of the text, and the whole text only where it is absent. -/
def Optional (part : List Char → α × List Char) (absent : α) : Prop :=
  ∀ cs, ∃ used, cs = used ++ (part cs).2 ∧ (used = [] → (part cs).1 = absent)

/-- Where the part is absent the text is left as it was, however much of it was tried. -/
def Restoring (part : List Char → α × List Char) (absent : α) : Prop :=
  ∀ cs, (part cs).1 = absent → (part cs).2 = cs

/-- The rule reads these values one after the other and then refuses what is left. -/
inductive Repeats (rule : Rule α) : List Char → List α → List Char → Prop
  | stop {cs : List Char} (h : rule cs = none) : Repeats rule cs [] cs
  | step {cs middle rest : List Char} {a : α} {values : List α} (h : rule cs = some (a, middle))
      (more : Repeats rule middle values rest) : Repeats rule cs (a :: values) rest

/-! ### Optional parts -/

section Optional

variable {part : List Char → α × List Char} {absent : α} {written : α → List Char → Prop}

/-- A part is optional if the only value without a text is its absence. -/
theorem Optional.of_written
    (hsound : ∀ cs, ∃ used, written (part cs).1 used ∧ cs = used ++ (part cs).2)
    (habsent : ∀ a, written a [] → a = absent) : Optional part absent := by
  intro cs
  obtain ⟨used, hused, hcs⟩ := hsound cs
  refine ⟨used, hcs, ?_⟩
  rintro rfl
  exact habsent _ hused

/-- A part leaves the text as it was if its absence has no text. -/
theorem Restoring.of_written
    (hsound : ∀ cs, ∃ used, written (part cs).1 used ∧ cs = used ++ (part cs).2)
    (hempty : ∀ used, written absent used → used = []) : Restoring part absent := by
  intro cs hcs
  obtain ⟨used, hused, happend⟩ := hsound cs
  rw [hcs] at hused
  rw [hempty used hused, List.nil_append] at happend
  exact happend.symm

end Optional

/-- A relation that takes nothing is equality. -/
theorem relation_optional : Optional relation .equal :=
  .of_written relation_sound fun _ h => by
    cases h with
    | unwritten => rfl

/-- An axis that takes nothing is the horizontal one. -/
theorem axis_optional : Optional axis .horizontal :=
  .of_written axis_sound fun _ h => by
    cases h with
    | unwritten => rfl

/-- A priority that takes nothing is none. -/
theorem priority_optional : Optional priority none :=
  .of_written priority_sound fun _ h => by
    cases h with
    | unwritten => rfl

/-- Where no priority is read the text is left alone, even when a mark stands there. -/
theorem priority_restoring : Restoring priority none :=
  .of_written priority_sound fun _ h => by
    cases h with
    | unwritten => rfl

/-- A spacing that takes nothing has no dash. -/
theorem spacing_optional : Optional spacing .flush :=
  .of_written spacing_sound fun _ h => by
    cases h with
    | flush => rfl

/-- Where views stand flush the text between them is left alone. -/
theorem spacing_restoring : Restoring spacing .flush :=
  .of_written spacing_sound fun _ h => by
    cases h with
    | flush => rfl

/-- A first edge that takes nothing is not written. -/
theorem leading_optional : Optional leading none :=
  .of_written leading_sound fun _ h => by
    cases h with
    | unwritten => rfl

/-- Where no first edge is read the text is left alone. -/
theorem leading_restoring : Restoring leading none :=
  .of_written leading_sound fun _ h => by
    cases h with
    | unwritten => rfl

/-- A far edge that takes nothing is not written. -/
theorem trailing_optional : Optional trailing none := by
  refine .of_written trailing_sound fun space h => ?_
  cases space with
  | none => rfl
  | some space =>
    generalize hempty : ([] : List Char) = used at h
    cases h with
    | written h => simp at hempty

/-- Where no far edge is read the text is left alone, even when a spacing stands there. -/
theorem trailing_restoring : Restoring trailing none :=
  .of_written trailing_sound fun _ h => by
    cases h with
    | unwritten => rfl

/-! ### Repetitions -/

section Repetitions

variable {rule : Rule α}

/-- A rule that always takes something can be applied again only finitely often. -/
theorem Consuming.wellFounded (hr : Consuming rule) :
    WellFounded fun later earlier => ∃ a, rule earlier = some (a, later) := by
  refine Subrelation.wf ?_ (measure List.length).wf
  rintro later earlier ⟨a, h⟩
  exact hr.length_lt h

/-- A repetition leaves the end of the text. -/
theorem Repeats.isSuffix (hr : Consuming rule) {cs rest : List Char} {values : List α}
    (h : Repeats rule cs values rest) : rest <:+ cs := by
  induction h with
  | stop _ => exact List.suffix_refl _
  | step h _ ih =>
    obtain ⟨used, -, rfl⟩ := hr _ _ _ h
    exact ih.trans (List.suffix_append used _)

/-- Each value of a repetition takes at least one character. -/
theorem Repeats.length_add_length_le (hr : Consuming rule) {cs rest : List Char} {values : List α}
    (h : Repeats rule cs values rest) : values.length + rest.length ≤ cs.length := by
  induction h with
  | stop _ => simp
  | step h _ ih =>
    have hlt := hr.length_lt h
    rw [List.length_cons]
    omega

end Repetitions

/-- The clauses behind the first one are read by one rule over and over. -/
theorem moreClauses_repeats (cs : List Char) :
    Repeats nextClause? cs (moreClauses cs).1 (moreClauses cs).2 := by
  fun_induction moreClauses cs with
  | case1 cs h => exact .stop h
  | case2 cs clause rest h more ih => exact .step h ih

/-- So are the views behind the first one, each with its spacing. -/
theorem moreViews_repeats (cs : List Char) :
    Repeats nextView? cs (moreViews cs).1 (moreViews cs).2 := by
  fun_induction moreViews cs with
  | case1 cs h => exact .stop h
  | case2 cs next rest h more ih => exact .step h ih

end Grammar

/-! ### Places in a text -/

/-- An end of a text starts between two of its characters, and its bytes are the ones that are
not before it. -/
theorem byteOffset_isValid {text : String} {rest : List Char} (h : rest <:+ text.toList) :
    byteOffset text.toList rest + byteLength rest = byteLength text.toList ∧
      String.Pos.Raw.IsValid text ⟨byteOffset text.toList rest⟩ := by
  obtain ⟨front, hfront⟩ := h
  have htext := eq_append_ofList hfront.symm
  constructor
  · rw [← hfront, byteOffset_append, byteLength_append]
  · have hoffset := byteOffset_toList htext
    rw [String.toList_ofList] at hoffset
    rw [hoffset]
    exact String.Pos.Raw.isValid_iff_exists_append.mpr ⟨_, _, htext, rfl⟩

/-- A line that is read off the front of a text takes at least one character. -/
theorem read_consuming : Grammar.Consuming fun cs => (read cs).toOption := by
  intro cs line rest h
  have hread : read cs = .ok (line, rest) := by
    dsimp only at h
    cases hread : read cs with
    | error _ =>
      rw [hread] at h
      cases h
    | ok result =>
      rw [hread] at h
      exact congrArg Except.ok (Option.some.inj h)
  obtain ⟨used, hline, rfl⟩ := read_sound hread
  refine ⟨used, ?_, rfl⟩
  rintro rfl
  cases not_blank_of_lineText hline

/-- What follows the head of a line is an end of the text. -/
theorem afterHead_isSuffix (cs : List Char) : afterHead cs <:+ cs := by
  obtain ⟨a, haxis, -⟩ := Grammar.axis_optional cs
  obtain ⟨b, hleading, -⟩ := Grammar.leading_optional (Grammar.axis cs).2
  exact List.IsSuffix.trans ⟨b, hleading.symm⟩ ⟨a, haxis.symm⟩

/-- A complaint is about an end of the text, and gives the place where it starts. -/
theorem exists_rest_of_parse {text : String} {error : ParseError} (h : parse text = .error error) :
    error = .empty ∨ ∃ rest, rest <:+ text.toList ∧
      (error = .unread (byteOffset text.toList rest) (String.ofList rest) ∨
        error = .unexpected (byteOffset text.toList rest) "a view"
          (String.ofList (rest.take excerptLength))) := by
  rcases parse_outcome text with ⟨-, hparse⟩ | ⟨-, line, hread, hparse⟩ |
    ⟨-, line, rest, hrest, hread, hparse⟩ | ⟨-, hview, hparse⟩
  · exact .inl (Except.error.inj (h.symm.trans hparse))
  · cases h.symm.trans hparse
  · obtain ⟨used, -, htext⟩ := read_sound hread
    exact .inr ⟨rest, ⟨used, htext.symm⟩, .inl (Except.error.inj (h.symm.trans hparse))⟩
  · exact .inr ⟨_, afterHead_isSuffix text.toList, .inr (Except.error.inj (h.symm.trans hparse))⟩

open Grammar in
/-- Reading makes progress and ends. Every rule that reads a value takes at least one character and
leaves the end of its text; only an optional part may take nothing, where it is absent, and what was
tried in vain is given back. The two repetitions cannot go on for ever: they read one value after
the other until the rule refuses what is left, no value without a character of its own. A complaint
about a text is about an end of it, and whatever end of a text a rule may leave, no more bytes are
left than there were and the place where it starts lies between two characters. -/
theorem reading_progresses :
    (Consuming name? ∧ Consuming number? ∧ Consuming target? ∧ Consuming clause? ∧
      Consuming nextClause? ∧ Consuming clauses? ∧ Consuming gap? ∧ Consuming view? ∧
      Consuming nextView? ∧ Consuming fun cs => (read cs).toOption) ∧
    (Optional relation .equal ∧ Optional Grammar.axis .horizontal ∧
      (Optional priority none ∧ Restoring priority none) ∧
      (Optional spacing .flush ∧ Restoring spacing .flush) ∧
      (Optional Grammar.leading none ∧ Restoring Grammar.leading none) ∧
      (Optional Grammar.trailing none ∧ Restoring Grammar.trailing none)) ∧
    (WellFounded (fun later earlier => ∃ clause, nextClause? earlier = some (clause, later)) ∧
      ∀ cs, Repeats nextClause? cs (moreClauses cs).1 (moreClauses cs).2 ∧
        (moreClauses cs).2 <:+ cs ∧
        (moreClauses cs).1.length + (moreClauses cs).2.length ≤ cs.length) ∧
    (WellFounded (fun later earlier => ∃ next, nextView? earlier = some (next, later)) ∧
      ∀ cs, Repeats nextView? cs (moreViews cs).1 (moreViews cs).2 ∧
        (moreViews cs).2 <:+ cs ∧
        (moreViews cs).1.length + (moreViews cs).2.length ≤ cs.length) ∧
    (∀ text error, parse text = .error error → error = .empty ∨ ∃ rest, rest <:+ text.toList ∧
      (error = .unread (byteOffset text.toList rest) (String.ofList rest) ∨
        error = .unexpected (byteOffset text.toList rest) "a view"
          (String.ofList (rest.take excerptLength)))) ∧
    (∀ (text : String) (rest : List Char), rest <:+ text.toList →
      byteOffset text.toList rest + byteLength rest = byteLength text.toList ∧
        String.Pos.Raw.IsValid text ⟨byteOffset text.toList rest⟩) := by
  refine ⟨?_, ?_, ⟨nextClause?_consuming.wellFounded, ?_⟩, ⟨nextView?_consuming.wellFounded, ?_⟩,
    fun _ _ => exists_rest_of_parse, fun _ _ => byteOffset_isValid⟩
  · exact ⟨name?_consuming, number?_consuming, target?_consuming, clause?_consuming,
      nextClause?_consuming, clauses?_consuming, gap?_consuming, view?_consuming,
      nextView?_consuming, read_consuming⟩
  · exact ⟨relation_optional, axis_optional, ⟨priority_optional, priority_restoring⟩,
      ⟨spacing_optional, spacing_restoring⟩, ⟨leading_optional, leading_restoring⟩,
      ⟨trailing_optional, trailing_restoring⟩⟩
  · intro cs
    have hrepeats := moreClauses_repeats cs
    exact ⟨hrepeats, hrepeats.isSuffix nextClause?_consuming,
      hrepeats.length_add_length_le nextClause?_consuming⟩
  · intro cs
    have hrepeats := moreViews_repeats cs
    exact ⟨hrepeats, hrepeats.isSuffix nextView?_consuming,
      hrepeats.length_add_length_le nextView?_consuming⟩

/-- Behind a head of four bytes, a letter of two bytes stands where a view is missing. -/
theorem reading_progresses_to_a_letter :
    parse "V:|-é[a]" = .error (.unexpected 4 "a view" "é[a]") ∧
      "é[a]".toList <:+ "V:|-é[a]".toList ∧
      (∃ rest, rest <:+ "V:|-é[a]".toList ∧ byteOffset "V:|-é[a]".toList rest = 4) ∧
      byteOffset "V:|-é[a]".toList "é[a]".toList + 5 = 9 ∧
      String.Pos.Raw.IsValid "V:|-é[a]" ⟨4⟩ := by
  obtain ⟨-, -, -, -, hcomplaint, hplace⟩ := reading_progresses
  have hparse : parse "V:|-é[a]" = .error (.unexpected 4 "a view" "é[a]") := rfl
  have hsuffix : "é[a]".toList <:+ "V:|-é[a]".toList := ⟨"V:|-".toList, rfl⟩
  obtain ⟨hbytes, hvalid⟩ := hplace _ _ hsuffix
  refine ⟨hparse, hsuffix, ?_, hbytes, hvalid⟩
  rcases hcomplaint _ _ hparse with hempty | ⟨rest, hrest, hunread | hunexpected⟩
  · cases hempty
  · cases hunread
  · exact ⟨rest, hrest, (ParseError.unexpected.inj hunexpected).1.symm⟩

end LayoutLine.Line
