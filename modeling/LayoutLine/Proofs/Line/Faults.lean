import LayoutLine.Proofs.Line.Accepted

/-!
# Where reading fails

A complaint about a text points at the exact place. What is left over stands behind the longest
beginning of the text that is a line by itself; a missing view is missed behind the longest
beginning that may stand in front of the first view. Since no rule is ever revisited, the place
where reading stops is compared with every other way to derive a beginning of the text.
-/

namespace LayoutLine.Line

open Line.Language

/-- A text that is read as a line. -/
def Accepted (text : String) : Prop := ∃ line, parse text = .ok line

/-- A beginning of a text. -/
def Begins (front text : String) : Prop := ∃ rest, text = front ++ rest

/-- A text of nothing but white space. -/
def Blank (text : String) : Prop := ∀ c ∈ text.toList, Text.isBlank c = true

/-- A text that may stand in front of the first view of a line. -/
def Heads (text : String) : Prop := ∃ axis leading, HeadText axis leading text.toList

/-- The longest beginning of a text with a property. -/
def LongestBeginning (property : String → Prop) (text front : String) : Prop :=
  Begins front text ∧ property front ∧
    ∀ other, Begins other text → property other → other.length ≤ front.length

/-! ### Texts and their characters -/

theorem utf8ByteSize_ofList (cs : List Char) : (String.ofList cs).utf8ByteSize = byteLength cs := by
  induction cs with
  | nil => rfl
  | cons c cs ih =>
    have hcons : String.ofList (c :: cs) = String.singleton c ++ String.ofList cs := by
      rw [← String.toList_inj]
      simp
    rw [hcons, String.utf8ByteSize_append, ih, String.utf8ByteSize_singleton, byteLength]

/-- Where an end of a text starts is the size of what comes before it. -/
theorem byteOffset_toList {text front rest : String} (h : text = front ++ rest) :
    byteOffset text.toList rest.toList = front.utf8ByteSize := by
  have hsize := utf8ByteSize_ofList front.toList
  rw [String.ofList_toList] at hsize
  rw [h, String.toList_append, byteOffset_append, hsize]

theorem eq_append_ofList {text : String} {front rest : List Char}
    (h : text.toList = front ++ rest) : text = String.ofList front ++ String.ofList rest := by
  rw [← String.ofList_append, ← h, String.ofList_toList]

/-! ### Outcomes of reading -/

/-- What follows the axis and the first edge of a line. -/
def afterHead (cs : List Char) : List Char := (Grammar.leading (Grammar.axis cs).2).2

/-- Everything that can come of reading a text. -/
theorem parse_outcome (text : String) :
    (Blank text ∧ parse text = .error .empty) ∨
    (¬Blank text ∧ ∃ line, read text.toList = .ok (line, []) ∧ parse text = .ok line) ∨
    (¬Blank text ∧ ∃ line rest, rest ≠ [] ∧ read text.toList = .ok (line, rest) ∧
      parse text = .error (.unread (byteOffset text.toList rest) (String.ofList rest))) ∨
    (¬Blank text ∧ Grammar.view? (afterHead text.toList) = none ∧
      parse text = .error (.unexpected (byteOffset text.toList (afterHead text.toList)) "a view"
        (String.ofList ((afterHead text.toList).take excerptLength)))) := by
  have hall : text.toList.all Text.isBlank = true ↔ Blank text := List.all_eq_true
  by_cases hblank : Blank text
  · exact .inl ⟨hblank, by simp only [parse, hall.mpr hblank, if_true]⟩
  · have hfilled := mt hall.mp hblank
    cases hview : Grammar.view? (afterHead text.toList) with
    | none =>
      have hread : read text.toList =
          .error (.unexpected (byteOffset text.toList (afterHead text.toList)) "a view"
            (String.ofList ((afterHead text.toList).take excerptLength))) := by
        rw [afterHead] at hview
        simp only [read, hview, afterHead]
      refine .inr (.inr (.inr ⟨hblank, rfl, ?_⟩))
      rw [parse, if_neg hfilled, hread]
    | some first =>
      have hread : ∃ line rest, read text.toList = .ok (line, rest) := by
        rw [afterHead] at hview
        simp only [read, hview]
        exact ⟨_, _, rfl⟩
      obtain ⟨line, rest, hread⟩ := hread
      cases rest with
      | nil =>
        refine .inr (.inl ⟨hblank, line, hread, ?_⟩)
        rw [parse, if_neg hfilled, hread]
      | cons c rest =>
        refine .inr (.inr (.inl ⟨hblank, line, c :: rest, List.cons_ne_nil c rest, hread, ?_⟩))
        rw [parse, if_neg hfilled, hread]

/-- What is read off the front of a text is a line by itself. -/
theorem parse_of_read {text : String} {line : Line} {rest : List Char}
    (h : read text.toList = .ok (line, rest)) :
    ∃ front, text = front ++ String.ofList rest ∧ parse front = .ok line := by
  obtain ⟨used, hused, htext⟩ := read_sound h
  refine ⟨String.ofList used, eq_append_ofList htext, parse_eq_ok_iff.mpr ?_⟩
  rw [String.toList_ofList]
  exact hused

/-- What the views after the first one and the far edge leave is an end of the text. -/
theorem trailing_moreViews_length (cs : List Char) :
    (Grammar.trailing (Grammar.moreViews cs).2).2.length ≤ cs.length := by
  obtain ⟨a, -, hmore⟩ := Grammar.moreViews_sound cs
  obtain ⟨b, -, htrailing⟩ := Grammar.trailing_sound (Grammar.moreViews cs).2
  have hmoreLength := List.IsSuffix.length_le ⟨a, hmore.symm⟩
  have htrailingLength := List.IsSuffix.length_le ⟨b, htrailing.symm⟩
  exact Nat.le_trans htrailingLength hmoreLength

/-- Where a beginning of the text is a line, reading goes at least as far. -/
theorem read_lineText_append {line : Line} {text : List Char} (h : LineText line text)
    (rest : List Char) :
    ∃ found left, read (text ++ rest) = .ok (found, left) ∧ left.length ≤ rest.length := by
  cases h with
  | @intro axis leading trailing first more a b c d hhead hfirst hmore htrailing =>
    have hread := read_head hhead hfirst (c ++ (d ++ rest))
    have htext : a ++ b ++ c ++ d ++ rest = a ++ (b ++ (c ++ (d ++ rest))) := by
      simp only [List.append_assoc]
    rw [htext, hread]
    refine ⟨_, _, rfl, ?_⟩
    rw [Grammar.moreViews_complete hmore]
    cases htrailing with
    | unwritten => exact trailing_moreViews_length rest
    | @written spacing e hspacing =>
      have hedge : e ++ ['|'] ++ rest = e ++ '|' :: rest := by simp
      rw [hedge, Grammar.moreViews_of_none (Grammar.nextView?_edge hspacing rest)]
      simp only [Grammar.trailing_complete hspacing, Nat.le_refl]

/-- An accepted beginning of a text is no longer than what is read off the text. -/
theorem read_of_begins {text front : String} (hfront : Begins front text)
    (haccepted : Accepted front) :
    ∃ line left, read text.toList = .ok (line, left) ∧
      front.length + left.length ≤ text.length := by
  obtain ⟨rest, rfl⟩ := hfront
  obtain ⟨line, hline⟩ := haccepted
  obtain ⟨found, left, hread, hlength⟩ :=
    read_lineText_append (parse_eq_ok_iff.mp hline) rest.toList
  refine ⟨found, left, ?_, ?_⟩
  · rw [String.toList_append]
    exact hread
  · rw [String.length_append, ← String.length_toList (s := rest)]
    omega

/-! ### The head of a line -/

/-- A spacing is read at least as far as any derivation of one goes, whatever follows. -/
theorem spacing_longest {space : Spacing} {text : List Char} (h : SpacingText space text)
    (rest : List Char) : (Grammar.spacing (text ++ rest)).2.length ≤ rest.length := by
  cases space with
  | gap clauses =>
    simp only [Grammar.spacing, Grammar.gap?_complete h, Nat.le_refl]
  | standard =>
    cases h with
    | standard =>
      rw [List.singleton_append]
      unfold Grammar.spacing
      cases hgap : Grammar.gap? ('-' :: rest) with
      | none => exact Nat.le_refl _
      | some read =>
        have hlt := Grammar.gap?_consuming.length_lt hgap
        simp only [List.length_cons] at hlt ⊢
        omega
  | flush =>
    cases h with
    | flush =>
      obtain ⟨used, hused⟩ := Grammar.spacing_append rest
      rw [List.nil_append]
      exact List.IsSuffix.length_le ⟨used, hused.symm⟩

/-- The head of a line is read at least as far as any derivation of one goes. -/
theorem afterHead_longest {axis : Axis} {leading : Option Spacing} {text : List Char}
    (h : HeadText axis leading text) (rest : List Char) :
    (afterHead (text ++ rest)).length ≤ rest.length := by
  have shorter (cs : List Char) : (Grammar.leading cs).2.length ≤ cs.length := by
    obtain ⟨used, -, hused⟩ := Grammar.leading_sound cs
    exact List.IsSuffix.length_le ⟨used, hused.symm⟩
  have hleadingLength {b : List Char} (hb : LeadingText leading b) :
      (Grammar.leading (b ++ rest)).2.length ≤ rest.length := by
    cases hb with
    | unwritten => exact shorter rest
    | written hspacing => exact spacing_longest hspacing rest
  cases h with
  | @intro a b haxis hleading =>
    cases haxis with
    | horizontal => exact hleadingLength hleading
    | vertical => exact hleadingLength hleading
    | unwritten =>
      cases hleading with
      | unwritten =>
        obtain ⟨used, -, hused⟩ := Grammar.axis_sound rest
        have haxisLength := List.IsSuffix.length_le ⟨used, hused.symm⟩
        have hafter := shorter (Grammar.axis rest).2
        simp only [List.nil_append, afterHead]
        exact Nat.le_trans hafter haxisLength
      | written hspacing => exact spacing_longest hspacing rest

/-- The head that is read is the longest one the text begins with. -/
theorem longestBeginning_head (text : String) :
    ∃ front, text = front ++ String.ofList (afterHead text.toList) ∧
      LongestBeginning Heads text front := by
  obtain ⟨a, ha, haxis⟩ := Grammar.axis_sound text.toList
  obtain ⟨b, hb, hleading⟩ := Grammar.leading_sound (Grammar.axis text.toList).2
  have htext : text.toList = a ++ b ++ afterHead text.toList := by
    rw [List.append_assoc, afterHead, ← hleading]
    exact haxis
  have hfront := eq_append_ofList htext
  have hheads : Heads (String.ofList (a ++ b)) := by
    refine ⟨(Grammar.axis text.toList).1, (Grammar.leading (Grammar.axis text.toList).2).1, ?_⟩
    rw [String.toList_ofList]
    exact .intro ha hb
  refine ⟨String.ofList (a ++ b), hfront, ⟨_, hfront⟩, hheads, ?_⟩
  · rintro other ⟨rest, hother⟩ ⟨axis, leading, hhead⟩
    have hle := afterHead_longest hhead rest.toList
    rw [← String.toList_append, ← hother] at hle
    have hlength := congrArg List.length htext
    have hotherLength := congrArg String.length hother
    rw [String.length_append] at hotherLength
    rw [List.length_append, String.length_toList] at hlength
    rw [String.length_ofList]
    rw [String.length_toList] at hle
    omega

/-! ### The faults -/

/-- What is read off a text is its longest beginning that is a line. -/
theorem longestBeginning_of_read {text : String} {line : Line} {rest : List Char}
    (h : read text.toList = .ok (line, rest)) :
    ∃ front, text = front ++ String.ofList rest ∧ parse front = .ok line ∧
      LongestBeginning Accepted text front := by
  obtain ⟨front, htext, hparse⟩ := parse_of_read h
  refine ⟨front, htext, hparse, ⟨_, htext⟩, ⟨line, hparse⟩, ?_⟩
  intro other hother haccepted
  obtain ⟨found, left, hread, hlength⟩ := read_of_begins hother haccepted
  obtain ⟨-, rfl⟩ := Prod.mk.inj (Except.ok.inj (h.symm.trans hread))
  have htextLength := congrArg String.length htext
  rw [String.length_append, String.length_ofList] at htextLength
  omega

/-- No beginning of a text is a line when no view stands behind its head. -/
theorem not_accepted_of_view?_eq_none {text : String}
    (h : Grammar.view? (afterHead text.toList) = none) {front : String}
    (hfront : Begins front text) : ¬Accepted front := by
  intro haccepted
  obtain ⟨line, left, hread, -⟩ := read_of_begins hfront haccepted
  rw [afterHead] at h
  simp only [read, h] at hread
  cases hread

/-- White space alone is no line, and does not begin with one. -/
theorem not_accepted_of_blank {text : String} (h : Blank text) {front : String}
    (hfront : Begins front text) : ¬Accepted front := by
  obtain ⟨rest, rfl⟩ := hfront
  rintro ⟨line, hline⟩
  have hblank := not_blank_of_lineText (parse_eq_ok_iff.mp hline)
  obtain ⟨c, hc, hnot⟩ := List.all_eq_false.mp hblank
  refine hnot (h c ?_)
  rw [String.toList_append]
  exact List.mem_append_left _ hc

theorem parse_eq_empty_iff {text : String} : parse text = .error .empty ↔ Blank text := by
  rcases parse_outcome text with ⟨hblank, hparse⟩ | ⟨hblank, _, _, hparse⟩ |
    ⟨hblank, _, _, _, _, hparse⟩ | ⟨hblank, _, hparse⟩ <;> simp [hparse, hblank]

/-- A complaint about a rest comes from reading a line off the front of the text. -/
theorem read_of_unread {text rest : String} {offset : Nat}
    (h : parse text = .error (.unread offset rest)) :
    rest ≠ "" ∧ offset = byteOffset text.toList rest.toList ∧
      ∃ line, read text.toList = .ok (line, rest.toList) := by
  rcases parse_outcome text with ⟨-, hparse⟩ | ⟨-, line, hread, hparse⟩ |
    ⟨-, line, left, hleft, hread, hparse⟩ | ⟨-, hview, hparse⟩
  · cases hparse.symm.trans h
  · cases hparse.symm.trans h
  · obtain ⟨rfl, rfl⟩ := ParseError.unread.inj (Except.error.inj (hparse.symm.trans h))
    rw [String.toList_ofList]
    refine ⟨?_, rfl, line, hread⟩
    intro hempty
    have hnil := congrArg String.toList hempty
    rw [String.toList_ofList] at hnil
    exact hleft hnil
  · cases hparse.symm.trans h

/-- A complaint about something unexpected is about a missing view. -/
theorem view?_of_unexpected {text expected found : String} {offset : Nat}
    (h : parse text = .error (.unexpected offset expected found)) :
    ¬Blank text ∧ Grammar.view? (afterHead text.toList) = none ∧
      offset = byteOffset text.toList (afterHead text.toList) ∧ expected = "a view" ∧
      found = String.ofList ((afterHead text.toList).take excerptLength) := by
  rcases parse_outcome text with ⟨-, hparse⟩ | ⟨-, line, hread, hparse⟩ |
    ⟨-, line, left, hleft, hread, hparse⟩ | ⟨hblank, hview, hparse⟩
  · cases hparse.symm.trans h
  · cases hparse.symm.trans h
  · cases hparse.symm.trans h
  · obtain ⟨rfl, rfl, rfl⟩ := ParseError.unexpected.inj (Except.error.inj (hparse.symm.trans h))
    exact ⟨hblank, hview, rfl, rfl, rfl⟩

/-- Something is left over exactly when a beginning of the text is a line and the whole is not. -/
theorem exists_unread_iff {text : String} :
    (∃ offset rest, parse text = .error (.unread offset rest)) ↔
      ¬Accepted text ∧ ∃ front, Begins front text ∧ front ≠ text ∧ Accepted front := by
  constructor
  · rintro ⟨offset, rest, h⟩
    obtain ⟨hrest, -, line, hread⟩ := read_of_unread h
    obtain ⟨front, htext, hparse, -⟩ := longestBeginning_of_read hread
    have hnot : ¬Accepted text := by
      rintro ⟨found, haccepted⟩
      cases haccepted.symm.trans h
    refine ⟨hnot, front, ⟨_, htext⟩, ?_, line, hparse⟩
    rintro rfl
    exact hnot ⟨line, hparse⟩
  · rintro ⟨hnot, front, hfront, -, haccepted⟩
    rcases parse_outcome text with ⟨hblank, -⟩ | ⟨-, line, -, hparse⟩ |
      ⟨-, line, rest, -, -, hparse⟩ | ⟨-, hview, -⟩
    · exact absurd haccepted (not_accepted_of_blank hblank hfront)
    · exact absurd ⟨line, hparse⟩ hnot
    · exact ⟨_, _, hparse⟩
    · exact absurd haccepted (not_accepted_of_view?_eq_none hview hfront)

/-- A view is missing exactly when no beginning of the text is a line. -/
theorem exists_unexpected_iff {text : String} :
    (∃ offset expected found, parse text = .error (.unexpected offset expected found)) ↔
      ¬Blank text ∧ ∀ front, Begins front text → ¬Accepted front := by
  constructor
  · rintro ⟨offset, expected, found, h⟩
    obtain ⟨hblank, hview, -⟩ := view?_of_unexpected h
    exact ⟨hblank, fun front => not_accepted_of_view?_eq_none hview⟩
  · rintro ⟨hblank, hnone⟩
    rcases parse_outcome text with ⟨hempty, -⟩ | ⟨-, line, -, hparse⟩ |
      ⟨-, line, rest, -, hread, -⟩ | ⟨-, -, hparse⟩
    · exact absurd hempty hblank
    · exact absurd ⟨line, hparse⟩ (hnone text ⟨"", by simp⟩)
    · obtain ⟨front, htext, hfront⟩ := parse_of_read hread
      exact absurd ⟨line, hfront⟩ (hnone front ⟨_, htext⟩)
    · exact ⟨_, _, _, hparse⟩

/-- Every complaint about a text says exactly what is wrong with it: a text is called empty when it
holds only white space; something is left over when a beginning of the text is a line and the whole
is not, and then it is what follows the longest such beginning, where reading stopped; and
otherwise a view is missing, behind the longest head the text begins with. -/
theorem parse_error_locates (text : String) :
    (parse text = .error .empty ↔ Blank text) ∧
    ((∃ offset rest, parse text = .error (.unread offset rest)) ↔
      ¬Accepted text ∧ ∃ front, Begins front text ∧ front ≠ text ∧ Accepted front) ∧
    (∀ offset rest, parse text = .error (.unread offset rest) →
      ∃ front line, text = front ++ rest ∧ front.utf8ByteSize = offset ∧ rest ≠ "" ∧
        LongestBeginning Accepted text front ∧ parse front = .ok line ∧
        read text.toList = .ok (line, rest.toList)) ∧
    ((∃ offset expected found, parse text = .error (.unexpected offset expected found)) ↔
      ¬Blank text ∧ ∀ front, Begins front text → ¬Accepted front) ∧
    (∀ offset expected found, parse text = .error (.unexpected offset expected found) →
      ∃ front rest, text = front ++ rest ∧ front.utf8ByteSize = offset ∧
        LongestBeginning Heads text front ∧ expected = "a view" ∧
        found = String.ofList (rest.toList.take 16)) := by
  refine ⟨parse_eq_empty_iff, exists_unread_iff, ?_, exists_unexpected_iff, ?_⟩
  · intro offset rest h
    obtain ⟨hrest, rfl, line, hread⟩ := read_of_unread h
    obtain ⟨front, htext, hparse, hlongest⟩ := longestBeginning_of_read hread
    rw [String.ofList_toList] at htext
    exact ⟨front, line, htext, (byteOffset_toList htext).symm, hrest, hlongest, hparse, hread⟩
  · intro offset expected found h
    obtain ⟨-, -, rfl, rfl, rfl⟩ := view?_of_unexpected h
    obtain ⟨front, htext, hlongest⟩ := longestBeginning_head text
    have hoffset := byteOffset_toList htext
    rw [String.toList_ofList] at hoffset
    refine ⟨front, _, htext, hoffset.symm, hlongest, rfl, ?_⟩
    rw [String.toList_ofList]
    rfl

/-- A half-written gap is left over with its dash, and behind a head that ends in a dash a letter
of two bytes is no view. -/
theorem parse_error_locates_gap_and_letter :
    (parse "H:[a]-5é" = .error (.unread 5 "-5é") ∧
      ∃ front line, "H:[a]-5é" = front ++ "-5é" ∧ front.utf8ByteSize = 5 ∧
        LongestBeginning Accepted "H:[a]-5é" front ∧ parse front = .ok line) ∧
    (parse "V:|-é[a]" = .error (.unexpected 4 "a view" "é[a]") ∧
      ∃ front rest, "V:|-é[a]" = front ++ rest ∧ front.utf8ByteSize = 4 ∧
        LongestBeginning Heads "V:|-é[a]" front) := by
  have hrest : parse "H:[a]-5é" = .error (.unread 5 "-5é") := by
    have hview : Grammar.view? (afterHead "H:[a]-5é".toList) = some (⟨"a", []⟩, "-5é".toList) := rfl
    have hmore : Grammar.moreViews "-5é".toList = ([], "-5é".toList) :=
      Grammar.moreViews_of_none rfl
    rw [afterHead] at hview
    simp only [parse, read, hview, hmore]
    rfl
  have hview : parse "V:|-é[a]" = .error (.unexpected 4 "a view" "é[a]") := rfl
  obtain ⟨front, line, hfront, hsize, -, hlongest, hparse, -⟩ :=
    (parse_error_locates "H:[a]-5é").2.2.1 _ _ hrest
  obtain ⟨head, rest, hhead, hheadSize, hheads, -⟩ :=
    (parse_error_locates "V:|-é[a]").2.2.2.2 _ _ _ hview
  exact ⟨⟨hrest, front, line, hfront, hsize, hlongest, hparse⟩,
    hview, head, rest, hhead, hheadSize, hheads⟩

end LayoutLine.Line
