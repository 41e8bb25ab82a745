import LayoutLine.Proofs.Line.Completeness

/-!
# Reading is the grammar

A text is read as a line exactly when the grammar derives it, and the line is then the one it
derives. The grammar is unambiguous, since reading is a function.
-/

namespace LayoutLine.Line

open Line.Language

/-- The mark of an axis is read as that axis, and no more of the text is. -/
theorem Grammar.axis_mark (axis : Axis) (body : List Char) :
    Grammar.axis ([axis.letter, ':'] ++ body) = (axis, body) := by
  cases axis with
  | horizontal => rfl
  | vertical => rfl

/-- The head and the first view of a line are read off the front of any text; then follow as many
views as there are, and the far edge. -/
theorem read_head {axis : Axis} {leading : Option Spacing} {first : View} {a b : List Char}
    (hhead : HeadText axis leading a) (hfirst : ViewText first b) (rest : List Char) :
    read (a ++ (b ++ rest)) = .ok
      (⟨axis, leading, first :: (Grammar.moreViews rest).1.map Prod.snd,
        (Grammar.moreViews rest).1.map Prod.fst,
        (Grammar.trailing (Grammar.moreViews rest).2).1⟩,
      (Grammar.trailing (Grammar.moreViews rest).2).2) := by
  cases hhead with
  | @intro c d haxis hleading =>
    have hview : Grammar.view? (b ++ rest) = some (first, rest) := Grammar.view?_complete hfirst
    have hbracket : ∃ tail, b ++ rest = '[' :: tail := by
      cases hfirst with
      | bare _ => exact ⟨_, rfl⟩
      | sized _ _ => exact ⟨_, rfl⟩
    have hlead := Grammar.leading_complete hleading hbracket
    have hstart := Grammar.leadingText_itemStart hleading hfirst rest
    have hax := Grammar.axis_complete haxis hstart
    rw [List.append_assoc, read, hax]
    simp only [hlead, hview]

/-- What is read off the front of a text is a line of the grammar. -/
theorem read_sound {cs rest : List Char} {line : Line} (h : read cs = .ok (line, rest)) :
    ∃ used, LineText line used ∧ cs = used ++ rest := by
  simp only [read] at h
  split at h
  · cases h
  · rename_i first afterFirst hview
    obtain ⟨rfl, rfl⟩ := Prod.mk.inj (Except.ok.inj h)
    obtain ⟨a, ha, hcs⟩ := Grammar.axis_sound cs
    obtain ⟨b, hb, hafterAxis⟩ := Grammar.leading_sound (Grammar.axis cs).2
    obtain ⟨c, hc, hafterLeading⟩ := Grammar.view?_sound _ _ _ hview
    obtain ⟨d, hd, hafterFirst⟩ := Grammar.moreViews_sound afterFirst
    obtain ⟨e, he, hafterMore⟩ := Grammar.trailing_sound (Grammar.moreViews afterFirst).2
    refine ⟨a ++ b ++ c ++ d ++ e, .intro (.intro ha hb) hc hd he, ?_⟩
    calc
      cs = a ++ (Grammar.axis cs).2 := hcs
      _ = a ++ (b ++ (c ++ afterFirst)) := by rw [← hafterLeading, ← hafterAxis]
      _ = a ++ b ++ c ++ d ++ e ++ (Grammar.trailing (Grammar.moreViews afterFirst).2).2 := by
        simp only [List.append_assoc]
        rw [← hafterMore, ← hafterFirst]

/-- A text of the grammar is read to its end, as the line it stands for. -/
theorem read_lineText {line : Line} {text : List Char} (h : LineText line text) :
    read text = .ok (line, []) := by
  cases h with
  | @intro axis leading trailing first more a b c d hhead hfirst hmore htrailing =>
    have hread := read_head hhead hfirst (c ++ d)
    have hmoreViews :
        Grammar.moreViews (c ++ d) = (more, d) ∧ Grammar.trailing d = (trailing, []) := by
      rw [Grammar.moreViews_complete hmore]
      cases htrailing with
      | unwritten =>
        rw [Grammar.moreViews_of_none rfl]
        simp only [List.append_nil, true_and]
        rfl
      | written h =>
        rw [Grammar.moreViews_of_none (Grammar.nextView?_edge h []), Grammar.trailing_complete h]
        simp only [List.append_nil, and_self]
    rw [hmoreViews.1, hmoreViews.2] at hread
    simpa only [List.append_assoc] using hread

/-- The characters of a text of the grammar are not all white space: there is a bracket. -/
theorem not_blank_of_lineText {line : Line} {text : List Char} (h : LineText line text) :
    text.all Text.isBlank = false := by
  cases h with
  | @intro axis leading trailing first more a b c d hhead hfirst hmore htrailing =>
    have hbracket : '[' ∈ a ++ b ++ c ++ d := by
      cases hfirst with
      | bare _ => simp
      | sized _ _ => simp
    exact List.all_eq_false.mpr ⟨'[', hbracket, by decide⟩

/-- A text is read as a line exactly when the grammar derives the text for that line. -/
theorem parse_eq_ok_iff {text : String} {line : Line} :
    parse text = .ok line ↔ LineText line text.toList := by
  constructor
  · intro h
    simp only [parse] at h
    split at h
    · cases h
    · split at h
      · cases h
      · rename_i read hread
        obtain rfl := Except.ok.inj h
        obtain ⟨used, hused, htext⟩ := read_sound hread
        rw [htext, List.append_nil]
        exact hused
      · cases h
  · intro h
    have hblank := not_blank_of_lineText h
    simp only [parse, hblank, read_lineText h, Bool.false_eq_true, if_false]

/-- Reading accepts exactly the texts of the grammar, each as the one line it stands for, and the
first alternative of a spacing that fits is the one the grammar means. -/
theorem parse_reads_language :
    (∀ (text : String) (line : Line), parse text = .ok line ↔ LineText line text.toList) ∧
    (∀ (text : List Char) (line other : Line), LineText line text → LineText other text →
      line = other) ∧
    (∀ (space : Spacing) (text rest : List Char), SpacingText space text →
      Grammar.ItemStart rest → Grammar.spacing (text ++ rest) = (space, rest)) := by
  refine ⟨fun _ _ => parse_eq_ok_iff, ?_, fun _ _ _ => Grammar.spacing_complete⟩
  intro text line other hline hother
  have hread := (read_lineText hline).symm.trans (read_lineText hother)
  exact (Prod.mk.inj (Except.ok.inj hread)).1

/-- A line in which a minus sign follows the dash of a gap, and a standard spacing ends it. -/
theorem parse_reads_negative_gap :
    LineText ⟨.horizontal, none, [⟨"a", []⟩, ⟨"b", []⟩],
        [.gap [⟨.atLeast, .number (.ofDigits true ['4'] []), some 750⟩]], some .standard⟩
      "H:[a]->=-4@750-[b]-|".toList ∧
    parse "H:[a]->=-4@750-[b]-|" = .ok ⟨.horizontal, none, [⟨"a", []⟩, ⟨"b", []⟩],
        [.gap [⟨.atLeast, .number (.ofDigits true ['4'] []), some 750⟩]], some .standard⟩ ∧
    Grammar.spacing "->=-4@750-[b]-|".toList =
      (.gap [⟨.atLeast, .number (.ofDigits true ['4'] []), some 750⟩], "[b]-|".toList) := by
  have hview (c : Char) (hc : IsLetter c) : ViewText ⟨String.ofList [c], []⟩ ['[', c, ']'] :=
    .bare (.intro hc (by simp))
  have hclause : ClauseText ⟨.atLeast, .number (.ofDigits true ['4'] []), some 750⟩
      (">=-4@750".toList) :=
    .intro .atLeast (.number (@NumberText.whole true ['4'] (by decide)))
      (@PriorityText.written ['7', '5', '0'] (by decide) (by decide))
  have hgap : SpacingText (.gap [⟨.atLeast, .number (.ofDigits true ['4'] []), some 750⟩])
      "->=-4@750-".toList := .single hclause
  have hmore : MoreViewsText
      [(.gap [⟨.atLeast, .number (.ofDigits true ['4'] []), some 750⟩], ⟨"b", []⟩)]
      "->=-4@750-[b]".toList := .cons hgap (hview 'b' (by decide)) .nil
  have hline : LineText ⟨.horizontal, none, [⟨"a", []⟩, ⟨"b", []⟩],
        [.gap [⟨.atLeast, .number (.ofDigits true ['4'] []), some 750⟩]], some .standard⟩
      "H:[a]->=-4@750-[b]-|".toList :=
    .intro (.intro .horizontal .unwritten) (hview 'a' (by decide)) hmore (.written .standard)
  exact ⟨hline, (parse_reads_language.1 _ _).mpr hline,
    parse_reads_language.2.2 _ _ _ hgap ⟨'[', _, rfl, .inl rfl⟩⟩

end LayoutLine.Line
