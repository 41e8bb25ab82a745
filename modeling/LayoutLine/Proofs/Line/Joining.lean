import LayoutLine.Proofs.Line.Accepted
import LayoutLine.Proofs.Resolve

/-!
# Lines one after the other

A line that ends with a view and one that starts with a view are put together by a spacing. In text
the spacing stands between the two, and neither line is read differently for it: a view is closed by
its bracket. The constraints of the whole are those of the first line, those of the spacing, and
those of the second.
-/

namespace LayoutLine.Line

open Line.Language

variable {V : Type}

/-- Both lines in one, with a spacing between the last view of the one and the first of the other.
The axis is that of the first, and the edges between the two are not kept. -/
def join (before : Line) (spacing : Spacing) (after : Line) : Line where
  axis := before.axis
  leading := before.leading
  views := before.views ++ after.views
  spacings := before.spacings ++ spacing :: after.spacings
  trailing := after.trailing

/-! ### Text -/

theorem moreViewsText_append {more more' : List (Spacing × View)} {a b : List Char}
    (h : MoreViewsText more a) (h' : MoreViewsText more' b) :
    MoreViewsText (more ++ more') (a ++ b) := by
  induction h with
  | nil => exact h'
  | cons hspacing hview _ ih =>
    have hmore := MoreViewsText.cons hspacing hview ih
    simpa only [List.append_assoc, List.cons_append] using hmore

/-- A line that was read has one spacing fewer than it has views. -/
theorem length_spacings_of_lineText {line : Line} {text : List Char} (h : LineText line text) :
    line.spacings.length + 1 = line.views.length := by
  cases h with
  | intro => simp only [List.length_map, List.length_cons]

/-- A line whose text begins with the mark of an axis runs along it, and the rest of the text is
made up of the line's parts. -/
theorem exists_parts_of_lineText {line : Line} {axis : Axis} {body : List Char}
    (h : LineText line ([axis.letter, ':'] ++ body)) :
    line.axis = axis ∧ ∃ first more a b c d, LeadingText line.leading a ∧ ViewText first b ∧
      MoreViewsText more c ∧ TrailingText line.trailing d ∧ body = a ++ b ++ c ++ d ∧
      line.views = first :: more.map Prod.snd ∧ line.spacings = more.map Prod.fst := by
  generalize htext : [axis.letter, ':'] ++ body = text at h
  cases h with
  | @intro axis' leading trailing first more _ b c d hhead hfirst hmore htrailing =>
    cases hhead with
    | @intro mark a haxis hleading =>
      have hstart := Grammar.leadingText_itemStart hleading hfirst (c ++ d)
      have hread := Grammar.axis_complete haxis hstart
      simp only [List.append_assoc] at htext
      rw [← htext, ← List.append_assoc, Grammar.axis_mark] at hread
      obtain ⟨rfl, rfl⟩ := Prod.mk.inj hread
      exact ⟨rfl, first, more, a, b, c, d, hleading, hfirst, hmore, htrailing,
        by simp only [List.append_assoc], rfl, rfl⟩

/-- The text of two lines with a spacing between them is that of the line that joins them. -/
theorem lineText_join {before after : Line} {axis : Axis} {a b gap : List Char} {spacing : Spacing}
    (hbefore : LineText before ([axis.letter, ':'] ++ a)) (hend : before.trailing = none)
    (hspacing : SpacingText spacing gap)
    (hafter : LineText after ([axis.letter, ':'] ++ b)) (hstart : after.leading = none) :
    LineText (before.join spacing after) ([axis.letter, ':'] ++ (a ++ gap ++ b)) := by
  obtain ⟨rfl, first, more, a', b', c', d', hleading, hfirst, hmore, htrailing, rfl, hviews,
    hspacings⟩ := exists_parts_of_lineText hbefore
  obtain ⟨-, second, others, a'', b'', c'', d'', hleading', hsecond, hothers, hend', rfl, hviews',
    hspacings'⟩ := exists_parts_of_lineText hafter
  rw [hend] at htrailing
  rw [hstart] at hleading'
  cases htrailing
  cases hleading'
  have hmiddle := moreViewsText_append hmore (.cons hspacing hsecond hothers)
  have hhead := HeadText.intro (axisText_letter before.axis) hleading
  have hline := LineText.intro hhead hfirst hmiddle hend'
  simpa only [join, hviews, hviews', hspacings, hspacings', List.map_append, List.map_cons,
    List.append_assoc, List.cons_append, List.nil_append] using hline

/-! ### Constraints -/

/-- The pieces behind an item are those up to any view there and those behind that view. -/
theorem laterPieces_append (span : Span) (config : StandardSpacing) (before : Placed V)
    (later others : List (Placed V)) {spacings : List Spacing}
    (h : spacings.length = later.length) (more : List Spacing) :
    laterPieces span config before.2 (later ++ others) (spacings ++ more) =
      laterPieces span config before.2 later spacings ++
        laterPieces span config ((before :: later).getLast (List.cons_ne_nil _ _)).2 others
          more := by
  induction later generalizing before spacings with
  | nil =>
    obtain rfl := List.length_eq_zero_iff.mp h
    rfl
  | cons next later ih =>
    cases spacings with
    | nil => cases h
    | cons spacing spacings =>
      have hlater := ih next (Nat.succ.inj h)
      simp only [List.cons_append, laterPieces, List.tail_cons, hlater, List.append_assoc,
        List.head?_cons, List.getLast_cons_cons]

/-- The pieces of two lines with a spacing between them. -/
theorem pieces_join {before after : Line} {spacing : Spacing} (hend : before.trailing = none)
    (hstart : after.leading = none) (span : Span) (config : StandardSpacing)
    {placed others : List (Placed V)} {last next : Placed V}
    (hspacings : before.spacings.length + 1 = placed.length) (hlast : placed.getLast? = some last)
    (hnext : others.head? = some next) :
    (before.join spacing after).pieces span config (placed ++ others) =
      before.pieces span config placed ++
        .gap ⟨next.2, span.start⟩ ⟨last.2, span.stop⟩ config.between spacing ::
          after.pieces span config others := by
  cases placed with
  | nil => cases hlast
  | cons first later =>
    cases others with
    | nil => cases hnext
    | cons second others =>
      obtain rfl := Option.some.inj hnext
      rw [List.getLast?_eq_some_getLast (List.cons_ne_nil first later)] at hlast
      obtain rfl := Option.some.inj hlast
      have hend' : (first :: later ++ second :: others).getLast (by simp) =
          (second :: others).getLast (List.cons_ne_nil _ _) :=
        List.getLast_append_of_ne_nil _ _
      simp only [List.cons_append] at hend'
      have hlater := laterPieces_append span config first later (second :: others)
        (Nat.succ.inj hspacings) (spacing :: after.spacings)
      simp only [List.cons_append, pieces, join, hend', hlater, hend, hstart, laterPieces,
        List.head?_cons, List.tail_cons, Option.map_some, Option.map_none, Option.toList_some,
        Option.toList_none, List.append_assoc, List.nil_append, List.append_nil]

/-- The last view of a line stands beside the item its name is bound to. -/
theorem exists_last_of_items {bindings : Bindings V} {views : List View} {items : List (Item V)}
    (h : views.mapM (bindings.item ·.name) = .ok items) (hne : views ≠ []) :
    ∃ last, (views.zip items).getLast? = some last ∧ views.getLast? = some last.1 ∧
      bindings.item last.1.name = .ok last.2 := by
  obtain ⟨hfst, -, hitem⟩ := zip_of_mapM_ok h
  have hplaced : views.zip items ≠ [] := fun hnil => hne (by rw [← hfst, hnil]; rfl)
  have hlast := List.getLast?_eq_some_getLast hplaced
  refine ⟨_, hlast, ?_, hitem _ (List.getLast_mem hplaced)⟩
  rw [← congrArg List.getLast? hfst, List.getLast?_map, hlast, Option.map_some]

/-- So does the first. -/
theorem exists_first_of_items {bindings : Bindings V} {views : List View} {items : List (Item V)}
    (h : views.mapM (bindings.item ·.name) = .ok items) (hne : views ≠ []) :
    ∃ first, (views.zip items).head? = some first ∧ views.head? = some first.1 ∧
      bindings.item first.1.name = .ok first.2 := by
  obtain ⟨hfst, -, hitem⟩ := zip_of_mapM_ok h
  have hplaced : views.zip items ≠ [] := fun hnil => hne (by rw [← hfst, hnil]; rfl)
  have hfirst := List.head?_eq_some_head hplaced
  refine ⟨_, hfirst, ?_, hitem _ (List.head_mem hplaced)⟩
  rw [← congrArg List.head? hfst, List.head?_map, hfirst, Option.map_some]

/-- Two lines that resolve without alignments resolve as one as soon as the spacing between them
does. The constraints of the spacing come after those of the first line and before those of the
second. -/
theorem resolve_join {before after : Line} (spacing : Spacing) {options : Options}
    {bindings : Bindings V} {config : StandardSpacing} {constraints later : List (Constraint V)}
    (haxis : after.axis = before.axis) (hend : before.trailing = none)
    (hstart : after.leading = none) (hnone : options.alignments = [])
    (hspacings : before.spacings.length + 1 = before.views.length) (hviews : after.views ≠ [])
    (hbefore : before.resolve options bindings config = .ok constraints)
    (hafter : after.resolve options bindings config = .ok later) :
    ∃ last next item item', before.views.getLast? = some last ∧ after.views.head? = some next ∧
      bindings.item last.name = .ok item ∧ bindings.item next.name = .ok item' ∧
      ∀ middle, (Piece.gap ⟨item', (Span.along before.axis options).start⟩
          ⟨item, (Span.along before.axis options).stop⟩ config.between spacing).constraints
          bindings = .ok middle →
        (before.join spacing after).resolve options bindings config =
          .ok (constraints ++ (middle ++ later)) := by
  obtain ⟨items, spaced, hitems, hyields, -, rfl⟩ := exists_of_resolve hbefore
  obtain ⟨items', spaced', hitems', hyields', -, rfl⟩ := exists_of_resolve hafter
  have hlength := (mapM_eq_ok_iff.mp hitems).length_eq
  have hcount : before.spacings.length + 1 = (before.views.zip items).length := by
    rw [hspacings, List.length_zip, ← hlength, Nat.min_self]
  obtain ⟨last, hlast, hlastView, hitem⟩ :=
    exists_last_of_items hitems (List.ne_nil_of_length_eq_add_one hspacings.symm)
  obtain ⟨next, hnext, hnextView, hitem'⟩ := exists_first_of_items hitems' hviews
  refine ⟨last.1, next.1, last.2, next.2, hlastView, hnextView, hitem, hitem',
    fun middle hmiddle => ?_⟩
  have hjoined : (before.join spacing after).views.mapM (bindings.item ·.name) =
      .ok (items ++ items') := by
    rw [join, List.mapM_append, hitems, hitems']
    rfl
  have hzip : (before.join spacing after).views.zip (items ++ items') =
      before.views.zip items ++ after.views.zip items' :=
    List.zip_append hlength
  rw [haxis] at hyields'
  have hall := hyields.append (.cons hmiddle hyields')
  rw [← pieces_join hend hstart _ config hcount hlast hnext, ← hzip] at hall
  have hresolve := resolve_of_yields hjoined hall (by simp [hnone])
  rw [hresolve]
  simp only [hnone, List.flatMap_nil, List.append_nil]

end LayoutLine.Line
