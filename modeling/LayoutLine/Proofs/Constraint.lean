import LayoutLine.Constraint
import LayoutLine.Proofs.Line.Names
import LayoutLine.Proofs.Number.Text
import LayoutLine.Proofs.Resolve.Parts
import LayoutLine.Proofs.Text.Runs

/-!
# Telling constraints apart by their texts

A constraint is written as words with a blank between any two of them: the first anchor, the
relation, the right-hand side, and the priority unless it is required. When views have the names
that lines can give them, the words can be found again, and each one tells what it was written for:
an anchor has a letter and a point, which no number has, and only a priority has its mark. The text
then hides nothing but the handles of the views and, behind a second anchor, the sign of a zero.
-/

namespace LayoutLine

open Line.Language

variable {V W : Type}

/-! ### Words -/

/-- Neither a blank nor the mark of a priority stands in the text. -/
def IsWord (s : String) : Prop := ∀ c ∈ s.toList, c ≠ ' ' ∧ c ≠ '@'

-- by going through the text, not through all characters there are
instance (s : String) : Decidable (IsWord s) :=
  List.decidableBAll (fun c => c ≠ ' ' ∧ c ≠ '@') s.toList

/-- Words may be put together to a word. -/
theorem IsWord.append {s t : String} (hs : IsWord s) (ht : IsWord t) : IsWord (s ++ t) := by
  rw [IsWord, String.toList_append]
  exact List.forall_mem_append.mpr ⟨hs, ht⟩

theorem isName_of_all {c : Char} {tail : List Char} (hc : IsLetter c)
    (h : tail.all fun d => IsLetter d ∨ IsDigit d) : Text.IsName (c :: tail) :=
  Text.isName_iff.mpr ⟨c, tail, rfl, hc, fun d hd => of_decide_eq_true (List.all_eq_true.mp h d hd)⟩

/-- A name has neither a blank nor the mark of a priority. -/
theorem isWord_of_isName {s : String} (h : Text.IsName s.toList) : IsWord s := by
  refine fun c hc => ⟨?_, ?_⟩
  · rintro rfl
    exact h.not_mem (by decide) hc
  · rintro rfl
    exact h.not_mem (by decide) hc

/-- The text of a number is one word, for what is no number and for the infinite ones too. -/
theorem Number.isWord_text (x : Number) : IsWord x.text := by
  cases x with
  | nan => decide
  | infinity negative => cases negative <;> decide
  | finite negative m =>
    intro c hc
    have hall := Line.of_mem_numberText (numberText_finite negative m) c hc
    constructor
    · rintro rfl
      exact absurd hall (by decide)
    · rintro rfl
      exact absurd hall (by decide)

/-! ### Anchors -/

/-- A view goes by a name that a line can give it and that is not the text of the container. -/
def Item.WellNamed (item : Item V) : Prop :=
  ∀ name ∈ item.name?, Text.IsName name.toList ∧ name ≠ "superview"

namespace Item

/-- A view is well named when its own name is. -/
theorem wellNamed_view_iff {name : String} {handle : V} :
    (view name handle).WellNamed ↔ Text.IsName name.toList ∧ name ≠ "superview" := by
  constructor
  · exact fun h => h name rfl
  · rintro h _ hname
    obtain rfl := Option.some.inj hname
    exact h

theorem wellNamed_container : (container : Item V).WellNamed := nofun

/-- What stands for an item is a name, for the container too. -/
theorem WellNamed.isName_text {item : Item V} (h : item.WellNamed) :
    Text.IsName item.text.toList := by
  cases item with
  | view name handle => exact (wellNamed_view_iff.mp h).1
  | container =>
    have hname : Text.IsName ('s' :: "uperview".toList) :=
      isName_of_all (by decide) (by decide)
    change Text.IsName "superview".toList
    exact hname

/-- The text of an item is the name of a view or stands for the container. -/
theorem text_eq_iff {item : Item V} {other : Item W} (h : item.WellNamed) (h' : other.WellNamed) :
    item.text = other.text ↔ item.name? = other.name? := by
  cases item with
  | view name _ =>
    cases other with
    | view name' _ => exact (Option.some_inj (a := name) (b := name')).symm
    | container => exact iff_of_false (wellNamed_view_iff.mp h).2 nofun
  | container =>
    cases other with
    | view name' _ => exact iff_of_false (wellNamed_view_iff.mp h').2.symm nofun
    | container => exact iff_of_true rfl rfl

end Item

namespace Attribute

/-- Attributes go by different names. -/
theorem name_injective : Function.Injective name := by
  intro a b h
  cases a <;> cases b <;> first | rfl | exact absurd h (by decide)

/-- The name of an attribute is one word. -/
theorem isWord_name (attr : Attribute) : IsWord attr.name := by cases attr <;> decide

/-- No attribute has a point in its name. -/
theorem point_notMem_name (attr : Attribute) : '.' ∉ attr.name.toList := by cases attr <;> decide

end Attribute

namespace Anchor

/-- The anchor without the handle of its view. -/
def named (anchor : Anchor V) : Option String × Attribute := (anchor.item.name?, anchor.attr)

/-- An anchor is written as its item, a point and its attribute. -/
theorem toList_text (anchor : Anchor V) :
    anchor.text.toList = anchor.item.text.toList ++ '.' :: anchor.attr.name.toList := by
  simp [text]

variable {anchor : Anchor V}

/-- The text of an anchor is one word. -/
theorem isWord_text (h : anchor.item.WellNamed) : IsWord anchor.text :=
  ((isWord_of_isName h.isName_text).append (by decide)).append anchor.attr.isWord_name

/-- The text of an anchor can be split at its one point. -/
theorem text_eq_iff {other : Anchor W} (h : anchor.item.WellNamed) (h' : other.item.WellNamed) :
    anchor.text = other.text ↔ anchor.named = other.named := by
  have hitem : '.' ∉ anchor.item.text.toList := h.isName_text.not_mem (by decide)
  rw [← String.toList_inj, toList_text, toList_text,
    List.append_cons_inj_of_notMem hitem anchor.attr.point_notMem_name, String.toList_inj,
    String.toList_inj, Item.text_eq_iff h h', Attribute.name_injective.eq_iff, named, named,
    Prod.mk.injEq]
  simp only [true_and]

/-- An anchor has a letter and a point; a finite number has no letter, and the others have no
point. -/
theorem text_ne_number (h : anchor.item.WellNamed) (x : Number) : anchor.text ≠ x.text := by
  intro heq
  have htext : x.text.toList = anchor.item.text.toList ++ '.' :: anchor.attr.name.toList := by
    rw [← heq, toList_text]
  have hpoint : '.' ∈ x.text.toList := by
    rw [htext]
    exact List.mem_append_right _ List.mem_cons_self
  cases x with
  | nan => exact absurd hpoint (by decide)
  | infinity negative => cases negative <;> exact absurd hpoint (by decide)
  | finite negative m =>
    obtain ⟨c, tail, hitem, hletter, -⟩ := Text.isName_iff.mp h.isName_text
    have hmem : c ∈ (Number.finite negative m).text.toList := by
      rw [htext, hitem]
      exact List.mem_append_left _ List.mem_cons_self
    have hnumber := Number.numberText_finite negative m
    exact Line.not_isLetter_of_numberText hnumber c hmem hletter

end Anchor

/-! ### Constraints -/

/-- Relations are written differently. -/
theorem Relation.glyph_injective : Function.Injective Relation.glyph := by
  intro a b h
  cases a <;> cases b <;> first | rfl | exact absurd h (by decide)

/-- Priorities are written differently. -/
theorem Priority.text_injective : Function.Injective Priority.text := by
  intro a b h
  have hdigits : Nat.toDigits 10 a.value = Nat.toDigits 10 b.value := by
    simpa only [text, Nat.repr_eq_ofList_toDigits, String.ofList_inj] using h
  have hvalue : a.value = b.value := by
    rw [← Nat.ofDigitChars_toDigits (b := 10) (n := a.value) (by decide) (by decide), hdigits,
      Nat.ofDigitChars_toDigits (by decide) (by decide)]
  cases a
  cases b
  cases hvalue
  rfl

/-- What is written of a number that is added: its sign as an operator and its size, or nothing for
a zero. -/
def Number.addedWords (x : Number) : List String :=
  if x.isZero then [] else if x.isNegative then ["-", x.neg.text] else ["+", x.text]

/-- Nothing is written of an added number exactly when it is a zero. -/
theorem Number.addedWords_eq_nil_iff {x : Number} : x.addedWords = [] ↔ x.isZero := by
  unfold addedWords
  split
  · rename_i hzero
    exact iff_of_true rfl hzero
  · rename_i hzero
    split <;> exact iff_of_false (List.cons_ne_nil _ _) hzero

/-- The words that stand for an added number tell it up to the sign of a zero. -/
theorem Number.addedWords_eq_iff {x y : Number} :
    x.addedWords = y.addedWords ↔ x = y ∨ x.isZero ∧ y.isZero := by
  constructor
  · intro h
    by_cases hx : x.isZero = true
    · exact .inr ⟨hx, addedWords_eq_nil_iff.mp (h ▸ addedWords_eq_nil_iff.mpr hx)⟩
    · have hy : ¬y.isZero = true := fun hy =>
        hx (addedWords_eq_nil_iff.mp (h.trans (addedWords_eq_nil_iff.mpr hy)))
      left
      rw [addedWords, addedWords, if_neg hx, if_neg hy] at h
      split at h
      · split at h
        · have hneg := text_injective (List.cons.inj (List.cons.inj h).2).1
          rw [← x.neg_neg, hneg, y.neg_neg]
        · exact absurd (List.cons.inj h).1 (by decide)
      · split at h
        · exact absurd (List.cons.inj h).1 (by decide)
        · exact text_injective (List.cons.inj (List.cons.inj h).2).1
  · rintro (rfl | ⟨hx, hy⟩)
    · rfl
    · rw [addedWords_eq_nil_iff.mpr hx, addedWords_eq_nil_iff.mpr hy]

/-- The operator of an added number and its size are words. -/
theorem Number.isWord_of_mem_addedWords {x : Number} : ∀ word ∈ x.addedWords, IsWord word := by
  unfold addedWords
  split
  · exact nofun
  · split
    · exact List.forall_mem_cons.mpr ⟨by decide, List.forall_mem_singleton.mpr x.neg.isWord_text⟩
    · exact List.forall_mem_cons.mpr ⟨by decide, List.forall_mem_singleton.mpr x.isWord_text⟩

namespace Constraint

/-- The words of the right-hand side. -/
def rightWords (c : Constraint V) : List String :=
  match c.second with
  | none => [c.constant.text]
  | some second => second.text :: c.constant.addedWords

/-- The priority as a word; none for the required one. -/
def priorityWords (c : Constraint V) : List String :=
  if c.priority.isRequired then [] else ["@" ++ c.priority.text]

/-- The words of the constraint. -/
def words (c : Constraint V) : List String :=
  c.first.text :: c.relation.glyph :: (c.rightWords ++ c.priorityWords)

/-- A constraint is written as its words with a blank between any two of them. -/
theorem text_eq_intercalate (c : Constraint V) : c.text = " ".intercalate c.words := by
  rw [← String.toList_inj]
  unfold text words rightWords rightText priorityWords priorityText Number.addedWords
  cases c.priority.isRequired <;> cases c.second <;> cases c.constant.isZero <;>
    cases c.constant.isNegative <;> simp

/-- The views of the constraint have names that can be told from the rest of its text. -/
structure WellNamed (c : Constraint V) : Prop where
  /-- The view of the first anchor is well named. -/
  first : c.first.item.WellNamed
  /-- So is that of the second anchor. -/
  second : ∀ anchor ∈ c.second, anchor.item.WellNamed

variable {a : Constraint V} {b : Constraint W}

/-- What stands behind the relation consists of words. -/
theorem isWord_of_mem_rightWords (h : a.WellNamed) : ∀ word ∈ a.rightWords, IsWord word := by
  unfold rightWords
  split
  · exact List.forall_mem_singleton.mpr a.constant.isWord_text
  · rename_i second hsecond
    exact List.forall_mem_cons.mpr
      ⟨Anchor.isWord_text (h.second second hsecond), Number.isWord_of_mem_addedWords⟩

/-- Only the word of a priority has its mark. -/
theorem mem_priorityWords {word : String} (h : word ∈ a.priorityWords) :
    '@' ∈ word.toList ∧ ' ' ∉ word.toList := by
  unfold priorityWords at h
  split at h
  · exact absurd h List.not_mem_nil
  · obtain rfl := List.mem_singleton.mp h
    rw [String.toList_append, Priority.text, Nat.toList_repr]
    refine ⟨List.mem_cons_self, fun hmem => ?_⟩
    have hblank := (List.mem_cons.mp hmem).resolve_left (by decide)
    exact absurd ((Line.Grammar.digits_toDigits _).2 ' ' hblank) (by decide)

/-- Neither an anchor nor a number nor a relation nor a priority has a blank in it. -/
theorem blank_notMem_words (h : a.WellNamed) : ∀ word ∈ a.words, ' ' ∉ word.toList := by
  have hword {word : String} (h : IsWord word) : ' ' ∉ word.toList := fun hmem => (h ' ' hmem).1 rfl
  refine List.forall_mem_cons.mpr ⟨hword (Anchor.isWord_text h.first), ?_⟩
  refine List.forall_mem_cons.mpr ⟨by cases a.relation <;> decide, ?_⟩
  refine List.forall_mem_append.mpr ⟨fun word hmem => ?_, fun word hmem => ?_⟩
  · exact hword (isWord_of_mem_rightWords h word hmem)
  · exact (mem_priorityWords hmem).2

/-- The words are found again by splitting the text at its blanks. -/
theorem splitOn_text (h : a.WellNamed) :
    a.text.toList.splitOn ' ' = a.words.map String.toList := by
  rw [text_eq_intercalate, String.toList_intercalate]
  exact List.splitOn_intercalate ' ' (List.forall_mem_map.mpr (blank_notMem_words h))
    (List.cons_ne_nil _ _)

/-- Since the words can be found again, texts are the same when their words are. -/
theorem text_eq_iff_words (ha : a.WellNamed) (hb : b.WellNamed) :
    a.text = b.text ↔ a.words = b.words := by
  constructor
  · intro h
    have hsplit : a.words.map String.toList = b.words.map String.toList := by
      rw [← splitOn_text ha, ← splitOn_text hb, h]
    exact List.map_injective_iff.mpr (fun _ _ => String.toList_injective) hsplit
  · intro h
    rw [text_eq_intercalate, text_eq_intercalate, h]

/-- The mark of the priority divides what stands behind the relation. -/
theorem filter_mark (h : a.WellNamed) :
    (a.rightWords ++ a.priorityWords).filter (fun word => '@' ∉ word.toList) = a.rightWords ∧
      (a.rightWords ++ a.priorityWords).filter (fun word => '@' ∈ word.toList) =
        a.priorityWords := by
  have hright : ∀ word ∈ a.rightWords, '@' ∉ word.toList := fun word hword hmem =>
    (isWord_of_mem_rightWords h word hword '@' hmem).2 rfl
  have hpriority : ∀ word ∈ a.priorityWords, '@' ∈ word.toList := fun word hword =>
    (mem_priorityWords hword).1
  rw [List.filter_append, List.filter_append]
  constructor
  · rw [List.filter_eq_self.mpr (by simpa using hright),
      List.filter_eq_nil_iff.mpr (by simpa using hpriority), List.append_nil]
  · rw [List.filter_eq_nil_iff.mpr (by simpa using hright),
      List.filter_eq_self.mpr (by simpa using hpriority), List.nil_append]

/-- Each part of a constraint has words of its own in a fixed place, the priority by its mark. -/
theorem words_eq_iff (ha : a.WellNamed) (hb : b.WellNamed) :
    a.words = b.words ↔ a.first.text = b.first.text ∧ a.relation.glyph = b.relation.glyph ∧
      a.rightWords = b.rightWords ∧ a.priorityWords = b.priorityWords := by
  rw [words, words, List.cons.injEq, List.cons.injEq]
  refine and_congr_right fun _ => and_congr_right fun _ => ?_
  constructor
  · intro h
    constructor
    · rw [← (filter_mark ha).1, h, (filter_mark hb).1]
    · rw [← (filter_mark ha).2, h, (filter_mark hb).2]
  · rintro ⟨hright, hpriority⟩
    rw [hright, hpriority]

/-- Both constants are one number, or both are zeros behind a second anchor. -/
def SameConstant (a : Constraint V) (b : Constraint W) : Prop :=
  a.constant = b.constant ∨ a.second.isSome ∧ a.constant.isZero ∧ b.constant.isZero

/-- The right-hand side tells the second anchor, and its constant up to the sign of a zero behind
that anchor. -/
theorem rightWords_eq_iff (ha : a.WellNamed) (hb : b.WellNamed) :
    a.rightWords = b.rightWords ↔
      a.second.map Anchor.named = b.second.map Anchor.named ∧ a.SameConstant b := by
  unfold rightWords SameConstant
  cases hsecond : a.second with
  | none =>
    cases hsecond' : b.second with
    | none => simp [Number.text_injective.eq_iff]
    | some other =>
      refine iff_of_false (fun h => ?_) (fun h => absurd h.1 nofun)
      exact Anchor.text_ne_number (hb.second other hsecond') _ (List.cons.inj h).1.symm
  | some anchor =>
    cases hsecond' : b.second with
    | none =>
      refine iff_of_false (fun h => ?_) (fun h => absurd h.1 nofun)
      exact Anchor.text_ne_number (ha.second anchor hsecond) _ (List.cons.inj h).1
    | some other =>
      rw [List.cons.injEq, Number.addedWords_eq_iff,
        Anchor.text_eq_iff (ha.second anchor hsecond) (hb.second other hsecond')]
      simp

/-- The priority is told, and so is that it is the required one. -/
theorem priorityWords_eq_iff : a.priorityWords = b.priorityWords ↔ a.priority = b.priority := by
  constructor
  · intro h
    unfold priorityWords at h
    split at h
    · rename_i hrequired
      split at h
      · rename_i hrequired'
        exact (eq_of_beq hrequired).trans (eq_of_beq hrequired').symm
      · exact absurd h nofun
    · split at h
      · exact absurd h nofun
      · have htext := congrArg String.toList (List.cons.inj h).1
        rw [String.toList_append, String.toList_append, List.append_cancel_left_eq] at htext
        exact Priority.text_injective (String.toList_injective htext)
  · intro h
    rw [priorityWords, priorityWords, h]

/-- The constraints say the same but for the handles of views and the sign of a zero behind a
second anchor. -/
structure Alike (a : Constraint V) (b : Constraint W) : Prop where
  /-- Views of one name, or the container both times, with one attribute. -/
  first : a.first.named = b.first.named
  /-- The relation is the same. -/
  relation : a.relation = b.relation
  /-- Neither has a second anchor, or both have one with one name and attribute. -/
  second : a.second.map Anchor.named = b.second.map Anchor.named
  /-- The constants are the same up to the sign of a zero that is not written. -/
  constant : a.SameConstant b
  /-- The priority is the same. -/
  priority : a.priority = b.priority

/-- The text of a constraint identifies it: constraints on well-named views have one text exactly
if they are alike. -/
theorem text_eq_iff_alike (ha : a.WellNamed) (hb : b.WellNamed) : a.text = b.text ↔ a.Alike b := by
  rw [text_eq_iff_words ha hb, words_eq_iff ha hb, Anchor.text_eq_iff ha.first hb.first,
    Relation.glyph_injective.eq_iff, rightWords_eq_iff ha hb, priorityWords_eq_iff]
  constructor
  · rintro ⟨hfirst, hrelation, ⟨hsecond, hconstant⟩, hpriority⟩
    exact ⟨hfirst, hrelation, hsecond, hconstant, hpriority⟩
  · rintro ⟨hfirst, hrelation, hsecond, hconstant, hpriority⟩
    exact ⟨hfirst, hrelation, ⟨hsecond, hconstant⟩, hpriority⟩

/-- Behind a second anchor the text shows neither the handle of a view nor the sign of a zero. -/
theorem text_hides_handle_and_sign :
    (⟨⟨.view "inf" 1, .width⟩, .equal, some ⟨.container, .height⟩, .finite false .zero, .high⟩ :
        Constraint Nat).text =
      (⟨⟨.view "inf" 2, .width⟩, .equal, some ⟨.container, .height⟩, .finite true .zero, .high⟩ :
        Constraint Nat).text := by
  have hname : Text.IsName ('i' :: "nf".toList) := isName_of_all (by decide) (by decide)
  have hinf (handle : Nat) : (Item.view "inf" handle).WellNamed :=
    Item.wellNamed_view_iff.mpr ⟨hname, by decide⟩
  have hcontainer (attr : Attribute) :
      ∀ anchor ∈ some (⟨.container, attr⟩ : Anchor Nat), anchor.item.WellNamed := by
    intro anchor hanchor
    obtain rfl := Option.some.inj hanchor
    exact Item.wellNamed_container
  exact (text_eq_iff_alike ⟨hinf 1, hcontainer .height⟩ ⟨hinf 2, hcontainer .height⟩).mpr
    ⟨rfl, rfl, rfl, .inr ⟨rfl, rfl, rfl⟩, rfl⟩

end Constraint
end LayoutLine
