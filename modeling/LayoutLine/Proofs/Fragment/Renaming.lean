import LayoutLine.Proofs.Fragment.Tokens
import Mathlib.Data.List.Forall2

/-!
# Fragments under shifted numbers

Numbers can be shifted: those from `n` on become those from `m` on. A shifted fragment has the same
views, lengths, and options, and each symbol of its text and of its tables has the shifted number.
Numbers may have more digits than before, so the two texts are compared symbol by symbol. Shifting
keeps names apart, and it goes through every constructor of fragments.
-/

namespace LayoutLine

open Line.Grammar (continuesName)

/-- What lists have in common place by place, they have when both are combined with a third one. -/
theorem forall₂_zipWith {α β γ δ ε : Type} {R : α → β → Prop} {S : δ → ε → Prop} {xs : List α}
    {ys : List β} (h : List.Forall₂ R xs ys) {f : α → γ → δ} {g : β → γ → ε}
    (hfg : ∀ x y z, R x y → S (f x z) (g y z)) (zs : List γ) :
    List.Forall₂ S (List.zipWith f xs zs) (List.zipWith g ys zs) := by
  induction h generalizing zs with
  | nil => exact .nil
  | cons hfirst _ ih =>
    cases zs with
    | nil => exact .nil
    | cons z zs => exact .cons (hfg _ _ z hfirst) (ih zs)

/-! ### Symbols -/

namespace Symbol

/-- The second symbol is the first one with its number `k` shifted to `k - n + m`. -/
structure Shifted (n m : Nat) (s t : Symbol) : Prop where
  /-- The kind stays. -/
  kind : t.kind = s.kind
  /-- The number lies as far beyond `m` as it lay beyond `n`. -/
  id : t.id.val + n = s.id.val + m

/-- The names of a symbol and of the shifted one. -/
def NameShifted (n m : Nat) (name shifted : String) : Prop :=
  ∃ s t : Symbol, s.Shifted n m t ∧ name = s.name ∧ shifted = t.name

variable {n m : Nat}

/-- Symbols that differ are shifted to symbols that differ. -/
theorem Shifted.eq_iff {s t s' t' : Symbol} (h : s.Shifted n m t) (h' : s'.Shifted n m t') :
    s = s' ↔ t = t' := by
  have heq (x y : Symbol) : x = y ↔ x.kind = y.kind ∧ x.id.val = y.id.val := by
    rw [← Fin.ext_iff, Symbol.mk.injEq]
  have hid : s.id.val = s'.id.val ↔ t.id.val = t'.id.val := by
    have hs := h.id
    have hs' := h'.id
    omega
  rw [heq, heq, h.kind, h'.kind, hid]

/-- Names that differ are shifted to names that differ. -/
theorem NameShifted.eq_iff {a b a' b' : String} (h : NameShifted n m a b)
    (h' : NameShifted n m a' b') : a = a' ↔ b = b' := by
  obtain ⟨s, t, hst, rfl, rfl⟩ := h
  obtain ⟨s', t', hst', rfl, rfl⟩ := h'
  have hname (x y : Symbol) : x.name = y.name ↔ x = y := ⟨name_injective, congrArg name⟩
  rw [hname, hname]
  exact hst.eq_iff hst'

/-- The `count` numbers from one on are shifted to those from another one on, and neither of the
two runs goes beyond the last number. -/
structure IdsShifted (n m count : Nat) (id id' : SymbolId) : Prop where
  /-- The first number is shifted to the other first one. -/
  aligned : id'.val + n = id.val + m
  /-- The first run ends in time. -/
  room : id.val + count ≤ 4294967295
  /-- So does the second one. -/
  room' : id'.val + count ≤ 4294967295

namespace IdsShifted

variable {a b count i : Nat} {id id' : SymbolId}

/-- Symbols that lie equally far on in the two runs are shifted. -/
theorem symbol (h : IdsShifted n m count id id') (hi : i ≤ count) (kind : Kind) :
    Shifted n m ⟨kind, id.advance i⟩ ⟨kind, id'.advance i⟩ where
  kind := rfl
  id := by
    obtain ⟨haligned, hroom, hroom'⟩ := h
    simp only [SymbolId.val_advance]
    omega

/-- The first numbers of the two runs are shifted. -/
theorem first (h : IdsShifted n m count id id') (kind : Kind) :
    Shifted n m ⟨kind, id⟩ ⟨kind, id'⟩ := ⟨rfl, h.aligned⟩

/-- Fewer numbers are shifted alike. -/
theorem mono (h : IdsShifted n m b id id') (hle : a ≤ b) : IdsShifted n m a id id' := by
  obtain ⟨haligned, hroom, hroom'⟩ := h
  exact ⟨haligned, by omega, by omega⟩

/-- Behind the first of the numbers the others are shifted alike. -/
theorem advance (h : IdsShifted n m (a + b) id id') :
    IdsShifted n m b (id.advance a) (id'.advance a) := by
  obtain ⟨haligned, hroom, hroom'⟩ := h
  refine ⟨?_, ?_, ?_⟩ <;> simp only [SymbolId.val_advance] <;> omega

/-- The symbols of clauses are shifted one by one. -/
theorem clauseSymbols (h : IdsShifted n m count id id') :
    List.Forall₂ (Shifted n m) (Fragment.clauseSymbols id count)
      (Fragment.clauseSymbols id' count) := by
  rw [Fragment.clauseSymbols, Fragment.clauseSymbols, List.forall₂_map_left_iff,
    List.forall₂_map_right_iff, List.forall₂_same]
  intro i hi
  have hlt := List.mem_range.mp hi
  have hroom := h.room
  have hroom' := h.room'
  -- Neither run comes to the last number, so neither goes on at the first one.
  rw [SymbolId.around_eq_advance (by omega), SymbolId.around_eq_advance (by omega)]
  exact h.symbol (Nat.le_of_lt hlt) .metric

end IdsShifted

end Symbol

/-! ### Texts -/

namespace Text

open LayoutLine.Symbol (NameShifted tokens)

/-- The second text is the first one with all its symbols shifted. Outside of symbols no letter
stands, so that nothing else could be taken for one, and a symbol is not followed by what would make
its name longer. -/
inductive Shifted (n m : Nat) : List Char → List Char → Prop
  | nil : Shifted n m [] []
  | plain {c : Char} {cs ds : List Char} (hc : c.isAlpha = false) (h : Shifted n m cs ds) :
    Shifted n m (c :: cs) (c :: ds)
  | symbol {s t : Symbol} {c : Char} {cs ds : List Char} (hst : s.Shifted n m t)
    (hc : continuesName c = false) (h : Shifted n m cs ds) :
    Shifted n m (s.name.toList ++ c :: cs) (t.name.toList ++ c :: ds)

variable {n m : Nat} {a b cs ds : List Char}

/-- Parts of a text may be shifted one by one. -/
theorem Shifted.append (h : Shifted n m a b) (h' : Shifted n m cs ds) :
    Shifted n m (a ++ cs) (b ++ ds) := by
  induction h with
  | nil => exact h'
  | plain hc _ ih => exact .plain hc ih
  | symbol hst hc _ ih =>
    rw [List.append_assoc, List.append_assoc]
    exact .symbol hst hc ih

/-- Text without letters stays as it is. -/
theorem Shifted.of_plain {run : List Char} (h : ∀ c ∈ run, c.isAlpha = false) :
    Shifted n m run run := by
  induction run with
  | nil => exact .nil
  | cons c run ih =>
    exact .plain (h c List.mem_cons_self) (ih fun d hd => h d (List.mem_cons_of_mem c hd))

/-- Digits of a number that is no symbol's stay as they are. -/
theorem Shifted.toDigits (value : Nat) :
    Shifted n m (Nat.toDigits 10 value) (Nat.toDigits 10 value) :=
  .of_plain fun _ hc => Symbol.isAlpha_of_isDigit (Symbol.isDigit_of_mem_toDigits hc)

theorem plain_of_all {run : List Char} (h : run.all (fun c => !c.isAlpha) = true) :
    ∀ c ∈ run, c.isAlpha = false := by
  intro c hc
  have hplain := List.all_eq_true.mp h c hc
  rwa [Bool.not_eq_true'] at hplain

/-- A word that begins with something else than a letter is no token. -/
theorem tokens_word {word : List Char} (hne : word ≠ [])
    (hword : ∀ c ∈ word, continuesName c = true ∧ c.isAlpha = false) (rest : List Char)
    (hrest : ∀ c ∈ rest, continuesName c = true) : tokens (word ++ rest) = [] := by
  obtain ⟨c, word, rfl⟩ := List.exists_cons_of_ne_nil hne
  refine Symbol.tokens_word_of_not_isAlpha (hword c List.mem_cons_self).2 fun d hd => ?_
  exact (List.mem_append.mp hd).elim (fun hd => (hword d hd).1) (hrest d)

/-- A word without letters is no symbol. -/
theorem tokens_of_plain {word : List Char}
    (hword : ∀ c ∈ word, continuesName c = true ∧ c.isAlpha = false) : tokens word = [] := by
  by_cases hne : word = []
  · rw [hne, Symbol.tokens_nil]
  · simpa using tokens_word hne hword [] (by simp)

/-- The tokens of a text and of the shifted one are shifted one by one, also where both texts begin
in the middle of a word without letters. -/
theorem Shifted.tokens_append (h : Shifted n m cs ds) (word : List Char)
    (hword : ∀ c ∈ word, continuesName c = true ∧ c.isAlpha = false) :
    List.Forall₂ (NameShifted n m) (tokens (word ++ cs)) (tokens (word ++ ds)) := by
  induction h generalizing word with
  | nil =>
    rw [List.append_nil, tokens_of_plain hword]
    exact .nil
  | @plain c cs ds hc _ ih =>
    cases hname : continuesName c with
    | true =>
      -- The word goes on.
      have hlonger := ih (word ++ [c]) fun d hd => by
        rcases List.mem_append.mp hd with hd | hd
        · exact hword d hd
        · rw [List.mem_singleton.mp hd]
          exact ⟨hname, hc⟩
      rwa [List.append_assoc, List.append_assoc] at hlonger
    | false =>
      rw [Symbol.tokens_append_cons hname, Symbol.tokens_append_cons hname, tokens_of_plain hword]
      exact ih [] nofun
  | @symbol s t c cs ds hst hc _ ih =>
    have hrest := ih [] nofun
    rw [← List.append_assoc, ← List.append_assoc, Symbol.tokens_append_cons hc,
      Symbol.tokens_append_cons hc]
    refine List.rel_append ?_ hrest
    by_cases hne : word = []
    · rw [hne, List.nil_append, List.nil_append, Symbol.tokens_name, Symbol.tokens_name]
      exact .cons ⟨s, t, hst, rfl, rfl⟩ .nil
    · rw [tokens_word hne hword _ fun _ => Symbol.continuesName_of_mem_name,
        tokens_word hne hword _ fun _ => Symbol.continuesName_of_mem_name]
      exact .nil

/-- The tokens of a text and of the shifted one are shifted one by one. -/
theorem Shifted.tokens (h : Shifted n m cs ds) :
    List.Forall₂ (NameShifted n m) (tokens cs) (tokens ds) :=
  h.tokens_append [] nofun

end Text

/-- A relation is written without letters. -/
theorem Relation.isAlpha_glyph (relation : Relation) :
    ∀ c ∈ relation.glyph.toList, c.isAlpha = false :=
  Text.plain_of_all (by cases relation <;> decide)

/-- A link is written without letters. -/
theorem Link.isAlpha_glyph (link : Link) : ∀ c ∈ link.glyph.toList, c.isAlpha = false :=
  Text.plain_of_all (by cases link <;> decide)

/-! ### Tables -/

/-- The second entries are the first ones, in their order, under shifted names. -/
def EntriesShifted {α : Type} (n m : Nat) : List (String × α) → List (String × α) → Prop :=
  List.Forall₂ fun entry shifted =>
    Symbol.NameShifted n m entry.1 shifted.1 ∧ shifted.2 = entry.2

/-- The second table has the values of the first one, in their order, under shifted names. -/
def Table.Shifted {α : Type} (n m : Nat) (t u : Table α) : Prop :=
  EntriesShifted n m t.entries u.entries

section Tables

variable {α : Type} {n m : Nat} {name shifted : String}

/-- A value comes to stand in the same place under the shifted name. -/
theorem EntriesShifted.insertEntry {xs ys : List (String × α)} (h : EntriesShifted n m xs ys)
    (hname : Symbol.NameShifted n m name shifted) (value : α) :
    EntriesShifted n m (insertEntry name value xs) (insertEntry shifted value ys) := by
  induction h with
  | nil => exact .cons ⟨hname, rfl⟩ .nil
  | @cons x y xs ys hxy hrest ih =>
    rw [LayoutLine.insertEntry, LayoutLine.insertEntry]
    by_cases hx : x.1 = name
    · rw [if_pos hx, if_pos ((hxy.1.eq_iff hname).mp hx)]
      exact .cons ⟨hname, rfl⟩ hrest
    · rw [if_neg hx, if_neg (mt (hxy.1.eq_iff hname).mpr hx)]
      exact .cons hxy ih

namespace Table.Shifted

variable {t u t' u' : Table α}

theorem empty : Shifted n m (.empty : Table α) .empty := List.Forall₂.nil

/-- Tables stay shifted when shifted entries are inserted in turn. -/
theorem insertAll (h : t.Shifted n m u) {xs ys : List (String × α)}
    (hentries : EntriesShifted n m xs ys) : (t.insertAll xs).Shifted n m (u.insertAll ys) := by
  induction hentries generalizing t u with
  | nil => exact h
  | @cons x y xs ys hxy _ ih =>
    obtain ⟨name, value⟩ := x
    obtain ⟨name', value'⟩ := y
    obtain ⟨hname, rfl⟩ := hxy
    rw [insertAll_cons, insertAll_cons]
    exact ih (EntriesShifted.insertEntry h hname _)

/-- So they do when shifted tables are merged into them. -/
theorem merge (h : t.Shifted n m u) (h' : t'.Shifted n m u') :
    (t.merge t').Shifted n m (u.merge u') := h.insertAll h'

/-- Shifted entries make shifted tables. -/
theorem ofList {xs ys : List (String × α)} (h : EntriesShifted n m xs ys) :
    (Table.ofList xs).Shifted n m (Table.ofList ys) := empty.insertAll h

theorem singleton (h : Symbol.NameShifted n m name shifted) (value : α) :
    (Table.singleton name value).Shifted n m (Table.singleton shifted value) :=
  EntriesShifted.insertEntry empty h value

end Table.Shifted

end Tables

/-! ### Fragments -/

/-- The second fragment is the first one with shifted numbers. -/
structure Fragment.Shifted {V : Type} (n m : Nat) (f g : Fragment V) : Prop where
  /-- The symbols of the text are shifted. -/
  text : Text.Shifted n m f.text.toList g.text.toList
  /-- The same views are bound under the shifted symbols. -/
  views : f.views.Shifted n m g.views
  /-- The same lengths are bound under the shifted symbols. -/
  metrics : f.metrics.Shifted n m g.metrics
  /-- The options are the same. -/
  options : g.options = f.options

namespace Fragment.Shifted

open LayoutLine.Symbol (IdsShifted)

variable {V : Type} {n m : Nat} {f g f' g' : Fragment V} {id id' : SymbolId}

/-- Text without letters binds nothing and stays as it is. -/
theorem literal {text : String} (h : ∀ c ∈ text.toList, c.isAlpha = false) :
    (literal text : Fragment V).Shifted n m (.literal text) :=
  ⟨.of_plain h, .empty, .empty, rfl⟩

/-- A gap has no symbols, so it is shifted to itself. -/
theorem gap (points : Int) : (gap points : Fragment V).Shifted n m (.gap points) := by
  refine literal fun c hc => ?_
  rw [Row.toList_toString_int, List.mem_append] at hc
  rcases hc with hsign | hdigit
  · have hminus : c = '-' := by
      cases hneg : decide (points < 0) <;> simp_all [Line.Language.signText]
    rw [hminus]
    rfl
  · exact Symbol.isAlpha_of_isDigit (Symbol.isDigit_of_mem_toDigits hdigit)

/-- An edge has no symbols either. -/
theorem edge : (edge : Fragment V).Shifted n m .edge := literal (Text.plain_of_all (by decide))

/-- Fragments that are joined can be shifted before. -/
theorem join (h : f.Shifted n m g) {glyph : String}
    (hglyph : ∀ c ∈ glyph.toList, c.isAlpha = false) (h' : f'.Shifted n m g') :
    (f.join glyph f').Shifted n m (g.join glyph g') where
  text := by
    simp only [Fragment.join, String.toList_append]
    exact (h.text.append (.of_plain hglyph)).append h'.text
  views := h.views.merge h'.views
  metrics := h.metrics.merge h'.metrics
  options := by
    simp only [Fragment.join, h.options, h'.options]

/-- Options are put on shifted fragments alike. -/
theorem withOptions (h : f.Shifted n m g) (options : Options) :
    (f.withOptions options).Shifted n m (g.withOptions options) :=
  ⟨h.text, h.views, h.metrics, rfl⟩

/-- A view under shifted numbers is shifted. -/
theorem ofView (h : IdsShifted n m 1 id id') (view : V) :
    (ofView id view).Shifted n m (ofView id' view) where
  text := by
    simp only [Fragment.ofView, String.toList_append]
    exact .plain (c := '[') (by decide) (.symbol (c := ']') (h.first .view) (by decide) .nil)
  views := .singleton ⟨_, _, h.first .view, rfl, rfl⟩ view
  metrics := .empty
  options := rfl

/-- A length under shifted numbers is shifted. -/
theorem ofMetric (h : IdsShifted n m 1 id id') (metric : Metric) :
    (ofMetric id metric : Fragment V).Shifted n m (.ofMetric id' metric) where
  text := by
    simp only [Fragment.ofMetric, Priority.text, String.toList_append, List.append_assoc,
      Nat.toList_repr]
    exact .symbol (c := '@') (h.first .metric) (by decide) (.toDigits _)
  views := .empty
  metrics := .singleton ⟨_, _, h.first .metric, rfl, rfl⟩ metric.value
  options := rfl

/-- A condition is shifted with its symbol; the digits of its priority stay. -/
theorem clauseText {s t : Symbol} (h : s.Shifted n m t) (clause : LengthClause) :
    Text.Shifted n m (clauseText s clause).toList (Fragment.clauseText t clause).toList := by
  simp only [Fragment.clauseText, Priority.text, String.toList_append, List.append_assoc,
    Nat.toList_repr]
  refine (Text.Shifted.of_plain clause.relation.isAlpha_glyph).append ?_
  exact .symbol (c := '@') h (by decide) (.toDigits _)

/-- Commas stay between shifted texts. -/
theorem commaSeparated {texts texts' : List String}
    (h : List.Forall₂ (fun text text' => Text.Shifted n m text.toList text'.toList) texts texts') :
    Text.Shifted n m (commaSeparated texts).toList (Fragment.commaSeparated texts').toList := by
  induction h with
  | nil => exact .nil
  | cons hfirst hrest ih =>
    cases hrest with
    | nil => exact hfirst
    | cons =>
      simp only [Fragment.commaSeparated, String.toList_append, List.append_assoc] at ih ⊢
      exact hfirst.append (.plain (c := ',') (by decide) ih)

/-- A view with conditions under shifted numbers is shifted. -/
theorem ofLengths {clauses : List LengthClause} (h : IdsShifted n m clauses.length id id')
    (view : V) : (ofLengths id view clauses).Shifted n m (.ofLengths id' view clauses) where
  text := by
    simp only [Fragment.ofLengths, String.toList_append, List.append_assoc, String.reduceToList,
      List.cons_append, List.nil_append]
    refine .plain (c := '[') (by decide) (.symbol (c := '(') (h.first .view) (by decide) ?_)
    refine (commaSeparated ?_).append (.plain (c := ')') (by decide)
      (.plain (c := ']') (by decide) .nil))
    exact forall₂_zipWith (S := fun (a b : String) => Text.Shifted n m a.toList b.toList)
      h.clauseSymbols (fun _ _ clause hst => clauseText hst clause) clauses
  views := .singleton ⟨_, _, h.first .view, rfl, rfl⟩ view
  metrics := .ofList (forall₂_zipWith h.clauseSymbols
    (fun s t _ hst => ⟨⟨s, t, hst, rfl, rfl⟩, rfl⟩) clauses)
  options := rfl

/-- A view that is measured by another is shifted when both its numbers are. -/
theorem ofRelative (h : IdsShifted n m 2 id id') (view : V) (relation : Relation) (other : V)
    (priority : Priority) :
    (ofRelative id view relation other priority).Shifted n m
      (.ofRelative id' view relation other priority) where
  text := by
    simp only [Fragment.ofRelative, Priority.text, String.toList_append, List.append_assoc,
      Nat.toList_repr, String.reduceToList, List.cons_append, List.nil_append]
    refine .plain (c := '[') (by decide) (.symbol (c := '(') (h.first .view) (by decide) ?_)
    refine (Text.Shifted.of_plain relation.isAlpha_glyph).append ?_
    refine .symbol (c := '@') (h.symbol (by omega) .relative) (by decide) ?_
    exact (Text.Shifted.toDigits _).append (.plain (c := ')') (by decide)
      (.plain (c := ']') (by decide) .nil))
  views := .ofList (.cons ⟨⟨_, _, h.first .view, rfl, rfl⟩, rfl⟩
    (.cons ⟨⟨_, _, h.symbol (by omega) .relative, rfl, rfl⟩, rfl⟩ .nil))
  metrics := .empty
  options := rfl

end Fragment.Shifted

end LayoutLine
