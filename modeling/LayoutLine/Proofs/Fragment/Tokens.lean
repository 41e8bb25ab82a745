import LayoutLine.Proofs.Row.Text

/-!
# Symbols in text

A word of a text is a longest run of letters, digits and underscores. The words that are names of
symbols are the tokens of the text. Every other character separates words, so a text that is put
together around a bracket, a glyph or a comma has the tokens of its parts: the tokens of a fragment
are the names of the symbols it was made with, and a gap or an edge has none.
-/

namespace LayoutLine

/-- The words of a text in order: the runs of letters, digits and underscores that cannot be made
longer. -/
def Text.words (cs : List Char) : List (List Char) :=
  (cs.splitOnP fun c => !Line.Grammar.continuesName c).filter (· ≠ [])

namespace Symbol

/-- The words of a text that are names of symbols, in order and with repetitions. -/
def tokens (cs : List Char) : List String :=
  ((Text.words cs).map String.ofList).filter fun word => (parse? word).isSome

/-- The names of views among the tokens of a text. -/
def viewTokens (cs : List Char) : List String :=
  (tokens cs).filter fun word => (parse? word).any Symbol.isView

/-- The names of lengths among the tokens of a text. -/
def metricTokens (cs : List Char) : List String :=
  (tokens cs).filter fun word => (parse? word).any fun s => !s.isView

/-- The numbers of the symbols of a text, in order and with repetitions. -/
def tokenIds (cs : List Char) : List Nat :=
  (tokens cs).filterMap fun word => (parse? word).map (·.id.val)

end Symbol

/-! ### Words -/

namespace Text

open Line.Grammar (continuesName)

@[simp] theorem words_nil : words [] = [] := by
  simp [words, List.splitOnP_nil]

/-- A separator ends the words before it. -/
theorem words_append_cons {c : Char} (hc : continuesName c = false) (a b : List Char) :
    words (a ++ c :: b) = words a ++ words b := by
  have hsep : (!continuesName c) = true := by simp [hc]
  rw [words, List.splitOnP_append_cons a b hsep, List.filter_append]
  rfl

theorem separators_of_all {run : List Char} (h : run.all (fun c => !continuesName c) = true) :
    ∀ c ∈ run, continuesName c = false := by
  intro c hc
  have hsep := List.all_eq_true.mp h c hc
  rwa [Bool.not_eq_true'] at hsep

/-- A run of word characters is one word. -/
theorem words_run {run : List Char} (hne : run ≠ []) (h : ∀ c ∈ run, continuesName c = true) :
    words run = [run] := by
  have hrun : ∀ c ∈ run, (!continuesName c) = false := fun c hc => by simp [h c hc]
  rw [words, List.splitOnP_eq_singleton hrun]
  simp [hne]

end Text

namespace Symbol

open Line.Grammar (continuesName)

/-! ### Names and digits as words -/

/-- What does not begin with a letter names nothing, as every stem begins with one. -/
theorem parse?_cons_of_not_isAlpha {c : Char} (hc : c.isAlpha = false) (cs : List Char) :
    parse? (String.ofList (c :: cs)) = none := by
  have hv : 'v' ≠ c := by
    rintro rfl
    exact absurd hc (by decide)
  have hm : 'm' ≠ c := by
    rintro rfl
    exact absurd hc (by decide)
  have hstem : ∀ kind, afterStem? kind (c :: cs) = none := by
    intro kind
    cases kind with
    | view => simp [afterStem?, Kind.stem, hv]
    | relative => simp [afterStem?, Kind.stem, hv]
    | metric => simp [afterStem?, Kind.stem, hm]
  simp [parse?, String.toList_ofList, hstem]

theorem isAlpha_of_isDigit {c : Char} (h : c.isDigit) : c.isAlpha = false := by
  rw [Bool.eq_false_iff]
  intro hletter
  have hstarts : Line.Grammar.startsName c = true := by
    simp [Line.Grammar.startsName, hletter]
  exact Line.Grammar.not_isDigit_of_isLetter (Line.Grammar.startsName_iff.mp hstarts)
    (Line.Grammar.isDigit_iff.mp h)

/-- A digit belongs to a word. -/
theorem continuesName_of_isDigit {c : Char} (h : c.isDigit) : continuesName c = true := by
  simp [continuesName, Char.isAlphanum, h]

/-- The name of a symbol is one word. -/
theorem continuesName_of_mem_name {s : Symbol} {c : Char} (h : c ∈ s.name.toList) :
    continuesName c = true := by
  have hstem : s.kind.stem.toList.all continuesName = true := by cases s.kind <;> decide
  rw [toList_name, List.mem_append] at h
  exact h.elim (List.all_eq_true.mp hstem c) fun hc =>
    continuesName_of_isDigit (isDigit_of_mem_toDigits hc)

/-! ### The tokens of a text -/

@[simp] theorem tokens_nil : tokens [] = [] := by
  simp [tokens]

/-- A separator ends the tokens before it. -/
theorem tokens_append_cons {c : Char} (hc : continuesName c = false) (a b : List Char) :
    tokens (a ++ c :: b) = tokens a ++ tokens b := by
  rw [tokens, Text.words_append_cons hc, List.map_append, List.filter_append]
  rfl

/-- A character between words brings no symbol. -/
theorem tokens_cons {c : Char} (hc : continuesName c = false) (b : List Char) :
    tokens (c :: b) = tokens b := by
  have h := tokens_append_cons hc [] b
  rwa [tokens_nil, List.nil_append, List.nil_append] at h

/-- Separators in front of a text add no token. -/
theorem tokens_separators {run : List Char} (h : ∀ c ∈ run, continuesName c = false)
    (b : List Char) : tokens (run ++ b) = tokens b := by
  induction run with
  | nil => rfl
  | cons c run ih =>
    rw [List.cons_append, tokens_cons (h c List.mem_cons_self)]
    exact ih fun d hd => h d (List.mem_cons_of_mem _ hd)

/-- The name of a symbol is one word, and that word is the symbol's. -/
@[simp] theorem tokens_name (s : Symbol) : tokens s.name.toList = [s.name] := by
  have hne : s.name.toList ≠ [] := by
    rw [toList_name]
    simp [Nat.toDigits_ne_nil]
  rw [tokens, Text.words_run hne fun c hc => continuesName_of_mem_name hc]
  simp

/-- A word that does not begin with a letter is no token. -/
theorem tokens_word_of_not_isAlpha {c : Char} {cs : List Char} (hc : c.isAlpha = false)
    (hword : ∀ d ∈ c :: cs, continuesName d = true) : tokens (c :: cs) = [] := by
  have hnone := parse?_cons_of_not_isAlpha hc cs
  rw [tokens, Text.words_run (List.cons_ne_nil c cs) hword, List.map_singleton,
    List.filter_cons_of_neg (by rw [hnone]; exact nofun), List.filter_nil]

/-- A number alone is not the name of a symbol. -/
@[simp] theorem tokens_toDigits (n : Nat) : tokens (Nat.toDigits 10 n) = [] := by
  have hdigit {c : Char} (hc : c ∈ Nat.toDigits 10 n) : c.isDigit := isDigit_of_mem_toDigits hc
  cases hdigits : Nat.toDigits 10 n with
  | nil => exact tokens_nil
  | cons c cs =>
    rw [hdigits] at hdigit
    exact tokens_word_of_not_isAlpha (isAlpha_of_isDigit (hdigit List.mem_cons_self))
      fun d hd => continuesName_of_isDigit (hdigit hd)

/-- A name with a separator behind it is the first token. -/
theorem tokens_name_cons (s : Symbol) {c : Char} (hc : continuesName c = false) (b : List Char) :
    tokens (s.name.toList ++ c :: b) = s.name :: tokens b := by
  rw [tokens_append_cons hc, tokens_name]
  rfl

/-- Digits with a separator behind them add no token. -/
theorem tokens_toDigits_cons (n : Nat) {c : Char} (hc : continuesName c = false) (b : List Char) :
    tokens (Nat.toDigits 10 n ++ c :: b) = tokens b := by
  rw [tokens_append_cons hc, tokens_toDigits]
  rfl

/-- A word is one for views when a symbol for views has it as its name. -/
theorem mem_viewTokens {cs : List Char} {name : String} :
    name ∈ viewTokens cs ↔ name ∈ tokens cs ∧ ∃ s, parse? name = some s ∧ s.isView = true := by
  rw [viewTokens, List.mem_filter, Option.any_eq_true]

/-- A word is one for lengths when a symbol for lengths has it as its name. -/
theorem mem_metricTokens {cs : List Char} {name : String} :
    name ∈ metricTokens cs ↔
      name ∈ tokens cs ∧ ∃ s, parse? name = some s ∧ s.isView = false := by
  simp only [metricTokens, List.mem_filter, Option.any_eq_true, Bool.not_eq_true']

/-- Every token is the name of a view or of a length. -/
theorem mem_tokens_iff {cs : List Char} {name : String} :
    name ∈ tokens cs ↔ name ∈ viewTokens cs ∨ name ∈ metricTokens cs := by
  rw [mem_viewTokens, mem_metricTokens]
  constructor
  · intro h
    obtain ⟨s, hs⟩ := Option.isSome_iff_exists.mp (List.mem_filter.mp h).2
    cases hview : s.isView with
    | true => exact .inl ⟨h, s, hs, hview⟩
    | false => exact .inr ⟨h, s, hs, hview⟩
  · rintro (h | h)
    · exact h.1
    · exact h.1

/-- No name is that of a view and of a length. -/
theorem not_mem_metricTokens {cs cs' : List Char} {name : String} (h : name ∈ viewTokens cs) :
    name ∉ metricTokens cs' := by
  intro h'
  obtain ⟨-, s, hs, hview⟩ := mem_viewTokens.mp h
  obtain ⟨-, s', hs', hmetric⟩ := mem_metricTokens.mp h'
  obtain rfl := Option.some.inj (hs.symm.trans hs')
  exact absurd (hview.symm.trans hmetric) (by decide)

/-- The number of a token's symbol is among the numbers of the text. -/
theorem exists_id_of_mem_tokens {cs : List Char} {name : String} (h : name ∈ tokens cs) :
    ∃ s, parse? name = some s ∧ s.id.val ∈ tokenIds cs := by
  obtain ⟨s, hs⟩ := Option.isSome_iff_exists.mp (List.mem_filter.mp h).2
  refine ⟨s, hs, List.mem_filterMap.mpr ⟨name, h, ?_⟩⟩
  rw [hs]
  rfl

/-! Where the tokens of a text are the names of known symbols, so are those of either kind. -/

/-- Where the symbols of a text are known, so are those for views. -/
theorem viewTokens_eq {cs : List Char} {symbols : List Symbol}
    (h : tokens cs = symbols.map name) :
    viewTokens cs = (symbols.filter isView).map name := by
  rw [viewTokens, h, List.filter_map]
  simp [Function.comp_def]

/-- Where the symbols of a text are known, so are those for lengths. -/
theorem metricTokens_eq {cs : List Char} {symbols : List Symbol}
    (h : tokens cs = symbols.map name) :
    metricTokens cs = (symbols.filter fun s => !s.isView).map name := by
  rw [metricTokens, h, List.filter_map]
  simp [Function.comp_def]

/-- Where the symbols of a text are known, so are their numbers. -/
theorem tokenIds_eq {cs : List Char} {symbols : List Symbol} (h : tokens cs = symbols.map name) :
    tokenIds cs = symbols.map (·.id.val) := by
  rw [tokenIds, h, List.filterMap_map, ← List.filterMap_eq_map]
  refine congrArg (List.filterMap · symbols) (funext fun s => ?_)
  rw [Function.comp_apply, parse?_name]
  rfl

end Symbol

/-! ### The tokens of a fragment -/

namespace Fragment

open LayoutLine.Symbol (tokens tokens_cons tokens_separators tokens_append_cons tokens_name_cons
  tokens_toDigits_cons)

variable {V : Type}

theorem separators_glyph (relation : Relation) :
    ∀ c ∈ relation.glyph.toList, Line.Grammar.continuesName c = false :=
  Text.separators_of_all (by cases relation <;> decide)

/-- A link separates the tokens on its two sides. -/
theorem tokens_join (f g : Fragment V) (link : Link) :
    tokens (f.join link.glyph g).text.toList = tokens f.text.toList ++ tokens g.text.toList := by
  have hglyph : ∃ run, link.glyph.toList = '-' :: run ∧
      ∀ c ∈ run, Line.Grammar.continuesName c = false := by
    cases link with
    | standard => exact ⟨[], rfl, Text.separators_of_all (by decide)⟩
    | atLeast => exact ⟨['>', '='], rfl, Text.separators_of_all (by decide)⟩
    | atMost => exact ⟨['<', '='], rfl, Text.separators_of_all (by decide)⟩
  obtain ⟨run, hglyph, hrun⟩ := hglyph
  rw [join, String.toList_append, String.toList_append, hglyph, List.append_assoc, List.cons_append,
    tokens_append_cons (by decide), tokens_separators hrun]

/-- An edge has no symbol. -/
theorem tokens_edge : tokens (edge : Fragment V).text.toList = [] := by
  simp [edge, literal, tokens_cons (c := '|') (by decide)]

/-- A gap of whole points has no symbol. -/
theorem tokens_gap (points : Int) : tokens (gap points : Fragment V).text.toList = [] := by
  have hsign : ∀ c ∈ Line.Language.signText (decide (points < 0)),
      Line.Grammar.continuesName c = false :=
    Text.separators_of_all (by cases decide (points < 0) <;> decide)
  rw [gap, literal, Row.toList_toString_int, tokens_separators hsign, Symbol.tokens_toDigits]

/-- A view has its own symbol. -/
theorem tokens_ofView (id : SymbolId) (view : V) :
    tokens (ofView id view).text.toList = [⟨.view, id⟩].map Symbol.name := by
  simp [ofView, tokens_cons (c := '[') (by decide), tokens_name_cons (c := ']') _ (by decide)]

/-- A length has its own symbol. -/
theorem tokens_ofMetric (id : SymbolId) (metric : Metric) :
    tokens (ofMetric id metric : Fragment V).text.toList = [⟨.metric, id⟩].map Symbol.name := by
  simp [ofMetric, Priority.text, tokens_name_cons (c := '@') _ (by decide)]

/-- A condition has the symbol of its length; its priority is none. -/
theorem tokens_clauseText (symbol : Symbol) (clause : LengthClause) :
    tokens (clauseText symbol clause).toList = [symbol.name] := by
  simp [clauseText, Priority.text, tokens_separators (separators_glyph _),
    tokens_name_cons (c := '@') _ (by decide)]

/-- Conditions on a length have the tokens of the symbols they compare with. -/
theorem tokens_commaSeparated (ps : List (Symbol × LengthClause)) :
    tokens (commaSeparated (ps.map fun p => clauseText p.1 p.2)).toList =
      ps.map fun p => p.1.name := by
  induction ps with
  | nil => exact Symbol.tokens_nil
  | cons p ps ih =>
    cases ps with
    | nil => exact tokens_clauseText p.1 p.2
    | cons q ps =>
      have hsplit : commaSeparated ((p :: q :: ps).map fun p => clauseText p.1 p.2) =
          clauseText p.1 p.2 ++ "," ++
            commaSeparated ((q :: ps).map fun p => clauseText p.1 p.2) := rfl
      have hcomma : ",".toList = [','] := rfl
      rw [hsplit, String.toList_append, String.toList_append, hcomma, List.append_assoc,
        List.singleton_append, tokens_append_cons (by decide), tokens_clauseText, ih]
      rfl

theorem length_clauseSymbols (first : SymbolId) (count : Nat) :
    (clauseSymbols first count).length = count := by
  rw [clauseSymbols, List.length_map, List.length_range]

/-- The conditions of a view are paired with all of their symbols. -/
theorem map_name_zip_clauseSymbols (first : SymbolId) (clauses : List LengthClause) :
    (((clauseSymbols first clauses.length).zip clauses).map fun p => p.1.name) =
      (clauseSymbols first clauses.length).map Symbol.name := by
  calc
    _ = (((clauseSymbols first clauses.length).zip clauses).map Prod.fst).map Symbol.name :=
      List.map_map.symm
    _ = (clauseSymbols first clauses.length).map Symbol.name := by
      rw [List.map_fst_zip (Nat.le_of_eq (length_clauseSymbols first clauses.length))]

/-- A view with conditions has its own token, and then one for each condition. -/
theorem tokens_ofLengths (first : SymbolId) (view : V) (clauses : List LengthClause) :
    tokens (ofLengths first view clauses).text.toList =
      (⟨.view, first⟩ :: clauseSymbols first clauses.length).map Symbol.name := by
  have htext : List.zipWith clauseText (clauseSymbols first clauses.length) clauses =
      ((clauseSymbols first clauses.length).zip clauses).map fun p => clauseText p.1 p.2 := by
    rw [List.map_zip_eq_zipWith]
    rfl
  have hclose : ∀ text : List Char, tokens (text ++ [')', ']']) = tokens text := fun text => by
    rw [tokens_append_cons (by decide), tokens_cons (by decide), Symbol.tokens_nil,
      List.append_nil]
  rw [List.map_cons, ← map_name_zip_clauseSymbols, ← tokens_commaSeparated, ← htext]
  simp [ofLengths, tokens_cons (c := '[') (by decide), tokens_name_cons (c := '(') _ (by decide),
    hclose]

/-- A view measured by another has its own token and that of the other. -/
theorem tokens_ofRelative (first : SymbolId) (view : V) (relation : Relation) (other : V)
    (priority : Priority) :
    tokens (ofRelative first view relation other priority).text.toList =
      [⟨.view, first⟩, ⟨.relative, first.advance 1⟩].map Symbol.name := by
  simp [ofRelative, Priority.text, tokens_cons (c := '[') (by decide),
    tokens_name_cons (c := '(') _ (by decide), tokens_name_cons (c := '@') _ (by decide),
    tokens_separators (separators_glyph _), tokens_toDigits_cons (c := ')') _ (by decide),
    tokens_cons (c := ']') (by decide)]

end Fragment
end LayoutLine
