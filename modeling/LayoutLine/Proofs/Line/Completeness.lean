import LayoutLine.Line.Parse
import LayoutLine.Proofs.Line.Soundness

/-!
# The rules read what is in the language

A text of the language, with anything after it that cannot belong to it, is read as the value it
writes, and what comes after is left. Every choice of the grammar is settled by the next one or
two characters, so taking the first alternative that fits never loses a text: a clause ends at a
dash, a comma, white space or a closing parenthesis, and what follows a spacing is a bracket or an
edge of the container, with neither of which a clause begins.
-/

namespace LayoutLine.Line.Grammar

open Line.Language
open Text (digits? digitRun)

/-! ### Classes of characters -/

/-- Neither a name nor a number goes on here. -/
def TargetEnd (rest : List Char) : Prop :=
  ∀ c ∈ rest.head?, ¬IsLetter c ∧ ¬IsDigit c ∧ c ≠ '.'

/-- Neither a name nor a number goes on here, and no priority begins. -/
def ClauseEnd (rest : List Char) : Prop := TargetEnd rest ∧ rest.head? ≠ some '@'

/-- A view or an edge of the container begins here. -/
def ItemStart (rest : List Char) : Prop := ∃ c tail, rest = c :: tail ∧ (c = '[' ∨ c = '|')

instance (c : Char) : Decidable (IsLetter c) := decidable_of_iff _ startsName_iff

instance (c : Char) : Decidable (IsDigit c) := decidable_of_iff _ isDigit_iff

instance (c : Char) : Decidable (IsSpace c) := decidable_of_iff _ isWhitespace_iff

/-- Digits are a text that is not empty and consists of decimal digits. -/
theorem digits_iff {text : List Char} :
    (text ≠ [] ∧ text.all Char.isDigit = true) ↔ Digits text := by
  simp only [Digits, List.all_eq_true, isDigit_iff]

instance (text : List Char) : Decidable (Digits text) := decidable_of_iff _ digits_iff

/-- A natural is written in digits. -/
theorem digits_toDigits (n : Nat) : Digits (Nat.toDigits 10 n) :=
  ⟨Nat.toDigits_ne_nil, fun _ hc =>
    isDigit_iff.mp (Nat.isDigit_of_mem_toDigits (by decide) (by decide) hc)⟩

/-- No letter is a digit. -/
theorem not_isDigit_of_isLetter {c : Char} (h : IsLetter c) : ¬IsDigit c := by
  intro hd
  simp only [IsLetter, IsDigit, Char.le_def, UInt32.le_iff_toNat_le] at h hd
  have h9 : ('9' : Char).val.toNat = 57 := rfl
  have hA : ('A' : Char).val.toNat = 65 := rfl
  have ha : ('a' : Char).val.toNat = 97 := rfl
  rcases h with h | h | rfl
  · omega
  · omega
  · exact absurd hd (by decide)

/-- A run of a class of characters, followed by something outside the class, is split off. -/
theorem span_append (p : Char → Bool) (run rest : List Char) (hrun : ∀ c ∈ run, p c = true)
    (hrest : ∀ c ∈ rest.head?, p c = false) :
    (run ++ rest).takeWhile p = run ∧ (run ++ rest).dropWhile p = rest := by
  rw [List.takeWhile_append_of_pos hrun, List.dropWhile_append_of_pos hrun]
  cases rest with
  | nil => simp
  | cons c rest =>
    have hc := hrest c rfl
    simp [hc]

/-! ### Names and numbers -/

/-- A run of digits is taken as a whole where no digit follows it. -/
theorem digits?_complete {run rest : List Char} (hrun : Digits run)
    (hrest : ∀ c ∈ rest.head?, ¬IsDigit c) : digits? (run ++ rest) = some (run, rest) := by
  have hsplit : digitRun (run ++ rest) = (run, rest) :=
    Text.digitRun_of_append (fun c hc => isDigit_iff.mpr (hrun.2 c hc)) fun c hc =>
      Bool.eq_false_iff.mpr fun h => hrest c hc (isDigit_iff.mp h)
  rw [digits?, hsplit]
  exact if_neg hrun.1

/-- No digits stand where the text does not begin with one. -/
theorem digits?_eq_none {cs : List Char} (h : ∀ c ∈ cs.head?, ¬IsDigit c) : digits? cs = none := by
  have hsplit : digitRun ([] ++ cs) = ([], cs) :=
    Text.digitRun_of_append (by simp) fun c hc =>
      Bool.eq_false_iff.mpr fun hd => h c hc (isDigit_iff.mp hd)
  rw [List.nil_append] at hsplit
  rw [digits?, hsplit]
  rfl

/-- A name is taken as a whole where neither a letter nor a digit follows it. -/
theorem name?_complete {name : String} {text rest : List Char} (h : NameText name text)
    (hrest : ∀ c ∈ rest.head?, ¬IsLetter c ∧ ¬IsDigit c) :
    name? (text ++ rest) = some (name, rest) := by
  cases h with
  | @intro c tail head tailChars =>
    have hsplit := span_append continuesName tail rest
      (fun d hd => continuesName_iff.mpr (tailChars d hd)) fun d hd =>
        Bool.eq_false_iff.mpr fun hc => (continuesName_iff.mp hc).elim (hrest d hd).1 (hrest d hd).2
    rw [List.cons_append, name?, if_pos (startsName_iff.mpr head), hsplit.1, hsplit.2]

/-- Digits are read as a whole number where neither a digit nor a point follows them. -/
theorem unsigned?_whole {negative : Bool} {digits rest : List Char} (hdigits : Digits digits)
    (hrest : ∀ c ∈ rest.head?, ¬IsDigit c ∧ c ≠ '.') :
    unsigned? negative (digits ++ rest) = some (.ofDigits negative digits [], rest) := by
  rw [unsigned?, digits?_complete hdigits fun c hc => (hrest c hc).1]
  cases rest with
  | nil => rfl
  | cons c rest =>
    have hc : c ≠ '.' := (hrest c rfl).2
    simp only [Option.map_some]
    split
    · rename_i heq
      exact absurd (List.cons.inj heq).1 hc
    · rfl

/-- Digits, a point and digits are read as one number where no digit follows them. -/
theorem unsigned?_decimal {negative : Bool} {digits fraction rest : List Char}
    (hdigits : Digits digits) (hfraction : Digits fraction)
    (hrest : ∀ c ∈ rest.head?, ¬IsDigit c) :
    unsigned? negative (digits ++ '.' :: (fraction ++ rest)) =
      some (.ofDigits negative digits fraction, rest) := by
  have hpoint : ∀ c ∈ ('.' :: (fraction ++ rest)).head?, ¬IsDigit c := by
    intro c hc
    obtain rfl := Option.some.inj hc
    decide
  rw [unsigned?, digits?_complete hdigits hpoint]
  simp only [Option.map_some, digits?_complete hfraction hrest]

/-- A number without a minus sign is read as it stands. -/
theorem number?_of_digits {digits rest : List Char} (hdigits : Digits digits) :
    number? (digits ++ rest) = unsigned? false (digits ++ rest) := by
  cases digits with
  | nil => exact absurd rfl hdigits.1
  | cons d digits =>
    have hd : d ≠ '-' := by
      rintro rfl
      exact absurd (hdigits.2 '-' List.mem_cons_self) (by decide)
    unfold number?
    split
    · rename_i heq
      exact absurd (List.cons.inj heq).1 hd
    · rfl

/-- The text of a number is read as that number where it cannot be read on. -/
theorem number?_complete {value : Number} {text rest : List Char} (h : NumberText value text)
    (hrest : ∀ c ∈ rest.head?, ¬IsDigit c ∧ c ≠ '.') :
    number? (text ++ rest) = some (value, rest) := by
  have hdigit : ∀ c ∈ rest.head?, ¬IsDigit c := fun c hc => (hrest c hc).1
  cases h with
  | @whole negative digits hdigits =>
    cases negative with
    | false => exact (number?_of_digits hdigits).trans (unsigned?_whole hdigits hrest)
    | true => exact unsigned?_whole hdigits hrest
  | @decimal negative digits fraction hdigits hfraction =>
    have hread (negative : Bool) : unsigned? negative (digits ++ '.' :: (fraction ++ rest)) =
        some (.ofDigits negative digits fraction, rest) :=
      unsigned?_decimal hdigits hfraction hdigit
    cases negative with
    | false =>
      have htext : signText false ++ digits ++ '.' :: fraction ++ rest =
          digits ++ '.' :: (fraction ++ rest) := by
        simp [signText]
      rw [htext, number?_of_digits hdigits]
      exact hread false
    | true =>
      have htext : signText true ++ digits ++ '.' :: fraction ++ rest =
          '-' :: (digits ++ '.' :: (fraction ++ rest)) := by
        simp [signText]
      rw [htext]
      exact hread true

/-- No number begins with a letter, so a name is not taken for one. -/
theorem number?_eq_none {c : Char} {cs : List Char} (hc : IsLetter c) :
    number? (c :: cs) = none := by
  have hminus : c ≠ '-' := by
    rintro rfl
    exact absurd hc (by decide)
  have hdigits : digits? (c :: cs) = none := digits?_eq_none fun d hd => by
    obtain rfl := Option.some.inj hd
    exact not_isDigit_of_isLetter hc
  unfold number?
  split
  · rename_i heq
    exact absurd (List.cons.inj heq).1 hminus
  · rw [unsigned?, hdigits]
    rfl

/-! ### Clauses -/

/-- A target begins with a letter, a digit or a minus sign. -/
theorem targetText_head {target : Target} {text : List Char} (h : TargetText target text) :
    ∃ c tail, text = c :: tail ∧ (IsLetter c ∨ IsDigit c ∨ c = '-') := by
  have digits {digits : List Char} (negative : Bool) (hdigits : Digits digits) (rest : List Char) :
      ∃ c tail, signText negative ++ digits ++ rest = c :: tail ∧
        (IsLetter c ∨ IsDigit c ∨ c = '-') := by
    cases negative with
    | true => exact ⟨'-', digits ++ rest, rfl, .inr (.inr rfl)⟩
    | false =>
      cases digits with
      | nil => exact absurd rfl hdigits.1
      | cons d digits =>
        exact ⟨d, digits ++ rest, rfl, .inr (.inl (hdigits.2 d List.mem_cons_self))⟩
  cases h with
  | number h =>
    cases h with
    | @whole negative _ hdigits =>
      have hhead := digits negative hdigits []
      rwa [List.append_nil] at hhead
    | @decimal negative _ _ hdigits _ => exact digits negative hdigits _
  | name h =>
    cases h with
    | intro head _ => exact ⟨_, _, rfl, .inl head⟩

/-- A number or a name is read where it cannot be read on. -/
theorem target?_complete {target : Target} {text rest : List Char} (h : TargetText target text)
    (hrest : TargetEnd rest) : target? (text ++ rest) = some (target, rest) := by
  cases h with
  | number h =>
    have hread := number?_complete h fun c hc => (hrest c hc).2
    rw [target?, hread]
  | name h =>
    have hread := name?_complete h fun c hc => ⟨(hrest c hc).1, (hrest c hc).2.1⟩
    have hnumber : number? (text ++ rest) = none := by
      cases h with
      | intro head _ => exact number?_eq_none head
    rw [target?, hnumber, hread]
    rfl

/-- Where no relation is written, none is read, for a target begins with no relation. -/
theorem relation_complete {r : Relation} {text rest : List Char} (h : RelationText r text)
    (hrest : ∃ c tail, rest = c :: tail ∧ (IsLetter c ∨ IsDigit c ∨ c = '-')) :
    relation (text ++ rest) = (r, rest) := by
  cases h with
  | equal => rfl
  | atLeast => rfl
  | atMost => rfl
  | unwritten =>
    obtain ⟨c, tail, rfl, hc⟩ := hrest
    have hne (d : Char) (hd : ¬(IsLetter d ∨ IsDigit d ∨ d = '-')) : c ≠ d := by
      rintro rfl
      exact hd hc
    rw [List.nil_append]
    unfold relation
    split
    · rename_i heq
      exact absurd (List.cons.inj heq).1 (hne _ (by decide))
    · rename_i heq
      exact absurd (List.cons.inj heq).1 (hne _ (by decide))
    · rename_i heq
      exact absurd (List.cons.inj heq).1 (hne _ (by decide))
    · rfl

/-- A priority is read as written, and none where none is written and no mark follows. -/
theorem priority_complete {value : Option Nat} {text rest : List Char}
    (h : PriorityText value text) (hrest : ClauseEnd rest) :
    priority (text ++ rest) = (value, rest) := by
  cases h with
  | unwritten =>
    rw [List.nil_append]
    unfold priority
    split
    · exact absurd rfl hrest.2
    · rfl
  | @written digits hdigits hvalue =>
    have hread := digits?_complete hdigits fun c hc => (hrest.1 c hc).2.1
    simp only [List.cons_append, priority, hread]
    rw [if_pos hvalue]

/-- A priority that is written begins with its mark, so no target goes on there. -/
theorem targetEnd_of_priorityText {value : Option Nat} {text rest : List Char}
    (h : PriorityText value text) (hrest : TargetEnd rest) : TargetEnd (text ++ rest) := by
  cases h with
  | unwritten => exact hrest
  | written _ _ =>
    intro c hc
    obtain rfl := Option.some.inj hc
    decide

/-- A clause is read as written where it cannot be read on. -/
theorem clause?_complete {clause : Clause} {text rest : List Char} (h : ClauseText clause text)
    (hrest : ClauseEnd rest) : clause? (text ++ rest) = some (clause, rest) := by
  cases h with
  | @intro r target value a b c hrelation htarget hpriority =>
    have hvalue := priority_complete hpriority hrest
    have hread := target?_complete htarget (targetEnd_of_priorityText hpriority hrest.1)
    have hhead : ∃ d tail, b ++ (c ++ rest) = d :: tail ∧ (IsLetter d ∨ IsDigit d ∨ d = '-') := by
      obtain ⟨d, tail, rfl, hd⟩ := targetText_head htarget
      exact ⟨d, tail ++ (c ++ rest), rfl, hd⟩
    have hrel := relation_complete hrelation hhead
    rw [List.append_assoc, List.append_assoc, clause?, hrel]
    simp only [hread, hvalue, Option.map_some]

/-- A clause begins with none of the characters that end one or that begin a list, a view or an
edge of the container. -/
theorem clauseText_head {clause : Clause} {text : List Char} (h : ClauseText clause text) :
    ∃ c tail, text = c :: tail ∧ ¬IsSpace c ∧ c ≠ '(' ∧ c ≠ '[' ∧ c ≠ '|' := by
  cases h with
  | @intro r target value a b c hrelation htarget hpriority =>
    have literal (d : Char) (hd : ¬IsSpace d ∧ d ≠ '(' ∧ d ≠ '[' ∧ d ≠ '|') (tail : List Char) :
        ∃ e tail', d :: tail = e :: tail' ∧ ¬IsSpace e ∧ e ≠ '(' ∧ e ≠ '[' ∧ e ≠ '|' :=
      ⟨d, tail, rfl, hd⟩
    cases hrelation with
    | equal => exact literal '=' (by decide) _
    | atLeast => exact literal '>' (by decide) _
    | atMost => exact literal '<' (by decide) _
    | unwritten =>
      obtain ⟨d, tail, rfl, hd⟩ := targetText_head htarget
      have hne (e : Char) (he : ¬(IsLetter e ∨ IsDigit e ∨ e = '-')) : d ≠ e := by
        rintro rfl
        exact he hd
      refine ⟨d, tail ++ c, rfl, ?_, hne _ (by decide), hne _ (by decide), hne _ (by decide)⟩
      rintro (rfl | rfl | rfl | rfl) <;> exact absurd hd (by decide)

/-! ### Lists of clauses -/

theorem clauseEnd_cons {c : Char} (hc : ¬IsLetter c ∧ ¬IsDigit c ∧ c ≠ '.' ∧ c ≠ '@')
    (rest : List Char) : ClauseEnd (c :: rest) := by
  refine ⟨?_, fun h => hc.2.2.2 (Option.some.inj h)⟩
  intro d hd
  obtain rfl := Option.some.inj hd
  exact ⟨hc.1, hc.2.1, hc.2.2.1⟩

/-- A comma is passed over with all white space around it. -/
theorem comma?_complete {before after rest : List Char} (hbefore : Spaces before)
    (hafter : Spaces after) (hrest : ∀ c ∈ rest.head?, ¬IsSpace c) :
    comma? (before ++ ',' :: (after ++ rest)) = some rest := by
  have hfirst := span_append Char.isWhitespace before (',' :: (after ++ rest))
    (fun c hc => isWhitespace_iff.mpr (hbefore c hc)) fun c hc => by
      obtain rfl := Option.some.inj hc
      decide
  have hsecond := span_append Char.isWhitespace after rest
    (fun c hc => isWhitespace_iff.mpr (hafter c hc)) fun c hc =>
      Bool.eq_false_iff.mpr fun h => hrest c hc (isWhitespace_iff.mp h)
  rw [comma?, hfirst.2]
  exact congrArg some hsecond.2

/-- What follows a clause of a list is white space, a comma or the closing parenthesis. -/
theorem clauseEnd_of_moreClausesText {clauses : List Clause} {text : List Char}
    (h : MoreClausesText clauses text) (rest : List Char) : ClauseEnd (text ++ ')' :: rest) := by
  cases h with
  | nil => exact clauseEnd_cons (by decide) rest
  | @cons clause clauses a b c d before after hclause hmore =>
    cases a with
    | nil => exact clauseEnd_cons (by decide) _
    | cons e a =>
      have he : IsSpace e := before e List.mem_cons_self
      refine clauseEnd_cons ?_ _
      rcases he with rfl | rfl | rfl | rfl <;> decide

/-- Further clauses are read up to the closing parenthesis. The induction is on how they are
written. -/
theorem moreClauses_complete {clauses : List Clause} {text rest : List Char}
    (h : MoreClausesText clauses text) :
    moreClauses (text ++ ')' :: rest) = (clauses, ')' :: rest) := by
  induction h with
  | nil =>
    have hnone : nextClause? (')' :: rest) = none := rfl
    rw [List.nil_append, moreClauses]
    split
    · rfl
    · rename_i heq
      exact absurd (hnone.symm.trans heq) (by simp)
  | @cons clause clauses a b c d before after hclause hmore ih =>
    have hspace : ∀ e ∈ (c ++ (d ++ ')' :: rest)).head?, ¬IsSpace e := by
      obtain ⟨e, tail, rfl, he⟩ := clauseText_head hclause
      intro e' he'
      obtain rfl := Option.some.inj he'
      exact he.1
    have hnext : nextClause? (a ++ ',' :: (b ++ (c ++ (d ++ ')' :: rest)))) =
        some (clause, d ++ ')' :: rest) := by
      rw [nextClause?, comma?_complete before after hspace]
      exact clause?_complete hclause (clauseEnd_of_moreClausesText hmore rest)
    have htext : a ++ ',' :: b ++ c ++ d ++ ')' :: rest =
        a ++ ',' :: (b ++ (c ++ (d ++ ')' :: rest))) := by
      simp only [List.append_assoc, List.cons_append]
    rw [htext, moreClauses]
    split
    · rename_i heq
      exact absurd (hnext.symm.trans heq) (by simp)
    · rename_i next left heq
      obtain ⟨rfl, rfl⟩ := Prod.mk.inj (Option.some.inj (hnext.symm.trans heq))
      rw [ih]

/-- A list of clauses in parentheses is read, whatever follows it. -/
theorem clauses?_complete {clauses : List Clause} {text rest : List Char}
    (h : ClausesText clauses text) : clauses? (text ++ rest) = some (clauses, rest) := by
  cases h with
  | @intro clause clauses a b hclause hmore =>
    have hfirst := clause?_complete hclause (clauseEnd_of_moreClausesText hmore rest)
    have htext : '(' :: a ++ b ++ [')'] ++ rest = '(' :: (a ++ (b ++ ')' :: rest)) := by
      simp only [List.append_assoc, List.cons_append, List.nil_append]
    rw [htext, clauses?, hfirst]
    simp only [Option.bind_some, moreClauses_complete hmore]

/-- A list of clauses starts with a parenthesis. -/
theorem clauses?_eq_none {c : Char} {cs : List Char} (hc : c ≠ '(') :
    clauses? (c :: cs) = none := by
  unfold clauses?
  split
  · rename_i heq
    exact absurd (List.cons.inj heq).1 hc
  · rfl

/-! ### Views and spacings -/

/-- A view in brackets is read, whatever follows it. -/
theorem view?_complete {view : View} {text rest : List Char} (h : ViewText view text) :
    view? (text ++ rest) = some (view, rest) := by
  have bracket (tail : List Char) : ∀ c ∈ (']' :: tail).head?, ¬IsLetter c ∧ ¬IsDigit c := by
    intro c hc
    obtain rfl := Option.some.inj hc
    decide
  cases h with
  | @bare name a hname =>
    have hread := name?_complete hname (bracket rest)
    have hnone : clauses? (']' :: rest) = none := clauses?_eq_none (by decide)
    have htext : '[' :: a ++ [']'] ++ rest = '[' :: (a ++ ']' :: rest) := by simp
    rw [htext, view?, hread]
    simp only [Option.bind_some, hnone, Option.getD_none]
  | @sized name clauses a b hname hclauses =>
    have hparen : ∀ c ∈ (b ++ ']' :: rest).head?, ¬IsLetter c ∧ ¬IsDigit c := by
      cases hclauses with
      | intro _ _ =>
        intro c hc
        obtain rfl := Option.some.inj hc
        decide
    have hread := name?_complete hname hparen
    have hlist : clauses? (b ++ ']' :: rest) = some (clauses, ']' :: rest) :=
      clauses?_complete hclauses
    have htext : '[' :: a ++ b ++ [']'] ++ rest = '[' :: (a ++ (b ++ ']' :: rest)) := by simp
    rw [htext, view?, hread]
    simp only [Option.bind_some, hlist, Option.getD_some]

/-- A gap between dashes is read, whatever follows it. -/
theorem gap?_complete {clauses : List Clause} {text rest : List Char}
    (h : SpacingText (.gap clauses) text) : gap? (text ++ rest) = some (clauses, rest) := by
  cases h with
  | @single clause a h =>
    have hread := clause?_complete h (clauseEnd_cons (c := '-') (by decide) rest)
    have hnone : clauses? (a ++ '-' :: rest) = none := by
      obtain ⟨c, tail, rfl, hc⟩ := clauseText_head h
      exact clauses?_eq_none hc.2.1
    have htext : '-' :: a ++ ['-'] ++ rest = '-' :: (a ++ '-' :: rest) := by simp
    rw [htext, gap?, hnone, hread]
    rfl
  | @list clauses a h =>
    have hread : clauses? (a ++ '-' :: rest) = some (clauses, '-' :: rest) := clauses?_complete h
    have htext : '-' :: a ++ ['-'] ++ rest = '-' :: (a ++ '-' :: rest) := by simp
    rw [htext, gap?, hread]
    rfl

/-- A view starts an item of the line. -/
theorem viewText_itemStart {view : View} {text : List Char} (h : ViewText view text)
    (rest : List Char) : ItemStart (text ++ rest) := by
  cases h with
  | bare _ => exact ⟨'[', _, rfl, .inl rfl⟩
  | sized _ _ => exact ⟨'[', _, rfl, .inl rfl⟩

/-- Neither a view nor an edge of the container is the text of a clause. -/
theorem clause?_itemStart {rest : List Char} (h : ItemStart rest) : clause? rest = none := by
  cases hread : clause? rest with
  | none => rfl
  | some read =>
    obtain ⟨clause, left⟩ := read
    obtain ⟨used, hused, happ⟩ := clause?_sound _ _ _ hread
    obtain ⟨d, tail, rfl, hd⟩ := clauseText_head hused
    obtain ⟨c, cs, rfl, hc⟩ := h
    obtain rfl := (List.cons.inj happ).1
    rcases hc with rfl | rfl
    · exact absurd rfl hd.2.2.1
    · exact absurd rfl hd.2.2.2

/-- A dash in front of a view or an edge begins no gap. -/
theorem gap?_dash {rest : List Char} (h : ItemStart rest) : gap? ('-' :: rest) = none := by
  have hclauses : clauses? rest = none := by
    obtain ⟨c, tail, rfl, rfl | rfl⟩ := h
    · exact clauses?_eq_none (by decide)
    · exact clauses?_eq_none (by decide)
  rw [gap?, hclauses, clause?_itemStart h]
  rfl

/-- A spacing is read as written in front of a view or a bar: a dash alone cannot be taken for a gap
there. -/
theorem spacing_complete {space : Spacing} {text rest : List Char} (h : SpacingText space text)
    (hrest : ItemStart rest) : spacing (text ++ rest) = (space, rest) := by
  cases space with
  | gap clauses =>
    unfold spacing
    rw [gap?_complete h]
  | standard =>
    cases h with
    | standard =>
      rw [List.singleton_append, spacing, gap?_dash hrest]
  | flush =>
    cases h with
    | flush =>
      obtain ⟨c, tail, rfl, rfl | rfl⟩ := hrest
      · rfl
      · rfl

/-- A view is read with the spacing in front of it. -/
theorem nextView?_complete {space : Spacing} {view : View} {a b rest : List Char}
    (hspace : SpacingText space a) (hview : ViewText view b) :
    nextView? (a ++ (b ++ rest)) = some ((space, view), rest) := by
  rw [nextView?, spacing_complete hspace (viewText_itemStart hview rest), view?_complete hview]
  rfl

/-- No view follows a spacing that leads to an edge of the container. -/
theorem nextView?_edge {space : Spacing} {a : List Char} (h : SpacingText space a)
    (rest : List Char) : nextView? (a ++ '|' :: rest) = none := by
  rw [nextView?, spacing_complete h ⟨'|', rest, rfl, .inr rfl⟩]
  rfl

/-- The views end where no further one can be read. -/
theorem moreViews_of_none {cs : List Char} (h : nextView? cs = none) : moreViews cs = ([], cs) := by
  rw [moreViews]
  split
  · rfl
  · rename_i heq
    exact absurd (h.symm.trans heq) (by simp)

/-- One more view is read before the others. -/
theorem moreViews_of_some {cs rest : List Char} {next : Spacing × View}
    (h : nextView? cs = some (next, rest)) :
    moreViews cs = (next :: (moreViews rest).1, (moreViews rest).2) := by
  rw [moreViews]
  split
  · rename_i heq
    exact absurd (h.symm.trans heq) (by simp)
  · rename_i found left heq
    obtain ⟨rfl, rfl⟩ := Prod.mk.inj (Option.some.inj (h.symm.trans heq))
    rfl

/-- Written views are all read, whatever the text goes on with; reading then goes on there. -/
theorem moreViews_complete {more : List (Spacing × View)} {text : List Char}
    (h : MoreViewsText more text) (rest : List Char) :
    moreViews (text ++ rest) = (more ++ (moreViews rest).1, (moreViews rest).2) := by
  induction h with
  | nil => rfl
  | @cons space view more a b c hspace hview hmore ih =>
    have hnext : nextView? (a ++ (b ++ (c ++ rest))) = some ((space, view), c ++ rest) :=
      nextView?_complete hspace hview
    rw [List.append_assoc, List.append_assoc, moreViews_of_some hnext, ih]
    rfl

/-! ### The ends of a line -/

/-- What a line begins with behind the mark of its axis: the edge of the container or its first
view. -/
theorem leadingText_itemStart {space : Option Spacing} {view : View} {a b : List Char}
    (h : LeadingText space a) (hview : ViewText view b) (rest : List Char) :
    ItemStart (a ++ (b ++ rest)) := by
  cases h with
  | unwritten => exact viewText_itemStart hview rest
  | written _ => exact ⟨'|', _, rfl, .inr rfl⟩

/-- The axis is read as written in front of a view or a bar. -/
theorem axis_complete {a : Axis} {text rest : List Char} (h : AxisText a text)
    (hrest : ItemStart rest) : axis (text ++ rest) = (a, rest) := by
  cases h with
  | horizontal => rfl
  | vertical => rfl
  | unwritten =>
    obtain ⟨c, tail, rfl, rfl | rfl⟩ := hrest
    · rfl
    · rfl

/-- The first edge is read as written in front of a view. -/
theorem leading_complete {space : Option Spacing} {text rest : List Char}
    (h : LeadingText space text) (hrest : ∃ tail, rest = '[' :: tail) :
    leading (text ++ rest) = (space, rest) := by
  obtain ⟨tail, rfl⟩ := hrest
  cases h with
  | unwritten => rfl
  | written h =>
    have hread := spacing_complete h ⟨'[', tail, rfl, .inl rfl⟩
    rw [List.cons_append, leading, hread]

/-- The far edge is read with the spacing in front of it. -/
theorem trailing_complete {space : Spacing} {a : List Char} (h : SpacingText space a)
    (rest : List Char) : trailing (a ++ '|' :: rest) = (some space, rest) := by
  rw [trailing, spacing_complete h ⟨'|', rest, rfl, .inr rfl⟩]
  rfl

end LayoutLine.Line.Grammar
