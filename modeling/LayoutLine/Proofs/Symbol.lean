import LayoutLine.Symbol

/-!
# Names of symbols

A run of digits stands for a natural. It consists of that natural's own digits, which start with a
zero only when the natural is zero, behind any number of zeros. So a name is read as a symbol
exactly when it is the stem of the symbol's kind followed by digits of the symbol's number: the
stems differ before the number begins, and the digits of a number determine it. A symbol's own name
is the one of them without zeros in front, so no two symbols have the same name.
-/

namespace LayoutLine.Text

/-! ### Digits of a number -/

/-- The value of a digit is written as that digit. -/
theorem digitChar_value {c : Char} (h : c.isDigit = true) :
    Nat.digitChar (c.toNat - '0'.toNat) = c ∧ c.toNat - '0'.toNat < 10 := by
  have hrange : 48 ≤ c.toNat ∧ c.toNat ≤ 57 := by
    simp only [Char.isDigit, Bool.and_eq_true, decide_eq_true_eq] at h
    exact h
  have hzero : '0'.toNat = 48 := rfl
  have hlt : c.toNat - '0'.toNat < 10 := by omega
  refine ⟨?_, hlt⟩
  apply Char.toNat_inj.mp
  rw [Nat.toNat_digitChar_of_lt_ten hlt]
  omega

/-- Digits behind those of a positive natural make the digits of a natural again. -/
theorem toDigits_append {digits : List Char} {n : Nat} (hn : 0 < n)
    (h : digits.all Char.isDigit = true) :
    Nat.toDigits 10 n ++ digits = Nat.toDigits 10 (Nat.ofDigitChars 10 digits n) := by
  induction digits generalizing n with
  | nil => simp
  | cons c digits ih =>
    rw [List.all_cons, Bool.and_eq_true] at h
    obtain ⟨hchar, hlt⟩ := digitChar_value h.1
    have hnext := Nat.toDigits_append_toDigits (b := 10) (by decide) hn hlt
    rw [Nat.toDigits_of_lt_base hlt, hchar] at hnext
    have hpos : 0 < 10 * n + (c.toNat - '0'.toNat) := by omega
    rw [Nat.ofDigitChars_cons, ← ih hpos h.2, ← hnext, List.append_assoc, List.singleton_append]

/-- Digits are those of the natural they stand for, behind zeros. -/
theorem exists_zeros {digits : List Char} (hne : digits ≠ [])
    (h : digits.all Char.isDigit = true) :
    ∃ zeros, digits =
      List.replicate zeros '0' ++ Nat.toDigits 10 (Nat.ofDigitChars 10 digits 0) := by
  induction digits with
  | nil => exact absurd rfl hne
  | cons c digits ih =>
    rw [List.all_cons, Bool.and_eq_true] at h
    by_cases hc : c = '0'
    · subst hc
      have hvalue : Nat.ofDigitChars 10 ('0' :: digits) 0 = Nat.ofDigitChars 10 digits 0 := by
        rw [Nat.ofDigitChars_cons, Nat.sub_self]
      by_cases hdigits : digits = []
      · exact ⟨0, by rw [hvalue, hdigits, Nat.ofDigitChars_nil]; rfl⟩
      · obtain ⟨zeros, hzeros⟩ := ih hdigits h.2
        refine ⟨zeros + 1, ?_⟩
        rw [hvalue, List.replicate_succ, List.cons_append, ← hzeros]
    · obtain ⟨hchar, hlt⟩ := digitChar_value h.1
      have hpos : 0 < c.toNat - '0'.toNat := by
        rw [Nat.pos_iff_ne_zero]
        intro hzero
        rw [hzero] at hchar
        exact hc hchar.symm
      have hdigits := toDigits_append hpos h.2
      rw [Nat.toDigits_of_lt_base hlt, hchar] at hdigits
      refine ⟨0, ?_⟩
      rw [Nat.ofDigitChars_cons, Nat.mul_zero, Nat.zero_add, ← hdigits]
      rfl

end LayoutLine.Text

namespace LayoutLine.Symbol

/-- A name is the stem of its kind with the digits of its number behind it. -/
theorem toList_name (s : Symbol) :
    s.name.toList = s.kind.stem.toList ++ Nat.toDigits 10 s.id.val := by
  rw [name, String.toList_append, Nat.toList_repr]

theorem isDigit_of_mem_toDigits {c : Char} {n : Nat} (h : c ∈ Nat.toDigits 10 n) : c.isDigit :=
  Nat.isDigit_of_mem_toDigits (by decide) (by decide) h

/-- A number is written in digits. -/
theorem all_isDigit_toDigits (n : Nat) : (Nat.toDigits 10 n).all Char.isDigit = true :=
  List.all_eq_true.mpr fun _ hc => isDigit_of_mem_toDigits hc

/-- The digits of a number, with or without zeros in front, and nothing else are read as it. -/
theorem idOf?_eq_some_iff {cs : List Char} {id : SymbolId} :
    idOf? cs = some id ↔
      cs ≠ [] ∧ cs.all Char.isDigit = true ∧ Nat.ofDigitChars 10 cs 0 = id.val := by
  rw [idOf?]
  split
  · rename_i hdigits
    split
    · rw [Option.some_inj, Fin.ext_iff]
      simp only [hdigits, ne_eq, not_false_eq_true, true_and]
    · rename_i hlarge
      have hsmall := id.isLt
      constructor
      · intro h
        cases h
      · intro h
        omega
  · rename_i hnot
    constructor
    · intro h
      cases h
    · intro h
      exact absurd ⟨h.1, h.2.1⟩ hnot

/-- A number is read from its own digits. -/
theorem idOf?_toDigits (id : SymbolId) : idOf? (Nat.toDigits 10 id.val) = some id :=
  idOf?_eq_some_iff.mpr
    ⟨Nat.toDigits_ne_nil, all_isDigit_toDigits id.val, Nat.ofDigitChars_ten_toDigits⟩

/-- What stands behind a stem is found where the stem is in front. -/
theorem afterStem?_eq_some_iff {kind : Kind} {cs rest : List Char} :
    afterStem? kind cs = some rest ↔ cs = kind.stem.toList ++ rest := by
  rw [afterStem?]
  split
  · rename_i hstem
    obtain ⟨tail, rfl⟩ := List.isPrefixOf_iff_prefix.mp hstem
    simp
  · rename_i hstem
    constructor
    · intro h
      cases h
    · rintro rfl
      exact absurd (List.isPrefixOf_iff_prefix.mpr ⟨rest, rfl⟩) hstem

/-- What follows one stem follows no other. -/
theorem afterStem?_stem (kind other : Kind) (rest : List Char) :
    afterStem? other (kind.stem.toList ++ rest) = if other = kind then some rest else none := by
  cases kind with
  | view => cases other <;> simp [afterStem?, Kind.stem]
  | relative => cases other <;> simp [afterStem?, Kind.stem]
  | metric => cases other <;> simp [afterStem?, Kind.stem]

/-- Behind the stem of a kind, digits alone decide which symbol is read. -/
theorem parse?_stem {text : String} {kind : Kind} {rest : List Char}
    (h : text.toList = kind.stem.toList ++ rest) :
    parse? text = (idOf? rest).map (Symbol.mk kind) := by
  rw [parse?, h]
  simp only [afterStem?_stem]
  cases hid : idOf? rest with
  | none => cases kind <;> simp [List.findSome?, hid]
  | some id => cases kind <;> simp [List.findSome?, hid]

/-- A text is read as a symbol when it is the stem of its kind and digits of its number. -/
theorem parse?_eq_some_iff {text : String} {s : Symbol} :
    parse? text = some s ↔
      ∃ digits, text.toList = s.kind.stem.toList ++ digits ∧ idOf? digits = some s.id := by
  constructor
  · intro h
    obtain ⟨kind, -, hkind⟩ := List.exists_of_findSome?_eq_some h
    obtain ⟨digits, hstem, hread⟩ := Option.bind_eq_some_iff.mp hkind
    obtain ⟨id, hid, rfl⟩ := Option.map_eq_some_iff.mp hread
    exact ⟨digits, afterStem?_eq_some_iff.mp hstem, hid⟩
  · rintro ⟨digits, htext, hid⟩
    rw [parse?_stem htext, hid]
    rfl

/-- The name of a symbol is read as that symbol. -/
@[simp] theorem parse?_name (s : Symbol) : parse? s.name = some s :=
  parse?_eq_some_iff.mpr ⟨_, toList_name s, idOf?_toDigits s.id⟩

/-- A symbol is known by its name. -/
theorem name_injective {a b : Symbol} (h : a.name = b.name) : a = b := by
  have hread := parse?_name a
  rw [h, parse?_name b] at hread
  exact (Option.some.inj hread).symm

/-- What is read as a symbol is its name with zeros in front of the number. -/
theorem parse?_eq_some_iff_zeros {text : String} {s : Symbol} :
    parse? text = some s ↔ ∃ zeros, text.toList =
      s.kind.stem.toList ++ (List.replicate zeros '0' ++ Nat.toDigits 10 s.id.val) := by
  rw [parse?_eq_some_iff]
  constructor
  · rintro ⟨digits, htext, hid⟩
    obtain ⟨hne, hall, hvalue⟩ := idOf?_eq_some_iff.mp hid
    obtain ⟨zeros, hzeros⟩ := Text.exists_zeros hne hall
    rw [hvalue] at hzeros
    exact ⟨zeros, by rw [htext, ← hzeros]⟩
  · rintro ⟨zeros, htext⟩
    refine ⟨_, htext, idOf?_eq_some_iff.mpr ⟨?_, ?_, ?_⟩⟩
    · exact List.append_ne_nil_of_right_ne_nil _ Nat.toDigits_ne_nil
    · rw [List.all_append, all_isDigit_toDigits, Bool.and_true]
      exact List.all_eq_true.mpr fun c hc => by rw [List.eq_of_mem_replicate hc]; rfl
    · rw [Nat.ofDigitChars_append, Nat.ofDigitChars_replicate_zero, Nat.mul_zero,
        Nat.ofDigitChars_ten_toDigits]

/-- Names are an exact code for symbols. A symbol is read back from its name, and two symbols have
two names. A text is read as a symbol exactly when it is the stem of the symbol's kind followed by
one or more digits whose value is its number, that is, when it is the symbol's name with any number
of zeros in front of the number; and it is read as a symbol at all exactly when it is a stem with
digits whose value has 32 bits. -/
theorem parse?_reads_stem_and_digits :
    (∀ s : Symbol, parse? s.name = some s) ∧
    (∀ s other : Symbol, s.name = other.name ↔ s = other) ∧
    (∀ (text : String) (s : Symbol), parse? text = some s ↔
      ∃ digits : List Char, text = s.kind.stem ++ String.ofList digits ∧ digits ≠ [] ∧
        digits.all Char.isDigit = true ∧ Nat.ofDigitChars 10 digits 0 = s.id.val) ∧
    (∀ (text : String) (s : Symbol), parse? text = some s ↔
      ∃ zeros : Nat, text =
        s.kind.stem ++ String.ofList (List.replicate zeros '0') ++ Nat.repr s.id.val) ∧
    (∀ text : String, (parse? text).isSome = true ↔
      ∃ (kind : Kind) (digits : List Char), text = kind.stem ++ String.ofList digits ∧
        digits ≠ [] ∧ digits.all Char.isDigit = true ∧
        Nat.ofDigitChars 10 digits 0 ≤ 4294967295) := by
  have happend (text : String) (kind : Kind) (digits : List Char) :
      text.toList = kind.stem.toList ++ digits ↔ text = kind.stem ++ String.ofList digits := by
    rw [← String.toList_inj, String.toList_append, String.toList_ofList]
  have hread (text : String) (s : Symbol) : parse? text = some s ↔
      ∃ digits : List Char, text = s.kind.stem ++ String.ofList digits ∧ digits ≠ [] ∧
        digits.all Char.isDigit = true ∧ Nat.ofDigitChars 10 digits 0 = s.id.val := by
    rw [parse?_eq_some_iff]
    simp only [happend, idOf?_eq_some_iff]
  refine ⟨parse?_name, ?_, hread, ?_, ?_⟩
  · intro s other
    exact ⟨name_injective, congrArg name⟩
  · intro text s
    rw [parse?_eq_some_iff_zeros]
    simp only [happend, String.ofList_append, ← Nat.repr_eq_ofList_toDigits, String.append_assoc]
  · intro text
    rw [Option.isSome_iff_exists]
    constructor
    · rintro ⟨s, hs⟩
      obtain ⟨digits, htext, hne, hall, hvalue⟩ := (hread text s).mp hs
      exact ⟨s.kind, digits, htext, hne, hall, by have := s.id.isLt; omega⟩
    · rintro ⟨kind, digits, htext, hne, hall, hvalue⟩
      have hlt : Nat.ofDigitChars 10 digits 0 < 4294967296 := by omega
      exact ⟨⟨kind, ⟨_, hlt⟩⟩, (hread text _).mpr ⟨digits, htext, hne, hall, rfl⟩⟩

end LayoutLine.Symbol
