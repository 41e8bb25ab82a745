import LayoutLine.Proofs.Line.Language

/-!
# Names as runs of a text

A run is a stretch of a text that has the form of a name and lies within no longer stretch that has
it too. The runs of a text stand one after the other: in front of each, up to the run before it,
there is no letter, and behind it neither a letter nor a digit. This is also how they can be listed.
-/

namespace LayoutLine.Text

open Line.Language

/-- The text has the form of a name. -/
def IsName (cs : List Char) : Prop := ∃ name, NameText name cs

/-- A text that has the form of a name begins with a letter and goes on with letters and digits. -/
theorem isName_iff {cs : List Char} :
    IsName cs ↔ ∃ c tail, cs = c :: tail ∧ IsLetter c ∧ ∀ d ∈ tail, IsLetter d ∨ IsDigit d := by
  constructor
  · rintro ⟨_, ⟨head, rest⟩⟩
    exact ⟨_, _, rfl, head, rest⟩
  · rintro ⟨c, tail, rfl, head, rest⟩
    exact ⟨_, .intro head rest⟩

/-- Only letters and digits stand in a name. -/
theorem IsName.not_mem {c : Char} {cs : List Char} (h : IsName cs)
    (hc : ¬(IsLetter c ∨ IsDigit c)) : c ∉ cs := by
  obtain ⟨head, tail, rfl, hhead, htail⟩ := isName_iff.mp h
  have hall : ∀ d ∈ head :: tail, IsLetter d ∨ IsDigit d :=
    List.forall_mem_cons.mpr ⟨.inl hhead, htail⟩
  exact fun hmem => hc (hall c hmem)

/-- A name that ends here is not made longer by what follows. -/
def NameEnd (rest : List Char) : Prop := ∀ c ∈ rest.head?, ¬IsLetter c ∧ ¬IsDigit c

/-- A stretch of a text. -/
structure Stretch where
  /-- What stands before it. -/
  before : List Char
  /-- The stretch itself. -/
  chars : List Char
  /-- What comes after it. -/
  after : List Char

namespace Stretch

/-- The text it is a stretch of. -/
def text (s : Stretch) : List Char := s.before ++ s.chars ++ s.after

/-- The second stretch begins no later and ends no earlier in the same text. -/
def Within (s t : Stretch) : Prop :=
  ∃ front back, s.before = t.before ++ front ∧ t.chars = front ++ s.chars ++ back ∧
    s.after = back ++ t.after

/-- The stretch has the form of a name, and no longer one around it has. -/
structure IsRun (s : Stretch) : Prop where
  /-- It has the form of a name. -/
  name : IsName s.chars
  /-- It lies within no other name. -/
  longest : ∀ t, s.Within t → IsName t.chars → t = s

/-- The same stretch of a text with something in front. -/
def shift (front : List Char) (s : Stretch) : Stretch := { s with before := front ++ s.before }

end Stretch

/-- These are the runs of the text from left to right. -/
structure Runs (cs : List Char) (runs : List Stretch) : Prop where
  /-- All runs of the text are listed, and nothing else is. -/
  mem_iff : ∀ s, s ∈ runs ↔ s.text = cs ∧ s.IsRun
  /-- Each begins behind the beginning of those before it. -/
  sorted : runs.Pairwise fun s t => s.before.length < t.before.length

/-! ### Where runs begin and end -/

variable {before chars rest : List Char}

/-- A name does not go on where a name ends. -/
theorem eq_nil_of_nameEnd {front back after : List Char} (h : IsName (front ++ back))
    (hfront : front ≠ []) (hend : NameEnd (back ++ after)) : back = [] := by
  cases back with
  | nil => rfl
  | cons d back =>
    obtain ⟨c, front, rfl⟩ := List.exists_cons_of_ne_nil hfront
    obtain ⟨_, _, heq, -, htail⟩ := isName_iff.mp h
    obtain ⟨rfl, rfl⟩ := List.cons.inj heq
    have hd := htail d (List.mem_append_right _ List.mem_cons_self)
    exact absurd hd (not_or.mpr (hend d rfl))

/-- A name does not begin among characters that are no letters. -/
theorem eq_nil_of_no_letter {cs after front back : List Char} (h : IsName cs)
    (heq : cs ++ after = front ++ back) (hfront : ∀ c ∈ front, ¬IsLetter c) : front = [] := by
  cases front with
  | nil => rfl
  | cons c front =>
    obtain ⟨d, tail, rfl, hletter, -⟩ := isName_iff.mp h
    obtain ⟨rfl, -⟩ := List.cons.inj heq
    exact absurd hletter (hfront d List.mem_cons_self)

theorem IsName.ne_nil {cs : List Char} (h : IsName cs) : cs ≠ [] := by
  obtain ⟨c, tail, rfl, -⟩ := isName_iff.mp h
  exact List.cons_ne_nil c tail

/-- A name between what has no letters and a place where names end is a run. -/
theorem isRun_of_nameEnd (hbefore : ∀ c ∈ before, ¬IsLetter c) (hname : IsName chars)
    (hend : NameEnd rest) : Stretch.IsRun ⟨before, chars, rest⟩ where
  name := hname
  longest := by
    rintro ⟨before', chars', after'⟩ ⟨front, back, hfront, hchars, hback⟩ hname'
    dsimp only at hfront hchars hback hname'
    subst hfront hchars hback
    have hnone : back = [] :=
      eq_nil_of_nameEnd hname' (by simp [hname.ne_nil]) hend
    have hsplit : front ++ chars ++ back ++ [] = front ++ (chars ++ back) := by
      rw [List.append_nil, List.append_assoc]
    have hnone' : front = [] := eq_nil_of_no_letter hname' hsplit fun c hc =>
      hbefore c (List.mem_append_right _ hc)
    rw [hnone, hnone']
    simp

/-- What is put in front of a text makes no run longer if names end where the text begins. -/
theorem Stretch.IsRun.shift {s : Stretch} (h : s.IsRun) (hend : NameEnd s.text)
    (front : List Char) : (s.shift front).IsRun where
  name := h.name
  longest := by
    rintro ⟨before', chars', after'⟩ ⟨left, right, hleft, hchars, hright⟩ hname
    dsimp only [Stretch.shift] at hleft hchars hright hname
    rcases List.append_eq_append_iff.mp hleft with ⟨inner, rfl, hinner⟩ | ⟨extra, rfl, rfl⟩
    · -- the longer stretch does not reach into what is in front
      have heq := h.longest ⟨inner, chars', after'⟩ ⟨left, right, hinner, hchars, hright⟩ hname
      rw [← heq]
      rfl
    · -- it does, and so goes on where names end
      by_cases hextra : extra = []
      · subst hextra
        have heq := h.longest ⟨[], chars', after'⟩ ⟨s.before, right, rfl, hchars, hright⟩ hname
        rw [← heq]
        simp [Stretch.shift]
      · have hsplit : chars' = extra ++ (s.before ++ s.chars ++ right) := by
          rw [hchars]
          simp only [List.append_assoc]
        rw [hsplit] at hname
        have htext : s.text = s.before ++ s.chars ++ right ++ after' := by
          rw [Stretch.text, hright, List.append_assoc _ right]
        have hnil := eq_nil_of_nameEnd hname hextra (htext ▸ hend)
        exact absurd hnil (by simp [h.name.ne_nil])

/-- A run of a longer text that lies behind its front is a run without the front. -/
theorem Stretch.IsRun.of_shift {s : Stretch} {front : List Char} (h : (s.shift front).IsRun) :
    s.IsRun where
  name := h.name
  longest := by
    rintro t ⟨left, right, hleft, hchars, hright⟩ hname
    have heq := h.longest (t.shift front)
      ⟨left, right, by simp only [Stretch.shift, hleft, List.append_assoc], hchars, hright⟩ hname
    obtain ⟨before, chars, after⟩ := s
    obtain ⟨before', chars', after'⟩ := t
    simpa only [Stretch.shift, Stretch.mk.injEq, List.append_cancel_left_eq] using heq

/-- Where a name stands between what has no letters and a place where names end, it is the first run
of the text, and every other run lies behind it. -/
theorem Stretch.IsRun.eq_or_behind {t : Stretch} (h : t.IsRun)
    (hbefore : ∀ c ∈ before, ¬IsLetter c) (hname : IsName chars) (hend : NameEnd rest)
    (htext : t.text = before ++ chars ++ rest) :
    t = ⟨before, chars, rest⟩ ∨ ∃ s : Stretch, s.text = rest ∧ t = s.shift (before ++ chars) := by
  obtain ⟨before', chars', after'⟩ := t
  simp only [Stretch.text, List.append_assoc] at htext
  obtain ⟨front, rfl, hfront⟩ :
      ∃ front, before' = before ++ front ∧ chars ++ rest = front ++ (chars' ++ after') := by
    rcases List.append_eq_append_iff.mp htext with ⟨extra, rfl, hextra⟩ | ⟨front, rfl, hfront⟩
    · have hnone : extra = [] := eq_nil_of_no_letter h.name hextra fun c hc =>
        hbefore c (List.mem_append_right _ hc)
      subst hnone
      exact ⟨[], by simp, hextra.symm⟩
    · exact ⟨front, rfl, hfront⟩
  rcases List.append_eq_append_iff.mp hfront with ⟨inner, rfl, hinner⟩ | ⟨tail, rfl, htail⟩
  · -- the run begins behind the name
    refine .inr ⟨⟨inner, chars', after'⟩, ?_, ?_⟩
    · rw [Stretch.text, hinner, List.append_assoc]
    · rw [Stretch.shift, List.append_assoc]
  by_cases hnone : tail = []
  · -- it begins where the name ends
    subst hnone
    refine .inr ⟨⟨[], chars', after'⟩, htail, ?_⟩
    rw [Stretch.shift, List.append_nil, List.append_nil]
  · -- it begins in the name and does not end behind it
    obtain ⟨more, hchars, hafter⟩ : ∃ more, tail = chars' ++ more ∧ after' = more ++ rest := by
      rcases List.append_eq_append_iff.mp htail with ⟨more, rfl, hmore⟩ | ⟨more, rfl, rfl⟩
      · exact ⟨more, rfl, hmore⟩
      · have hmore := eq_nil_of_nameEnd h.name hnone hend
        subst hmore
        exact ⟨[], by simp, by simp⟩
    refine .inl (h.longest ⟨before, front ++ tail, rest⟩ ⟨front, more, rfl, ?_, hafter⟩ hname).symm
    rw [hchars, List.append_assoc]

/-! ### Listing the runs -/

/-- A text without letters has no runs. -/
theorem runs_of_no_letter {cs : List Char} (h : ∀ c ∈ cs, ¬IsLetter c) : Runs cs [] where
  mem_iff := by
    intro s
    refine iff_of_false List.not_mem_nil ?_
    rintro ⟨rfl, hrun⟩
    obtain ⟨c, tail, hchars, hletter, -⟩ := isName_iff.mp hrun.name
    refine h c ?_ hletter
    rw [Stretch.text, hchars]
    simp
  sorted := .nil

/-- Behind what has no letters comes the first run, and behind it come the others. -/
theorem Runs.cons {runs : List Stretch} (h : Runs rest runs) (hbefore : ∀ c ∈ before, ¬IsLetter c)
    (hname : IsName chars) (hend : NameEnd rest) :
    Runs (before ++ chars ++ rest)
      (⟨before, chars, rest⟩ :: runs.map (Stretch.shift (before ++ chars))) where
  mem_iff := by
    intro t
    rw [List.mem_cons, List.mem_map]
    constructor
    · rintro (rfl | ⟨s, hs, rfl⟩)
      · exact ⟨rfl, isRun_of_nameEnd hbefore hname hend⟩
      · obtain ⟨htext, hrun⟩ := (h.mem_iff s).mp hs
        refine ⟨?_, hrun.shift (htext ▸ hend) _⟩
        simp only [Stretch.text, Stretch.shift, List.append_assoc] at htext ⊢
        rw [htext]
    · rintro ⟨htext, hrun⟩
      rcases hrun.eq_or_behind hbefore hname hend htext with rfl | ⟨s, hs, rfl⟩
      · exact .inl rfl
      · exact .inr ⟨s, (h.mem_iff s).mpr ⟨hs, hrun.of_shift⟩, rfl⟩
  sorted := by
    refine List.pairwise_cons.mpr ⟨?_, List.pairwise_map.mpr (h.sorted.imp fun hlt => ?_)⟩
    · intro t ht
      obtain ⟨s, -, rfl⟩ := List.mem_map.mp ht
      have hpos := List.length_pos_iff.mpr hname.ne_nil
      simp only [Stretch.shift, List.length_append]
      omega
    · simp only [Stretch.shift, List.length_append]
      omega

/-- The names that are spelled in a text, one after the other: between them stand no letters, and
each ends where a name ends. -/
inductive NamesIn : List String → List Char → Prop
  | none {cs : List Char} (h : ∀ c ∈ cs, ¬IsLetter c) : NamesIn [] cs
  | next {name : String} {names : List String} {before chars rest : List Char}
      (hbefore : ∀ c ∈ before, ¬IsLetter c) (hname : NameText name chars) (hend : NameEnd rest)
      (hrest : NamesIn names rest) : NamesIn (name :: names) (before ++ chars ++ rest)

/-- A name is written as it is. -/
theorem eq_ofList_of_nameText {name : String} {chars : List Char} (h : NameText name chars) :
    name = String.ofList chars := by
  cases h with
  | intro _ _ => rfl

/-- The names that are spelled in a text are its runs from left to right. -/
theorem NamesIn.exists_runs {names : List String} {cs : List Char} (h : NamesIn names cs) :
    ∃ runs, Runs cs runs ∧ names = runs.map fun s => String.ofList s.chars := by
  induction h with
  | none h => exact ⟨[], runs_of_no_letter h, rfl⟩
  | @next name names before chars rest hbefore hname hend _ ih =>
    obtain ⟨runs, hruns, rfl⟩ := ih
    refine ⟨_, hruns.cons hbefore ⟨name, hname⟩ hend, ?_⟩
    rw [List.map_cons, List.map_map, eq_ofList_of_nameText hname]
    rfl

/-! ### Names in texts put together -/

theorem nameEnd_nil : NameEnd [] := nofun

/-- A name ends where a character follows that no name goes on with. -/
theorem nameEnd_cons {c : Char} (hc : ¬IsLetter c ∧ ¬IsDigit c) (cs : List Char) :
    NameEnd (c :: cs) := by
  intro d hd
  obtain rfl := Option.some.inj hd
  exact hc

theorem NameEnd.append {a b : List Char} (ha : NameEnd a) (hb : NameEnd b) : NameEnd (a ++ b) := by
  cases a with
  | nil => exact hb
  | cons c a => exact nameEnd_cons (ha c rfl) _

/-- What has no letters can be put in front. -/
theorem NamesIn.prepend {names : List String} {front cs : List Char} (h : NamesIn names cs)
    (hfront : ∀ c ∈ front, ¬IsLetter c) : NamesIn names (front ++ cs) := by
  have hboth {tail : List Char} (htail : ∀ c ∈ tail, ¬IsLetter c) :
      ∀ c ∈ front ++ tail, ¬IsLetter c :=
    List.forall_mem_append.mpr ⟨hfront, htail⟩
  cases h with
  | none h => exact .none (hboth h)
  | next hbefore hname hend hrest =>
    rw [← List.append_assoc, ← List.append_assoc]
    exact .next (hboth hbefore) hname hend hrest

/-- Texts can be put one after the other where names end. -/
theorem NamesIn.append {names names' : List String} {cs ds : List Char} (h : NamesIn names cs)
    (h' : NamesIn names' ds) (hend : NameEnd ds) : NamesIn (names ++ names') (cs ++ ds) := by
  induction h with
  | none h => exact h'.prepend h
  | next hbefore hname hrestEnd _ ih =>
    rw [List.append_assoc]
    exact .next hbefore hname (hrestEnd.append hend) ih

theorem NamesIn.cons {names : List String} {cs : List Char} (h : NamesIn names cs) {c : Char}
    (hc : ¬IsLetter c) : NamesIn names (c :: cs) :=
  h.prepend (List.forall_mem_singleton.mpr hc)

/-- What closes a text adds no name. -/
theorem NamesIn.close {names : List String} {cs : List Char} (h : NamesIn names cs) {c : Char}
    (hc : ¬IsLetter c ∧ ¬IsDigit c) : NamesIn names (cs ++ [c]) := by
  have hlast : NamesIn [] [c] := .none (List.forall_mem_singleton.mpr hc.1)
  have hboth := h.append hlast (nameEnd_cons hc [])
  rwa [List.append_nil] at hboth

/-- The runs in the text of a name are that name. -/
theorem namesIn_nameText {name : String} {cs : List Char} (h : NameText name cs) :
    NamesIn [name] cs := by
  have hrest : NamesIn [] [] := .none nofun
  have hbefore : ∀ c ∈ ([] : List Char), ¬IsLetter c := nofun
  have hname := hrest.next hbefore h nameEnd_nil
  rwa [List.append_nil, List.nil_append] at hname

end LayoutLine.Text
