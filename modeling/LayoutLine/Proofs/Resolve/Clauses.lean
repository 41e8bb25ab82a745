import LayoutLine.Proofs.Line.Joining
import LayoutLine.Proofs.Resolve.Parts
import Mathlib.Algebra.GroupWithZero.Nat

/-!
# One constraint for each clause

A text that is read as a line states conditions one after the other: each clause is one, and so is
a spacing without clauses. When the line has constraints, each condition has given one of them, in
the order of the text, with the relation and the priority that are written. The constraints of the
alignments follow, one for each view after the first. Reading never gives a list of clauses that is
empty or a spacing that has no view on each side, so that no part of the text is passed over.
-/

namespace LayoutLine

variable {V : Type}

namespace Line

/-! ### Conditions -/

/-- What a condition is about. -/
inductive Place where
  /-- The gap between two neighbours. -/
  | gap (before after : Option String)
  /-- The length of an item. -/
  | length (item : Option String)

/-- A condition that a line states. -/
structure Condition where
  /-- What it is about. -/
  place : Place
  /-- The relation that it asks for. -/
  relation : Relation
  /-- Its priority as written. -/
  priority : Option Nat

/-- The conditions of a part: its clauses, or equality where a spacing has none. -/
def Part.conditions : Part → List Condition
  | .spacing before after .flush | .spacing before after .standard =>
    [⟨.gap before after, .equal, none⟩]
  | .spacing before after (.gap clauses) =>
    clauses.map fun clause => ⟨.gap before after, clause.relation, clause.priority⟩
  | .length item clause => [⟨.length item, clause.relation, clause.priority⟩]

/-- The conditions of a line in the order of the text. -/
def conditions (line : Line) : List Condition := line.parts.flatMap Part.conditions

/-- How many conditions a spacing states. -/
def Spacing.conditionCount : Spacing → Nat
  | .flush | .standard => 1
  | .gap clauses => clauses.length

/-- The spacings of a line, those at its ends included. -/
def allSpacings (line : Line) : List Spacing :=
  line.leading.toList ++ line.spacings ++ line.trailing.toList

/-- How many conditions stand in a line, wherever they stand. -/
def conditionCount (line : Line) : Nat :=
  (line.allSpacings.map Spacing.conditionCount).sum +
    (line.views.map fun view => view.clauses.length).sum

/-- A line with a view and with one spacing between any two neighbours, in which every list of
clauses has a clause. -/
structure Complete (line : Line) : Prop where
  /-- One spacing lies between any two neighbours. -/
  spacings : line.spacings.length + 1 = line.views.length
  /-- No list of clauses is empty. -/
  clauses : ∀ spacing ∈ line.allSpacings, spacing ≠ .gap []

end Line

/-- The constraint is about this place. -/
def Constraint.IsAt (c : Constraint V) : Line.Place → Prop
  | .gap before after =>
    c.first.item.name? = after ∧ c.second.map (·.item.name?) = some before
  | .length item => c.first.item.name? = item

/-- The constraint is what a condition comes to: it is about the same place and has the relation and
the priority that are written. A priority that is not written is the required one. -/
structure Constraint.Answers (condition : Line.Condition) (c : Constraint V) : Prop where
  /-- It is about the same place. -/
  place : c.IsAt condition.place
  /-- It has the relation of the condition. -/
  relation : c.relation = condition.relation
  /-- It has the priority of the condition. -/
  priority : c.priority.value = condition.priority.getD 1000

/-- The constraint ties an attribute of a view to that of the view before it. -/
structure Constraint.Ties (attr : Attribute) (views : Line.View × Line.View) (c : Constraint V) :
    Prop where
  /-- It is on the attribute of the later view. -/
  first : c.first.item.name? = some views.2.name ∧ c.first.attr = attr
  /-- It compares with the attribute of the earlier view. -/
  second : ∃ anchor, c.second = some anchor ∧ anchor.item.name? = some views.1.name ∧
    anchor.attr = attr
  /-- It asks for equality. -/
  relation : c.relation = .equal
  /-- It adds nothing. -/
  constant : c.constant = .zero
  /-- It has to hold. -/
  priority : c.priority = .required

/-! ### Constraints of pieces -/

namespace Piece

open Constraint (Answers)

/-- A priority that is not written is the required one. -/
theorem value_of_clausePriority {priority : Option Nat} {p : Priority}
    (h : clausePriority priority = .ok p) : p.value = priority.getD 1000 := by
  cases priority with
  | none =>
    obtain rfl := Except.ok.inj h
    rfl
  | some value =>
    simp only [clausePriority, Priority.ofNat?] at h
    split at h
    · rename_i found hfound
      split at hfound
      · obtain rfl := Option.some.inj hfound
        obtain rfl := Except.ok.inj h
        rfl
      · cases hfound
    · cases h

/-- The constraint of a clause on a gap has the relation, the priority and the two items of that
clause. -/
theorem answers_ofGapClause {bindings : Bindings V} {first second : Anchor V}
    {clause : Line.Clause} {c : Constraint V}
    (h : ofGapClause bindings first second clause = .ok c) :
    Answers ⟨.gap second.item.name? first.item.name?, clause.relation, clause.priority⟩ c := by
  obtain ⟨constant, -, h⟩ := exists_of_bind_ok h
  obtain ⟨priority, hpriority, h⟩ := exists_of_bind_ok h
  obtain rfl := Except.ok.inj h
  exact ⟨⟨rfl, rfl⟩, rfl, value_of_clausePriority hpriority⟩

/-- The constraint of a clause on a length has the relation, the priority and the item of that
clause. -/
theorem answers_ofLengthClause {bindings : Bindings V} {anchor : Anchor V}
    {clause : Line.Clause} {c : Constraint V} (h : ofLengthClause bindings anchor clause = .ok c) :
    Answers ⟨.length anchor.item.name?, clause.relation, clause.priority⟩ c := by
  obtain ⟨priority, hpriority, h⟩ := exists_of_bind_ok h
  obtain ⟨measured, -, h⟩ := exists_of_bind_ok h
  obtain rfl := Except.ok.inj h
  exact ⟨rfl, rfl, value_of_clausePriority hpriority⟩

/-- The constraints of a piece answer the conditions of its part one by one. -/
theorem answers_constraints {bindings : Bindings V} {piece : Piece V}
    {constraints : List (Constraint V)} (h : piece.constraints bindings = .ok constraints) :
    List.Forall₂ Answers piece.part.conditions constraints := by
  cases piece with
  | gap first second standard spacing =>
    cases spacing with
    | flush =>
      obtain rfl := Except.ok.inj h
      exact .cons ⟨⟨rfl, rfl⟩, rfl, rfl⟩ .nil
    | standard =>
      obtain rfl := Except.ok.inj h
      exact .cons ⟨⟨rfl, rfl⟩, rfl, rfl⟩ .nil
    | gap clauses =>
      refine List.forall₂_map_left_iff.mpr ?_
      exact (mapM_eq_ok_iff.mp h).imp fun _ _ => answers_ofGapClause
  | length anchor clause =>
    obtain ⟨c, hclause, rfl⟩ := exists_of_map_ok h
    exact .cons (answers_ofLengthClause hclause) .nil

/-- The constraints that pieces yield answer the conditions of their parts one by one. -/
theorem Yields.answers {bindings : Bindings V} {pieces : List (Piece V)}
    {constraints : List (Constraint V)} (h : Yields bindings pieces constraints) :
    List.Forall₂ Answers (pieces.flatMap fun piece => piece.part.conditions) constraints := by
  obtain ⟨lists, hlists, rfl⟩ := h
  rw [← List.flatMap_id]
  exact List.rel_flatMap (mapM_eq_ok_iff.mp hlists) fun _ _ => answers_constraints

end Piece

namespace Line

open LayoutLine.Line.Language

/-! ### Alignments -/

/-- An alignment ties each view to the one before it. -/
theorem ties_alignNeighbours (attr : Attribute) {placed : List (Placed V)}
    (hname : ∀ view ∈ placed, view.2.name? = some view.1.name) :
    List.Forall₂ (Constraint.Ties attr) ((placed.map Prod.fst).zip (placed.map Prod.fst).tail)
      (alignNeighbours attr (placed.map Prod.snd)) := by
  induction placed with
  | nil => exact .nil
  | cons first placed ih =>
    cases placed with
    | nil => exact .nil
    | cons second placed =>
      obtain ⟨hfirst, hlater⟩ := List.forall_mem_cons.mp hname
      have hsecond := hlater second List.mem_cons_self
      exact .cons ⟨⟨hsecond, rfl⟩, ⟨_, rfl, hfirst, rfl⟩, rfl, rfl, rfl⟩ (ih hlater)

/-! ### Lines that were read -/

/-- A gap that was read has at least one clause. -/
theorem ne_gap_nil_of_spacingText {spacing : Spacing} {text : List Char}
    (h : SpacingText spacing text) : spacing ≠ .gap [] := by
  cases h with
  | single _ => exact nofun
  | list h => cases h with | intro _ _ => exact nofun
  | standard => exact nofun
  | flush => exact nofun

/-- So have the gaps between all views that were read. -/
theorem ne_gap_nil_of_moreViewsText {more : List (Spacing × View)} {text : List Char}
    (h : MoreViewsText more text) : ∀ spacing ∈ more.map Prod.fst, spacing ≠ .gap [] := by
  induction h with
  | nil => exact fun _ hmem => nomatch hmem
  | cons hspacing _ _ ih =>
    exact List.forall_mem_cons.mpr ⟨ne_gap_nil_of_spacingText hspacing, ih⟩

/-- A line that was read is complete. -/
theorem complete_of_lineText {line : Line} {text : List Char} (h : LineText line text) :
    line.Complete where
  spacings := length_spacings_of_lineText h
  clauses := by
    cases h with
    | intro hhead _ hmore htrailing =>
      obtain ⟨-, hleading⟩ := hhead
      simp only [allSpacings, List.forall_mem_append]
      refine ⟨⟨?_, ne_gap_nil_of_moreViewsText hmore⟩, ?_⟩
      · cases hleading with
        | unwritten => exact fun _ hmem => nomatch hmem
        | written h => exact List.forall_mem_singleton.mpr (ne_gap_nil_of_spacingText h)
      · cases htrailing with
        | unwritten => exact fun _ hmem => nomatch hmem
        | written h => exact List.forall_mem_singleton.mpr (ne_gap_nil_of_spacingText h)

/-! ### Counting conditions -/

/-- A gap asks for as many conditions as it has clauses, and any other spacing for one. -/
theorem length_conditions_spacing (before after : Option String) (spacing : Spacing) :
    (Part.spacing before after spacing).conditions.length = spacing.conditionCount := by
  cases spacing with
  | flush => rfl
  | standard => rfl
  | gap clauses => exact List.length_map _

/-- A spacing that may be missing states as many conditions as it has when it is there. -/
theorem length_conditions_optional (before after : Option String) (spacing? : Option Spacing) :
    ((spacing?.map (Part.spacing before after)).toList.flatMap Part.conditions).length =
      (spacing?.toList.map Spacing.conditionCount).sum := by
  cases spacing? with
  | none => rfl
  | some spacing =>
    have hlength := length_conditions_spacing before after spacing
    simpa using hlength

/-- A view asks for as many conditions as it has clauses. -/
theorem length_conditions_view (view : View) :
    (view.parts.flatMap Part.conditions).length = view.clauses.length := by
  have hone : ∀ clause : Clause,
      (Part.length (some view.name) clause).conditions.length = 1 := fun _ => rfl
  simp [View.parts, List.length_flatMap, Function.comp_def, hone]

/-- With a spacing for each view, nothing of what follows a view is passed over. -/
theorem length_conditions_partsAfter (before : String) {later : List View}
    {spacings : List Spacing} (h : spacings.length = later.length) :
    ((partsAfter before later spacings).flatMap Part.conditions).length =
      (spacings.map Spacing.conditionCount).sum +
        (later.map fun view => view.clauses.length).sum := by
  induction later generalizing before spacings with
  | nil =>
    obtain rfl := List.length_eq_zero_iff.mp h
    rfl
  | cons view later ih =>
    obtain ⟨spacing, spacings, rfl⟩ := List.exists_cons_of_length_eq_add_one h
    have hrest := ih view.name (Nat.succ.inj h)
    have hspacing := length_conditions_optional (some before) (some view.name) (some spacing)
    simp only [partsAfter, List.head?_cons, List.tail_cons, List.flatMap_append,
      List.length_append, hrest, hspacing, length_conditions_view, List.map_cons, List.sum_cons,
      Option.toList_some, List.map_nil, List.sum_nil]
    omega

/-- A complete line states its conditions one by one, and none is left out. -/
theorem Complete.length_conditions {line : Line} (h : line.Complete) :
    line.conditions.length = line.conditionCount := by
  obtain ⟨first, later, hviews⟩ : ∃ first later, line.views = first :: later :=
    List.exists_cons_of_length_eq_add_one h.spacings.symm
  have hlength : line.spacings.length = later.length := by
    have hspacings := h.spacings
    rw [hviews, List.length_cons] at hspacings
    omega
  simp only [conditions, parts, conditionCount, allSpacings, hviews, List.flatMap_append,
    List.length_append, length_conditions_optional, length_conditions_view,
    length_conditions_partsAfter first.name hlength, List.map_append, List.sum_append,
    List.map_cons, List.sum_cons]
  omega

/-! ### Lines -/

/-- The constraints of a text are those that its conditions come to, in the order of the text, and
behind them those of the alignments in the order of their flags, for each view after the first one.
There is a spacing between any two neighbours, and no list of clauses is empty, so that every clause
and every spacing without clauses has its constraint. -/
theorem constraints_answer_text {text : String} {line : Line} (hparse : parse text = .ok line)
    {options : Options} {bindings : Bindings V} {config : StandardSpacing}
    {constraints : List (Constraint V)}
    (hresolve : line.resolve options bindings config = .ok constraints) :
    line.Complete ∧
    (∃ stated tied, constraints = stated ++ tied.flatten ∧
      List.Forall₂ Constraint.Answers line.conditions stated ∧
      List.Forall₂ (fun alignment ties =>
          List.Forall₂ (Constraint.Ties alignment.2) (line.views.zip line.views.tail) ties)
        options.alignments tied) ∧
    constraints.length =
      line.conditionCount + (line.views.length - 1) * options.alignments.length := by
  have hcomplete := complete_of_lineText (parse_eq_ok_iff.mp hparse)
  obtain ⟨items, stated, hitems, hyields, -, rfl⟩ := exists_of_resolve hresolve
  obtain ⟨hviews, hsnd, -⟩ := zip_of_mapM_ok hitems
  have hname := name?_of_items hitems
  have hstated : List.Forall₂ Constraint.Answers line.conditions stated := by
    rw [conditions, ← map_part_pieces _ config line hviews hname, List.flatMap_map]
    exact hyields.answers
  have hties (attr : Attribute) : List.Forall₂ (Constraint.Ties attr)
      (line.views.zip line.views.tail) (alignNeighbours attr items) := by
    have hplaced := ties_alignNeighbours attr hname
    rwa [hviews, hsnd] at hplaced
  refine ⟨hcomplete, ⟨stated, options.alignments.map fun alignment =>
    alignNeighbours alignment.2 items, by rw [List.flatMap_def], hstated, ?_⟩, ?_⟩
  · exact List.forall₂_map_right_iff.mpr (List.forall₂_same.mpr fun alignment _ => hties _)
  · have hone (attr : Attribute) :
        (alignNeighbours attr items).length = line.views.length - 1 := by
      rw [← (hties attr).length_eq, List.length_zip, List.length_tail]
      omega
    rw [List.length_append, ← hstated.length_eq, hcomplete.length_conditions,
      List.length_flatMap]
    simp only [hone, List.map_const', List.sum_replicate_nat, Nat.mul_comm]

/-- `V:|[a(b)]-(>=1,<=2@7)-[b]-|` with the left edges aligned: five conditions and a tie. -/
theorem constraints_answer_column :
    ∃ (line : Line) (constraints : List (Constraint Nat)),
      parse "V:|[a(b)]-(>=1,<=2@7)-[b]-|" = .ok line ∧
      line.resolve (.ofFlag .alignLeft) { views := .ofList [("a", 0), ("b", 1)] } {} =
        .ok constraints ∧
      line.Complete ∧ line.conditionCount = 5 ∧ constraints.length = 6 ∧
      ∃ stated, stated <+: constraints ∧
        List.Forall₂ Constraint.Answers line.conditions stated := by
  let line : Line :=
    ⟨.vertical, some .flush, [⟨"a", [⟨.equal, .name "b", none⟩]⟩, ⟨"b", []⟩],
      [.gap [⟨.atLeast, .number (.ofDigits false ['1'] []), none⟩,
        ⟨.atMost, .number (.ofDigits false ['2'] []), some 7⟩]], some .standard⟩
  have hname (c : Char) (hc : IsLetter c) : NameText (String.ofList [c]) [c] :=
    .intro hc (by simp)
  have hnumber (d : Char) (hd : Digits [d]) : NumberText (.ofDigits false [d] []) [d] :=
    @NumberText.whole false [d] hd
  have hview : ViewText ⟨"a", [⟨.equal, .name "b", none⟩]⟩ "[a(b)]".toList :=
    .sized (hname 'a' (by decide)) (.intro (.intro .unwritten (.name (hname 'b' (by decide)))
      .unwritten) .nil)
  have hgap : SpacingText (.gap [⟨.atLeast, .number (.ofDigits false ['1'] []), none⟩,
      ⟨.atMost, .number (.ofDigits false ['2'] []), some 7⟩]) "-(>=1,<=2@7)-".toList :=
    .list (.intro (.intro .atLeast (.number (hnumber '1' (by decide))) .unwritten)
      (@MoreClausesText.cons _ _ [] [] _ _ (by simp [Spaces]) (by simp [Spaces])
        (.intro .atMost (.number (hnumber '2' (by decide)))
          (@PriorityText.written ['7'] (by decide) (by decide))) .nil))
  have hmore : MoreViewsText [(_, ⟨"b", []⟩)] "-(>=1,<=2@7)-[b]".toList :=
    .cons hgap (.bare (hname 'b' (by decide))) .nil
  have hparse : parse "V:|[a(b)]-(>=1,<=2@7)-[b]-|" = .ok line :=
    parse_eq_ok_iff.mpr
      (.intro (.intro .vertical (.written .flush)) hview hmore (.written .standard))
  obtain ⟨constraints, hresolve⟩ : ∃ constraints, line.resolve (.ofFlag .alignLeft)
      { views := .ofList [("a", 0), ("b", 1)] } {} = .ok constraints := ⟨_, rfl⟩
  obtain ⟨hcomplete, ⟨stated, tied, hparts, hstated, -⟩, hlength⟩ :=
    constraints_answer_text hparse hresolve
  exact ⟨line, constraints, hparse, hresolve, hcomplete, rfl, hlength, stated,
    ⟨tied.flatten, hparts.symm⟩, hstated⟩

end Line
end LayoutLine
