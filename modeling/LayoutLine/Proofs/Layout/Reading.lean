import LayoutLine.Proofs.Layout.Assignment
import LayoutLine.Proofs.Resolve.Parts
import Mathlib.Tactic.MkIffOfInductiveProp

/-!
# What a line says

A line says how far its views lie from one another and from the edges of the container, how long
they are, and which of their attributes agree. That is read off the line here with the help of its
bindings, and no constraint is mentioned. The constraints a line resolves to say the same: they are
met by the assignments of which the line holds, and by no others.
-/

namespace LayoutLine

variable {V : Type}

/-! ### The reading -/

/-- The view under this name has this value at an attribute. -/
def Assignment.Measures (σ : Assignment V) (bindings : Bindings V) (name : String)
    (attr : Attribute) (x : Rat) : Prop :=
  ∃ handle, bindings.views.get? name = some handle ∧ σ.view handle attr = x

namespace Line

/-- The target of a clause on a gap is this number: a name is that of a length. -/
def Target.IsGap (bindings : Bindings V) : Target → Rat → Prop
  | .number x, k => x.value? = some k
  | .name n, k => ∃ x, bindings.metrics.get? n = some x ∧ x.value? = some k

/-- The target of a clause on a length is this number. A name is that of a length, or else that of
a view, whose own length is meant. -/
def Target.IsLength (bindings : Bindings V) (σ : Assignment V) (attr : Attribute) :
    Target → Rat → Prop
  | .number x, k => x.value? = some k
  | .name n, k =>
    match bindings.metrics.get? n with
    | some x => x.value? = some k
    | none => σ.Measures bindings n attr k

/-- The spacing allows two neighbours to lie this far apart. A bare dash stands for `standard`. -/
def Spacing.Allows (bindings : Bindings V) (standard : Number) : Spacing → Rat → Prop
  | .flush, distance => distance = 0
  | .standard, distance => standard.value? = some distance
  | .gap clauses, distance =>
    ∀ clause ∈ clauses, ∃ k, clause.target.IsGap bindings k ∧ clause.relation.Holds distance k

/-- The clause allows a view to have this length. -/
def Clause.Allows (bindings : Bindings V) (σ : Assignment V) (attr : Attribute) (clause : Clause)
    (length : Rat) : Prop :=
  ∃ k, clause.target.IsLength bindings σ attr k ∧ clause.relation.Holds length k

/-- The line holds of an assignment when it uses these attributes. -/
@[mk_iff]
structure HoldsAlong (span : Span) (config : StandardSpacing) (bindings : Bindings V)
    (line : Line) (σ : Assignment V) : Prop where
  /-- The first view starts where the first edge of the container and the spacing behind it let
  it. -/
  leading : ∀ spacing ∈ line.leading, ∀ first ∈ line.views.head?,
    ∃ start, σ.Measures bindings first.name span.start start ∧
      spacing.Allows bindings config.edge (start - σ.container span.start)
  /-- Each further view starts where the one before it and the spacing between the two let it. -/
  between : ∀ i, ∀ spacing ∈ line.spacings[i]?,
    ∀ before ∈ line.views[i]?, ∀ after ∈ line.views[i + 1]?,
    ∃ start, σ.Measures bindings after.name span.start start ∧
      ∃ stop, σ.Measures bindings before.name span.stop stop ∧
        spacing.Allows bindings config.between (start - stop)
  /-- The container stops where the last view and the spacing behind it let it. -/
  trailing : ∀ spacing ∈ line.trailing, ∀ last ∈ line.views.getLast?,
    ∃ stop, σ.Measures bindings last.name span.stop stop ∧
      spacing.Allows bindings config.edge (σ.container span.stop - stop)
  /-- Each view has a length that all its clauses allow. -/
  length : ∀ view ∈ line.views, ∀ clause ∈ view.clauses,
    ∃ length, σ.Measures bindings view.name span.length length ∧
      clause.Allows bindings σ span.length length

/-- All views of the line agree in every attribute that the options align. -/
def Aligned (options : Options) (bindings : Bindings V) (line : Line) (σ : Assignment V) : Prop :=
  ∀ flag attr, options.has flag → flag.alignment? = some attr →
    ∀ a ∈ line.views, ∀ b ∈ line.views,
      ∃ x, σ.Measures bindings a.name attr x ∧ σ.Measures bindings b.name attr x

/-- The line holds of an assignment under options. -/
def Holds (line : Line) (options : Options) (bindings : Bindings V) (config : StandardSpacing)
    (σ : Assignment V) : Prop :=
  line.HoldsAlong (Span.along line.axis options) config bindings σ ∧
    line.Aligned options bindings σ

end Line

/-! ### Pieces -/

namespace Assignment

variable (σ : Assignment V)

theorem meets_singleton (c : Constraint V) : σ.Meets [c] ↔ c.Met σ := List.forall_mem_singleton

theorem meets_append (constraints later : List (Constraint V)) :
    σ.Meets (constraints ++ later) ↔ σ.Meets constraints ∧ σ.Meets later := List.forall_mem_append

theorem meets_flatMap {α : Type} (xs : List α) (f : α → List (Constraint V)) :
    σ.Meets (xs.flatMap f) ↔ ∀ x ∈ xs, σ.Meets (f x) := List.forall_mem_flatMap

end Assignment

namespace Piece

/-- What a piece of a line says of an assignment. -/
def Holds (bindings : Bindings V) (σ : Assignment V) : Piece V → Prop
  | .gap first second standard spacing =>
    spacing.Allows bindings standard (σ.measure first - σ.measure second)
  | .length anchor clause => clause.Allows bindings σ anchor.attr (σ.measure anchor)

variable {bindings : Bindings V} {σ : Assignment V}

/-- A fixed distance is met by sides that lie just so far apart. -/
theorem met_fixed (first second : Anchor V) (distance : Number) :
    (fixed first second distance).Met σ ↔
      distance.value? = some (σ.measure first - σ.measure second) := by
  rw [Constraint.met_iff_allows]
  constructor
  · rintro ⟨k, hk, hholds⟩
    have heq : σ.measure first - σ.measure second = k := hholds
    rw [heq]
    exact hk
  · intro hk
    exact ⟨_, hk, rfl⟩

/-- The number that a target of a gap stands for is the one the reading gives it. -/
theorem isGap_iff {target : Line.Target} {constant : Number}
    (h : bindings.number target = .ok constant) (k : Rat) :
    target.IsGap bindings k ↔ constant.value? = some k := by
  cases target with
  | number value =>
    obtain rfl := Except.ok.inj h
    rfl
  | name name =>
    simp only [Bindings.number] at h
    split at h
    · rename_i value hvalue
      obtain rfl := Except.ok.inj h
      simp only [Line.Target.IsGap, hvalue, Option.some.injEq, exists_eq_left']
    · cases h

/-- What a target of a length stands for, an item's length plus a number, is what the reading gives
it. -/
theorem isLength_iff {target : Line.Target} {item : Option (Item V)} {constant : Number}
    (h : bindings.measure target = .ok (item, constant)) (attr : Attribute) (k : Rat) :
    target.IsLength bindings σ attr k ↔ ∃ x, constant.value? = some x ∧
      k = (item.map fun item => σ.measure ⟨item, attr⟩).getD 0 + x := by
  cases target with
  | number value =>
    obtain ⟨rfl, rfl⟩ := Prod.mk.inj (Except.ok.inj h)
    simp only [Line.Target.IsLength, Option.map_none, Option.getD_none, Rat.zero_add,
      exists_eq_right']
  | name name =>
    simp only [Bindings.measure] at h
    split at h
    · rename_i value hvalue
      obtain ⟨rfl, rfl⟩ := Prod.mk.inj (Except.ok.inj h)
      simp only [Line.Target.IsLength, hvalue, Option.map_none, Option.getD_none, Rat.zero_add,
        exists_eq_right']
    · rename_i handle hnone hhandle
      obtain ⟨rfl, rfl⟩ := Prod.mk.inj (Except.ok.inj h)
      simp only [Line.Target.IsLength, hnone, Assignment.Measures, hhandle, Option.some.injEq,
        exists_eq_left', Number.value?_zero, Option.map_some, Option.getD_some, Rat.add_zero]
      exact eq_comm
    · cases h

/-- The constraint of a clause on a gap is met when the distance is as the clause wants it. -/
theorem met_ofGapClause {first second : Anchor V} {clause : Line.Clause} {c : Constraint V}
    (h : ofGapClause bindings first second clause = .ok c) :
    c.Met σ ↔ ∃ k, clause.target.IsGap bindings k ∧
      clause.relation.Holds (σ.measure first - σ.measure second) k := by
  obtain ⟨constant, hconstant, h⟩ := exists_of_bind_ok h
  obtain ⟨priority, -, h⟩ := exists_of_bind_ok h
  obtain rfl := Except.ok.inj h
  simp only [Constraint.met_iff_allows, Constraint.Allows, Assignment.base, isGap_iff hconstant]

/-- The constraint of a clause on a length is met when the length is as the clause wants it. -/
theorem met_ofLengthClause {anchor : Anchor V} {clause : Line.Clause} {c : Constraint V}
    (h : ofLengthClause bindings anchor clause = .ok c) :
    c.Met σ ↔ clause.Allows bindings σ anchor.attr (σ.measure anchor) := by
  obtain ⟨priority, -, h⟩ := exists_of_bind_ok h
  obtain ⟨⟨item, constant⟩, hmeasure, h⟩ := exists_of_bind_ok h
  obtain rfl := Except.ok.inj h
  have hbase : σ.base ⟨anchor, clause.relation, item.map (Anchor.mk · anchor.attr), constant,
      priority⟩ = (item.map fun item => σ.measure ⟨item, anchor.attr⟩).getD 0 := by
    cases item with
    | none => rfl
    | some item => rfl
  simp only [Constraint.Met, hbase, Line.Clause.Allows, isLength_iff hmeasure]
  constructor
  · rintro ⟨x, hx, hholds⟩
    exact ⟨_, ⟨x, hx, rfl⟩, hholds⟩
  · rintro ⟨k, ⟨x, hx, rfl⟩, hholds⟩
    exact ⟨x, hx, hholds⟩

/-- The constraints of a piece are met when the piece holds. -/
theorem meets_constraints_iff {piece : Piece V} {constraints : List (Constraint V)}
    (h : piece.constraints bindings = .ok constraints) :
    σ.Meets constraints ↔ piece.Holds bindings σ := by
  cases piece with
  | gap first second standard spacing =>
    cases spacing with
    | flush =>
      obtain rfl := Except.ok.inj h
      rw [Assignment.meets_singleton, met_fixed, Number.value?_zero, Option.some_inj]
      exact eq_comm
    | standard =>
      obtain rfl := Except.ok.inj h
      rw [Assignment.meets_singleton, met_fixed]
      rfl
    | gap clauses =>
      exact forall_mem_mapM_iff h fun _ _ => met_ofGapClause
  | length anchor clause =>
    obtain ⟨c, hclause, rfl⟩ := exists_of_map_ok h
    rw [Assignment.meets_singleton]
    exact met_ofLengthClause hclause

/-- The constraints that pieces yield are met when all pieces hold. -/
theorem Yields.meets_iff {pieces : List (Piece V)} {constraints : List (Constraint V)}
    (h : Yields bindings pieces constraints) :
    σ.Meets constraints ↔ ∀ piece ∈ pieces, piece.Holds bindings σ := by
  obtain ⟨parts, hparts, rfl⟩ := h
  rw [← List.flatMap_id, Assignment.meets_flatMap]
  exact forall_mem_mapM_iff hparts fun _ _ => meets_constraints_iff

end Piece

/-! ### Lines -/

namespace Line

variable {bindings : Bindings V} {σ : Assignment V}

/-- A name that is bound is measured at its item. -/
theorem measures_iff {name : String} {item : Item V} (h : bindings.item name = .ok item)
    (attr : Attribute) (x : Rat) :
    σ.Measures bindings name attr x ↔ σ.measure ⟨item, attr⟩ = x := by
  obtain ⟨handle, hhandle, rfl⟩ := Bindings.exists_of_item h
  simp only [Assignment.Measures, hhandle, Option.some.injEq, exists_eq_left']
  rfl

theorem exists_measures_iff {name : String} {item : Item V} (h : bindings.item name = .ok item)
    (attr : Attribute) (P : Rat → Prop) :
    (∃ x, σ.Measures bindings name attr x ∧ P x) ↔ P (σ.measure ⟨item, attr⟩) := by
  simp only [measures_iff h, exists_eq_left']

/-- What is read of the view at one end of a line is said of its item. -/
theorem forall_end_iff {placed? : Option (Placed V)}
    (hitem : ∀ view ∈ placed?, bindings.item view.1.name = .ok view.2)
    (attr : Attribute) (P : Rat → Prop) :
    (∀ view ∈ placed?.map Prod.fst, ∃ x, σ.Measures bindings view.name attr x ∧ P x) ↔
      ∀ view ∈ placed?, P (σ.measure ⟨view.2, attr⟩) := by
  cases placed? with
  | none => simp
  | some placed =>
    simp only [Option.map_some, Option.mem_def, Option.some.injEq, forall_eq',
      exists_measures_iff (hitem placed rfl)]

/-- A line holds along its attributes when all its pieces hold. -/
theorem holdsAlong_iff_pieces {line : Line} {span : Span} {config : StandardSpacing}
    {placed : List (Placed V)} (hviews : placed.map Prod.fst = line.views)
    (hitem : ∀ view ∈ placed, bindings.item view.1.name = .ok view.2) :
    line.HoldsAlong span config bindings σ ↔
      ∀ piece ∈ line.pieces span config placed, piece.Holds bindings σ := by
  have hmeasure : ∀ view ∈ placed, ∀ attr (P : Rat → Prop),
      (∃ x, σ.Measures bindings view.1.name attr x ∧ P x) ↔ P (σ.measure ⟨view.2, attr⟩) :=
    fun view hview => exists_measures_iff (hitem view hview)
  rw [forall_pieces_iff, holdsAlong_iff, ← hviews, List.head?_map, List.getLast?_map]
  refine and_congr ?leading (and_congr ?between (and_congr ?trailing ?length))
  case leading =>
    exact forall₂_congr fun spacing _ =>
      forall_end_iff (fun view hview => hitem view (List.mem_of_head? hview)) _ _
  case trailing =>
    exact forall₂_congr fun spacing _ =>
      forall_end_iff (fun view hview => hitem view (List.mem_of_getLast? hview)) _ _
  case between =>
    simp only [List.getElem?_map]
    constructor
    · intro h i spacing hspacing a ha b hb
      have hread := h i spacing hspacing a.1 (Option.mem_map_of_mem _ ha) b.1
        (Option.mem_map_of_mem _ hb)
      rwa [hmeasure b (List.mem_of_getElem? hb), hmeasure a (List.mem_of_getElem? ha)] at hread
    · intro h i spacing hspacing before hbefore after hafter
      obtain ⟨a, ha, rfl⟩ := Option.map_eq_some_iff.mp hbefore
      obtain ⟨b, hb, rfl⟩ := Option.map_eq_some_iff.mp hafter
      rw [hmeasure b (List.mem_of_getElem? hb), hmeasure a (List.mem_of_getElem? ha)]
      exact h i spacing hspacing a ha b hb
  case length =>
    simp only [List.forall_mem_map, lengthPieces]
    exact forall₂_congr fun view hview => forall₂_congr fun clause _ => hmeasure view hview _ _

/-- Neighbours that are tied pair by pair all agree. -/
theorem meets_alignNeighbours_iff (attr : Attribute) (items : List (Item V)) :
    σ.Meets (alignNeighbours attr items) ↔
      ∀ a ∈ items, ∀ b ∈ items, σ.measure ⟨a, attr⟩ = σ.measure ⟨b, attr⟩ := by
  induction items with
  | nil => simp [alignNeighbours, Assignment.Meets]
  | cons first items ih =>
    cases items with
    | nil => simp [alignNeighbours, Assignment.Meets]
    | cons second items =>
      have htied : (Piece.fixed ⟨second, attr⟩ ⟨first, attr⟩ Number.zero).Met σ ↔
          σ.measure ⟨second, attr⟩ = σ.measure ⟨first, attr⟩ := by
        rw [Piece.met_fixed, Number.value?_zero, Option.some_inj]
        grind
      have hmeets : σ.Meets (alignNeighbours attr (first :: second :: items)) ↔
          σ.measure ⟨second, attr⟩ = σ.measure ⟨first, attr⟩ ∧
            σ.Meets (alignNeighbours attr (second :: items)) := by
        rw [← htied]
        exact List.forall_mem_cons
      rw [hmeets, ih]
      constructor
      · rintro ⟨hfirst, hlater⟩
        have hall : ∀ a ∈ first :: second :: items,
            σ.measure ⟨a, attr⟩ = σ.measure ⟨second, attr⟩ :=
          List.forall_mem_cons.mpr
            ⟨hfirst.symm, fun a ha => hlater a ha second List.mem_cons_self⟩
        exact fun a ha b hb => (hall a ha).trans (hall b hb).symm
      · intro hall
        exact ⟨hall _ (List.mem_cons_of_mem _ List.mem_cons_self) _ List.mem_cons_self,
          fun a ha b hb => hall a (List.mem_cons_of_mem _ ha) b (List.mem_cons_of_mem _ hb)⟩

/-- The views of a line are aligned when every alignment ties their items. -/
theorem aligned_iff {line : Line} {placed : List (Placed V)}
    (hviews : placed.map Prod.fst = line.views)
    (hitem : ∀ view ∈ placed, bindings.item view.1.name = .ok view.2) (options : Options) :
    line.Aligned options bindings σ ↔
      σ.Meets (options.alignments.flatMap fun alignment =>
        alignNeighbours alignment.2 (placed.map Prod.snd)) := by
  have hagree : ∀ attr, (∀ a ∈ line.views, ∀ b ∈ line.views,
      ∃ x, σ.Measures bindings a.name attr x ∧ σ.Measures bindings b.name attr x) ↔
        σ.Meets (alignNeighbours attr (placed.map Prod.snd)) := by
    intro attr
    rw [meets_alignNeighbours_iff, ← hviews]
    simp only [List.forall_mem_map]
    refine forall₂_congr fun a ha => forall₂_congr fun b hb => ?_
    rw [exists_measures_iff (hitem a ha), measures_iff (hitem b hb)]
    exact eq_comm
  simp only [Aligned, Assignment.meets_flatMap, hagree, Prod.forall, mem_alignments_iff, and_imp]

/-- The constraints that a line resolves to are met by the assignments of which the line holds, and
by no others. -/
theorem meets_iff_holds {line : Line} {options : Options} {config : StandardSpacing}
    {constraints : List (Constraint V)}
    (h : line.resolve options bindings config = .ok constraints) (σ : Assignment V) :
    σ.Meets constraints ↔ line.Holds options bindings config σ := by
  obtain ⟨items, spaced, hitems, hpieces, -, rfl⟩ := exists_of_resolve h
  obtain ⟨hviews, hsnd, hitem⟩ := zip_of_mapM_ok hitems
  rw [Assignment.meets_append, hpieces.meets_iff, Holds, holdsAlong_iff_pieces hviews hitem,
    aligned_iff hviews hitem, hsnd]

/-- Two views and a length under their names. -/
def paddedViews : Bindings Nat where
  views := .ofList [("a", 0), ("b", 1)]
  metrics := .ofList [("pad", .ofInt 12)]

/-- `H:|-[a(pad)]-(>=4,<=pad)-[b(a)]|` with the tops aligned. -/
theorem meets_iff_holds_padded_line :
    ∃ (line : Line) (constraints : List (Constraint Nat)),
      line.spacings.length + 1 = line.views.length ∧
      line.resolve (.ofFlag .alignTop) paddedViews {} = .ok constraints ∧
      constraints.length = 7 ∧ (∀ c ∈ constraints, c.constant.value?.isSome) ∧
      ∀ σ : Assignment Nat,
        σ.Meets constraints ↔ line.Holds (.ofFlag .alignTop) paddedViews {} σ := by
  let line : Line :=
    ⟨.horizontal, some .standard,
      [⟨"a", [⟨.equal, .name "pad", none⟩]⟩, ⟨"b", [⟨.equal, .name "a", none⟩]⟩],
      [.gap [⟨.atLeast, .number (.ofInt 4), none⟩, ⟨.atMost, .name "pad", some 750⟩]],
      some .flush⟩
  let a : Item Nat := .view "a" 0
  let b : Item Nat := .view "b" 1
  let constraints : List (Constraint Nat) :=
    [⟨⟨a, .leading⟩, .equal, some ⟨.container, .leading⟩, .ofInt 20, .required⟩,
      ⟨⟨a, .width⟩, .equal, none, .ofInt 12, .required⟩,
      ⟨⟨b, .leading⟩, .atLeast, some ⟨a, .trailing⟩, .ofInt 4, .required⟩,
      ⟨⟨b, .leading⟩, .atMost, some ⟨a, .trailing⟩, .ofInt 12, .high⟩,
      ⟨⟨b, .width⟩, .equal, some ⟨a, .width⟩, .zero, .required⟩,
      ⟨⟨.container, .trailing⟩, .equal, some ⟨b, .trailing⟩, .zero, .required⟩,
      ⟨⟨b, .top⟩, .equal, some ⟨a, .top⟩, .zero, .required⟩]
  have hresolve : line.resolve (.ofFlag .alignTop) paddedViews {} = .ok constraints := rfl
  exact ⟨line, constraints, rfl, hresolve, rfl, by decide, meets_iff_holds hresolve⟩

end Line
end LayoutLine
