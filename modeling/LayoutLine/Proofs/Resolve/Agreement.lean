import LayoutLine.Proofs.Resolve.Parts
import LayoutLine.Proofs.Table

/-!
# Resolving looks at the names of the line only

The names of a line are all that is ever looked up: its views, and what the clauses of its spacings
and lengths compare with. Bindings that agree on these names give the same outcome, complaints
included. So it does not matter what else is bound, nor in which order, nor which bits without a
meaning the options carry.
-/

namespace LayoutLine

variable {V : Type}

/-- The names stand for the same in both bindings, or for nothing in both. -/
structure Bindings.AgreeOn (a b : Bindings V) (names : List String) : Prop where
  /-- They stand for the same views. -/
  views : ∀ name ∈ names, a.views.get? name = b.views.get? name
  /-- They stand for the same lengths. -/
  metrics : ∀ name ∈ names, a.metrics.get? name = b.metrics.get? name

/-- The names that a piece mentions. -/
def Piece.names : Piece V → List String
  | .gap _ _ _ spacing => spacing.names
  | .length _ clause => clause.names

/-! ### Names of a line -/

namespace Line

/-- The names of a view of the line are among those of its views and spacings. -/
theorem view_names_subset {views : List View} {view : View} (h : view ∈ views)
    (spacings : List Spacing) : view.names ⊆ namesAlong views spacings := by
  induction views generalizing spacings with
  | nil => cases h
  | cons first views ih =>
    intro name hname
    rw [namesAlong]
    rcases List.mem_cons.mp h with rfl | h
    · exact List.mem_append_left _ (List.mem_append_left _ hname)
    · exact List.mem_append_right _ (ih h spacings.tail hname)

/-- A spacing with a view in front of it is not left out. -/
theorem spacing_names_subset {views : List View} {spacings : List Spacing} {i : Nat}
    {spacing : Spacing} (hi : i < views.length) (h : spacings[i]? = some spacing) :
    spacing.names ⊆ namesAlong views spacings := by
  induction views generalizing spacings i with
  | nil => cases hi
  | cons first views ih =>
    intro name hname
    rw [namesAlong]
    cases i with
    | zero =>
      rw [← List.head?_eq_getElem?] at h
      rw [h]
      exact List.mem_append_left _ (List.mem_append_right _ hname)
    | succ i =>
      rw [← List.getElem?_tail] at h
      exact List.mem_append_right _ (ih (Nat.lt_of_succ_lt_succ hi) h hname)

/-- No piece of a line mentions a name that the line does not. -/
theorem names_pieces_subset (span : Span) (config : StandardSpacing) (line : Line)
    (items : List (Item V)) {piece : Piece V}
    (h : piece ∈ line.pieces span config (line.views.zip items)) : piece.names ⊆ line.names := by
  have halong : namesAlong line.views line.spacings ⊆ line.names := fun name hname =>
    List.mem_append_left _ (List.mem_append_right _ hname)
  have hviews : ∀ placed ∈ line.views.zip items, placed.1 ∈ line.views := fun placed hplaced =>
    (List.of_mem_zip hplaced).1
  revert piece
  rw [forall_pieces_iff fun piece => piece.names ⊆ line.names]
  refine ⟨?_, ?_, ?_, ?_⟩
  · intro spacing hspacing first _ name hname
    rw [Option.mem_def] at hspacing
    rw [names, hspacing]
    exact List.mem_append_left _ (List.mem_append_left _ hname)
  · intro i spacing hspacing a ha b _ name hname
    obtain ⟨hi, -⟩ := List.getElem?_eq_some_iff.mp ha
    rw [List.length_zip] at hi
    exact halong (spacing_names_subset (Nat.lt_of_lt_of_le hi (Nat.min_le_left _ _)) hspacing hname)
  · intro spacing hspacing last _ name hname
    rw [Option.mem_def] at hspacing
    rw [names, hspacing]
    exact List.mem_append_right _ hname
  · intro placed hplaced piece hpiece name hname
    obtain ⟨clause, hclause, rfl⟩ := List.mem_map.mp hpiece
    exact halong (view_names_subset (hviews placed hplaced) _
      (List.mem_cons_of_mem _ (List.mem_flatMap.mpr ⟨clause, hclause, hname⟩)))

end Line

/-! ### Two resolutions -/

namespace Bindings.AgreeOn

variable {a b : Bindings V} {names : List String} (h : a.AgreeOn b names)
include h

/-- A view is found alike. -/
theorem item {name : String} (hname : name ∈ names) : a.item name = b.item name := by
  rw [Bindings.item, Bindings.item, h.views name hname]

/-- A length is found alike by a clause on a gap. -/
theorem number {clause : Line.Clause} (hnames : clause.names ⊆ names) :
    a.number clause.target = b.number clause.target := by
  obtain ⟨relation, target, priority⟩ := clause
  cases target with
  | number value => rfl
  | name name =>
    have hname : name ∈ names := hnames (List.mem_singleton_self name)
    simp only [Bindings.number, h.metrics name hname]

/-- A view or a length is found alike by a clause on a length. -/
theorem measure {clause : Line.Clause} (hnames : clause.names ⊆ names) :
    a.measure clause.target = b.measure clause.target := by
  obtain ⟨relation, target, priority⟩ := clause
  cases target with
  | number value => rfl
  | name name =>
    have hname : name ∈ names := hnames (List.mem_singleton_self name)
    simp only [Bindings.measure, h.metrics name hname, h.views name hname]

/-- A piece that mentions none but the common names comes to the same. -/
theorem constraints {piece : Piece V} (hnames : piece.names ⊆ names) :
    piece.constraints a = piece.constraints b := by
  cases piece with
  | gap first second standard spacing =>
    cases spacing with
    | flush => rfl
    | standard => rfl
    | gap clauses =>
      refine mapM_congr fun clause hclause => ?_
      have hclauseNames : clause.names ⊆ names := fun name hname =>
        hnames (List.mem_flatMap.mpr ⟨clause, hclause, hname⟩)
      have hnumber := h.number hclauseNames
      rw [Piece.ofGapClause, Piece.ofGapClause, hnumber]
  | length anchor clause =>
    rw [Piece.constraints, Piece.constraints, Piece.ofLengthClause, Piece.ofLengthClause,
      h.measure hnames]

end Bindings.AgreeOn

/-- Only flags decide which attributes a line uses. -/
theorem Span.along_congr {options options' : Options}
    (h : ∀ flag, options.has flag = options'.has flag) (axis : Axis) :
    along axis options = along axis options' := by
  cases axis with
  | vertical => rfl
  | horizontal => simp only [along, h]

/-- A line comes to the same with bindings that agree on its names and options with the same
flags. -/
theorem Bindings.AgreeOn.resolve {line : Line} {a b : Bindings V} (h : a.AgreeOn b line.names)
    {options options' : Options} (hflags : ∀ flag, options.has flag = options'.has flag)
    (config : StandardSpacing) :
    line.resolve options a config = line.resolve options' b config := by
  have hitems : line.views.mapM (a.item ·.name) = line.views.mapM (b.item ·.name) :=
    mapM_congr fun view hview => h.item (List.mem_append_left _ (List.mem_append_right _
      (Line.view_names_subset hview line.spacings List.mem_cons_self)))
  have halignments := Options.alignments_congr fun flag _ => hflags flag
  rw [Line.resolve, Line.resolve, hitems, Span.along_congr hflags, halignments]
  cases line.views.mapM (b.item ·.name) with
  | error e => rfl
  | ok items =>
    have hpieces := mapM_congr (f := Piece.constraints a) (g := Piece.constraints b)
      fun piece hpiece => h.constraints
        (Line.names_pieces_subset (Span.along line.axis options') config line items hpiece)
    simp only [bind, Except.bind, hpieces]

/-! ### Bindings that agree -/

/-- What is bound under other names as well does not count. -/
theorem Bindings.agreeOn_insertAll (bindings : Bindings V) {names : List String}
    {views : List (String × V)} {metrics : List (String × Number)}
    (hviews : ∀ name ∈ names, name ∉ views.map Prod.fst)
    (hmetrics : ∀ name ∈ names, name ∉ metrics.map Prod.fst) :
    AgreeOn ⟨bindings.views.insertAll views, bindings.metrics.insertAll metrics⟩ bindings
      names where
  views := fun name hname => bindings.views.get?_insertAll_of_notMem (hviews name hname)
  metrics := fun name hname => bindings.metrics.get?_insertAll_of_notMem (hmetrics name hname)

/-- All flags are among the declared bits. -/
theorem Options.has_declared (flag : Flag) : declared.has flag = true := by
  cases flag <;> decide

/-- Without the bits that mean nothing the flags are the same. -/
theorem Options.has_truncate (options : Options) (flag : Flag) :
    options.truncate.has flag = options.has flag := by
  have hdeclared : declared.bits.getLsbD flag.position = true := has_declared flag
  rw [truncate, has, BitVec.getLsbD_and, hdeclared, Bool.and_true, has]

namespace Line

/-- Resolving sees of the bindings only what the names of the line stand for, and of the options
only their flags. Entries under other names make no difference, nor does the order of entries, nor
do bits without a meaning. -/
theorem resolve_sees_only_names (line : Line) (config : StandardSpacing) :
    (∀ (options options' : Options) (a b : Bindings V), a.AgreeOn b line.names →
      (∀ flag, options.has flag = options'.has flag) →
      line.resolve options a config = line.resolve options' b config) ∧
    (∀ (options : Options) (bindings : Bindings V) (views : List (String × V))
      (metrics : List (String × Number)), (∀ name ∈ line.names, name ∉ views.map Prod.fst) →
      (∀ name ∈ line.names, name ∉ metrics.map Prod.fst) →
      line.resolve options
        ⟨bindings.views.insertAll views, bindings.metrics.insertAll metrics⟩ config =
        line.resolve options bindings config) ∧
    (∀ (options : Options) (a b : Bindings V), a.views.entries.Perm b.views.entries →
      a.metrics.entries.Perm b.metrics.entries →
      line.resolve options a config = line.resolve options b config) ∧
    ∀ (options : Options) (bindings : Bindings V),
      line.resolve options.truncate bindings config = line.resolve options bindings config := by
  have same (options : Options) (flag : Flag) : options.has flag = options.has flag := rfl
  refine ⟨?_, ?_, ?_, ?_⟩
  · intro options options' a b hagree hflags
    exact hagree.resolve hflags config
  · intro options bindings views metrics hviews hmetrics
    exact (bindings.agreeOn_insertAll hviews hmetrics).resolve (same options) config
  · intro options a b hviews hmetrics
    have hagree : a.AgreeOn b line.names :=
      ⟨fun name _ => Table.get?_of_perm hviews name, fun name _ => Table.get?_of_perm hmetrics name⟩
    exact hagree.resolve (same options) config
  · intro options bindings
    have hagree : bindings.AgreeOn bindings line.names := ⟨fun _ _ => rfl, fun _ _ => rfl⟩
    exact hagree.resolve options.has_truncate config

/-- A line with a gap whose length is named and a view as long as another one. -/
def mentioningLine : Line :=
  ⟨.horizontal, some (.gap [⟨.atLeast, .name "m", none⟩]),
    [⟨"a", [⟨.equal, .name "b", none⟩]⟩, ⟨"b", []⟩], [.flush], none⟩

/-- What its names stand for. -/
def mentionedBindings : Bindings Nat where
  views := .ofList [("a", 0), ("b", 1)]
  metrics := .ofList [("m", .ofInt 12)]

/-- The same and more, in another order. -/
def unmentionedBindings : Bindings Nat where
  views := .ofList [("z", 7), ("b", 1), ("a", 0)]
  metrics := .ofList [("c", .ofInt 3), ("m", .ofInt 12)]

/-- Tops are aligned in both options, one of which has a bit without a meaning as well. -/
theorem resolve_sees_only_names_reordered :
    mentionedBindings.AgreeOn unmentionedBindings mentioningLine.names ∧
    (∀ flag, (⟨9⟩ : Options).has flag = (⟨8⟩ : Options).has flag) ∧
    mentioningLine.resolve ⟨9⟩ mentionedBindings {} =
      mentioningLine.resolve ⟨8⟩ unmentionedBindings {} ∧
    (∀ name ∈ mentioningLine.names, name ∉ [("z", 7)].map Prod.fst) ∧
    mentioningLine.resolve ⟨8⟩
        ⟨mentionedBindings.views.insertAll [("z", 7)], mentionedBindings.metrics.insertAll []⟩ {} =
      mentioningLine.resolve ⟨8⟩ mentionedBindings {} ∧
    mentionedBindings.views.entries.Perm (Table.ofList [("b", 1), ("a", 0)]).entries ∧
    mentioningLine.resolve ⟨8⟩ mentionedBindings {} =
      mentioningLine.resolve ⟨8⟩
        { mentionedBindings with views := .ofList [("b", 1), ("a", 0)] } {} ∧
    (∃ constraints, mentioningLine.resolve ⟨8⟩ mentionedBindings {} = .ok constraints ∧
      constraints.length = 4) := by
  have hagree : mentionedBindings.AgreeOn unmentionedBindings mentioningLine.names :=
    ⟨by decide, by decide⟩
  have hflags (flag : Flag) : (⟨9⟩ : Options).has flag = (⟨8⟩ : Options).has flag := by
    cases flag <;> rfl
  have hextra : ∀ name ∈ mentioningLine.names, name ∉ [("z", 7)].map Prod.fst := by decide
  have hperm : mentionedBindings.views.entries.Perm (Table.ofList [("b", 1), ("a", 0)]).entries :=
    .swap _ _ _
  obtain ⟨hsame, hmore, horder, -⟩ := resolve_sees_only_names (V := Nat) mentioningLine {}
  exact ⟨hagree, hflags, hsame _ _ _ _ hagree hflags, hextra,
    hmore _ mentionedBindings _ [] hextra (fun _ _ => List.not_mem_nil), hperm,
    horder _ _ _ hperm .rfl, _, rfl, rfl⟩

end Line
end LayoutLine
