import LayoutLine.Proofs.Resolve.Parts
import Mathlib.Tactic.SplitIfs

/-!
# Why a line has no constraints

Everything in a line that keeps it from having constraints can be listed beforehand: the names of
views that are bound to nothing, then what is wrong with each clause in the order of the text, then
the alignments along the line itself. A line has constraints when the list is empty. Otherwise the
complaint is the first of the list, whatever else is wrong.
-/

namespace LayoutLine

/-! ### Failing at the first fault -/

/-- The computation fails exactly when there are faults, and then with the first of them. -/
def FailsAtFirst {α ε : Type} (x : Except ε α) (faults : List ε) : Prop :=
  ∀ e, x = .error e ↔ faults.head? = some e

namespace FailsAtFirst

variable {α β ε : Type}

theorem ok (a : α) : FailsAtFirst (.ok a : Except ε α) [] := fun _ => ⟨nofun, nofun⟩

/-- What complains does so of its first fault, whatever comes later. -/
theorem error (e : ε) (later : List ε) : FailsAtFirst (.error e : Except ε α) (e :: later) := by
  intro other
  rw [List.head?_cons, Option.some_inj, Except.error.injEq]

/-- A computation without faults gives a value, and no other does. -/
theorem exists_ok_iff {x : Except ε α} {faults : List ε} (h : FailsAtFirst x faults) :
    (∃ a, x = .ok a) ↔ faults = [] := by
  cases x with
  | error e =>
    have hhead := (h e).mp rfl
    refine iff_of_false (fun ⟨_, hok⟩ => nomatch hok) ?_
    rintro rfl
    cases hhead
  | ok a =>
    have hnone : faults.head? = none := by
      rw [Option.eq_none_iff_forall_ne_some]
      exact fun e he => nomatch (h e).mpr he
    exact iff_of_true ⟨a, rfl⟩ (List.head?_eq_none_iff.mp hnone)

/-- The faults of what comes first come first. -/
theorem bind {x : Except ε α} {next : α → Except ε β} {faults later : List ε}
    (hx : FailsAtFirst x faults) (hnext : ∀ a, x = .ok a → FailsAtFirst (next a) later) :
    FailsAtFirst (x >>= next) (faults ++ later) := by
  cases x with
  | error e =>
    have hhead := (hx e).mp rfl
    intro other
    rw [List.head?_append, hhead, Option.some_or, Option.some_inj]
    exact ⟨Except.error.inj, congrArg _⟩
  | ok a =>
    rw [hx.exists_ok_iff.mp ⟨a, rfl⟩, List.nil_append]
    exact hnext a rfl

/-- What is made of a value adds no faults. -/
theorem map {x : Except ε α} {faults : List ε} (hx : FailsAtFirst x faults) (f : α → β) :
    FailsAtFirst (x.map f) faults := by
  intro e
  rw [← hx e]
  cases x with
  | error d =>
    simp only [Except.map, Except.error.injEq]
  | ok a => exact ⟨nofun, nofun⟩

/-- The faults of a traversal are those of its steps in order. -/
theorem mapM {f : α → Except ε β} {faults : α → List ε} (hf : ∀ x, FailsAtFirst (f x) (faults x))
    (xs : List α) : FailsAtFirst (xs.mapM f) (xs.flatMap faults) := by
  induction xs with
  | nil => exact ok []
  | cons x xs ih =>
    have hlater (y : β) : FailsAtFirst (do return y :: (← xs.mapM f)) (xs.flatMap faults) := by
      have hreturn := ih.bind fun ys _ => ok (y :: ys)
      rwa [List.append_nil] at hreturn
    rw [List.mapM_cons, List.flatMap_cons]
    exact (hf x).bind fun y _ => hlater y

end FailsAtFirst

variable {V : Type}

/-! ### The faults of a line -/

namespace Line

/-- A name in a clause on a gap has to be that of a length. -/
def Target.gapFaults (bindings : Bindings V) : Target → List ResolveError
  | .number _ => []
  | .name n => if bindings.metrics.contains n then [] else [.unknownMetric n]

/-- A name in a clause on a length has to be that of a length or of a view. -/
def Target.lengthFaults (bindings : Bindings V) : Target → List ResolveError
  | .number _ => []
  | .name n =>
    if bindings.metrics.contains n || bindings.views.contains n then [] else [.unknownMetric n]

/-- A priority that is written has to lie in its range. -/
def priorityFaults : Option Nat → List ResolveError
  | none => []
  | some value => if 1 ≤ value ∧ value ≤ 1000 then [] else [.priorityOutOfRange value]

/-- What is wrong with a part: of a clause on a gap, its target before its priority, and of a clause
on a length, its priority before its target. -/
def Part.faults (bindings : Bindings V) : Part → List ResolveError
  | .spacing _ _ .flush | .spacing _ _ .standard => []
  | .spacing _ _ (.gap clauses) => clauses.flatMap fun clause =>
    clause.target.gapFaults bindings ++ priorityFaults clause.priority
  | .length _ clause => priorityFaults clause.priority ++ clause.target.lengthFaults bindings

/-- A view has to be bound. -/
def View.faults (bindings : Bindings V) (view : View) : List ResolveError :=
  if bindings.views.contains view.name then [] else [.unknownView view.name]

/-- An alignment must not run along the line. -/
def alignmentFaults (axis : Axis) (alignment : Flag × Attribute) : List ResolveError :=
  if alignment.2.axis = axis then [.alignmentAlongAxis alignment.1 axis] else []

/-- Everything that is wrong with a line: first with its views, then with its parts in the order of
the text, then with the alignments in the order of their flags. -/
def faults (line : Line) (options : Options) (bindings : Bindings V) : List ResolveError :=
  line.views.flatMap (View.faults bindings) ++ line.parts.flatMap (Part.faults bindings) ++
    options.alignments.flatMap (alignmentFaults line.axis)

/-! ### What is checked at each place -/

/-- A view is complained of when its name is bound to none. -/
theorem failsAtFirst_item (bindings : Bindings V) (view : View) :
    FailsAtFirst (bindings.item view.name) (view.faults bindings) := by
  rw [Bindings.item, View.faults, Table.contains]
  cases bindings.views.get? view.name with
  | none => exact .error _ _
  | some handle => exact .ok _

/-- A clause on a gap is complained of when its name is not that of a length. -/
theorem failsAtFirst_number (bindings : Bindings V) (target : Target) :
    FailsAtFirst (bindings.number target) (target.gapFaults bindings) := by
  cases target with
  | number value => exact .ok _
  | name name =>
    rw [Bindings.number, Target.gapFaults, Table.contains]
    cases bindings.metrics.get? name with
    | none => exact .error _ _
    | some value => exact .ok _

/-- A clause on a length is complained of when its name stands for neither a length nor a view. -/
theorem failsAtFirst_measure (bindings : Bindings V) (target : Target) :
    FailsAtFirst (bindings.measure target) (target.lengthFaults bindings) := by
  cases target with
  | number value => exact .ok _
  | name name =>
    rw [Bindings.measure, Target.lengthFaults, Table.contains, Table.contains]
    cases bindings.metrics.get? name with
    | some value => exact .ok _
    | none =>
      cases bindings.views.get? name with
      | none => exact .error _ _
      | some handle => exact .ok _

/-- A priority is complained of when it is out of range. -/
theorem failsAtFirst_clausePriority (priority : Option Nat) :
    FailsAtFirst (clausePriority priority) (priorityFaults priority) := by
  cases priority with
  | none => exact .ok _
  | some value =>
    rw [clausePriority, priorityFaults, Priority.ofNat?]
    by_cases hrange : 1 ≤ value ∧ value ≤ 1000
    · rw [dif_pos hrange, if_pos hrange]
      exact .ok _
    · rw [dif_neg hrange, if_neg hrange]
      exact .error _ _

/-- The constraints of a piece fail at what is first wrong with its part. -/
theorem failsAtFirst_constraints (bindings : Bindings V) (piece : Piece V) :
    FailsAtFirst (piece.constraints bindings) (piece.part.faults bindings) := by
  cases piece with
  | gap first second standard spacing =>
    cases spacing with
    | flush => exact .ok _
    | standard => exact .ok _
    | gap clauses =>
      refine .mapM (fun clause => ?_) clauses
      have hpriority (constant : Number) := (failsAtFirst_clausePriority clause.priority).bind
        fun priority _ => .ok (Constraint.mk first clause.relation (some second) constant priority)
      simp only [List.append_nil] at hpriority
      exact (failsAtFirst_number bindings clause.target).bind fun constant _ => hpriority constant
  | length anchor clause =>
    refine .map ?_ _
    have hmeasure (priority : Priority) := (failsAtFirst_measure bindings clause.target).bind
      fun measured _ => .ok (Constraint.mk anchor clause.relation
        (measured.1.map (Anchor.mk · anchor.attr)) measured.2 priority)
    simp only [List.append_nil] at hmeasure
    exact (failsAtFirst_clausePriority clause.priority).bind fun priority _ => hmeasure priority

/-- An alignment is complained of when it runs along the line. -/
theorem failsAtFirst_alignmentConstraints (axis : Axis) (items : List (Item V))
    (alignment : Flag × Attribute) :
    FailsAtFirst (alignmentConstraints axis items alignment) (alignmentFaults axis alignment) := by
  rw [alignmentConstraints, alignmentFaults]
  by_cases haxis : alignment.2.axis = axis
  · rw [if_pos haxis, if_pos haxis]
    exact .error _ _
  · rw [if_neg haxis, if_neg haxis]
    exact .ok _

/-! ### Lines -/

/-- Resolving a line fails at what is first wrong with it. -/
theorem failsAtFirst_resolve (line : Line) (options : Options) (bindings : Bindings V)
    (config : StandardSpacing) :
    FailsAtFirst (line.resolve options bindings config) (line.faults options bindings) := by
  rw [resolve, faults, List.append_assoc]
  refine (FailsAtFirst.mapM (failsAtFirst_item bindings) line.views).bind fun items hitems => ?_
  have hparts : line.parts.flatMap (Part.faults bindings) =
      (line.pieces (Span.along line.axis options) config (line.views.zip items)).flatMap
        fun piece => piece.part.faults bindings := by
    rw [← map_part_pieces (Span.along line.axis options) config line (zip_of_mapM_ok hitems).1
      (name?_of_items hitems), List.flatMap_map]
  rw [hparts]
  refine (FailsAtFirst.mapM (failsAtFirst_constraints bindings) _).bind fun spaced _ => ?_
  have halign := (FailsAtFirst.mapM (failsAtFirst_alignmentConstraints line.axis items)
    options.alignments).bind fun aligned _ => .ok (spaced.flatten ++ aligned.flatten)
  rwa [List.append_nil] at halign

/-! ### Lines without faults -/

/-- The priority of the clause, if one is written, lies in its range. -/
def Clause.InRange (clause : Clause) : Prop :=
  ∀ value, clause.priority = some value → 1 ≤ value ∧ value ≤ 1000

/-- The clause can be used for a gap: a name in it is that of a length. -/
def Clause.FitsGap (bindings : Bindings V) (clause : Clause) : Prop :=
  clause.InRange ∧ ∀ name, clause.target = .name name → ∃ x, bindings.metrics.get? name = some x

/-- The clause can be used for a length: a name in it is that of a length or of a view. -/
def Clause.FitsLength (bindings : Bindings V) (clause : Clause) : Prop :=
  clause.InRange ∧ ∀ name, clause.target = .name name →
    (∃ x, bindings.metrics.get? name = some x) ∨ ∃ handle, bindings.views.get? name = some handle

/-- All clauses of the spacing can be used. -/
def Spacing.Fits (bindings : Bindings V) (spacing : Spacing) : Prop :=
  ∀ clauses, spacing = .gap clauses → ∀ clause ∈ clauses, clause.FitsGap bindings

/-- Nothing keeps the line from having constraints. Spacings that have no view on each side where
they need one are not looked at. -/
structure Resolvable (line : Line) (options : Options) (bindings : Bindings V) : Prop where
  /-- Every view is bound. -/
  views : ∀ view ∈ line.views, ∃ handle, bindings.views.get? view.name = some handle
  /-- The spacing in front of the first view can be used. -/
  leading : line.views ≠ [] → ∀ spacing, line.leading = some spacing → spacing.Fits bindings
  /-- The spacings between two views can be used. -/
  between : ∀ i spacing, i + 1 < line.views.length → line.spacings[i]? = some spacing →
    spacing.Fits bindings
  /-- The spacing behind the last view can be used. -/
  trailing : line.views ≠ [] → ∀ spacing, line.trailing = some spacing → spacing.Fits bindings
  /-- The clauses on lengths can be used. -/
  lengths : ∀ view ∈ line.views, ∀ clause ∈ view.clauses, clause.FitsLength bindings
  /-- No alignment runs along the line. -/
  alignments : ∀ flag attr, options.has flag → flag.alignment? = some attr →
    attr.axis ≠ line.axis

/-- A name is bound when it stands for something. -/
theorem contains_eq_true_iff {α : Type} (table : Table α) (name : String) :
    table.contains name = true ↔ ∃ a, table.get? name = some a := Option.isSome_iff_exists

/-- The target of a clause on a gap is fine when its name, if any, stands for a length. -/
theorem gapFaults_eq_nil_iff (bindings : Bindings V) (target : Target) :
    target.gapFaults bindings = [] ↔
      ∀ name, target = .name name → ∃ x, bindings.metrics.get? name = some x := by
  cases target with
  | number value => simp [Target.gapFaults]
  | name name => simp [Target.gapFaults, contains_eq_true_iff]

/-- The target of a clause on a length is fine when its name, if any, stands for a length or a view.
-/
theorem lengthFaults_eq_nil_iff (bindings : Bindings V) (target : Target) :
    target.lengthFaults bindings = [] ↔ ∀ name, target = .name name →
      (∃ x, bindings.metrics.get? name = some x) ∨
        ∃ handle, bindings.views.get? name = some handle := by
  cases target with
  | number value => simp [Target.lengthFaults]
  | name name => simp [Target.lengthFaults, contains_eq_true_iff, or_iff_not_imp_left]

/-- A priority is fine when it lies in its range or is not written. -/
theorem priorityFaults_eq_nil_iff (clause : Clause) :
    priorityFaults clause.priority = [] ↔ clause.InRange := by
  rw [Clause.InRange]
  cases clause.priority with
  | none => simp [priorityFaults]
  | some value => simp [priorityFaults]

/-- A spacing is fine when it fits the bindings. -/
theorem faults_spacing_eq_nil_iff (bindings : Bindings V) (before after : Option String)
    (spacing : Spacing) :
    (Part.spacing before after spacing).faults bindings = [] ↔ spacing.Fits bindings := by
  cases spacing with
  | flush => simp [Part.faults, Spacing.Fits]
  | standard => simp [Part.faults, Spacing.Fits]
  | gap clauses =>
    simp [Part.faults, Spacing.Fits, Clause.FitsGap, List.flatMap_eq_nil_iff,
      gapFaults_eq_nil_iff, priorityFaults_eq_nil_iff, and_comm]

/-- A clause on a length is fine when it fits the bindings. -/
theorem faults_length_eq_nil_iff (bindings : Bindings V) (item : Option String)
    (clause : Clause) :
    (Part.length item clause).faults bindings = [] ↔ clause.FitsLength bindings := by
  rw [Part.faults, List.append_eq_nil_iff, priorityFaults_eq_nil_iff, lengthFaults_eq_nil_iff]
  rfl

/-- An alignment is fine when it runs across the line. -/
theorem alignmentFaults_eq_nil_iff (axis : Axis) (alignment : Flag × Attribute) :
    alignmentFaults axis alignment = [] ↔ alignment.2.axis ≠ axis := by
  simp [alignmentFaults]

/-- A view is fine when its name is bound to one. -/
theorem view_faults_eq_nil_iff (bindings : Bindings V) (view : View) :
    view.faults bindings = [] ↔ ∃ handle, bindings.views.get? view.name = some handle := by
  simp [View.faults, contains_eq_true_iff]

/-- Spacings at an end of a line are looked at when there is a view at that end. -/
theorem forall_end_spacing_iff {views : List View} {end? : Option View}
    (hend : end?.isSome ↔ views ≠ []) {spacing? : Option Spacing} {P : Spacing → Prop} :
    (∀ spacing ∈ spacing?, ∀ _view ∈ end?, P spacing) ↔
      (views ≠ [] → ∀ spacing, spacing? = some spacing → P spacing) := by
  constructor
  · intro h hne spacing hspacing
    obtain ⟨view, hview⟩ := Option.isSome_iff_exists.mp (hend.mpr hne)
    exact h spacing hspacing view hview
  · intro h spacing hspacing view hview
    exact h (hend.mp (Option.isSome_iff_exists.mpr ⟨view, hview⟩)) spacing hspacing

/-- The spacing at a place is looked at when there are views around that place. -/
theorem forall_between_spacing_iff {views : List View} {spacings : List Spacing}
    {P : Spacing → Prop} :
    (∀ i, ∀ spacing ∈ spacings[i]?, ∀ _a ∈ views[i]?, ∀ _b ∈ views[i + 1]?, P spacing) ↔
      ∀ i spacing, i + 1 < views.length → spacings[i]? = some spacing → P spacing := by
  constructor
  · intro h i spacing hlt hspacing
    exact h i spacing hspacing _ (List.getElem?_eq_getElem (by omega)) _
      (List.getElem?_eq_getElem hlt)
  · intro h i spacing hspacing a _ b hb
    exact h i spacing (List.getElem?_eq_some_iff.mp hb).1 hspacing

/-- A line without faults is one that nothing keeps from having constraints. -/
theorem faults_eq_nil_iff (line : Line) (options : Options) (bindings : Bindings V) :
    line.faults options bindings = [] ↔ line.Resolvable options bindings := by
  have hviews : line.views.flatMap (View.faults bindings) = [] ↔
      ∀ view ∈ line.views, ∃ handle, bindings.views.get? view.name = some handle := by
    simp only [List.flatMap_eq_nil_iff, view_faults_eq_nil_iff]
  have hparts := forall_parts_iff (fun part => part.faults bindings = []) line
  simp only [faults_spacing_eq_nil_iff, faults_length_eq_nil_iff] at hparts
  have halignments : options.alignments.flatMap (alignmentFaults line.axis) = [] ↔
      ∀ flag attr, options.has flag → flag.alignment? = some attr → attr.axis ≠ line.axis := by
    simp only [List.flatMap_eq_nil_iff, alignmentFaults_eq_nil_iff, Prod.forall,
      mem_alignments_iff, and_imp]
  have hhead : line.views.head?.isSome ↔ line.views ≠ [] := by simp
  have hlast : line.views.getLast?.isSome ↔ line.views ≠ [] := by simp
  rw [faults, List.append_eq_nil_iff, List.append_eq_nil_iff, hviews, halignments,
    List.flatMap_eq_nil_iff, hparts, forall_end_spacing_iff hhead, forall_end_spacing_iff hlast,
    forall_between_spacing_iff]
  constructor
  · rintro ⟨⟨hbound, hleading, hbetween, htrailing, hlengths⟩, hcross⟩
    exact ⟨hbound, hleading, hbetween, htrailing, hlengths, hcross⟩
  · rintro ⟨hbound, hleading, hbetween, htrailing, hlengths, hcross⟩
    exact ⟨⟨hbound, hleading, hbetween, htrailing, hlengths⟩, hcross⟩

/-! ### Priorities out of range -/

/-- The clauses of a part. -/
def Part.clauses : Part → List Clause
  | .spacing _ _ .flush | .spacing _ _ .standard => []
  | .spacing _ _ (.gap clauses) => clauses
  | .length _ clause => [clause]

/-- The clauses of a line that are looked at, in the order of the text. -/
def usedClauses (line : Line) : List Clause := line.parts.flatMap Part.clauses

/-- Of a priority nothing is complained of but its own value. -/
theorem priorityOutOfRange_mem_priorityFaults {value : Nat} {priority : Option Nat} :
    ResolveError.priorityOutOfRange value ∈ priorityFaults priority ↔
      priority = some value ∧ ¬(1 ≤ value ∧ value ≤ 1000) := by
  cases priority with
  | none => simp [priorityFaults]
  | some written =>
    rw [priorityFaults, Option.some_inj]
    split_ifs with hrange
    · refine iff_of_false List.not_mem_nil ?_
      rintro ⟨rfl, hnot⟩
      exact hnot hrange
    · rw [List.mem_singleton, ResolveError.priorityOutOfRange.injEq]
      constructor
      · rintro rfl
        exact ⟨rfl, hrange⟩
      · rintro ⟨rfl, -⟩
        rfl

/-- No target of a gap is complained of as a priority. -/
theorem priorityOutOfRange_not_mem_gapFaults (bindings : Bindings V) (target : Target)
    (value : Nat) : ResolveError.priorityOutOfRange value ∉ target.gapFaults bindings := by
  cases target with
  | number x => simp [Target.gapFaults]
  | name name => simp [Target.gapFaults]

/-- No target of a length is complained of as a priority. -/
theorem priorityOutOfRange_not_mem_lengthFaults (bindings : Bindings V) (target : Target)
    (value : Nat) : ResolveError.priorityOutOfRange value ∉ target.lengthFaults bindings := by
  cases target with
  | number x => simp [Target.lengthFaults]
  | name name => simp [Target.lengthFaults]

/-- A priority out of range is a fault of the part it is written in, with the value as written. -/
theorem priorityOutOfRange_mem_part_faults (bindings : Bindings V) (part : Part) (value : Nat) :
    .priorityOutOfRange value ∈ part.faults bindings ↔
      ∃ clause ∈ part.clauses, clause.priority = some value ∧ ¬(1 ≤ value ∧ value ≤ 1000) := by
  cases part with
  | spacing before after spacing =>
    cases spacing with
    | flush => simp [Part.faults, Part.clauses]
    | standard => simp [Part.faults, Part.clauses]
    | gap clauses =>
      simp only [Part.faults, Part.clauses, List.mem_flatMap, List.mem_append,
        priorityOutOfRange_not_mem_gapFaults, priorityOutOfRange_mem_priorityFaults, false_or]
  | length item clause =>
    simp only [Part.faults, Part.clauses, List.mem_append, List.mem_singleton, exists_eq_left,
      priorityOutOfRange_not_mem_lengthFaults, priorityOutOfRange_mem_priorityFaults, or_false]

/-- The priorities out of range among the faults of a line are those written in its clauses. -/
theorem priorityOutOfRange_mem_faults_iff (line : Line) (options : Options)
    (bindings : Bindings V) (value : Nat) :
    .priorityOutOfRange value ∈ line.faults options bindings ↔
      ∃ clause ∈ line.usedClauses,
        clause.priority = some value ∧ ¬(1 ≤ value ∧ value ≤ 1000) := by
  have hviews : .priorityOutOfRange value ∉ line.views.flatMap (View.faults bindings) := by
    simp [View.faults]
  have halignments : .priorityOutOfRange value ∉
      options.alignments.flatMap (alignmentFaults line.axis) := by
    simp [alignmentFaults]
  simp only [faults, usedClauses, List.mem_append, hviews, halignments, false_or, or_false,
    List.mem_flatMap, priorityOutOfRange_mem_part_faults]
  constructor
  · rintro ⟨part, hpart, clause, hclause, hvalue⟩
    exact ⟨clause, ⟨part, hpart, hclause⟩, hvalue⟩
  · rintro ⟨clause, ⟨part, hpart, hclause⟩, hvalue⟩
    exact ⟨part, hpart, clause, hclause, hvalue⟩

/-- A line has constraints exactly when its views are bound, the clauses that are looked at can be
used and no alignment runs along it. Otherwise the complaint is the first of its faults, and every
priority out of range that is written in a clause that is looked at is among these faults, with its
own value. -/
theorem resolve_fails_at_first_fault (line : Line) (options : Options) (bindings : Bindings V)
    (config : StandardSpacing) :
    ((∃ constraints, line.resolve options bindings config = .ok constraints) ↔
      line.Resolvable options bindings) ∧
    (∀ error, line.resolve options bindings config = .error error ↔
      (line.faults options bindings).head? = some error) ∧
    ∀ value, .priorityOutOfRange value ∈ line.faults options bindings ↔
      ∃ clause ∈ line.usedClauses,
        clause.priority = some value ∧ ¬(1 ≤ value ∧ value ≤ 1000) := by
  have hfails := failsAtFirst_resolve line options bindings config
  refine ⟨?_, hfails, priorityOutOfRange_mem_faults_iff line options bindings⟩
  rw [hfails.exists_ok_iff, faults_eq_nil_iff]

/-- A weight that is 1 in its last sixteen bits is no priority. -/
example :
    let clause : Clause := ⟨.equal, .number .zero, some 65537⟩
    let line : Line := ⟨.horizontal, none, [⟨"a", [clause]⟩], [], none⟩
    line.resolve .empty { views := .singleton "a" 0 } {} = .error (.priorityOutOfRange 65537) := rfl

end Line
end LayoutLine
