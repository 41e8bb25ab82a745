import LayoutLine.Engine
import Mathlib.Data.List.Forall2

/-!
# Resolving piece by piece

When every piece of a line gives constraints, the line gives them one after the other. Alignments
that cross the line always give theirs, one for each view after the first. An engine answers with
the constraints of the line that it reads.
-/

namespace LayoutLine

variable {V : Type}

/-- A sequence that gives a value has gone through a value of its first part. -/
theorem exists_of_bind_ok {α β ε : Type} {x : Except ε α} {f : α → Except ε β} {b : β}
    (h : (x >>= f) = .ok b) : ∃ a, x = .ok a ∧ f a = .ok b := by
  cases x with
  | error e => cases h
  | ok a => exact ⟨a, rfl, h⟩

/-- What gives a mapped value has given one. -/
theorem exists_of_map_ok {α β ε : Type} {x : Except ε α} {f : α → β} {b : β}
    (h : x.map f = .ok b) : ∃ a, x = .ok a ∧ f a = b := by
  cases x with
  | error e => cases h
  | ok a => exact ⟨a, rfl, Except.ok.inj h⟩

/-- Another complaint in the place of one leaves the values that are given. -/
theorem mapError_eq_ok_iff {α ε ε' : Type} {x : Except ε α} {f : ε → ε'} {a : α} :
    x.mapError f = .ok a ↔ x = .ok a := by
  cases x with
  | error e => exact ⟨nofun, nofun⟩
  | ok b => exact ⟨fun h => congrArg _ (Except.ok.inj h), fun h => congrArg _ (Except.ok.inj h)⟩

/-- A traversal gives these values exactly when its steps give them in order. -/
theorem mapM_eq_ok_iff {α β ε : Type} {f : α → Except ε β} {xs : List α} {ys : List β} :
    xs.mapM f = .ok ys ↔ List.Forall₂ (fun x y => f x = .ok y) xs ys := by
  constructor
  · intro h
    induction xs generalizing ys with
    | nil =>
      obtain rfl : [] = ys := Except.ok.inj h
      exact .nil
    | cons x xs ih =>
      rw [List.mapM_cons] at h
      obtain ⟨first, hfirst, h⟩ := exists_of_bind_ok h
      obtain ⟨later, hlater, h⟩ := exists_of_bind_ok h
      obtain rfl := Except.ok.inj h
      exact .cons hfirst (ih hlater)
  · intro h
    induction h with
    | nil => rfl
    | cons hfirst _ ih =>
      rw [List.mapM_cons, hfirst, ih]
      rfl

/-- A traversal in which no step fails collects the values of all steps. -/
theorem mapM_eq_ok_map {α β ε : Type} {f : α → Except ε β} {g : α → β} {xs : List α}
    (h : ∀ x ∈ xs, f x = .ok (g x)) : xs.mapM f = .ok (xs.map g) :=
  mapM_eq_ok_iff.mpr (List.forall₂_map_right_iff.mpr (List.forall₂_same.mpr h))

/-- No step of a traversal that gives a value has failed. -/
theorem exists_of_mapM_ok {α β ε : Type} {f : α → Except ε β} {xs : List α} {ys : List β}
    (h : xs.mapM f = .ok ys) {x : α} (hx : x ∈ xs) : ∃ y, f x = .ok y := by
  rw [mapM_eq_ok_iff] at h
  induction h with
  | nil => cases hx
  | cons hfirst _ ih =>
    rcases List.mem_cons.mp hx with rfl | hx
    · exact ⟨_, hfirst⟩
    · exact ih hx

/-- What a traversal that never failed has given, one of its steps has. -/
theorem exists_of_mem_mapM {α β ε : Type} {f : α → Except ε β} {xs : List α} {ys : List β}
    (h : xs.mapM f = .ok ys) {y : β} (hy : y ∈ ys) : ∃ x ∈ xs, f x = .ok y := by
  rw [mapM_eq_ok_iff] at h
  induction h with
  | nil => cases hy
  | cons hfirst _ ih =>
    rcases List.mem_cons.mp hy with rfl | hy
    · exact ⟨_, List.mem_cons_self, hfirst⟩
    · obtain ⟨x, hx, hfound⟩ := ih hy
      exact ⟨x, List.mem_cons_of_mem _ hx, hfound⟩

/-- Steps that give at least what others give make up a traversal that does. -/
theorem mapM_eq_ok_of_steps {α β ε : Type} {f g : α → Except ε β}
    (hstep : ∀ x y, f x = .ok y → g x = .ok y) {xs : List α} {ys : List β}
    (h : xs.mapM f = .ok ys) : xs.mapM g = .ok ys :=
  mapM_eq_ok_iff.mpr ((mapM_eq_ok_iff.mp h).imp hstep)

/-- A traversal that never failed, step by step with the values of its steps. -/
theorem zip_of_mapM_ok {α β ε : Type} {f : α → Except ε β} {xs : List α} {ys : List β}
    (h : xs.mapM f = .ok ys) :
    (xs.zip ys).map Prod.fst = xs ∧ (xs.zip ys).map Prod.snd = ys ∧
      ∀ p ∈ xs.zip ys, f p.1 = .ok p.2 := by
  have hsteps := mapM_eq_ok_iff.mp h
  exact ⟨List.map_fst_zip (Nat.le_of_eq hsteps.length_eq),
    List.map_snd_zip (Nat.le_of_eq hsteps.length_eq.symm),
    fun p hp => (List.forall₂_iff_zip.mp hsteps).2 hp⟩

/-- What holds of all results of a traversal that never failed holds of all its steps. -/
theorem forall_mem_mapM_iff {α β ε : Type} {f : α → Except ε β} {xs : List α} {ys : List β}
    {P : β → Prop} {Q : α → Prop} (h : xs.mapM f = .ok ys)
    (hstep : ∀ x y, f x = .ok y → (P y ↔ Q x)) : (∀ y ∈ ys, P y) ↔ ∀ x ∈ xs, Q x := by
  rw [mapM_eq_ok_iff] at h
  induction h with
  | nil => simp
  | cons hfirst _ ih =>
    rw [List.forall_mem_cons, List.forall_mem_cons]
    exact and_congr (hstep _ _ hfirst) ih

/-- Traversals with equal steps are equal, complaints included. -/
theorem mapM_congr {α β ε : Type} {f g : α → Except ε β} {xs : List α}
    (h : ∀ x ∈ xs, f x = g x) : xs.mapM f = xs.mapM g := by
  induction xs with
  | nil => rfl
  | cons x xs ih =>
    rw [List.mapM_cons, List.mapM_cons, h x List.mem_cons_self,
      ih fun y hy => h y (List.mem_cons_of_mem x hy)]

/-- The outcome with `f` of its value, or with `e` of its complaint. -/
def carry {α β ε ε' : Type} (f : α → β) (e : ε → ε') : Except ε α → Except ε' β
  | .ok a => .ok (f a)
  | .error d => .error (e d)

section Carry

variable {α α' β β' ε ε' : Type} {e : ε → ε'}

theorem carry_id (x : Except ε α) : carry id id x = x := by
  cases x with
  | error d => rfl
  | ok a => rfl

/-- A sequence whose two parts carry over carries over. -/
theorem bind_carry {g : α → α'} {k : β → β'} {x : Except ε α} {next : α → Except ε β}
    {next' : α' → Except ε' β'} (h : ∀ a, next' (g a) = carry k e (next a)) :
    (carry g e x >>= next') = carry k e (x >>= next) := by
  cases x with
  | error d => rfl
  | ok a => exact h a

/-- A traversal whose steps carry over carries over. -/
theorem mapM_carry {f : α → Except ε β} {f' : α' → Except ε' β'} {g : α → α'} {k : β → β'}
    (h : ∀ x, f' (g x) = carry k e (f x)) (xs : List α) :
    (xs.map g).mapM f' = carry (List.map k) e (xs.mapM f) := by
  induction xs with
  | nil => rfl
  | cons x xs ih =>
    rw [List.map_cons, List.mapM_cons, List.mapM_cons, h]
    refine bind_carry fun y => ?_
    rw [ih]
    exact bind_carry fun ys => rfl

end Carry

/-- A name that is bound to an item is that of a view. -/
theorem Bindings.exists_of_item {bindings : Bindings V} {name : String} {item : Item V}
    (h : bindings.item name = .ok item) :
    ∃ handle, bindings.views.get? name = some handle ∧ item = .view name handle := by
  simp only [Bindings.item] at h
  split at h
  · rename_i handle hhandle
    exact ⟨handle, hhandle, (Except.ok.inj h).symm⟩
  · cases h

/-- The alignments depend on the flags that align something. -/
theorem Options.alignments_congr {a b : Options}
    (h : ∀ flag, flag.alignment?.isSome → a.has flag = b.has flag) :
    a.alignments = b.alignments := by
  rw [alignments, alignments, flags, flags, List.filterMap_filter, List.filterMap_filter]
  congr 1
  funext flag
  cases halign : flag.alignment? with
  | none => simp
  | some attr => rw [h flag (by rw [halign]; rfl)]

theorem clausePriority_value (p : Priority) : clausePriority (some p.value) = .ok p := by
  simp only [clausePriority, Priority.ofNat?_value]

namespace Piece

/-- Pieces that all give constraints, with these constraints in order. -/
def Yields (bindings : Bindings V) (pieces : List (Piece V)) (constraints : List (Constraint V)) :
    Prop :=
  ∃ parts, pieces.mapM (Piece.constraints bindings) = .ok parts ∧ parts.flatten = constraints

variable {bindings : Bindings V}

theorem yields_nil : Yields bindings [] [] := ⟨[], rfl, rfl⟩

theorem Yields.cons {piece : Piece V} {pieces : List (Piece V)} {first later : List (Constraint V)}
    (hfirst : piece.constraints bindings = .ok first) (hlater : Yields bindings pieces later) :
    Yields bindings (piece :: pieces) (first ++ later) := by
  obtain ⟨parts, hparts, rfl⟩ := hlater
  refine ⟨first :: parts, ?_, List.flatten_cons⟩
  rw [List.mapM_cons, hfirst, hparts]
  rfl

theorem yields_singleton {piece : Piece V} {constraints : List (Constraint V)}
    (h : piece.constraints bindings = .ok constraints) : Yields bindings [piece] constraints := by
  have hcons := Yields.cons h yields_nil
  rwa [List.append_nil] at hcons

/-- Pieces yield their constraints in the order of the pieces. -/
theorem Yields.append {pieces pieces' : List (Piece V)} {first later : List (Constraint V)}
    (hfirst : Yields bindings pieces first) (hlater : Yields bindings pieces' later) :
    Yields bindings (pieces ++ pieces') (first ++ later) := by
  obtain ⟨parts, hparts, rfl⟩ := hfirst
  obtain ⟨parts', hparts', rfl⟩ := hlater
  refine ⟨parts ++ parts', ?_, List.flatten_append⟩
  rw [List.mapM_append, hparts, hparts']
  rfl

end Piece

namespace Line

/-- Neighbours are tied pair by pair. -/
theorem alignNeighbours_eq_zipWith (attr : Attribute) (items : List (Item V)) :
    alignNeighbours attr items =
      List.zipWith (fun before item => Piece.fixed ⟨item, attr⟩ ⟨before, attr⟩ .zero) items
        items.tail := by
  induction items with
  | nil => rfl
  | cons first items ih =>
    cases items with
    | nil => rfl
    | cons second items =>
      rw [alignNeighbours, ih]
      rfl

theorem mem_alignments_iff (options : Options) (flag : Flag) (attr : Attribute) :
    (flag, attr) ∈ options.alignments ↔ options.has flag ∧ flag.alignment? = some attr := by
  simp [Options.alignments, List.mem_filterMap]

/-- Alignments that cross the line give their constraints. -/
theorem mapM_alignmentConstraints {axis : Axis} {alignments : List (Flag × Attribute)}
    (h : ∀ alignment ∈ alignments, alignment.2.axis ≠ axis) (items : List (Item V)) :
    alignments.mapM (alignmentConstraints axis items) =
      .ok (alignments.map fun alignment => alignNeighbours alignment.2 items) :=
  mapM_eq_ok_map fun alignment halignment => if_neg (h alignment halignment)

/-- A line whose names are bound, whose pieces give constraints and whose alignments cross it
gives the constraints of the pieces and of the alignments. -/
theorem resolve_of_yields {line : Line} {options : Options} {bindings : Bindings V}
    {config : StandardSpacing} {items : List (Item V)} {constraints : List (Constraint V)}
    (hitems : line.views.mapM (bindings.item ·.name) = .ok items)
    (hpieces : Piece.Yields bindings
      (line.pieces (Span.along line.axis options) config (line.views.zip items)) constraints)
    (hcross : ∀ alignment ∈ options.alignments, alignment.2.axis ≠ line.axis) :
    line.resolve options bindings config = .ok (constraints ++
      options.alignments.flatMap fun alignment => alignNeighbours alignment.2 items) := by
  obtain ⟨parts, hparts, rfl⟩ := hpieces
  rw [List.flatMap_def]
  simp only [resolve, hitems, hparts, mapM_alignmentConstraints hcross, bind, Except.bind]
  rfl

/-- A line that gives constraints has its names bound, its pieces give constraints, and its
alignments cross it. -/
theorem exists_of_resolve {line : Line} {options : Options} {bindings : Bindings V}
    {config : StandardSpacing} {constraints : List (Constraint V)}
    (h : line.resolve options bindings config = .ok constraints) :
    ∃ items spaced, line.views.mapM (bindings.item ·.name) = .ok items ∧
      Piece.Yields bindings
        (line.pieces (Span.along line.axis options) config (line.views.zip items)) spaced ∧
      (∀ alignment ∈ options.alignments, alignment.2.axis ≠ line.axis) ∧
      constraints = spaced ++
        options.alignments.flatMap fun alignment => alignNeighbours alignment.2 items := by
  obtain ⟨items, hitems, h⟩ := exists_of_bind_ok h
  obtain ⟨parts, hparts, h⟩ := exists_of_bind_ok h
  obtain ⟨aligned, haligned, h⟩ := exists_of_bind_ok h
  have hcross : ∀ alignment ∈ options.alignments, alignment.2.axis ≠ line.axis := by
    intro alignment hmem haxis
    obtain ⟨tied, htied⟩ := exists_of_mapM_ok haligned hmem
    rw [alignmentConstraints, if_pos haxis] at htied
    cases htied
  rw [mapM_alignmentConstraints hcross] at haligned
  obtain rfl := Except.ok.inj haligned
  obtain rfl := Except.ok.inj h
  exact ⟨items, parts.flatten, hitems, ⟨parts, hparts, rfl⟩, hcross, by rw [List.flatMap_def]⟩

/-- A text has constraints when it is read as a line that resolves to them. -/
theorem constraintsOf_eq_ok_iff {text : String} {options : Options} {bindings : Bindings V}
    {config : StandardSpacing} {constraints : List (Constraint V)} :
    constraintsOf text options bindings config = .ok constraints ↔
      ∃ line, parse text = .ok line ∧
        line.resolve options bindings config = .ok constraints := by
  constructor
  · intro h
    obtain ⟨line, hparse, hresolve⟩ := exists_of_bind_ok h
    exact ⟨line, mapError_eq_ok_iff.mp hparse, mapError_eq_ok_iff.mp hresolve⟩
  · rintro ⟨line, hparse, hresolve⟩
    rw [constraintsOf, mapError_eq_ok_iff.mpr hparse]
    exact mapError_eq_ok_iff.mpr hresolve

end Line

/-- What the engine answers is what the text comes to. -/
theorem FormatEngine.answer_eq (engine : FormatEngine V) (text : String) (options : Options)
    (bindings : Bindings V) :
    (engine.constraintsFor text options bindings).1 =
      Line.constraintsOf text options bindings engine.config := by
  rw [constraintsFor]
  split
  · exact Eq.symm ‹_›
  · exact Eq.symm ‹_›

theorem FormatEngine.constraintsFor_eq_ok_iff {engine : FormatEngine V} {text : String}
    {options : Options} {bindings : Bindings V} {constraints : List (Constraint V)} :
    (engine.constraintsFor text options bindings).1 = .ok constraints ↔
      ∃ line, Line.parse text = .ok line ∧
        line.resolve options bindings engine.config = .ok constraints := by
  rw [answer_eq, Line.constraintsOf_eq_ok_iff]

end LayoutLine
