import LayoutLine.Proofs.Resolve.Carrying
import Mathlib.Data.List.Nodup
import Mathlib.Tactic.SplitIfs

/-!
# Names are only names

Names can be replaced by others in a line and in the tables it is resolved with, as long as
different names stay different. A name is then found where the old one was, as a length, as a view
or not at all, so the constraints are the same up to the names of their items, and a complaint is
the same up to the name it is about.
-/

namespace LayoutLine

variable {V α : Type}

/-! ### Other names -/

/-- The item under its new name. -/
def Item.rename (r : String → String) : Item V → Item V
  | .view name handle => .view (r name) handle
  | .container => .container

/-- The constraint between the items under their new names. -/
def Constraint.rename (r : String → String) (c : Constraint V) : Constraint V :=
  c.map (Item.rename r) id

/-- The complaint about the new name. -/
def ResolveError.rename (r : String → String) : ResolveError → ResolveError
  | .unknownView name => .unknownView (r name)
  | .unknownMetric name => .unknownMetric (r name)
  | .priorityOutOfRange value => .priorityOutOfRange value
  | .alignmentAlongAxis flag axis => .alignmentAlongAxis flag axis

namespace Line

/-- The target with its new name, if it is a name. -/
def Target.rename (r : String → String) : Target → Target
  | .number value => .number value
  | .name n => .name (r n)

/-- The clause with its target under the new name. -/
def Clause.rename (r : String → String) (clause : Clause) : Clause :=
  { clause with target := clause.target.rename r }

/-- The line with new names for its views and in all of its clauses. -/
def rename (r : String → String) (line : Line) : Line :=
  line.map line.axis r (Clause.rename r)

end Line

section Tables

variable {r : String → String}

/-- The table with every value in its place under the new name. -/
def Table.rename (r : String → String) (hr : Function.Injective r) (t : Table α) : Table α where
  entries := t.entries.map fun entry => (r entry.1, entry.2)
  nodup := by
    have hnames : (t.entries.map fun entry => (r entry.1, entry.2)).map Prod.fst =
        (t.entries.map Prod.fst).map r := by simp only [List.map_map, Function.comp_def]
    rw [hnames]
    exact t.nodup.map hr

/-- Both tables with new names. -/
def Bindings.rename (r : String → String) (hr : Function.Injective r) (bindings : Bindings V) :
    Bindings V :=
  ⟨bindings.views.rename r hr, bindings.metrics.rename r hr⟩

/-- Under a new name an entry is found that was found under the old one, since no two names become
one. -/
theorem lookup_rename (hr : Function.Injective r) (entries : List (String × α)) (name : String) :
    (entries.map fun entry => (r entry.1, entry.2)).lookup (r name) = entries.lookup name := by
  induction entries with
  | nil => rfl
  | cons entry entries ih =>
    rw [List.map_cons, List.lookup_cons, List.lookup_cons, ih]
    by_cases h : name = entry.1
    · simp [h]
    · simp [beq_eq_false_iff_ne.mpr h, beq_eq_false_iff_ne.mpr (hr.ne h)]

@[simp] theorem Table.get?_rename (hr : Function.Injective r) (t : Table α) (name : String) :
    (t.rename r hr).get? (r name) = t.get? name := lookup_rename hr t.entries name

/-! ### Looking up new names -/

namespace Bindings

/-- A view is found under its new name, or the complaint has the new name. -/
theorem item_rename (hr : Function.Injective r) (bindings : Bindings V) (name : String) :
    (bindings.rename r hr).item (r name) =
      carry (Item.rename r) (.rename r) (bindings.item name) := by
  simp only [item, rename, Table.get?_rename]
  cases bindings.views.get? name with
  | none => rfl
  | some handle => rfl

/-- A clause on a gap finds its length under the new name, or complains of that. -/
theorem number_rename (hr : Function.Injective r) (bindings : Bindings V) (target : Line.Target) :
    (bindings.rename r hr).number (target.rename r) =
      carry id (.rename r) (bindings.number target) := by
  cases target with
  | number value => rfl
  | name name =>
    simp only [number, rename, Line.Target.rename, Table.get?_rename]
    cases bindings.metrics.get? name with
    | none => rfl
    | some value => rfl

/-- A clause on a length finds its view or its length under the new name, or complains of that. -/
theorem measure_rename (hr : Function.Injective r) (bindings : Bindings V)
    (target : Line.Target) :
    (bindings.rename r hr).measure (target.rename r) =
      carry (Prod.map (Option.map (Item.rename r)) id) (.rename r) (bindings.measure target) := by
  cases target with
  | number value => rfl
  | name name =>
    simp only [measure, rename, Line.Target.rename, Table.get?_rename]
    cases bindings.metrics.get? name with
    | some value => rfl
    | none =>
      cases bindings.views.get? name with
      | none => rfl
      | some handle => rfl

/-- A priority has no names in it. -/
theorem clausePriority_rename (priority : Option Nat) :
    clausePriority priority = carry id (.rename r) (clausePriority priority) := by
  cases priority with
  | none => rfl
  | some value =>
    simp only [clausePriority]
    cases Priority.ofNat? value with
    | none => rfl
    | some priority => rfl

/-- Renamed bindings answer renamed clauses as the bindings answered the clauses. -/
theorem carried_rename (hr : Function.Injective r) (bindings : Bindings V) :
    bindings.Carried (Item.rename r) (Line.Clause.rename r) (.rename r)
      (bindings.rename r hr) where
  relation := fun _ => rfl
  priority := fun c => clausePriority_rename c.priority
  number := fun c => number_rename hr bindings c.target
  measure := fun c => measure_rename hr bindings c.target

end Bindings

/-- Alignments have no names in them but those of the items. -/
theorem alignmentConstraints_rename (r : String → String) (axis : Axis) (items : List (Item V))
    (alignment : Flag × Attribute) :
    Line.alignmentConstraints axis (items.map (Item.rename r)) alignment =
      carry (List.map (Constraint.rename r)) (.rename r)
        (Line.alignmentConstraints axis items alignment) := by
  rw [Line.alignmentConstraints, Line.alignmentConstraints]
  by_cases h : alignment.2.axis = axis
  · rw [if_pos h, if_pos h]
    rfl
  · rw [if_neg h, if_neg h]
    exact congrArg _ (Line.alignNeighbours_map (Item.rename r) id alignment.2 items)

end Tables

namespace Line

/-- Resolving a line under new names gives what the line gives, under the new names: the constraints
with the items renamed, or the complaint with its name renamed. -/
theorem resolve_rename (r : String → String) (hr : Function.Injective r) (line : Line)
    (options : Options) (bindings : Bindings V) (config : StandardSpacing) :
    (line.rename r).resolve options (bindings.rename r hr) config =
      carry (List.map (Constraint.rename r)) (.rename r)
        (line.resolve options bindings config) := by
  refine (bindings.carried_rename hr).resolve rfl (bindings.item_rename hr) rfl ?_ config
  intro items
  have haligned := mapM_carry (g := id) (alignmentConstraints_rename r line.axis items)
    options.alignments
  rwa [List.map_id] at haligned

/-- The names `a` and `b` in the place of one another. -/
def swapped (name : String) : String :=
  if name = "a" then "b" else if name = "b" then "a" else name

/-- A length hides the view of its name under the new names as well, and a name that is no length of
a gap is missed under its new name. -/
theorem resolve_rename_swapped :
    let measured : Line := ⟨.horizontal, none, [⟨"a", [⟨.equal, .name "b", none⟩]⟩], [], none⟩
    let missing : Line :=
      ⟨.horizontal, some (.gap [⟨.equal, .name "a", none⟩]), [⟨"b", []⟩], [], none⟩
    let bindings : Bindings Nat :=
      { views := .ofList [("a", 0), ("b", 1)], metrics := .ofList [("b", .ofInt 12)] }
    ∃ hr : Function.Injective swapped,
      (measured.rename swapped).resolve .empty (bindings.rename swapped hr) {} =
        .ok [⟨⟨.view "b" 0, .width⟩, .equal, none, .ofInt 12, .required⟩] ∧
      (missing.rename swapped).resolve .empty (bindings.rename swapped hr) {} =
        .error (.unknownMetric "b") := by
  intro measured missing bindings
  have hr : Function.Injective swapped := by
    intro x y h
    simp only [swapped] at h
    split_ifs at h <;> simp_all
  exact ⟨hr, resolve_rename swapped hr measured .empty bindings {},
    resolve_rename swapped hr missing .empty bindings {}⟩

end Line
end LayoutLine
