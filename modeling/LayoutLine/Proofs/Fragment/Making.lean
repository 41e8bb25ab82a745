import LayoutLine.Fragment.Build

/-!
# What the builders make

A builder for a view, a length or a gap checks what it was given and takes no number before all is
well: it makes one fragment under the next numbers, or it fails and the source stays as it was. How
many numbers it takes and whether it is well are read off the expression alone. The combinators
make nothing of their own, so a larger expression takes the numbers of its parts from left to right.
-/

namespace LayoutLine

variable {V : Type}

/-! ### Expressions -/

/-- A weight that is a priority. -/
def Priority.InRange (value : Nat) : Prop := 1 ≤ value ∧ value ≤ 1000

instance (value : Nat) : Decidable (Priority.InRange value) := inferInstanceAs (Decidable (_ ∧ _))

namespace LengthRule

/-- How many numbers a view with the rule needs. -/
def count : LengthRule V → Nat
  | .single _ => 1
  | .between _ _ _ _ | .range _ _ | .relative _ _ _ => 2
  | .all clauses => clauses.length

/-- The rule asks for something, and all its priorities are priorities. -/
def Valid : LengthRule V → Prop
  | .single clause => Priority.InRange clause.priority
  | .between _ leastPriority _ greatestPriority =>
    Priority.InRange leastPriority ∧ Priority.InRange greatestPriority
  | .range start stop => start < stop
  | .all clauses => (∀ clause ∈ clauses, Priority.InRange clause.priority) ∧ clauses ≠ []
  | .relative _ _ priority => Priority.InRange priority

instance : (rule : LengthRule V) → Decidable rule.Valid
  | .single _ | .relative _ _ _ => inferInstanceAs (Decidable (Priority.InRange _))
  | .between _ _ _ _ | .all _ => inferInstanceAs (Decidable (_ ∧ _))
  | .range _ _ => inferInstanceAs (Decidable (_ < _))

end LengthRule

namespace Expr

/-- How many numbers building needs: one for a view, a length, an element or a view with one
condition, as many as there are conditions for a view with a list of them, and two for a view
that is measured by another. Gaps and what is there already need none. -/
def count : Expr V → Nat
  | .fragment _ | .literal _ | .gap _ => 0
  | .view _ | .metric _ _ | .element _ _ _ => 1
  | .sized _ rule => rule.count
  | .withOptions e _ | .fromEdge e | .toEdge e => e.count
  | .join lhs _ rhs | .link lhs _ rhs => lhs.count + rhs.count

/-- Nothing in the expression keeps it from being built. -/
def Valid : Expr V → Prop
  | .fragment _ | .view _ | .literal _ | .gap _ => True
  | .metric _ priority => Priority.InRange priority
  | .element v? length? priority => Priority.InRange priority ∧ (v?.isSome ∨ length?.isSome)
  | .sized _ rule => rule.Valid
  | .withOptions e _ | .fromEdge e | .toEdge e => e.Valid
  | .join lhs _ rhs | .link lhs _ rhs => lhs.Valid ∧ rhs.Valid

/-- Whether anything keeps the expression from being built. -/
def decidableValid : (e : Expr V) → Decidable e.Valid
  | .fragment _ | .view _ | .literal _ | .gap _ => .isTrue trivial
  | .metric _ _ => inferInstanceAs (Decidable (Priority.InRange _))
  | .element _ _ _ => inferInstanceAs (Decidable (_ ∧ _))
  | .sized _ rule => inferInstanceAs (Decidable rule.Valid)
  | .withOptions e _ | .fromEdge e | .toEdge e => e.decidableValid
  | .join lhs _ rhs | .link lhs _ rhs =>
    @instDecidableAnd _ _ lhs.decidableValid rhs.decidableValid

instance (e : Expr V) : Decidable e.Valid := e.decidableValid

/-- The expression is a single builder for a view, a length or a gap. -/
def IsSingle : Expr V → Prop
  | .view _ | .metric _ _ | .gap _ | .element _ _ _ | .sized _ _ => True
  | .fragment _ | .literal _ | .withOptions _ _ | .join _ _ _ | .link _ _ _ | .fromEdge _
  | .toEdge _ => False

/-- The expression is put together by links and edges from single builders and from fragments
that are known. No text and no glyph is taken as it is. -/
def Over (known : Fragment V → Prop) : Expr V → Prop
  | .fragment f => known f
  | .view _ | .metric _ _ | .gap _ | .element _ _ _ | .sized _ _ => True
  | .literal _ | .join _ _ _ => False
  | .withOptions e _ | .fromEdge e | .toEdge e => e.Over known
  | .link lhs _ rhs => lhs.Over known ∧ rhs.Over known

/-- What is put together from certain fragments is put together from any that include them. -/
theorem Over.mono {known known' : Fragment V → Prop} (h : ∀ f, known f → known' f) {e : Expr V}
    (hover : e.Over known) : e.Over known' := by
  induction e with
  | fragment f => exact h f hover
  | view v => exact trivial
  | metric value priority => exact trivial
  | gap points => exact trivial
  | element v? length? priority => exact trivial
  | sized v rule => exact trivial
  | literal text => exact hover.elim
  | join lhs glyph rhs => exact hover.elim
  | withOptions e options ih => exact ih hover
  | link lhs link rhs ihl ihr => exact ⟨ihl hover.1, ihr hover.2⟩
  | fromEdge e ih => exact ih hover
  | toEdge e ih => exact ih hover

end Expr

/-! ### Single builders -/

/-- The fragments that single builders make under numbers from the given one on, and how many
numbers their symbols need. -/
inductive Fragment.MadeAt (id : SymbolId) : Nat → Fragment V → Prop
  | gap (points : Int) : MadeAt id 0 (.gap points)
  | view (view : V) : MadeAt id 1 (.ofView id view)
  | metric (metric : Metric) : MadeAt id 1 (.ofMetric id metric)
  | lengths (view : V) (clauses : List LengthClause) (some : clauses ≠ []) :
    MadeAt id clauses.length (.ofLengths id view clauses)
  | relative (view : V) (relation : Relation) (other : V) (priority : Priority) :
    MadeAt id 2 (.ofRelative id view relation other priority)

/-- How single builders make fragments from the first of their numbers, and how many numbers their
symbols need. -/
inductive Fragment.Recipe : Nat → (SymbolId → Fragment V) → Prop
  | gap (points : Int) : Recipe 0 fun _ => .gap points
  | view (view : V) : Recipe 1 fun id => .ofView id view
  | metric (metric : Metric) : Recipe 1 fun id => .ofMetric id metric
  | lengths (view : V) (clauses : List LengthClause) (some : clauses ≠ []) :
    Recipe clauses.length fun id => .ofLengths id view clauses
  | relative (view : V) (relation : Relation) (other : V) (priority : Priority) :
    Recipe 2 fun id => .ofRelative id view relation other priority

/-- What a recipe makes is made under the numbers from the one it is given. -/
theorem Fragment.Recipe.madeAt {count : Nat} {make : SymbolId → Fragment V}
    (h : Recipe count make) (id : SymbolId) : (make id).MadeAt id count := by
  cases h with
  | gap points => exact .gap points
  | view view => exact .view view
  | metric metric => exact .metric metric
  | lengths view clauses some => exact .lengths view clauses some
  | relative view relation other priority => exact .relative view relation other priority

namespace Builder

/-- If `valid` holds the computation takes a block for `count` symbols, and its result is right for
the first number of the block. Otherwise it fails and takes no number. -/
def Settles {α : Type} (builder : Builder α) (valid : Prop) (count : Nat)
    (right : SymbolId → α → Prop) : Prop :=
  ∀ ids, (valid → ∃ a, builder ids = .ok a (ids.skip (blockSize count)) ∧ right ids.next a) ∧
    (¬valid → ∃ error, builder ids = .error error ids)

/-- A sequence goes on with what its first part gives. -/
theorem bind_ok {α β : Type} {x : Builder α} {next : α → Builder β} {ids ids' : IdSource} {a : α}
    (h : x ids = .ok a ids') : (x >>= next) ids = next a ids' := by
  simp only [bind, EStateM.bind, h]

/-- A sequence that gives a result has gone through a result of its first part. -/
theorem exists_of_bind_ok {α β : Type} {x : Builder α} {next : α → Builder β}
    {ids ids' : IdSource} {b : β} (h : (x >>= next) ids = .ok b ids') :
    ∃ a between, x ids = .ok a between ∧ next a between = .ok b ids' := by
  simp only [bind, EStateM.bind] at h
  split at h
  · rename_i a between hx
    exact ⟨a, between, hx, h⟩
  · cases h

/-- A sequence fails where its first part fails, and leaves the source as that part did. -/
theorem bind_error {α β : Type} {x : Builder α} {next : α → Builder β} {ids ids' : IdSource}
    {error : BuildError} (h : x ids = .error error ids') :
    (x >>= next) ids = .error error ids' := by
  simp only [bind, EStateM.bind, h]

/-- A function applied to the result of a computation. -/
theorem return_eq_ok {α β : Type} {x : Builder α} {g : α → β} {ids ids' : IdSource} {b : β} :
    (do return g (← x) : Builder β) ids = .ok b ids' ↔ ∃ a, x ids = .ok a ids' ∧ b = g a := by
  constructor
  · intro h
    obtain ⟨a, between, hx, hrest⟩ := exists_of_bind_ok h
    obtain ⟨rfl, rfl⟩ := EStateM.Result.ok.inj hrest
    exact ⟨a, hx, rfl⟩
  · rintro ⟨a, hx, rfl⟩
    exact bind_ok hx

/-- The computation takes no number and does not look at them. If `valid` holds it has one result,
which is good, and otherwise one error. -/
def Checks {α : Type} (check : Builder α) (valid : Prop) (good : α → Prop) : Prop :=
  (valid ∧ ∃ a, good a ∧ check = pure a) ∨ (¬valid ∧ ∃ error, check = throw error)

/-- If `valid` holds the builder makes a fragment from a block for `count` symbols, by a recipe that
is settled before. Otherwise it fails at once, with one error. -/
def Makes (builder : Builder (Fragment V)) (valid : Prop) (count : Nat) : Prop :=
  (valid ∧ ∃ make, Fragment.Recipe count make ∧
      builder = do return make (← take (blockSize count))) ∨
    (¬valid ∧ ∃ error, builder = throw error)

section Checks

variable {α β : Type} {valid valid' : Prop} {good : α → Prop}

theorem checks_pure {a : α} (h : good a) : Checks (pure a) True good :=
  .inl ⟨trivial, a, h, rfl⟩

theorem Checks.of_iff {check : Builder α} (h : Checks check valid good) (hvalid : valid ↔ valid') :
    Checks check valid' good := by
  rwa [propext hvalid] at h

/-- Two checks in turn check for both, and the second one may look at what the first one gives. -/
theorem Checks.bind {check : Builder α} {next : α → Builder β} {good' : β → Prop}
    (h : Checks check valid good) (hnext : ∀ a, good a → Checks (next a) valid' good') :
    Checks (check >>= next) (valid ∧ valid') good' := by
  obtain ⟨hvalid, a, hgood, rfl⟩ | ⟨hnot, error, rfl⟩ := h
  · exact (hnext a hgood).of_iff (and_iff_right hvalid).symm
  · exact .inr ⟨fun hboth => hnot hboth.1, error, rfl⟩

/-- A weight passes if it is a priority. -/
theorem checks_priority (value : Nat) :
    Checks (priority value) (Priority.InRange value) fun _ => True := by
  by_cases hrange : 1 ≤ value ∧ value ≤ 1000
  · rw [priority, Priority.ofNat?, dif_pos hrange]
    exact .inl ⟨hrange, _, trivial, rfl⟩
  · rw [priority, Priority.ofNat?, dif_neg hrange]
    exact .inr ⟨hrange, _, rfl⟩

/-- A condition passes if its weight does. -/
theorem checks_clause (request : ClauseRequest) :
    Checks (clause request) (Priority.InRange request.priority) fun _ => True :=
  ((checks_priority _).bind fun _ _ => checks_pure trivial).of_iff (and_iff_left trivial)

/-- A list of conditions passes if all their weights do, and none gets lost. -/
theorem checks_mapM_clause (requests : List ClauseRequest) :
    Checks (requests.mapM clause) (∀ request ∈ requests, Priority.InRange request.priority)
      fun clauses => clauses.length = requests.length := by
  induction requests with
  | nil =>
    have hnone : Checks (pure []) True fun clauses : List LengthClause => clauses.length = 0 :=
      checks_pure rfl
    exact hnone.of_iff (by simp)
  | cons request requests ih =>
    rw [List.mapM_cons]
    have hlater (first : LengthClause) : Checks (do return first :: (← requests.mapM clause))
        (∀ request ∈ requests, Priority.InRange request.priority)
        fun clauses => clauses.length = requests.length + 1 :=
      (ih.bind fun later hlater => checks_pure (congrArg (· + 1) hlater)).of_iff
        (and_iff_left trivial)
    refine ((checks_clause request).bind fun first _ => hlater first).of_iff ?_
    rw [List.forall_mem_cons]

end Checks

section Makes

variable {α : Type} {valid valid' : Prop} {good : α → Prop} {count : Nat}

/-- What fails at once makes nothing, whatever it would need. -/
theorem makes_throw (error : BuildError) (count : Nat) :
    Makes (throw error : Builder (Fragment V)) False count :=
  .inr ⟨not_false, error, rfl⟩

theorem Makes.of_iff {builder : Builder (Fragment V)} (h : Makes builder valid count)
    (hvalid : valid ↔ valid') : Makes builder valid' count := by
  rwa [propext hvalid] at h

/-- What is checked first may say what is made. -/
theorem Checks.makes {check : Builder α} {next : α → Builder (Fragment V)}
    (h : Checks check valid good) (hnext : ∀ a, good a → Makes (next a) valid' count) :
    Makes (check >>= next) (valid ∧ valid') count := by
  obtain ⟨hvalid, a, hgood, rfl⟩ | ⟨hnot, error, rfl⟩ := h
  · exact (hnext a hgood).of_iff (and_iff_right hvalid).symm
  · exact .inr ⟨fun hboth => hnot hboth.1, error, rfl⟩

theorem makes_view (v : V) : Makes (view v) True 1 := .inl ⟨trivial, _, .view v, rfl⟩

theorem makes_metric (m : Metric) : Makes (metric m : Builder (Fragment V)) True 1 :=
  .inl ⟨trivial, _, .metric m, rfl⟩

/-- A view with a list of conditions needs a number for each. -/
theorem makes_lengths (v : V) (clauses : List LengthClause) (hne : clauses ≠ []) :
    Makes (lengths v clauses) True clauses.length :=
  .inl ⟨trivial, _, .lengths v clauses hne, rfl⟩

/-- A view between two lengths needs two numbers, and both weights have to be priorities. -/
theorem makes_between (v : V) (least greatest : ClauseRequest) :
    Makes (between v least greatest)
      (Priority.InRange least.priority ∧ Priority.InRange greatest.priority) 2 := by
  refine ((checks_clause least).makes fun low _ => (checks_clause greatest).makes fun high _ =>
    makes_lengths v [low, high] (by simp)).of_iff ?_
  simp only [and_true]

/-- A view with a rule for its length. -/
theorem makes_sized (v : V) (rule : LengthRule V) :
    Makes (sized v rule) rule.Valid rule.count := by
  cases rule with
  | single request =>
    exact ((checks_clause request).makes fun clause _ =>
      makes_lengths v [clause] (by simp)).of_iff (and_iff_left trivial)
  | between least leastPriority greatest greatestPriority => exact makes_between v _ _
  | range start stop =>
    by_cases hholds : start < stop
    · have hrequired : Priority.InRange 1000 := by simp [Priority.InRange]
      rw [sized, if_pos hholds]
      exact (makes_between v _ _).of_iff ⟨fun _ => hholds, fun _ => ⟨hrequired, hrequired⟩⟩
    · rw [sized, if_neg hholds]
      exact (makes_throw _ _).of_iff ⟨False.elim, hholds⟩
  | all requests =>
    refine (checks_mapM_clause requests).makes fun clauses hlength => ?_
    cases clauses with
    | nil =>
      obtain rfl := List.length_eq_zero_iff.mp hlength.symm
      exact (makes_throw _ _).of_iff (by simp)
    | cons clause clauses =>
      have hne : requests ≠ [] := by
        rintro rfl
        cases hlength
      have hlengths := makes_lengths v (clause :: clauses) (by simp)
      rw [hlength] at hlengths
      exact hlengths.of_iff ⟨fun _ => hne, fun _ => trivial⟩
  | relative relation other priority =>
    exact ((checks_priority priority).makes fun p _ => .inl
      ⟨trivial, _, .relative v relation other p, rfl⟩).of_iff (and_iff_left trivial)

/-- An element needs one number and has to have a view or a length. -/
theorem makes_element (v? : Option V) (length? : Option Number) (priority : Priority) :
    Makes (element v? length? priority) (v?.isSome ∨ length?.isSome) 1 := by
  cases v? with
  | some v =>
    cases length? with
    | some length => exact (makes_lengths v _ (by simp)).of_iff (by simp)
    | none => exact (makes_view v).of_iff (by simp)
  | none =>
    cases length? with
    | some length => exact (makes_metric _).of_iff (by simp)
    | none => exact (makes_throw _ _).of_iff (by simp)

end Makes

end Builder

namespace Expr

variable {ids ids' : IdSource} {f : Fragment V}

/-- A single builder settles what it makes before it takes its numbers. -/
theorem makes_single {e : Expr V} (h : e.IsSingle) : Builder.Makes e.build e.Valid e.count := by
  cases e with
  | view v => exact Builder.makes_view v
  | metric value priority =>
    exact ((Builder.checks_priority priority).makes fun p _ =>
      Builder.makes_metric ⟨value, p⟩).of_iff (and_iff_left trivial)
  | gap points =>
    refine .inl ⟨trivial, _, .gap points, funext fun ids => ?_⟩
    exact congrArg _ ids.skip_zero.symm
  | element v? length? priority =>
    exact (Builder.checks_priority priority).makes fun p _ => Builder.makes_element v? length? p
  | sized v rule => exact Builder.makes_sized v rule
  | fragment _ => exact h.elim
  | literal _ => exact h.elim
  | withOptions _ _ => exact h.elim
  | join _ _ _ => exact h.elim
  | link _ _ _ => exact h.elim
  | fromEdge _ => exact h.elim
  | toEdge _ => exact h.elim

/-- A single builder makes one fragment under the next numbers when it is well, and otherwise fails
and takes no number. -/
theorem settles_single {e : Expr V} (h : e.IsSingle) :
    Builder.Settles e.build e.Valid e.count fun id f => f.MadeAt id e.count := by
  intro ids
  obtain ⟨hvalid, make, hmake, hbuild⟩ | ⟨hnot, error, hbuild⟩ := makes_single h
  · refine ⟨fun _ => ⟨make ids.next, ?_, hmake.madeAt ids.next⟩, fun hnot => absurd hvalid hnot⟩
    rw [hbuild]
    rfl
  · refine ⟨fun hvalid => absurd hvalid hnot, fun _ => ⟨error, ?_⟩⟩
    rw [hbuild]
    rfl

/-- What a single builder makes, it makes under the next numbers. -/
theorem madeAt_of_build {e : Expr V} (hbuild : e.build ids = .ok f ids') (h : e.IsSingle) :
    f.MadeAt ids.next e.count := by
  obtain ⟨hok, herror⟩ := settles_single h ids
  by_cases hvalid : e.Valid
  · obtain ⟨made, hrun, hmade⟩ := hok hvalid
    obtain ⟨rfl, -⟩ := EStateM.Result.ok.inj (hrun.symm.trans hbuild)
    exact hmade
  · obtain ⟨error, hrun⟩ := herror hvalid
    cases hrun.symm.trans hbuild

/-- A single builder that fails leaves the source as it was. -/
theorem eq_of_build_error {e : Expr V} {error : BuildError}
    (hbuild : e.build ids = .error error ids') (h : e.IsSingle) : ids' = ids := by
  obtain ⟨hok, herror⟩ := settles_single h ids
  by_cases hvalid : e.Valid
  · obtain ⟨made, hrun, -⟩ := hok hvalid
    cases hrun.symm.trans hbuild
  · obtain ⟨error', hrun⟩ := herror hvalid
    exact (EStateM.Result.error.inj (hrun.symm.trans hbuild)).2.symm

/-! ### Combinators -/

/-- Options are put on what is built and take no numbers. -/
theorem build_withOptions_eq_ok {e : Expr V} {options : Options} :
    (e.withOptions options).build ids = .ok f ids' ↔
      ∃ g, e.build ids = .ok g ids' ∧ f = g.withOptions options :=
  Builder.return_eq_ok

/-- A link builds its left part, then its right part from where the left one stopped, and joins
them. -/
theorem build_link_eq_ok {lhs rhs : Expr V} {link : Link} :
    (lhs.link link rhs).build ids = .ok f ids' ↔
      ∃ left between right, lhs.build ids = .ok left between ∧
        rhs.build between = .ok right ids' ∧ f = left.join link.glyph right := by
  constructor
  · intro h
    obtain ⟨left, between, hlhs, hrest⟩ := Builder.exists_of_bind_ok h
    obtain ⟨right, hrhs, hf⟩ := Builder.return_eq_ok.mp hrest
    exact ⟨left, between, right, hlhs, hrhs, hf⟩
  · rintro ⟨left, between, right, hlhs, hrhs, hf⟩
    rw [build, Builder.bind_ok hlhs]
    exact Builder.return_eq_ok.mpr ⟨right, hrhs, hf⟩

/-- A tie to the first edge takes no numbers of its own. -/
theorem build_fromEdge_eq_ok {e : Expr V} :
    e.fromEdge.build ids = .ok f ids' ↔
      ∃ g, e.build ids = .ok g ids' ∧ f = Fragment.edge.join Link.standard.glyph g :=
  Builder.return_eq_ok

/-- A tie to the far edge takes no numbers of its own. -/
theorem build_toEdge_eq_ok {e : Expr V} :
    e.toEdge.build ids = .ok f ids' ↔
      ∃ g, e.build ids = .ok g ids' ∧ f = g.join Link.standard.glyph .edge :=
  Builder.return_eq_ok

end Expr
end LayoutLine
