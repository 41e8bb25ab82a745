import LayoutLine.Proofs.Row.Basic

/-!
# What building a row gives

The chain of a row always builds. Its fragment is put together from the fragments of the operands,
each under the numbers that are next when it is built.
-/

namespace LayoutLine
namespace Row

variable {V : Type}

/-- The fragments of operands are joined to a fragment one after the other. -/
def joinAll (f : Fragment V) : List (Link × Placed V) → Fragment V
  | [] => f
  | (link, p) :: steps => joinAll (f.join link.glyph p.fragment) steps

/-- The fragment of a row whose first number is the given one. -/
def fragment (row : Row V) (next : SymbolId) : Fragment V :=
  let first := (row.first.place next).fragment
  let start := if row.leading then Fragment.edge.join Link.standard.glyph first else first
  let body := joinAll start (place (next.advance row.first.taken) row.steps)
  if row.trailing then body.join Link.standard.glyph .edge else body

/-! ### Operands -/

/-- A priority passes its own check. -/
theorem priority_value (p : Priority) : Builder.priority p.value = pure p := by
  rw [Builder.priority, Priority.ofNat?_value]

theorem clause_request (clause : LengthClause) : Builder.clause (request clause) = pure clause := by
  simp only [Builder.clause, request, priority_value, pure_bind]

/-- A list of conditions passes its checks as a whole. -/
theorem mapM_clause_request (clauses : List LengthClause) :
    (clauses.map request).mapM Builder.clause = pure clauses := by
  induction clauses with
  | nil => rfl
  | cons clause clauses ih =>
    rw [List.map_cons, List.mapM_cons, clause_request, pure_bind, ih, pure_bind]

/-- The expression of a view operand builds the operand's fragment under the next numbers and takes
a block for them. -/
theorem build_viewOperand (operand : ViewOperand V) (ids : IdSource) :
    operand.expr.build ids =
      .ok (operand.fragment ids.next) (ids.skip (blockSize operand.idCount)) := by
  cases operand with
  | bare view => rfl
  | element view length priority =>
    simp only [ViewOperand.expr, Expr.build, priority_value, pure_bind]
    cases length with
    | none => rfl
    | some length => rfl
  | single view clause =>
    simp only [ViewOperand.expr, Expr.build, Builder.sized, clause_request, pure_bind]
    rfl
  | between view least leastPriority greatest greatestPriority =>
    simp only [ViewOperand.expr, Expr.build, Builder.sized, Builder.between, Builder.clause,
      priority_value, pure_bind]
    rfl
  | range view start stop holds =>
    have hrequired : Builder.priority 1000 = pure .required := priority_value .required
    simp only [ViewOperand.expr, Expr.build, Builder.sized, if_pos holds, Builder.between,
      Builder.clause, hrequired, pure_bind]
    rfl
  | all view clauses some =>
    simp only [ViewOperand.expr, Expr.build, Builder.sized, mapM_clause_request, pure_bind]
    cases clauses with
    | nil => exact absurd rfl some
    | cons clause clauses => rfl
  | relative view relation other priority =>
    simp only [ViewOperand.expr, Expr.build, Builder.sized, priority_value, pure_bind]
    rfl

/-- So does the expression of any operand, gaps and lengths included. -/
theorem build_operand (operand : Operand V) (ids : IdSource) :
    operand.expr.build ids =
      .ok (operand.fragment ids.next) (ids.skip (blockSize operand.idCount)) := by
  cases operand with
  | view operand => exact build_viewOperand operand ids
  | gap points =>
    exact congrArg _ ids.skip_zero.symm
  | metric value priority =>
    simp only [Operand.expr, Expr.build, priority_value, pure_bind]
    rfl

/-- An entry takes the next numbers if it is built where it stands, and none otherwise. -/
theorem build_entry (entry : Entry V) (ids : IdSource) :
    entry.expr.build ids =
      .ok (entry.place ids.next).fragment (ids.skip entry.taken) := by
  cases entry with
  | made operand => exact build_operand operand ids
  | kept placed => exact congrArg _ ids.skip_zero.symm

/-! ### Chains -/

/-- Two parts that are built are joined with the glyph of their link. -/
theorem build_link {lhs rhs : Expr V} {f g : Fragment V} {ids ids' ids'' : IdSource}
    (hlhs : lhs.build ids = .ok f ids') (hrhs : rhs.build ids' = .ok g ids'') (link : Link) :
    (Expr.link lhs link rhs).build ids = .ok (f.join link.glyph g) ids'' := by
  simp only [Expr.build, bind, EStateM.bind, hlhs, hrhs]
  rfl

/-- A part that is built is joined to the first edge with a dash. -/
theorem build_fromEdge {rhs : Expr V} {f : Fragment V} {ids ids' : IdSource}
    (h : rhs.build ids = .ok f ids') :
    (Expr.fromEdge rhs).build ids = .ok (Fragment.edge.join Link.standard.glyph f) ids' := by
  simp only [Expr.build, bind, EStateM.bind, h]
  rfl

/-- A part that is built is joined to the far edge with a dash. -/
theorem build_toEdge {lhs : Expr V} {f : Fragment V} {ids ids' : IdSource}
    (h : lhs.build ids = .ok f ids') :
    (Expr.toEdge lhs).build ids = .ok (f.join Link.standard.glyph .edge) ids' := by
  simp only [Expr.build, bind, EStateM.bind, h]
  rfl

/-- Linking entries joins their fragments, each under the numbers left by those before. -/
theorem build_linkAll (steps : List (Link × Entry V)) {start : Expr V} {f : Fragment V}
    {ids ids' : IdSource} (h : start.build ids = .ok f ids') :
    (start.linkAll (steps.map fun step => (step.1, step.2.expr))).build ids =
      .ok (joinAll f (place ids'.next steps)) (ids'.skip (takenBy steps)) := by
  induction steps generalizing start f ids' with
  | nil =>
    rw [takenBy, List.map_nil, IdSource.skip_zero]
    exact h
  | cons step steps ih =>
    obtain ⟨link, entry⟩ := step
    have hlink := build_link h (build_entry entry ids') link
    have hlater := ih hlink
    rw [IdSource.skip_skip] at hlater
    rw [List.map_cons, Expr.linkAll_cons, hlater]
    rfl

/-- The chain of a row builds the row's fragment and takes as many numbers as were counted. -/
theorem build_chain (row : Row V) (ids : IdSource) :
    row.chain.expr.build ids = .ok (row.fragment ids.next) (ids.skip row.taken) := by
  have hfirst := build_entry row.first ids
  have hstart : (if row.leading then .fromEdge row.first.expr else row.first.expr : Expr V).build
      ids = .ok (if row.leading then
          Fragment.edge.join Link.standard.glyph (row.first.place ids.next).fragment
        else (row.first.place ids.next).fragment) (ids.skip row.first.taken) := by
    cases row.leading with
    | true => exact build_fromEdge hfirst
    | false => exact hfirst
  have hbody := build_linkAll row.steps hstart
  rw [IdSource.skip_skip] at hbody
  have htaken : row.first.taken + takenBy row.steps = row.taken := rfl
  rw [htaken] at hbody
  simp only [Chain.expr, chain, fragment]
  by_cases htrailing : row.trailing = true
  · simp only [htrailing, if_true]
    exact build_toEdge hbody
  · simp only [htrailing]
    exact hbody

end Row
end LayoutLine
