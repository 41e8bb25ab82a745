import LayoutLine.Fragment.Build
import LayoutLine.Proofs.Table

/-!
# Joining in any grouping

Joins of several fragments do not depend on which are joined first, also where some of them bind the
same name: the texts stand one after the other with their glyphs, the options are united, and the
tables are laid over one another. A name that comes up again keeps its place and takes the value on
the right, in whatever order that happens.

So it makes no difference whether the items of a chain stand in it themselves or in a chain that is
an item of it: they take their numbers in the same order either way, and of chains nested to any
depth only the items and the links in front of them count.
-/

namespace LayoutLine.Fragment

variable {V : Type}

/-- Three fragments can be joined from either end. -/
theorem join_assoc (a b c : Fragment V) (g h : String) :
    (a.join g b).join h c = a.join g (b.join h c) := by
  simp only [join, String.append_assoc, Table.merge_assoc, Options.union_assoc]

/-- The empty fragment joined in front without a glyph changes nothing. -/
theorem empty_join (f : Fragment V) : (empty : Fragment V).join "" f = f := by
  have hviews := Table.empty_merge f.views
  have hmetrics := Table.empty_merge f.metrics
  simp only [join, empty, String.append_empty, String.empty_append, Options.empty_union, hviews,
    hmetrics]

/-- Nor does it behind. -/
theorem join_empty (f : Fragment V) : f.join "" empty = f := by
  simp only [join, empty, String.append_empty, Options.union_empty, Table.merge_empty]

section Parts

variable {f g : Fragment V} {tables tables' : List (Table V)}
  {lengths lengths' : List (Table Number)}

/-- The tables of joined fragments are made up of the parts of both. -/
theorem overlays_join (hf : f.views.Overlays tables ∧ f.metrics.Overlays lengths)
    (hg : g.views.Overlays tables' ∧ g.metrics.Overlays lengths') (glyph : String) :
    (f.join glyph g).views.Overlays (tables ++ tables') ∧
      (f.join glyph g).metrics.Overlays (lengths ++ lengths') :=
  ⟨hf.1.merge hg.1, hf.2.merge hg.2⟩

end Parts

/-- Three fragments can be joined from either end. Either way a name stands in the tables where the
first fragment has it that binds it, and for what the last one binds it to. The empty fragment
joined without a glyph changes nothing. -/
theorem join_regroups (a b c : Fragment V) (g h : String) :
    (a.join g b).join h c = a.join g (b.join h c) ∧
    ((a.join g b).join h c).views.Overlays [a.views, b.views, c.views] ∧
    ((a.join g b).join h c).metrics.Overlays [a.metrics, b.metrics, c.metrics] ∧
    (empty : Fragment V).join "" a = a ∧ a.join "" empty = a := by
  have parts (f : Fragment V) : f.views.Overlays [f.views] ∧ f.metrics.Overlays [f.metrics] :=
    ⟨.single f.views, .single f.metrics⟩
  obtain ⟨hviews, hmetrics⟩ := overlays_join (overlays_join (parts a) (parts b) g) (parts c) h
  exact ⟨join_assoc a b c g h, hviews, hmetrics, empty_join a, join_empty a⟩

/-- A name in all three fragments keeps its first place and takes its last value. -/
example :
    let part (entries : List (String × Nat)) : Fragment Nat := { views := .ofList entries }
    (((part [("a", 0), ("b", 1)]).join "-" (part [("b", 2), ("c", 3)])).join "-"
      (part [("b", 4), ("a", 5)])).views.entries = [("a", 5), ("b", 4), ("c", 3)] := by
  decide

end LayoutLine.Fragment

namespace LayoutLine

variable {V : Type}

/-! ### Chains within chains -/

/-- Builds items in turn and joins each, with the link in front of it, to what is there. -/
def Builder.extend (f : Fragment V) : List (Link × Expr V) → Builder (Fragment V)
  | [] => pure f
  | step :: steps => do
    let g ← step.2.build
    extend (f.join step.1.glyph g) steps

namespace Expr

/-- The first of the items that an expression links, and the others with the links in front of them.
Where one of them links items itself, these are meant. -/
def items : Expr V → Expr V × List (Link × Expr V)
  | .link lhs inner rhs => (lhs.items.1, lhs.items.2 ++ (inner, rhs.items.1) :: rhs.items.2)
  | e => (e, [])

/-- The expression links items. -/
def IsLinked : Expr V → Prop
  | .link _ _ _ => True
  | _ => False

/-- The items of an item of a chain, each with the link in front of it. -/
def unnest (step : Link × Expr V) : List (Link × Expr V) :=
  (step.1, step.2.items.1) :: step.2.items.2

end Expr

namespace Chain

/-- The chain continued by further items. -/
def continued (chain : Chain V) (steps : List (Link × Expr V)) : Chain V :=
  { chain with steps := chain.steps ++ steps }

/-- The chain with the items of the chains in it in the place of these, at any depth. -/
def inline (chain : Chain V) : Chain V :=
  { chain with
    first := chain.first.items.1
    steps := chain.first.items.2 ++ chain.steps.flatMap Expr.unnest }

/-- The items of the chain, the first one included. -/
def operands (chain : Chain V) : List (Expr V) := chain.first :: chain.steps.map Prod.snd

end Chain

/-! ### Joining items in turn -/

namespace Builder

/-- Two linked items may be joined to what is in front of them one after the other. -/
theorem extend_link (f : Fragment V) (link : Link) (lhs : Expr V) (inner : Link) (rhs : Expr V)
    (steps : List (Link × Expr V)) :
    extend f ((link, lhs.link inner rhs) :: steps) =
      extend f ((link, lhs) :: (inner, rhs) :: steps) := by
  simp only [extend, Expr.build, bind_assoc, pure_bind, Fragment.join_assoc]

/-- So may all the items that an expression links. -/
theorem extend_unnest (f : Fragment V) (link : Link) (e : Expr V)
    (steps : List (Link × Expr V)) :
    extend f (Expr.unnest (link, e) ++ steps) = extend f ((link, e) :: steps) := by
  simp only [Expr.unnest]
  fun_induction Expr.items e generalizing f link steps with
  | case1 lhs inner rhs ihl ihr =>
    calc
      _ = extend f ((link, lhs.items.1) :: (lhs.items.2 ++
          ((inner, rhs.items.1) :: rhs.items.2 ++ steps))) := by
        rw [List.cons_append, List.append_assoc]
      _ = extend f ((link, lhs) :: ((inner, rhs.items.1) :: rhs.items.2 ++ steps)) :=
        ihl f link _
      _ = extend f ((link, lhs) :: (inner, rhs) :: steps) := by
        simp only [extend, ihr]
      _ = extend f ((link, lhs.link inner rhs) :: steps) := (extend_link ..).symm
  | case2 e h => rfl

/-- Items may be joined one by one instead of the chains that they are the items of. -/
theorem extend_flatMap_unnest (f : Fragment V) (steps : List (Link × Expr V)) :
    extend f (steps.flatMap Expr.unnest) = extend f steps := by
  induction steps generalizing f with
  | nil => rfl
  | cons step steps ih =>
    rw [List.flatMap_cons, extend_unnest]
    simp only [extend, ih]

end Builder

open Builder (extend extend_unnest extend_flatMap_unnest)

namespace Expr

/-- Linked items are built and joined in turn. -/
theorem build_linkAll (start : Expr V) (steps : List (Link × Expr V)) :
    (start.linkAll steps).build = (do extend (← start.build) steps) := by
  induction steps generalizing start with
  | nil => simp only [linkAll_nil, extend, bind_pure]
  | cons step steps ih => simp only [linkAll_cons, ih, build, extend, bind_assoc, pure_bind]

/-- The edge in front is joined to the first item before the others are. -/
theorem build_fromEdge_linkAll (e : Expr V) (steps : List (Link × Expr V)) :
    (e.fromEdge.linkAll steps).build = extend .edge ((.standard, e) :: steps) := by
  simp only [build_linkAll, build, extend, bind_assoc, pure_bind]

/-- An expression is built from its items. -/
theorem build_linkAll_items (e : Expr V) : (e.items.1.linkAll e.items.2).build = e.build := by
  fun_induction items e with
  | case1 lhs inner rhs ihl _ =>
    have hright (f : Fragment V) :
        extend f (unnest (inner, rhs)) = extend f [(inner, rhs)] := by
      have h := extend_unnest f inner rhs []
      rwa [List.append_nil] at h
    calc
      _ = (do extend (← (lhs.items.1.linkAll lhs.items.2).build) (unnest (inner, rhs))) := by
        rw [← build_linkAll, ← linkAll_append, unnest]
      _ = (lhs.link inner rhs).build := by
        simp only [ihl, hright, extend, build]
  | case2 e h => rfl

/-- The items of linked items. -/
theorem items_linkAll (start : Expr V) (steps : List (Link × Expr V)) :
    (start.linkAll steps).items = (start.items.1, start.items.2 ++ steps.flatMap unnest) := by
  induction steps generalizing start with
  | nil => simp
  | cons step steps ih => simp [ih, items, unnest]

theorem not_isLinked_items (e : Expr V) :
    ¬e.items.1.IsLinked ∧ ∀ step ∈ e.items.2, ¬step.2.IsLinked := by
  fun_induction items e with
  | case1 lhs inner rhs ihl ihr =>
    refine ⟨ihl.1, List.forall_mem_append.mpr ⟨ihl.2, List.forall_mem_cons.mpr ihr⟩⟩
  | case2 e h =>
    refine ⟨fun hlinked => ?_, by simp⟩
    cases e <;> first | exact h _ _ _ rfl | exact hlinked

end Expr

namespace Chain

/-- A chain is built from the items that stand in it at any depth. -/
theorem build_inline (chain : Chain V) : chain.inline.expr.build = chain.expr.build := by
  obtain ⟨leading, first, steps, trailing⟩ := chain
  let start (first : Expr V) : Expr V := if leading then .fromEdge first else first
  have hopen : ((start first.items.1).linkAll (first.items.2 ++ steps.flatMap Expr.unnest)).build =
      ((start first).linkAll steps).build := by
    cases leading with
    | true =>
      have hfirst := extend_unnest .edge .standard first (steps.flatMap Expr.unnest)
      simp only [start, if_true, Expr.build_fromEdge_linkAll]
      refine hfirst.trans ?_
      simp only [extend, extend_flatMap_unnest]
    | false =>
      simp only [start, Bool.false_eq_true, if_false, Expr.linkAll_append]
      rw [Expr.build_linkAll, Expr.build_linkAll_items, Expr.build_linkAll]
      simp only [extend_flatMap_unnest]
  cases trailing with
  | false => exact hopen
  | true => exact congrArg (fun body => do return (← body).join Link.standard.glyph .edge) hopen

/-- Chains with the same items in line are built alike. -/
theorem build_eq_of_inline_eq {a b : Chain V} (h : a.inline = b.inline) :
    a.expr.build = b.expr.build := by
  rw [← build_inline a, h, build_inline]

/-- **Nesting a chain equals writing it inline.** A chain may be continued by another one as an
item, or by the items of that one, the first of them behind the link; and it may start with a chain
as its first item, or with the items of that one. What stands in front, what comes behind and
whether the chain is tied to the edges makes no difference: from any number, both are built into one
fragment and leave the same number for the next symbol, or both fail for one reason. So every chain
is built as the chain of its items is, those of the chains in it at any depth included. -/
theorem nested_chain_builds_inline (outer : Chain V) (link : Link) (first : Expr V)
    (steps later : List (Link × Expr V)) (ids : IdSource) :
    let inner : Chain V := { first, steps }
    (outer.continued ((link, inner.expr) :: later)).expr.build ids =
      (outer.continued ((link, first) :: steps ++ later)).expr.build ids ∧
    ({ outer with first := inner.expr } : Chain V).expr.build ids =
      ({ outer with first, steps := steps ++ outer.steps } : Chain V).expr.build ids ∧
    outer.inline.expr.build ids = outer.expr.build ids ∧
    ∀ item ∈ outer.inline.operands, ¬item.IsLinked := by
  intro inner
  have hinner : inner.expr.items = (first.items.1, first.items.2 ++ steps.flatMap Expr.unnest) :=
    first.items_linkAll steps
  refine ⟨?_, ?_, by rw [build_inline], ?_⟩
  · refine congrFun (build_eq_of_inline_eq ?_) ids
    simp only [inline, continued, List.flatMap_append, List.flatMap_cons, List.cons_append,
      Expr.unnest, hinner, List.append_assoc]
  · refine congrFun (build_eq_of_inline_eq ?_) ids
    simp only [inline, hinner, List.flatMap_append, List.append_assoc]
  · obtain ⟨hfirst, hothers⟩ := outer.first.not_isLinked_items
    simp only [operands, inline, List.forall_mem_cons, List.forall_mem_map,
      List.forall_mem_append, List.forall_mem_flatMap]
    exact ⟨hfirst, hothers, fun step _ => List.forall_mem_cons.mpr step.2.not_isLinked_items⟩

/-- A chain of two views, the second of which is a chain of a gap and a view, behind a gap. -/
example :
    let pair : Chain Nat := { first := .view 1, steps := [(.standard, .view 2)] }
    let group : Chain Nat := { first := .gap 4, steps := [(.standard, pair.expr)] }
    let row : Chain Nat := { first := .view 0, steps := [(.atLeast, group.expr)], trailing := true }
    row.inline.steps = [(.atLeast, .gap 4), (.standard, .view 1), (.standard, .view 2)] := rfl

end Chain

end LayoutLine
