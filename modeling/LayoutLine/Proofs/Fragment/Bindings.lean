import LayoutLine.Proofs.Fragment.Making
import LayoutLine.Proofs.Fragment.Tokens
import LayoutLine.Proofs.Table

/-!
# Fragments bind what they write

However a fragment comes about in a session, its tables bind exactly the symbols of its text: no
symbol is left without a meaning and no binding without a symbol. Nothing is asked of the numbers.
Where numbering starts afresh, or has run out, joining fragments may bind one name twice; the name
then stands in both texts, and it is kept once.
-/

namespace LayoutLine

namespace Fragment

open LayoutLine.Symbol (tokens viewTokens metricTokens)

variable {V : Type}

/-- The tables bind exactly the symbols of the text: the views those for views, and the lengths
those for lengths. -/
structure Bound (f : Fragment V) : Prop where
  /-- The views are bound under the symbols for views. -/
  views : ∀ name, name ∈ f.views.names ↔ name ∈ viewTokens f.text.toList
  /-- The lengths are bound under the symbols for lengths. -/
  metrics : ∀ name, name ∈ f.metrics.names ↔ name ∈ metricTokens f.text.toList

/-- The symbols for views of joined fragments are those of both in turn. -/
theorem viewTokens_join (f g : Fragment V) (link : Link) :
    viewTokens (f.join link.glyph g).text.toList =
      viewTokens f.text.toList ++ viewTokens g.text.toList := by
  simp only [viewTokens, tokens_join, List.filter_append]

/-- So are the symbols for lengths. -/
theorem metricTokens_join (f g : Fragment V) (link : Link) :
    metricTokens (f.join link.glyph g).text.toList =
      metricTokens f.text.toList ++ metricTokens g.text.toList := by
  simp only [metricTokens, tokens_join, List.filter_append]

/-- Joined fragments are bound when both are, also where they bind the same name. -/
theorem Bound.join {f g : Fragment V} (hf : f.Bound) (hg : g.Bound) (link : Link) :
    (f.join link.glyph g).Bound where
  views := fun name => by
    rw [viewTokens_join, List.mem_append, ← hf.views, ← hg.views]
    exact f.views.mem_names_merge g.views name
  metrics := fun name => by
    rw [metricTokens_join, List.mem_append, ← hf.metrics, ← hg.metrics]
    exact f.metrics.mem_names_merge g.metrics name

/-- Options bind nothing. -/
theorem Bound.withOptions {f : Fragment V} (hf : f.Bound) (options : Options) :
    (f.withOptions options).Bound := ⟨hf.views, hf.metrics⟩

/-- A fragment is bound if it binds the symbols that make up its text. -/
theorem bound_of_tokens {f : Fragment V} (symbols : List Symbol)
    (htokens : tokens f.text.toList = symbols.map Symbol.name)
    (hviews : ∀ name, name ∈ f.views.names ↔
      name ∈ (symbols.filter Symbol.isView).map Symbol.name)
    (hmetrics : ∀ name, name ∈ f.metrics.names ↔
      name ∈ (symbols.filter fun s => !s.isView).map Symbol.name) : f.Bound where
  views := by rwa [Symbol.viewTokens_eq htokens]
  metrics := by rwa [Symbol.metricTokens_eq htokens]

/-- An edge has neither symbols nor bindings. -/
theorem bound_edge : (edge : Fragment V).Bound :=
  bound_of_tokens [] tokens_edge (fun _ => Iff.rfl) fun _ => Iff.rfl

/-- The symbols of conditions are symbols for lengths. -/
theorem isView_of_mem_clauseSymbols {first : SymbolId} {count : Nat} {s : Symbol}
    (h : s ∈ clauseSymbols first count) : s.isView = false := by
  obtain ⟨i, -, rfl⟩ := List.mem_map.mp h
  rfl

/-- None of the symbols of conditions is for a view, and all are for lengths. -/
theorem filter_clauseSymbols (first : SymbolId) (count : Nat) :
    (clauseSymbols first count).filter Symbol.isView = [] ∧
      ((clauseSymbols first count).filter fun s => !s.isView) = clauseSymbols first count := by
  constructor
  · exact List.filter_eq_nil_iff.mpr fun s hs => by simp [isView_of_mem_clauseSymbols hs]
  · exact List.filter_eq_self.mpr fun s hs => by simp [isView_of_mem_clauseSymbols hs]

/-- The lengths of a view with conditions are bound under the symbols of the conditions. -/
theorem mem_names_metrics_ofLengths (first : SymbolId) (view : V) (clauses : List LengthClause)
    (name : String) :
    name ∈ (ofLengths first view clauses).metrics.names ↔
      name ∈ (clauseSymbols first clauses.length).map Symbol.name := by
  have hlengths : List.zipWith (fun (symbol : Symbol) (clause : LengthClause) =>
      (symbol.name, clause.length)) (clauseSymbols first clauses.length) clauses =
        ((clauseSymbols first clauses.length).zip clauses).map fun p => (p.1.name, p.2.length) := by
    rw [List.map_zip_eq_zipWith]
    rfl
  rw [ofLengths, Table.mem_names_ofList, hlengths, List.map_map, ← map_name_zip_clauseSymbols]
  rfl

/-- What a single builder makes is bound, whatever its numbers. -/
theorem MadeAt.bound {id : SymbolId} {count : Nat} {f : Fragment V} (h : f.MadeAt id count) :
    f.Bound := by
  cases h with
  | gap points => exact bound_of_tokens [] (tokens_gap points) (fun _ => Iff.rfl) fun _ => Iff.rfl
  | view view => exact bound_of_tokens _ (tokens_ofView id view) (fun _ => Iff.rfl) fun _ => Iff.rfl
  | metric metric =>
    exact bound_of_tokens _ (tokens_ofMetric id metric) (fun _ => Iff.rfl) fun _ => Iff.rfl
  | lengths view clauses some =>
    obtain ⟨hviews, hmetrics⟩ := filter_clauseSymbols id clauses.length
    refine bound_of_tokens _ (tokens_ofLengths id view clauses) (fun name => ?_) fun name => ?_
    · rw [List.filter_cons_of_pos rfl, hviews]
      rfl
    · rw [List.filter_cons_of_neg (by simp [Symbol.isView]), hmetrics]
      exact mem_names_metrics_ofLengths id view clauses name
  | relative view relation other priority =>
    refine bound_of_tokens _ (tokens_ofRelative id view relation other priority) (fun name => ?_)
      fun _ => Iff.rfl
    exact Table.mem_names_ofList _ name

end Fragment

/-- What is built from bound fragments is bound. -/
theorem Expr.bound_of_build {known : Fragment V → Prop} (hknown : ∀ f, known f → f.Bound)
    {e : Expr V} (hover : e.Over known) {ids ids' : IdSource} {f : Fragment V}
    (h : e.build ids = .ok f ids') : f.Bound := by
  induction e generalizing ids ids' f with
  | fragment g =>
    obtain ⟨rfl, -⟩ := EStateM.Result.ok.inj h
    exact hknown g hover
  | view v => exact (madeAt_of_build h trivial).bound
  | metric value priority => exact (madeAt_of_build h trivial).bound
  | gap points => exact (madeAt_of_build h trivial).bound
  | element v? length? priority => exact (madeAt_of_build h trivial).bound
  | sized v rule => exact (madeAt_of_build h trivial).bound
  | literal text => exact hover.elim
  | join lhs glyph rhs => exact hover.elim
  | withOptions e options ih =>
    obtain ⟨g, hg, rfl⟩ := build_withOptions_eq_ok.mp h
    exact (ih hover hg).withOptions options
  | link lhs link rhs ihl ihr =>
    obtain ⟨left, between, right, hlhs, hrhs, rfl⟩ := build_link_eq_ok.mp h
    exact (ihl hover.1 hlhs).join (ihr hover.2 hrhs) link
  | fromEdge e ih =>
    obtain ⟨g, hg, rfl⟩ := build_fromEdge_eq_ok.mp h
    exact Fragment.bound_edge.join (ih hover hg) .standard
  | toEdge e ih =>
    obtain ⟨g, hg, rfl⟩ := build_toEdge_eq_ok.mp h
    exact (ih hover hg).join Fragment.bound_edge .standard

/-! ### Sessions -/

namespace Fragment

/-- What a session can come to: where the next number comes from, and the fragments made so far. A
session may take any count of numbers, start numbering afresh at any moment, replace options, and
use the fragments it has made as often as it likes. -/
inductive Reachable : IdSource → List (Fragment V) → Prop
  | start : Reachable .start []
  | take {ids : IdSource} {made : List (Fragment V)} (h : Reachable ids made) (count : Nat) :
    Reachable (ids.skip count) made
  | reset {ids : IdSource} {made : List (Fragment V)} (h : Reachable ids made) :
    Reachable .start made
  | build {ids ids' : IdSource} {made : List (Fragment V)} {e : Expr V} {f : Fragment V}
    (h : Reachable ids made) (hover : e.Over (· ∈ made)) (hbuild : e.build ids = .ok f ids') :
    Reachable ids' (f :: made)
  | fail {ids ids' : IdSource} {made : List (Fragment V)} {e : Expr V} {error : BuildError}
    (h : Reachable ids made) (hover : e.Over (· ∈ made))
    (hbuild : e.build ids = .error error ids') : Reachable ids' made
  | setOptions {ids : IdSource} {made : List (Fragment V)} {f : Fragment V}
    (h : Reachable ids made) (hf : f ∈ made) (options : Options) :
    Reachable ids (f.withOptions options :: made)

/-- Every fragment of a session is bound. -/
theorem Reachable.bound {ids : IdSource} {made : List (Fragment V)} (h : Reachable ids made) :
    ∀ f ∈ made, f.Bound := by
  induction h with
  | start => exact fun f hf => absurd hf List.not_mem_nil
  | take _ _ ih => exact ih
  | reset _ ih => exact ih
  | build _ hover hbuild ih =>
    exact List.forall_mem_cons.mpr ⟨Expr.bound_of_build ih hover hbuild, ih⟩
  | fail _ _ _ ih => exact ih
  | setOptions _ hf options ih =>
    exact List.forall_mem_cons.mpr ⟨(ih _ hf).withOptions options, ih⟩

/-- No name is bound as a view and as a length at once. -/
theorem Bound.nodup_symbols {f : Fragment V} (h : f.Bound) : f.symbols.Nodup := by
  refine List.nodup_append.mpr ⟨f.views.nodup, f.metrics.nodup, ?_⟩
  rintro name hview other hmetric rfl
  exact Symbol.not_mem_metricTokens ((h.views _).mp hview) ((h.metrics _).mp hmetric)

/-- In every fragment of a session the symbols of the text are the bound names, each bound once:
the symbols for views are the names of the views, and those for lengths the names of the lengths.
-/
theorem symbols_of_reachable {ids : IdSource} {made : List (Fragment V)}
    (h : Reachable ids made) : ∀ f ∈ made,
      (∀ name, name ∈ Symbol.tokens f.text.toList ↔ name ∈ f.symbols) ∧ f.symbols.Nodup ∧
      (∀ name, name ∈ Symbol.viewTokens f.text.toList ↔ name ∈ f.views.names) ∧
      ∀ name, name ∈ Symbol.metricTokens f.text.toList ↔ name ∈ f.metrics.names := by
  intro f hf
  have hbound := h.bound f hf
  refine ⟨fun name => ?_, hbound.nodup_symbols, fun name => (hbound.views name).symm,
    fun name => (hbound.metrics name).symm⟩
  rw [Symbol.mem_tokens_iff, symbols, List.mem_append, hbound.views, hbound.metrics]

/-- A view that is kept, and put in front of another one after numbering has started afresh: both
have the same symbol, which is then bound once. -/
theorem symbols_of_reused_view :
    let kept : Fragment Nat := .ofView ⟨0, by decide⟩ 7
    let joined : Fragment Nat := kept.join Link.atLeast.glyph (.ofView ⟨0, by decide⟩ 8)
    Reachable (IdSource.start.skip 1) [joined, kept] ∧ joined ∈ [joined, kept] ∧
      Symbol.tokens joined.text.toList = ["view_0", "view_0"] ∧
      (∀ name, name ∈ Symbol.tokens joined.text.toList ↔ name ∈ joined.symbols) ∧
      joined.symbols.Nodup ∧
      (∀ name, name ∈ Symbol.viewTokens joined.text.toList ↔ name ∈ joined.views.names) ∧
      ∀ name, name ∈ Symbol.metricTokens joined.text.toList ↔ name ∈ joined.metrics.names := by
  intro kept joined
  have hkept : Reachable (IdSource.start.skip 1) [kept] :=
    .build (e := .view 7) .start trivial rfl
  have hjoined : Reachable (IdSource.start.skip 1) [joined, kept] :=
    .build (e := .link (.fragment kept) .atLeast (.view 8)) (.reset hkept)
      ⟨List.mem_singleton.mpr rfl, trivial⟩ rfl
  refine ⟨hjoined, List.mem_cons_self, ?_, symbols_of_reachable hjoined joined List.mem_cons_self⟩
  rw [tokens_join, tokens_ofView, tokens_ofView]
  rfl

end Fragment
end LayoutLine
