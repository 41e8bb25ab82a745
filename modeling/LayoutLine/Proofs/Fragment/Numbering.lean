import LayoutLine.Proofs.Fragment.Bindings
import LayoutLine.Proofs.Row.Names

/-!
# Symbols are numbered in reading order

An expression that is built from one source, with nothing in it that was there already, uses each
number from the next one on, without a gap and in the order in which the text mentions them first.
Its parts have numbers of their own, so that where two fragments are joined no name is bound in
both, and the tables keep the order of the text.
-/

namespace LayoutLine

theorem eraseDups_cons_cons_self {α : Type} [BEq α] [LawfulBEq α] (x : α) (xs : List α) :
    (x :: x :: xs).eraseDups = (x :: xs).eraseDups := by
  rw [List.eraseDups_cons, List.filter_cons_of_neg (by simp), ← List.eraseDups_cons]

namespace Fragment

open LayoutLine.Symbol (tokens viewTokens metricTokens tokenIds)

variable {V : Type}

/-- The symbols of the text have the `count` numbers from `first` on, in the order in which they
first appear, and the tables list their names as the text does. -/
structure InOrder (f : Fragment V) (first count : Nat) : Prop where
  /-- No number is left out or comes too early. -/
  ids : (tokenIds f.text.toList).eraseDups = List.range' first count
  /-- The views are listed in the order of the text. -/
  views : f.views.names = viewTokens f.text.toList
  /-- The lengths are listed in the order of the text. -/
  metrics : f.metrics.names = metricTokens f.text.toList

/-- The numbers in a text of joined fragments are those of both in turn. -/
theorem tokenIds_join (f g : Fragment V) (link : Link) :
    tokenIds (f.join link.glyph g).text.toList =
      tokenIds f.text.toList ++ tokenIds g.text.toList := by
  simp only [tokenIds, tokens_join, List.filterMap_append]

/-- The numbers of a fragment in order are a run without gaps. -/
theorem InOrder.mem_tokenIds {f : Fragment V} {first count : Nat} (h : f.InOrder first count)
    (n : Nat) : n ∈ tokenIds f.text.toList ↔ first ≤ n ∧ n < first + count := by
  rw [← List.mem_eraseDups, h.ids, List.mem_range'_1]

variable {f g : Fragment V} {first a b : Nat}

/-- Runs of numbers that follow one another share no symbol. -/
theorem InOrder.not_mem_tokens (hf : f.InOrder first a) (hg : g.InOrder (first + a) b)
    {name : String} (h : name ∈ tokens f.text.toList) : name ∉ tokens g.text.toList := by
  intro h'
  obtain ⟨s, hs, hid⟩ := Symbol.exists_id_of_mem_tokens h
  obtain ⟨s', hs', hid'⟩ := Symbol.exists_id_of_mem_tokens h'
  obtain rfl := Option.some.inj (hs.symm.trans hs')
  rw [hf.mem_tokenIds] at hid
  rw [hg.mem_tokenIds] at hid'
  omega

/-- Fragments whose numbers follow one another bind no name in common. -/
theorem InOrder.disjoint (hf : f.InOrder first a) (hg : g.InOrder (first + a) b) :
    (∀ name ∈ f.views.names, name ∉ g.views.names) ∧
      ∀ name ∈ f.metrics.names, name ∉ g.metrics.names := by
  rw [hf.views, hg.views, hf.metrics, hg.metrics]
  constructor
  · intro name h h'
    exact hf.not_mem_tokens hg (Symbol.mem_viewTokens.mp h).1 (Symbol.mem_viewTokens.mp h').1
  · intro name h h'
    exact hf.not_mem_tokens hg (Symbol.mem_metricTokens.mp h).1 (Symbol.mem_metricTokens.mp h').1

/-- Joining fragments whose numbers follow one another joins their numbers. -/
theorem InOrder.join (hf : f.InOrder first a) (hg : g.InOrder (first + a) b) (link : Link) :
    (f.join link.glyph g).InOrder first (a + b) where
  ids := by
    have hapart : (tokenIds g.text.toList).removeAll (tokenIds f.text.toList) =
        tokenIds g.text.toList := by
      refine List.filter_eq_self.mpr fun n hn => ?_
      have hnot : n ∉ tokenIds f.text.toList := by
        rw [hg.mem_tokenIds] at hn
        rw [hf.mem_tokenIds]
        omega
      simp [hnot]
    calc
      _ = List.range' first a ++ List.range' (first + a) b := by
        rw [tokenIds_join, List.eraseDups_append, hapart, hf.ids, hg.ids]
      _ = List.range' first (a + b) := List.range'_append_1
  views := by
    rw [viewTokens_join, ← hf.views, ← hg.views]
    exact Table.names_merge_of_disjoint (hf.disjoint hg).1
  metrics := by
    rw [metricTokens_join, ← hf.metrics, ← hg.metrics]
    exact Table.names_merge_of_disjoint (hf.disjoint hg).2

theorem InOrder.withOptions (hf : f.InOrder first a) (options : Options) :
    (f.withOptions options).InOrder first a := ⟨hf.ids, hf.views, hf.metrics⟩

/-- A fragment is in order if the symbols that make up its text are. -/
theorem inOrder_of_tokens {count : Nat} (symbols : List Symbol)
    (htokens : tokens f.text.toList = symbols.map Symbol.name)
    (hids : (symbols.map (·.id.val)).eraseDups = List.range' first count)
    (hviews : f.views.names = (symbols.filter Symbol.isView).map Symbol.name)
    (hmetrics : f.metrics.names = (symbols.filter fun s => !s.isView).map Symbol.name) :
    f.InOrder first count where
  ids := by rwa [Symbol.tokenIds_eq htokens]
  views := by rwa [Symbol.viewTokens_eq htokens]
  metrics := by rwa [Symbol.metricTokens_eq htokens]

/-- An edge has no numbers, so they are in order from anywhere. -/
theorem inOrder_edge (first : Nat) : (edge : Fragment V).InOrder first 0 :=
  inOrder_of_tokens [] tokens_edge rfl rfl rfl

/-- As long as there are numbers enough, conditions have them in order. -/
theorem ids_clauseSymbols {id : SymbolId} {count : Nat} (h : id.val + count ≤ 4294967296) :
    (clauseSymbols id count).map (·.id.val) = List.range' id.val count := by
  rw [clauseSymbols, List.map_map, List.range'_eq_map_range]
  refine List.map_congr_left fun i hi => ?_
  rw [List.mem_range] at hi
  exact Nat.mod_eq_of_lt (by omega)

/-- What a single builder makes carries its numbers in order, while they last. -/
theorem MadeAt.inOrder {id : SymbolId} {count : Nat} (h : f.MadeAt id count)
    (hroom : id.val + count ≤ 4294967296) : f.InOrder id.val count := by
  have hone : [id.val].eraseDups = List.range' id.val 1 := eraseDups_of_nodup (by simp)
  cases h with
  | gap points => exact inOrder_of_tokens [] (tokens_gap points) rfl rfl rfl
  | view view => exact inOrder_of_tokens _ (tokens_ofView id view) hone rfl rfl
  | metric metric => exact inOrder_of_tokens _ (tokens_ofMetric id metric) hone rfl rfl
  | lengths view clauses some =>
    -- The view has the number of the first condition.
    obtain ⟨hviews, hmetrics⟩ := filter_clauseSymbols id clauses.length
    refine inOrder_of_tokens _ (tokens_ofLengths id view clauses) ?_ ?_ ?_
    · obtain ⟨count, hcount⟩ := Nat.exists_eq_succ_of_ne_zero (mt List.length_eq_zero_iff.mp some)
      rw [List.map_cons, ids_clauseSymbols hroom, hcount, List.range'_succ,
        eraseDups_cons_cons_self, ← List.range'_succ]
      exact eraseDups_of_nodup List.nodup_range'
    · rw [List.filter_cons_of_pos rfl, hviews]
      rfl
    · rw [List.filter_cons_of_neg (by simp [Symbol.isView]), hmetrics, Table.names,
        Row.entries_metrics_ofLengths id view (by omega), List.map_map]
      exact map_name_zip_clauseSymbols id clauses
  | relative view relation other priority =>
    refine inOrder_of_tokens _ (tokens_ofRelative id view relation other priority) ?_ ?_ rfl
    · have hnext : (id.advance 1).val = id.val + 1 := Row.val_advance_of_le (by omega)
      have hids : [id.val, id.val + 1].eraseDups = List.range' id.val 2 :=
        eraseDups_of_nodup (by simp)
      rwa [List.map_cons, List.map_cons, List.map_nil, hnext]
    · rw [Table.names, Row.entries_views_ofRelative]
      rfl

end Fragment

namespace Expr

variable {V : Type}

/-- Building the expression from `start` comes to one of its parts, and the source is then the
given one. -/
inductive Reaches (part : Expr V) (stop : IdSource) : Expr V → IdSource → Prop
  | self : Reaches part stop part stop
  | withOptions {e : Expr V} {start : IdSource} (options : Options)
    (h : Reaches part stop e start) : Reaches part stop (e.withOptions options) start
  | lhs {lhs : Expr V} {start : IdSource} (link : Link) (rhs : Expr V)
    (h : Reaches part stop lhs start) : Reaches part stop (lhs.link link rhs) start
  | rhs {lhs rhs : Expr V} {start between : IdSource} {f : Fragment V} (link : Link)
    (hlhs : lhs.build start = .ok f between) (h : Reaches part stop rhs between) :
    Reaches part stop (lhs.link link rhs) start
  | fromEdge {e : Expr V} {start : IdSource} (h : Reaches part stop e start) :
    Reaches part stop e.fromEdge start
  | toEdge {e : Expr V} {start : IdSource} (h : Reaches part stop e start) :
    Reaches part stop e.toEdge start

/-- Building the expression ends with joining these two fragments. -/
inductive Joins : Expr V → IdSource → Fragment V → Fragment V → Prop
  | link {lhs rhs : Expr V} {start between stop : IdSource} {f g : Fragment V} (link : Link)
    (hlhs : lhs.build start = .ok f between) (hrhs : rhs.build between = .ok g stop) :
    Joins (lhs.link link rhs) start f g
  | fromEdge {e : Expr V} {start stop : IdSource} {g : Fragment V}
    (h : e.build start = .ok g stop) : Joins e.fromEdge start .edge g
  | toEdge {e : Expr V} {start stop : IdSource} {f : Fragment V}
    (h : e.build start = .ok f stop) : Joins e.toEdge start f .edge

variable {e : Expr V} {ids ids' : IdSource} {f : Fragment V}

theorem val_skip {count : Nat} (h : ids.next.val + count ≤ 4294967295) :
    (ids.skip count).next.val = ids.next.val + count :=
  Row.val_advance_of_le (by omega)

/-- The expression builds exactly when nothing keeps it from being built, and it then takes its
numbers in order. -/
structure BuildsInOrder (e : Expr V) (ids : IdSource) : Prop where
  /-- A valid expression takes all its numbers. -/
  ok : e.Valid → ∃ f, e.build ids = .ok f (ids.skip e.count) ∧ f.InOrder ids.next.val e.count
  /-- Any other fails. -/
  error : ¬e.Valid → ∃ error stop, e.build ids = .error error stop

/-- A single builder takes its numbers in order while they last. -/
theorem buildsInOrder_single (h : e.IsSingle) (hroom : ids.next.val + e.count ≤ 4294967295) :
    BuildsInOrder e ids := by
  obtain ⟨hok, herror⟩ := settles_single h ids
  constructor
  · intro hvalid
    obtain ⟨f, hbuild, hmade⟩ := hok hvalid
    rw [blockSize_of_lt (by omega)] at hbuild
    exact ⟨f, hbuild, hmade.inOrder (by omega)⟩
  · intro hnot
    obtain ⟨error, hbuild⟩ := herror hnot
    exact ⟨error, ids, hbuild⟩

/-- The right operand of a link takes the numbers behind those of the left one. -/
theorem BuildsInOrder.link {lhs rhs : Expr V} (hroom : ids.next.val + lhs.count ≤ 4294967295)
    (hlhs : BuildsInOrder lhs ids) (hrhs : BuildsInOrder rhs (ids.skip lhs.count)) (link : Link) :
    BuildsInOrder (lhs.link link rhs) ids where
  ok := by
    rintro ⟨hvalid, hvalid'⟩
    obtain ⟨f, hbuild, hf⟩ := hlhs.ok hvalid
    obtain ⟨g, hbuild', hg⟩ := hrhs.ok hvalid'
    rw [val_skip hroom] at hg
    rw [IdSource.skip_skip] at hbuild'
    exact ⟨_, build_link_eq_ok.mpr ⟨f, _, g, hbuild, hbuild', rfl⟩, hf.join hg link⟩
  error := by
    intro hnot
    by_cases hvalid : lhs.Valid
    · obtain ⟨f, hbuild, -⟩ := hlhs.ok hvalid
      obtain ⟨error, stop, hbuild'⟩ := hrhs.error fun hvalid' => hnot ⟨hvalid, hvalid'⟩
      exact ⟨error, stop, (Builder.bind_ok hbuild).trans (Builder.bind_error hbuild')⟩
    · obtain ⟨error, stop, hbuild⟩ := hlhs.error hvalid
      exact ⟨error, stop, Builder.bind_error hbuild⟩

/-- What only changes the fragment in the end, and not its numbers, takes the same numbers. -/
theorem BuildsInOrder.return {e' : Expr V} {change : Fragment V → Fragment V}
    (h : BuildsInOrder e ids) (hbuild : e'.build = do return change (← e.build))
    (hvalid : e'.Valid = e.Valid) (hcount : e'.count = e.count)
    (hchange : ∀ f, f.InOrder ids.next.val e.count → (change f).InOrder ids.next.val e.count) :
    BuildsInOrder e' ids where
  ok := by
    intro hv
    rw [hvalid] at hv
    obtain ⟨f, hf, horder⟩ := h.ok hv
    rw [hbuild, hcount]
    exact ⟨change f, Builder.return_eq_ok.mpr ⟨f, hf, rfl⟩, hchange f horder⟩
  error := by
    intro hnot
    rw [hvalid] at hnot
    obtain ⟨error, stop, hf⟩ := h.error hnot
    rw [hbuild]
    exact ⟨error, stop, Builder.bind_error hf⟩

/-- Every expression that is put together from single builders takes its numbers in order. -/
theorem buildsInOrder (hover : e.Over fun _ => False)
    (hroom : ids.next.val + e.count ≤ 4294967295) : BuildsInOrder e ids := by
  induction e generalizing ids with
  | fragment g => exact hover.elim
  | view v => exact buildsInOrder_single trivial hroom
  | metric value priority => exact buildsInOrder_single trivial hroom
  | gap points => exact buildsInOrder_single trivial hroom
  | element v? length? priority => exact buildsInOrder_single trivial hroom
  | sized v rule => exact buildsInOrder_single trivial hroom
  | literal text => exact hover.elim
  | join lhs glyph rhs => exact hover.elim
  | withOptions e options ih =>
    exact (ih hover hroom).return rfl rfl rfl fun f hf => hf.withOptions options
  | link lhs link rhs ihl ihr =>
    rw [count] at hroom
    have hlhs : ids.next.val + lhs.count ≤ 4294967295 := by omega
    have hrhs : (ids.skip lhs.count).next.val + rhs.count ≤ 4294967295 := by
      rw [val_skip hlhs]
      omega
    exact (ihl hover.1 hlhs).link hlhs (ihr hover.2 hrhs) link
  | fromEdge e ih =>
    refine (ih hover hroom).return rfl rfl rfl fun f hf => ?_
    have hjoin := (Fragment.inOrder_edge ids.next.val).join (g := f) hf .standard
    rwa [Nat.zero_add] at hjoin
  | toEdge e ih =>
    exact (ih hover hroom).return rfl rfl rfl fun f hf =>
      hf.join (Fragment.inOrder_edge _) .standard

/-- What was built took its numbers in order. -/
theorem BuildsInOrder.of_build (h : BuildsInOrder e ids) (hbuild : e.build ids = .ok f ids') :
    ids' = ids.skip e.count ∧ f.InOrder ids.next.val e.count := by
  by_cases hvalid : e.Valid
  · obtain ⟨g, hbuild', hg⟩ := h.ok hvalid
    obtain ⟨rfl, rfl⟩ := EStateM.Result.ok.inj (hbuild.symm.trans hbuild')
    exact ⟨rfl, hg⟩
  · obtain ⟨error, stop, hbuild'⟩ := h.error hvalid
    cases hbuild.symm.trans hbuild'

/-- Building a part of an expression finds numbers enough, as building the whole one does. -/
theorem Reaches.room {part : Expr V} {stop : IdSource} (h : Reaches part stop e ids)
    (hover : e.Over fun _ => False) (hroom : ids.next.val + e.count ≤ 4294967295) :
    (part.Over fun _ => False) ∧ stop.next.val + part.count ≤ 4294967295 := by
  induction h with
  | self => exact ⟨hover, hroom⟩
  | withOptions options _ ih => exact ih hover hroom
  | lhs link rhs _ ih =>
    rw [count] at hroom
    exact ih hover.1 (by omega)
  | rhs link hlhs _ ih =>
    rw [count] at hroom
    have hroom' := (buildsInOrder hover.1 (by omega)).of_build hlhs
    obtain rfl := hroom'.1
    refine ih hover.2 ?_
    rw [val_skip (by omega)]
    omega
  | fromEdge _ ih => exact ih hover hroom
  | toEdge _ ih => exact ih hover hroom

/-- Where fragments are joined no name is bound in both. -/
theorem Joins.disjoint {left right : Fragment V} (h : Joins e ids left right)
    (hover : e.Over fun _ => False) (hroom : ids.next.val + e.count ≤ 4294967295) :
    (∀ name ∈ left.views.names, name ∉ right.views.names) ∧
      ∀ name ∈ left.metrics.names, name ∉ right.metrics.names := by
  cases h with
  | @link lhs rhs _ _ _ _ _ link hlhs hrhs =>
    rw [count] at hroom
    have hroom' : ids.next.val + lhs.count ≤ 4294967295 := by omega
    obtain ⟨rfl, hleft⟩ := (buildsInOrder hover.1 hroom').of_build hlhs
    have hnext := val_skip hroom'
    obtain ⟨-, hright⟩ := (buildsInOrder hover.2 (by omega)).of_build hrhs
    rw [hnext] at hright
    exact hleft.disjoint hright
  | fromEdge h =>
    constructor
    · exact fun name hname => absurd hname List.not_mem_nil
    · exact fun name hname => absurd hname List.not_mem_nil
  | toEdge h =>
    constructor
    · exact fun name _ => List.not_mem_nil
    · exact fun name _ => List.not_mem_nil

/-- An expression that is put together from single builders alone is built exactly when nothing in
it keeps it from being built. Its symbols then have the next numbers, as many as were counted, in
the order in which the text mentions them first, and the tables keep that order. Wherever fragments
are joined on the way no name is bound in both, and a single builder that fails on the way leaves
the source as it found it. -/
theorem numbered_in_reading_order (hover : e.Over fun _ => False)
    (hroom : ids.next.val + e.count ≤ 4294967295) :
    (e.Valid ↔ ∃ f stop, e.build ids = .ok f stop) ∧
    (∀ f stop, e.build ids = .ok f stop →
      stop.next.val = ids.next.val + e.count ∧
      (Symbol.tokenIds f.text.toList).eraseDups = List.range' ids.next.val e.count ∧
      f.views.names = Symbol.viewTokens f.text.toList ∧
      f.metrics.names = Symbol.metricTokens f.text.toList) ∧
    ∀ part start, Reaches part start e ids →
      (∀ left right, Joins part start left right →
        (∀ name ∈ left.views.names, name ∉ right.views.names) ∧
          ∀ name ∈ left.metrics.names, name ∉ right.metrics.names) ∧
      (part.IsSingle → ∀ error stop, part.build start = .error error stop → stop = start) := by
  have he := buildsInOrder hover hroom
  refine ⟨⟨?_, ?_⟩, ?_, ?_⟩
  · intro hvalid
    obtain ⟨f, hbuild, -⟩ := he.ok hvalid
    exact ⟨f, _, hbuild⟩
  · rintro ⟨f, stop, hbuild⟩
    by_contra hnot
    obtain ⟨error, stop', hbuild'⟩ := he.error hnot
    cases hbuild.symm.trans hbuild'
  · intro f stop hbuild
    obtain ⟨rfl, horder⟩ := he.of_build hbuild
    exact ⟨val_skip hroom, horder.ids, horder.views, horder.metrics⟩
  · intro part start hpart
    obtain ⟨hover', hroom'⟩ := hpart.room hover hroom
    exact ⟨fun left right hjoins => hjoins.disjoint hover' hroom',
      fun hsingle error stop hbuild => eq_of_build_error hbuild hsingle⟩

/-- Single numbers, a run of two for two conditions and a run of two for a view measured by another,
from 5 on. -/
theorem numbered_chain_of_four :
    let e : Expr Nat := .toEdge (.link
      (.link (.view 1) .standard (.sized 2 (.between .zero 1000 .zero 500))) .atLeast
      (.link (.metric .zero 750) .standard (.sized 3 (.relative .equal 4 1000))))
    let ids := IdSource.start.skip 5
    e.Over (fun _ => False) ∧ ids.next.val + e.count ≤ 4294967295 ∧
      ∃ f stop, e.build ids = .ok f stop ∧ stop.next.val = 11 ∧
        (Symbol.tokenIds f.text.toList).eraseDups = [5, 6, 7, 8, 9, 10] ∧
        f.views.names = Symbol.viewTokens f.text.toList ∧
        f.metrics.names = Symbol.metricTokens f.text.toList := by
  intro e ids
  have hover : e.Over fun _ => False := ⟨⟨trivial, trivial⟩, trivial, trivial⟩
  have hroom : ids.next.val + e.count ≤ 4294967295 := by decide
  have hvalid : e.Valid := by
    simp [e, Valid, LengthRule.Valid, Priority.InRange]
  obtain ⟨hbuilds, hnumbers, -⟩ := numbered_in_reading_order hover hroom
  obtain ⟨f, stop, hbuild⟩ := hbuilds.mp hvalid
  exact ⟨hover, hroom, f, stop, hbuild, hnumbers f stop hbuild⟩

end Expr
end LayoutLine
