import LayoutLine.Proofs.Fragment.Making
import LayoutLine.Proofs.Fragment.Renaming

/-!
# Numbering that starts elsewhere

What an expression builds depends on the next number only in so far as its symbols are numbered from
there. Two builds from different numbers take equally many, and they fail for the same reason or
what the second one makes is what the first one makes under shifted numbers. For a single builder
this is so because its recipe is settled before it takes its numbers.
-/

namespace LayoutLine

variable {V : Type}

namespace Expr

/-- How many numbers are taken when the expression is built, also when that fails: a single builder
that fails takes none, and neither does what comes behind a part that fails. -/
def taken : Expr V → Nat
  | .withOptions e _ | .fromEdge e | .toEdge e => e.taken
  | .join lhs _ rhs | .link lhs _ rhs => lhs.taken + if lhs.Valid then rhs.taken else 0
  | e => if e.Valid then e.count else 0

/-- All symbols of what is built are numbered by building it. No fragment is there already, and text
that is taken as it is has no letters. -/
def OwnSymbols : Expr V → Prop
  | .fragment _ => False
  | .view _ | .metric _ _ | .gap _ | .element _ _ _ | .sized _ _ => True
  | .literal text => ∀ c ∈ text.toList, c.isAlpha = false
  | .join lhs glyph rhs =>
    lhs.OwnSymbols ∧ rhs.OwnSymbols ∧ ∀ c ∈ glyph.toList, c.isAlpha = false
  | .withOptions e _ | .fromEdge e | .toEdge e => e.OwnSymbols
  | .link lhs _ rhs => lhs.OwnSymbols ∧ rhs.OwnSymbols

end Expr

namespace Fragment

open LayoutLine.Symbol (IdsShifted)

/-- What is made by one recipe from shifted numbers is shifted as they are. -/
theorem Recipe.shifted {count n m : Nat} {make : SymbolId → Fragment V} (h : Recipe count make)
    {id id' : SymbolId} (hids : IdsShifted n m count id id') :
    (make id).Shifted n m (make id') := by
  cases h with
  | gap points => exact .gap points
  | view view => exact .ofView hids view
  | metric metric => exact .ofMetric hids metric
  | lengths view clauses _ => exact .ofLengths hids view
  | relative view relation other priority => exact .ofRelative hids view relation other priority

end Fragment

namespace Expr

open LayoutLine.Symbol (IdsShifted NameShifted tokens)

variable {n m : Nat} {ids ids' : IdSource}

/-! ### Two builds -/

/-- Two builds of the expression take their numbers, and both fail with one error or make what
is the same under shifted numbers. -/
structure BuildsAlike (n m : Nat) (e : Expr V) (ids ids' : IdSource) : Prop where
  /-- A valid expression is built twice. -/
  ok : e.Valid → ∃ f g, e.build ids = .ok f (ids.skip e.taken) ∧
    e.build ids' = .ok g (ids'.skip e.taken) ∧ f.Shifted n m g
  /-- Any other fails twice. -/
  error : ¬e.Valid → ∃ error, e.build ids = .error error (ids.skip e.taken) ∧
    e.build ids' = .error error (ids'.skip e.taken)

theorem taken_single {e : Expr V} (h : e.IsSingle) :
    e.taken = if e.Valid then e.count else 0 := by
  cases e <;> first | rfl | exact h.elim

/-- A single builder makes the same under shifted numbers, by its recipe. -/
theorem buildsAlike_single {e : Expr V} (h : e.IsSingle)
    (hids : IdsShifted n m e.taken ids.next ids'.next) : BuildsAlike n m e ids ids' := by
  rw [taken_single h] at hids
  obtain ⟨hvalid, make, hmake, hbuild⟩ | ⟨hnot, error, hbuild⟩ := makes_single h
  · refine ⟨fun _ => ?_, fun hnot => absurd hvalid hnot⟩
    rw [if_pos hvalid] at hids
    have hroom := hids.room
    rw [taken_single h, if_pos hvalid, hbuild, blockSize_of_lt (by omega)]
    exact ⟨make ids.next, make ids'.next, rfl, rfl, hmake.shifted hids⟩
  · refine ⟨fun hvalid => absurd hvalid hnot, fun _ => ?_⟩
    rw [taken_single h, if_neg hnot, IdSource.skip_zero, IdSource.skip_zero, hbuild]
    exact ⟨error, rfl, rfl⟩

/-- What is put in front of a build or behind it, without numbers of its own, changes nothing. -/
theorem BuildsAlike.return {e e' : Expr V} {change : Fragment V → Fragment V}
    (h : BuildsAlike n m e ids ids') (hbuild : e'.build = do return change (← e.build))
    (hvalid : e'.Valid = e.Valid) (htaken : e'.taken = e.taken)
    (hchange : ∀ f g, f.Shifted n m g → (change f).Shifted n m (change g)) :
    BuildsAlike n m e' ids ids' where
  ok := by
    intro hv
    rw [hvalid] at hv
    obtain ⟨f, g, hf, hg, hshifted⟩ := h.ok hv
    rw [hbuild, htaken]
    exact ⟨change f, change g, Builder.return_eq_ok.mpr ⟨f, hf, rfl⟩,
      Builder.return_eq_ok.mpr ⟨g, hg, rfl⟩, hchange f g hshifted⟩
  error := by
    intro hnot
    rw [hvalid] at hnot
    obtain ⟨error, hf, hg⟩ := h.error hnot
    rw [hbuild, htaken]
    exact ⟨error, Builder.bind_error hf, Builder.bind_error hg⟩

/-- The right operand is built after the left one, from numbers that are shifted as well. -/
theorem BuildsAlike.join {lhs rhs : Expr V} {glyph : String}
    (hglyph : ∀ c ∈ glyph.toList, c.isAlpha = false) (hlhs : BuildsAlike n m lhs ids ids')
    (hrhs : lhs.Valid → BuildsAlike n m rhs (ids.skip lhs.taken) (ids'.skip lhs.taken)) :
    BuildsAlike n m (lhs.join glyph rhs) ids ids' where
  ok := by
    rintro ⟨hvalid, hvalid'⟩
    obtain ⟨f, g, hf, hg, hshifted⟩ := hlhs.ok hvalid
    obtain ⟨f', g', hf', hg', hshifted'⟩ := (hrhs hvalid).ok hvalid'
    rw [taken, if_pos hvalid, ← IdSource.skip_skip, ← IdSource.skip_skip]
    refine ⟨f.join glyph f', g.join glyph g', ?_, ?_, hshifted.join hglyph hshifted'⟩
    · exact (Builder.bind_ok hf).trans (Builder.bind_ok hf')
    · exact (Builder.bind_ok hg).trans (Builder.bind_ok hg')
  error := by
    intro hnot
    by_cases hvalid : lhs.Valid
    · obtain ⟨f, g, hf, hg, -⟩ := hlhs.ok hvalid
      obtain ⟨error, hf', hg'⟩ := (hrhs hvalid).error fun hvalid' => hnot ⟨hvalid, hvalid'⟩
      rw [taken, if_pos hvalid, ← IdSource.skip_skip, ← IdSource.skip_skip]
      exact ⟨error, (Builder.bind_ok hf).trans (Builder.bind_error hf'),
        (Builder.bind_ok hg).trans (Builder.bind_error hg')⟩
    · obtain ⟨error, hf, hg⟩ := hlhs.error hvalid
      rw [taken, if_neg hvalid, Nat.add_zero]
      exact ⟨error, Builder.bind_error hf, Builder.bind_error hg⟩

/-- Behind a left operand that is built the numbers of the right one are shifted as well. -/
theorem idsShifted_rhs {lhs rhs : Expr V} {id id' : SymbolId} (hvalid : lhs.Valid)
    (h : IdsShifted n m (lhs.taken + if lhs.Valid then rhs.taken else 0) id id') :
    IdsShifted n m rhs.taken (id.advance lhs.taken) (id'.advance lhs.taken) := by
  rw [if_pos hvalid] at h
  exact h.advance

/-- Every expression whose symbols are its own is built alike from shifted numbers. -/
theorem buildsAlike {e : Expr V} (hown : e.OwnSymbols)
    (hids : IdsShifted n m e.taken ids.next ids'.next) : BuildsAlike n m e ids ids' := by
  induction e generalizing ids ids' with
  | fragment f => exact hown.elim
  | view v => exact buildsAlike_single trivial hids
  | metric value priority => exact buildsAlike_single trivial hids
  | gap points => exact buildsAlike_single trivial hids
  | element v? length? priority => exact buildsAlike_single trivial hids
  | sized v rule => exact buildsAlike_single trivial hids
  | literal text =>
    have htaken : (literal text : Expr V).taken = 0 := ite_self 0
    constructor
    · intro _
      rw [htaken, IdSource.skip_zero, IdSource.skip_zero]
      exact ⟨_, _, rfl, rfl, .literal hown⟩
    · exact fun hnot => (hnot trivial).elim
  | join lhs glyph rhs ihl ihr =>
    have hlhs := ihl hown.1 (hids.mono (Nat.le_add_right _ _))
    exact hlhs.join hown.2.2 fun hvalid => ihr hown.2.1 (idsShifted_rhs hvalid hids)
  | link lhs link rhs ihl ihr =>
    -- A link is built as a join with its glyph.
    have hlhs := ihl hown.1 (hids.mono (Nat.le_add_right _ _))
    have hjoin : BuildsAlike n m (lhs.join link.glyph rhs) ids ids' :=
      hlhs.join link.isAlpha_glyph fun hvalid => ihr hown.2 (idsShifted_rhs hvalid hids)
    exact ⟨hjoin.ok, hjoin.error⟩
  | withOptions e options ih =>
    exact (ih hown hids).return rfl rfl rfl fun f g h => h.withOptions options
  | fromEdge e ih =>
    exact (ih hown hids).return rfl rfl rfl fun f g h =>
      Fragment.Shifted.edge.join (Link.isAlpha_glyph .standard) h
  | toEdge e ih =>
    exact (ih hown hids).return rfl rfl rfl fun f g h =>
      h.join (Link.isAlpha_glyph .standard) .edge

theorem val_skip_taken {e : Expr V} (h : ids.next.val + e.taken ≤ 4294967295) :
    (ids.skip e.taken).next.val = ids.next.val + e.taken := by
  simp only [IdSource.skip, SymbolId.val_advance]
  omega

/-- **Numbering that starts elsewhere.** An expression whose symbols are its own is built from two
numbers, neither of which is so late that the numbers run out. Both builds take as many numbers.
Either both succeed, and the second fragment is the first one with each number shifted from the one
start to the other, in the text and in both tables, and the same in all else; or both fail for the
same reason. So when numbering starts afresh the same fragment is built again. -/
theorem build_from_shifted_numbers {e : Expr V} (hown : e.OwnSymbols)
    (hroom : ids.next.val + e.taken ≤ 4294967295)
    (hroom' : ids'.next.val + e.taken ≤ 4294967295) :
    ((∃ f g stop stop', e.build ids = .ok f stop ∧ e.build ids' = .ok g stop' ∧
        stop.next.val = ids.next.val + e.taken ∧ stop'.next.val = ids'.next.val + e.taken ∧
        f.Shifted ids.next.val ids'.next.val g ∧
        List.Forall₂ (NameShifted ids.next.val ids'.next.val)
          (tokens f.text.toList) (tokens g.text.toList)) ∨
      ∃ error stop stop', e.build ids = .error error stop ∧ e.build ids' = .error error stop' ∧
        stop.next.val = ids.next.val + e.taken ∧ stop'.next.val = ids'.next.val + e.taken) ∧
    ∀ f stop, e.build .start = .ok f stop →
      (do
        let first ← e.build
        set IdSource.start
        let again ← e.build
        return (first, again) : Builder (Fragment V × Fragment V)) .start = .ok (f, f) stop := by
  have halike : BuildsAlike ids.next.val ids'.next.val e ids ids' :=
    buildsAlike hown ⟨Nat.add_comm _ _, hroom, hroom'⟩
  constructor
  · by_cases hvalid : e.Valid
    · obtain ⟨f, g, hf, hg, hshifted⟩ := halike.ok hvalid
      exact .inl ⟨f, g, _, _, hf, hg, val_skip_taken hroom, val_skip_taken hroom', hshifted,
        hshifted.text.tokens⟩
    · obtain ⟨error, hf, hg⟩ := halike.error hvalid
      exact .inr ⟨error, _, _, hf, hg, val_skip_taken hroom, val_skip_taken hroom'⟩
  · intro f stop hf
    refine (Builder.bind_ok hf).trans ?_
    exact Builder.bind_ok (x := e.build) hf

/-- A view, one between two lengths and one measured by another, numbered from 8 and from 98 on:
with the numbers the text gets longer. -/
theorem build_from_shifted_numbers_longer :
    let e : Expr Nat := .toEdge (.link
      (.link (.view 1) .standard (.sized 2 (.between .zero 1000 .zero 500))) .atLeast
      (.sized 3 (.relative .equal 4 1000)))
    let ids := IdSource.start.skip 8
    let ids' := IdSource.start.skip 98
    e.OwnSymbols ∧ ids.next.val + e.taken ≤ 4294967295 ∧ ids'.next.val + e.taken ≤ 4294967295 ∧
      ∃ f g stop stop', e.build ids = .ok f stop ∧ e.build ids' = .ok g stop' ∧
        stop.next.val = 13 ∧ stop'.next.val = 103 ∧ f.Shifted 8 98 g ∧
        f.text = "[view_8]-[view_9(>=metric_9@1000,<=metric_10@500)]->=" ++
          "[view_11(==viewR_12@1000)]-|" ∧
        g.text = "[view_98]-[view_99(>=metric_99@1000,<=metric_100@500)]->=" ++
          "[view_101(==viewR_102@1000)]-|" := by
  intro e ids ids'
  have hown : e.OwnSymbols := ⟨⟨trivial, trivial⟩, trivial⟩
  have hroom : ids.next.val + e.taken ≤ 4294967295 := by decide
  have hroom' : ids'.next.val + e.taken ≤ 4294967295 := by decide
  refine ⟨hown, hroom, hroom', ?_⟩
  obtain ⟨⟨f, g, stop, stop', hf, hg, hstop, hstop', hshifted, -⟩ | ⟨error, _, _, hf, -⟩, -⟩ :=
    build_from_shifted_numbers hown hroom hroom'
  · refine ⟨f, g, stop, stop', hf, hg, hstop, hstop', hshifted, ?_, ?_⟩
    · cases hf
      decide +kernel
    · cases hg
      decide +kernel
  · cases hf

end Expr
end LayoutLine
