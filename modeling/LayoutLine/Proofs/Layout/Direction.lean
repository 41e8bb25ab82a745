import LayoutLine.Proofs.Line.Accepted
import LayoutLine.Proofs.Layout.Seams
import LayoutLine.Proofs.Resolve.Carrying

/-!
# Lines from right to left

A horizontal line that is told to run from right to left gives, constraint by constraint, the
mirrored anchors of the line from left to right, under the same relations and constants. The gaps
are not turned with them. The two resolutions are mirror images of one another when every gap that
may be some distance may be the opposite one as well; a gap that keeps views apart may not. Unless
a view occurs twice or no layout meets the constraints, this is the only way.
-/

namespace LayoutLine

variable {V : Type}

/-! ### Resolving in the other direction -/

/-- The attributes at the same places in the mirror image. -/
def Span.mirror (span : Span) : Span := ⟨span.start.mirror, span.stop.mirror, span.length.mirror⟩

/-- With the flag for it, and without the other one, a line runs from left to right. -/
theorem Span.along_leftToRight {base : Options} (h : base.has .rightToLeft = false) :
    Span.along .horizontal (base.union (.ofFlag .leftToRight)) = .leftToRight := by
  simp [along, Options.has_ofFlag, h, leftToRight]

/-- With the flag for it a line runs from right to left, whatever other flags are set. -/
theorem Span.along_rightToLeft (base : Options) :
    Span.along .horizontal (base.union (.ofFlag .rightToLeft)) = leftToRight.mirror := by
  simp [along, Options.has_ofFlag, leftToRight, mirror, Attribute.mirror]

/-- The direction flags align nothing. -/
theorem Options.alignments_union_direction (base : Options) (direction : Flag)
    (h : direction.alignment? = none) :
    (base.union (.ofFlag direction)).alignments = base.alignments := by
  refine alignments_congr fun flag hflag => ?_
  have hne : direction ≠ flag := by
    rintro rfl
    rw [h] at hflag
    cases hflag
  simp [has_ofFlag, hne]

namespace Piece

/-- The piece between the anchors at the same places in the mirror image. -/
def mirror : Piece V → Piece V
  | .gap first second standard spacing => .gap first.mirror second.mirror standard spacing
  | .length anchor clause => .length anchor.mirror clause

/-- The mirror image of a piece is that piece with all its attributes mirrored. -/
theorem mirror_eq_map (piece : Piece V) : piece.mirror = piece.map id Attribute.mirror id := by
  cases piece with
  | gap first second standard spacing =>
    rw [map, Line.Spacing.map_id]
    rfl
  | length anchor clause => rfl

/-- Mirrored pieces give the mirrored constraints. -/
theorem Yields.mirror {bindings : Bindings V} {pieces : List (Piece V)}
    {constraints : List (Constraint V)} (h : Yields bindings pieces constraints) :
    Yields bindings (pieces.map Piece.mirror) (constraints.map Constraint.mirror) := by
  obtain ⟨parts, hparts, rfl⟩ := h
  refine ⟨parts.map (List.map Constraint.mirror), ?_, List.map_flatten.symm⟩
  rw [funext mirror_eq_map, mapM_carry (bindings.carried_id.constraints Attribute.mirror), hparts]
  rfl

end Piece

namespace Line

/-- A line with its attributes mirrored consists of the mirrored pieces. -/
theorem pieces_mirror (span : Span) (config : StandardSpacing) (line : Line)
    (placed : List (Placed V)) :
    line.pieces span.mirror config placed = (line.pieces span config placed).map Piece.mirror := by
  have hplaced : placed.map (Prod.map (View.map id id) id) = placed := by
    rw [funext View.map_id]
    exact List.map_id placed
  have hmap : (line.map line.axis id id).pieces (span.map Attribute.mirror) config
      (placed.map (Prod.map (View.map id id) id)) =
        (line.pieces span config placed).map (Piece.map id Attribute.mirror id) :=
    pieces_map rfl line.axis id Attribute.mirror span config line placed
  rw [map_id_id, hplaced] at hmap
  rw [funext Piece.mirror_eq_map]
  exact hmap

/-- Vertical alignments are the same in the mirror image. -/
theorem alignNeighbours_mirror {attr : Attribute} (h : attr.IsLevel) (items : List (Item V)) :
    (alignNeighbours attr items).map Constraint.mirror = alignNeighbours attr items := by
  have hmap := alignNeighbours_map id Attribute.mirror attr items
  rw [h.mirror_eq, List.map_id] at hmap
  exact hmap.symm

/-- What is aligned across a horizontal line is level. -/
theorem isLevel_of_crosses {attr : Attribute} (h : attr.axis ≠ .horizontal) : attr.IsLevel := by
  cases haxis : attr.axis with
  | horizontal => exact absurd haxis h
  | vertical => exact .inr haxis

/-- A horizontal line gives in the other direction the constraints between the mirrored anchors. -/
theorem resolve_mirror {line : Line} (haxis : line.axis = .horizontal) {base : Options}
    (hbase : base.has .rightToLeft = false) {bindings : Bindings V} {config : StandardSpacing}
    {constraints : List (Constraint V)}
    (h : line.resolve (base.union (.ofFlag .leftToRight)) bindings config = .ok constraints) :
    line.resolve (base.union (.ofFlag .rightToLeft)) bindings config =
      .ok (constraints.map Constraint.mirror) := by
  obtain ⟨items, spaced, hitems, hpieces, hcross, rfl⟩ := exists_of_resolve h
  rw [base.alignments_union_direction .leftToRight rfl] at hcross ⊢
  rw [haxis, Span.along_leftToRight hbase] at hpieces
  have hmirror := hpieces.mirror
  rw [← pieces_mirror, ← Span.along_rightToLeft base, ← haxis] at hmirror
  have halignments := base.alignments_union_direction .rightToLeft rfl
  have hresolve := resolve_of_yields hitems hmirror (by rwa [halignments])
  have haligned : ∀ alignment ∈ base.alignments,
      (alignNeighbours alignment.2 items).map Constraint.mirror =
        alignNeighbours alignment.2 items := fun alignment hmem =>
    alignNeighbours_mirror (isLevel_of_crosses (haxis ▸ hcross alignment hmem)) items
  rw [hresolve, halignments, List.map_append, List.map_flatMap, List.flatMap_def,
    List.flatMap_def, List.map_congr_left haligned]

end Line

/-! ### Gaps that may be turned -/

/-- A gap that may be some distance may be the opposite one as well. -/
def Balanced (constraints : List (Constraint V)) : Prop :=
  ∀ seam : Seam V, seam.1.attr.IsSide → ∀ distance,
    Allowed constraints seam distance → Allowed constraints seam (-distance)

/-- One constraint alone allows with each distance its opposite only if it lets the sides touch and
nothing else. -/
theorem Constraint.allows_neg_iff {c : Constraint V} {k : Rat} (hk : c.constant.value? = some k) :
    (∀ distance, c.Allows distance → c.Allows (-distance)) ↔ c.relation = .equal ∧ k = 0 := by
  have hallows : ∀ distance, c.Allows distance ↔ c.relation.Holds distance k := by
    intro distance
    simp only [Allows, hk, Option.some.injEq, exists_eq_left']
  simp only [hallows]
  cases c.relation with
  | equal =>
    constructor
    · intro h
      have hturned : -k = k := h k rfl
      exact ⟨rfl, by grind⟩
    · rintro ⟨-, rfl⟩ distance (rfl : distance = 0)
      exact Rat.neg_zero
  | atLeast =>
    refine ⟨fun h => ?_, fun h => absurd h.1 (by decide)⟩
    -- far beyond the bound on one side is far from it on the other
    have hfar : k ≤ -(k.abs + 1) := h (k.abs + 1) (by simp only [Relation.Holds, Rat.abs]; grind)
    simp only [Rat.abs] at hfar
    grind
  | atMost =>
    refine ⟨fun h => ?_, fun h => absurd h.1 (by decide)⟩
    have hfar : -(-(k.abs + 1)) ≤ k :=
      h (-(k.abs + 1)) (by simp only [Relation.Holds, Rat.abs]; grind)
    simp only [Rat.abs] at hfar
    grind

/-- Gaps that let the sides touch and nothing else are balanced. -/
theorem balanced_of_flush {constraints : List (Constraint V)}
    (h : ∀ c ∈ constraints, c.first.attr.IsSide →
      c.relation = .equal ∧ c.constant.value? = some 0) : Balanced constraints := by
  intro seam hside distance hallowed c hc hfirst hsecond
  obtain ⟨hequal, hzero⟩ := h c hc (hfirst ▸ hside)
  exact (Constraint.allows_neg_iff hzero).mpr ⟨hequal, rfl⟩ distance (hallowed c hc hfirst hsecond)

section Along

variable {constraints : List (Constraint V)} {seams : List (Seam V)}

/-- The mirror image meets the mirrored constraints where the layout meets the turned ones. -/
theorem meets_mirror_iff (halong : ∀ c ∈ constraints, c.Along seams)
    (hsides : ∀ seam ∈ seams, seam.1.attr.IsSide ∧ seam.2.attr.IsSide) (layout : Layout V) :
    layout.mirror.assignment.Meets (constraints.map Constraint.mirror) ↔
      layout.assignment.Meets (constraints.map Constraint.turned) := by
  have hmet : ∀ c ∈ constraints,
      (c.mirror.Met layout.mirror.assignment ↔ c.turned.Met layout.assignment) := by
    intro c hc
    rcases halong c hc with ⟨seam, hseam, hfirst, hsecond⟩ | hlevel
    · obtain ⟨hside, hside'⟩ := hsides seam hseam
      exact Constraint.met_mirror_of_isGap ⟨hfirst ▸ hside, seam.2, hsecond, hside'⟩ layout
    · exact Constraint.met_mirror_of_isLevel hlevel layout
  simp only [Assignment.Meets, List.forall_mem_map]
  exact forall₂_congr hmet

/-- A layout meets constraints along seams when it meets the level ones and every gap is allowed. -/
theorem meets_iff_of_along (halong : ∀ c ∈ constraints, c.Along seams) (layout : Layout V) :
    layout.assignment.Meets constraints ↔
      (∀ c ∈ constraints, c.IsLevel → c.Met layout.assignment) ∧
        ∀ seam ∈ seams, Allowed constraints seam (layout.gap seam) :=
  Constraint.forall_iff_of_along halong fun _ _ _ hfirst hsecond =>
    Constraint.met_iff_allows_gap hfirst hsecond layout

/-- It meets the turned constraints when it meets the level ones and the opposite of every gap is
allowed. -/
theorem meets_turned_iff_of_along (halong : ∀ c ∈ constraints, c.Along seams)
    (hsides : ∀ seam ∈ seams, seam.1.attr.IsSide ∧ seam.2.attr.IsSide) (layout : Layout V) :
    layout.assignment.Meets (constraints.map Constraint.turned) ↔
      (∀ c ∈ constraints, c.IsLevel → c.Met layout.assignment) ∧
        ∀ seam ∈ seams, Allowed constraints seam (-layout.gap seam) := by
  have hgap : ∀ seam ∈ seams, ∀ c : Constraint V, c.first = seam.1 → c.second = some seam.2 →
      (c.turned.Met layout.assignment ↔ c.Allows (-layout.gap seam)) := by
    intro seam hseam c hfirst hsecond
    have hside : c.first.attr.IsSide := hfirst ▸ (hsides seam hseam).1
    rw [Constraint.met_iff_allows_gap (c.first_turned.trans hfirst)
      (c.second_turned.trans hsecond), Constraint.allows_turned hside]
  have hlevel : ∀ c ∈ constraints, (c.IsLevel → c.turned.Met layout.assignment) ↔
      (c.IsLevel → c.Met layout.assignment) := by
    intro c _
    exact imp_congr_right fun hlevel => by rw [hlevel.turned_eq]
  simp only [Assignment.Meets, List.forall_mem_map]
  rw [Constraint.forall_iff_of_along halong hgap, forall₂_congr hlevel]

/-- Constraints with balanced gaps are met where the turned ones are. -/
theorem Balanced.meets_turned_iff (h : Balanced constraints)
    (halong : ∀ c ∈ constraints, c.Along seams)
    (hsides : ∀ seam ∈ seams, seam.1.attr.IsSide ∧ seam.2.attr.IsSide) (layout : Layout V) :
    layout.assignment.Meets (constraints.map Constraint.turned) ↔
      layout.assignment.Meets constraints := by
  have hallowed : ∀ seam ∈ seams, Allowed constraints seam (-layout.gap seam) ↔
      Allowed constraints seam (layout.gap seam) := by
    intro seam hseam
    have hside := (hsides seam hseam).1
    refine ⟨fun hturned => ?_, h seam hside _⟩
    have hback := h seam hside _ hturned
    rwa [Rat.neg_neg] at hback
  rw [meets_turned_iff_of_along halong hsides, meets_iff_of_along halong,
    forall₂_congr hallowed]

/-- Where no constraint of the line speaks of a gap, every distance is allowed. -/
theorem allowed_of_notMem_seams (halong : ∀ c ∈ constraints, c.Along seams) {seam : Seam V}
    (hside : seam.1.attr.IsSide) (hseam : seam ∉ seams) (distance : Rat) :
    Allowed constraints seam distance := by
  intro c hc hfirst hsecond
  rcases halong c hc with ⟨other, hother, hfirst', hsecond'⟩ | hlevel
  · have heq : seam = other := Prod.ext (hfirst.symm.trans hfirst')
      (Option.some.inj (hsecond.symm.trans hsecond'))
    exact absurd (heq ▸ hother) hseam
  · exact absurd (hfirst ▸ hside) hlevel.1.2.not_isSide

end Along

section WithoutRepetitions

variable {items : List (Item V)} {constraints : List (Constraint V)}

/-- Where the level constraints are met, some layout meets all constraints and has any widths that
they allow for its gaps. -/
theorem exists_meets_of_allowed (halong : ∀ c ∈ constraints, c.Along (Line.seams items))
    (hviews : Item.container ∉ items) (hnodup : (items.map Item.handle?).Nodup)
    {layout : Layout V} (hlevel : ∀ c ∈ constraints, c.IsLevel → c.Met layout.assignment)
    {width : Seam V → Rat}
    (hallowed : ∀ seam ∈ Line.seams items, Allowed constraints seam (width seam)) :
    ∃ layout' : Layout V, layout'.assignment.Meets constraints ∧
      ∀ seam ∈ Line.seams items, layout'.gap seam = width seam := by
  obtain ⟨layout', hkeep, hgaps⟩ := layout.exists_gaps hviews hnodup width
  have hlevel' : ∀ c ∈ constraints, c.IsLevel → c.Met layout'.assignment := fun c hc hc' =>
    (hkeep c hc').mpr (hlevel c hc hc')
  have hallowed' : ∀ seam ∈ Line.seams items, Allowed constraints seam (layout'.gap seam) := by
    intro seam hseam
    rw [hgaps seam hseam]
    exact hallowed seam hseam
  exact ⟨layout', (meets_iff_of_along halong layout').mpr ⟨hlevel', hallowed'⟩, hgaps⟩

/-- A layout that meets the turned constraints becomes one that meets the constraints when all its
gaps are turned. -/
theorem exists_meets_of_turned (halong : ∀ c ∈ constraints, c.Along (Line.seams items))
    (hviews : Item.container ∉ items) (hnodup : (items.map Item.handle?).Nodup)
    {layout : Layout V} (h : layout.assignment.Meets (constraints.map Constraint.turned)) :
    ∃ layout' : Layout V, layout'.assignment.Meets constraints := by
  obtain ⟨hlevel, hallowed⟩ :=
    (meets_turned_iff_of_along halong Line.isSide_of_mem_seams layout).mp h
  obtain ⟨layout', hmeets, -⟩ := exists_meets_of_allowed halong hviews hnodup hlevel hallowed
  exact ⟨layout', hmeets⟩

/-- When the layouts that meet the constraints, and there are some, meet the turned ones as well,
the gaps are balanced: such a layout can be changed at one seam to any distance that is allowed
there. -/
theorem balanced_of_meets_turned (halong : ∀ c ∈ constraints, c.Along (Line.seams items))
    (hviews : Item.container ∉ items) (hnodup : (items.map Item.handle?).Nodup)
    {layout : Layout V} (hlayout : layout.assignment.Meets constraints)
    (hturned : ∀ layout : Layout V, layout.assignment.Meets constraints →
      layout.assignment.Meets (constraints.map Constraint.turned)) : Balanced constraints := by
  classical
  intro seam hside distance hdistance
  by_cases hseam : seam ∈ Line.seams items
  · obtain ⟨hlevel, hallowed⟩ := (meets_iff_of_along halong layout).mp hlayout
    let width : Seam V → Rat := fun other =>
      if other = seam then distance else layout.gap other
    have hwidth : ∀ other ∈ Line.seams items, Allowed constraints other (width other) := by
      intro other hother
      by_cases heq : other = seam
      · simp only [width, if_pos heq]
        exact heq ▸ hdistance
      · simp only [width, if_neg heq]
        exact hallowed other hother
    obtain ⟨layout', hmeets, hgaps⟩ :=
      exists_meets_of_allowed halong hviews hnodup hlevel hwidth
    have hopposite := ((meets_turned_iff_of_along halong Line.isSide_of_mem_seams layout').mp
      (hturned layout' hmeets)).2 seam hseam
    have hgap : layout'.gap seam = distance := (hgaps seam hseam).trans (if_pos rfl)
    rwa [hgap] at hopposite
  · exact allowed_of_notMem_seams halong hside hseam (-distance)

/-- In a line without repetitions the same layouts meet the constraints and the turned ones only
when no layout meets them or all gaps are balanced. -/
theorem turned_iff_balanced (halong : ∀ c ∈ constraints, c.Along (Line.seams items))
    (hviews : Item.container ∉ items) (hnodup : (items.map Item.handle?).Nodup) :
    (∀ layout : Layout V, layout.assignment.Meets (constraints.map Constraint.turned) ↔
      layout.assignment.Meets constraints) ↔
        (¬∃ layout : Layout V, layout.assignment.Meets constraints) ∨ Balanced constraints := by
  constructor
  · intro hsame
    by_cases hsome : ∃ layout : Layout V, layout.assignment.Meets constraints
    · obtain ⟨layout, hlayout⟩ := hsome
      exact .inr (balanced_of_meets_turned halong hviews hnodup hlayout
        fun layout => (hsame layout).mpr)
    · exact .inl hsome
  · rintro (hnone | hbalanced) layout
    · exact iff_of_false (fun h => hnone (exists_meets_of_turned halong hviews hnodup h))
        fun h => hnone ⟨layout, h⟩
    · exact hbalanced.meets_turned_iff halong Line.isSide_of_mem_seams layout

end WithoutRepetitions

namespace Line

open LayoutLine.Line.Language

/-- A horizontal line that resolves from left to right resolves from right to left, and gives
constraints that the mirror image of a layout meets exactly where the layout meets the constraints
from left to right with every gap turned. Constraints with balanced gaps are met by a layout exactly
where its mirror image meets those from right to left. For a line without repetitions nothing else
makes the two directions mirror images of one another, unless no layout meets the constraints. -/
theorem mirror_meets_iff {line : Line} (haxis : line.axis = .horizontal) {base : Options}
    (hbase : base.has .rightToLeft = false) {bindings : Bindings V} {config : StandardSpacing}
    {constraints : List (Constraint V)}
    (h : line.resolve (base.union (.ofFlag .leftToRight)) bindings config = .ok constraints) :
    ∃ mirrored,
      line.resolve (base.union (.ofFlag .rightToLeft)) bindings config = .ok mirrored ∧
      (∀ layout : Layout V, layout.mirror.assignment.Meets mirrored ↔
        layout.assignment.Meets (constraints.map Constraint.turned)) ∧
      (Balanced constraints → ∀ layout : Layout V,
        layout.assignment.Meets constraints ↔ layout.mirror.assignment.Meets mirrored) ∧
      ((line.views.map (bindings.views.get? ·.name)).Nodup →
        ((∀ layout : Layout V,
          layout.assignment.Meets constraints ↔ layout.mirror.assignment.Meets mirrored) ↔
            (¬∃ layout : Layout V, layout.assignment.Meets constraints) ∨
              Balanced constraints)) := by
  have hspan : Span.along .horizontal (base.union (.ofFlag .leftToRight)) = .leftToRight :=
    Span.along_leftToRight hbase
  obtain ⟨items, hhandles, hviews, halong⟩ := along_of_resolve haxis hspan h
  have hturned := meets_mirror_iff halong isSide_of_mem_seams
  refine ⟨_, resolve_mirror haxis hbase h, hturned, fun hbalanced layout => ?_, fun hnodup => ?_⟩
  · rw [hturned, hbalanced.meets_turned_iff halong isSide_of_mem_seams]
  · rw [← turned_iff_balanced halong hviews (hhandles ▸ hnodup)]
    refine forall_congr' fun layout => ?_
    rw [hturned]
    exact Iff.comm

/-- Two views under their names. -/
def twoViews : Bindings Nat where views := .ofList [("a", 0), ("b", 1)]

/-- Two views of one width that touch, the first at the left edge of the container: the layouts of
the line from right to left are the mirror images of those from left to right. -/
theorem mirror_meets_flush_line :
    ∃ line constraints mirrored, parse "H:|[a][b(a)]" = .ok line ∧
      line.axis = .horizontal ∧ Options.empty.has .rightToLeft = false ∧
      (line.views.map (twoViews.views.get? ·.name)).Nodup ∧
      line.resolve (Options.empty.union (.ofFlag .leftToRight)) twoViews {} = .ok constraints ∧
      line.resolve (Options.empty.union (.ofFlag .rightToLeft)) twoViews {} = .ok mirrored ∧
      ∀ layout : Layout Nat,
        layout.assignment.Meets constraints ↔ layout.mirror.assignment.Meets mirrored := by
  let line : Line := ⟨.horizontal, some .flush,
    [⟨"a", []⟩, ⟨"b", [⟨.equal, .name "a", none⟩]⟩], [.flush], none⟩
  let a : Item Nat := .view "a" 0
  let b : Item Nat := .view "b" 1
  let constraints : List (Constraint Nat) :=
    [⟨⟨a, .left⟩, .equal, some ⟨.container, .left⟩, .zero, .required⟩,
      ⟨⟨b, .left⟩, .equal, some ⟨a, .right⟩, .zero, .required⟩,
      ⟨⟨b, .width⟩, .equal, some ⟨a, .width⟩, .zero, .required⟩]
  have hname (c : Char) (hc : IsLetter c) : NameText (String.ofList [c]) [c] :=
    .intro hc (by simp)
  have hclauses : ClausesText [⟨.equal, .name "a", none⟩] "(a)".toList :=
    .intro (.intro .unwritten (.name (hname 'a' (by decide))) .unwritten) .nil
  have htext : LineText line "H:|[a][b(a)]".toList :=
    .intro (.intro .horizontal (.written .flush)) (.bare (hname 'a' (by decide)))
      (.cons .flush (.sized (hname 'b' (by decide)) hclauses) .nil) .unwritten
  have hresolve : line.resolve (Options.empty.union (.ofFlag .leftToRight)) twoViews {} =
      .ok constraints := rfl
  have hnodup : (line.views.map (twoViews.views.get? ·.name)).Nodup := by decide
  have hflush : Balanced constraints := balanced_of_flush (by
    simp [constraints, Number.value?_zero, Attribute.IsSide])
  have haxis : line.axis = .horizontal := rfl
  have hbase : Options.empty.has .rightToLeft = false := by decide
  obtain ⟨mirrored, hmirrored, -, -, hexact⟩ := mirror_meets_iff haxis hbase hresolve
  exact ⟨line, constraints, mirrored, parse_eq_ok_iff.mpr htext, haxis, hbase, hnodup, hresolve,
    hmirrored, (hexact hnodup).mpr (.inr hflush)⟩

/-- Where a standard gap keeps two views apart the two directions are not mirror images: the line
from right to left has the views overlap by that gap. -/
theorem not_mirror_image_of_standard_gap :
    ∃ line constraints mirrored, parse "H:[a]-[b]" = .ok line ∧ line.axis = .horizontal ∧
      line.resolve (.ofFlag .leftToRight) twoViews {} = .ok constraints ∧
      line.resolve (.ofFlag .rightToLeft) twoViews {} = .ok mirrored ∧
      (∀ c ∈ constraints, c.constant.value?.isSome) ∧
      ∃ layout : Layout Nat,
        layout.assignment.Meets constraints ∧ ¬layout.mirror.assignment.Meets mirrored := by
  let line : Line := ⟨.horizontal, none, [⟨"a", []⟩, ⟨"b", []⟩], [.standard], none⟩
  let a : Item Nat := .view "a" 0
  let b : Item Nat := .view "b" 1
  have hview (c : Char) (hc : IsLetter c) : ViewText ⟨String.ofList [c], []⟩ ['[', c, ']'] :=
    .bare (.intro hc (by simp))
  have htext : LineText line "H:[a]-[b]".toList :=
    .intro (.intro .horizontal .unwritten) (hview 'a' (by decide))
      (.cons .standard (hview 'b' (by decide)) .nil) .unwritten
  let frame (left right : Rat) : Frame := ⟨left, right, 0, 10, 8, 8⟩
  let layout : Layout Nat :=
    ⟨frame 0 300, fun view => if view = 0 then frame 0 100 else frame 108 208⟩
  have height : (Number.ofInt 8).value? = some 8 := rfl
  refine ⟨line, [⟨⟨b, .left⟩, .equal, some ⟨a, .right⟩, .ofInt 8, .required⟩],
    [⟨⟨b, .right⟩, .equal, some ⟨a, .left⟩, .ofInt 8, .required⟩], parse_eq_ok_iff.mpr htext, rfl,
    rfl, rfl, by decide, layout, ?_, ?_⟩
  · refine List.forall_mem_singleton.mpr ⟨8, height, ?_⟩
    show (108 : Rat) = 100 + 8
    grind
  · intro hmeets
    obtain ⟨k, hk, hholds⟩ := hmeets _ List.mem_cons_self
    obtain rfl := Option.some.inj (height.symm.trans hk)
    replace hholds : (-108 : Rat) = -100 + 8 := hholds
    grind

end Line
end LayoutLine
