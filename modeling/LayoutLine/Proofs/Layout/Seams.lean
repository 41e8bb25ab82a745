import LayoutLine.Proofs.Layout.Mirror

/-!
# Seams

Two sides that lie next to each other in a line from left to right form a seam: an edge of the
container and the view next to it, or two neighbouring views. Every constraint of such a line is on
the gap at one of its seams, or says nothing of any side. When no view occurs twice the gaps do not
depend on one another: moving the views makes each of them as wide as one likes.
-/

namespace LayoutLine

variable {V : Type}

/-- The attributes of a line from left to right. -/
def Span.leftToRight : Span := ⟨.left, .right, .width⟩

/-- The view that the item is. -/
def Item.handle? : Item V → Option V
  | .view _ handle => some handle
  | .container => none

/-- Two sides; a gap says how far the first lies beyond the second. -/
abbrev Seam (V : Type) := Anchor V × Anchor V

namespace Line

/-- The seams in front of the items that follow a given one. -/
def laterSeams (before : Item V) : List (Item V) → List (Seam V)
  | [] => []
  | item :: later => (⟨item, .left⟩, ⟨before, .right⟩) :: laterSeams item later

/-- The seams of a line with these items, from edge to edge of the container. -/
def seams : List (Item V) → List (Seam V)
  | [] => []
  | first :: later =>
    (⟨first, .left⟩, ⟨.container, .left⟩) :: laterSeams first later ++
      [(⟨.container, .right⟩, ⟨(first :: later).getLast (List.cons_ne_nil _ _), .right⟩)]

/-! ### The constraints of a line -/

/-- The piece is the gap at a seam, or a clause on the length of an item. -/
def Belongs (seams : List (Seam V)) (items : List (Item V)) : Piece V → Prop
  | .gap first second _ _ => (first, second) ∈ seams
  | .length anchor _ => anchor.attr = .width ∧ anchor.item ∈ items

/-- The clauses on the lengths of an item belong to the line. -/
theorem belongs_lengthPieces {placed : Placed V} {items : List (Item V)} (h : placed.2 ∈ items)
    (seams : List (Seam V)) : ∀ piece ∈ lengthPieces .leftToRight placed,
      Belongs seams items piece := by
  intro piece hpiece
  obtain ⟨clause, -, rfl⟩ := List.mem_map.mp hpiece
  exact ⟨rfl, h⟩

/-- The pieces behind the first item lie at the seams between neighbours, or on the lengths of the
items. -/
theorem belongs_laterPieces (config : StandardSpacing) {later : List (Placed V)}
    (spacings : List Spacing) {before : Item V} {seams : List (Seam V)} {items : List (Item V)}
    (hseams : laterSeams before (later.map Prod.snd) ⊆ seams)
    (hitems : later.map Prod.snd ⊆ items) :
    ∀ piece ∈ laterPieces .leftToRight config before later spacings,
      Belongs seams items piece := by
  induction later generalizing before spacings with
  | nil => exact fun piece hpiece => absurd hpiece List.not_mem_nil
  | cons placed later ih =>
    rw [List.map_cons] at hseams hitems
    have hseam := hseams List.mem_cons_self
    have hlater := ih spacings.tail (List.subset_of_cons_subset hseams)
      (List.subset_of_cons_subset hitems)
    intro piece hpiece
    rw [laterPieces, List.mem_append, List.mem_append] at hpiece
    rcases hpiece with (hpiece | hpiece) | hpiece
    · cases spacings with
      | nil => cases hpiece
      | cons spacing spacings =>
        obtain rfl := List.mem_singleton.mp hpiece
        exact hseam
    · exact belongs_lengthPieces (hitems List.mem_cons_self) seams piece hpiece
    · exact hlater piece hpiece

/-- Every piece of a line from left to right is the gap at a seam or on the length of an item. -/
theorem belongs_pieces (config : StandardSpacing) (line : Line) (placed : List (Placed V)) :
    ∀ piece ∈ line.pieces .leftToRight config placed,
      Belongs (seams (placed.map Prod.snd)) (placed.map Prod.snd) piece := by
  cases placed with
  | nil => exact fun piece hpiece => absurd hpiece List.not_mem_nil
  | cons first later =>
    have hlast : ((first :: later).map Prod.snd).getLast (List.cons_ne_nil _ _) =
        ((first :: later).getLast (List.cons_ne_nil _ _)).2 := List.getLast_map _
    have hlater : ∀ piece ∈ laterPieces .leftToRight config first.2 later line.spacings,
        Belongs (seams ((first :: later).map Prod.snd)) ((first :: later).map Prod.snd) piece :=
      belongs_laterPieces config line.spacings
        (fun seam hseam => List.mem_append_left _ (List.mem_cons_of_mem _ hseam))
        (List.subset_cons_self _ _)
    intro piece hpiece
    simp only [pieces, List.mem_append] at hpiece
    rcases hpiece with ((hpiece | hpiece) | hpiece) | hpiece
    · cases hleading : line.leading with
      | none => simp [hleading] at hpiece
      | some spacing =>
        simp only [hleading, Option.map_some, Option.toList_some, List.mem_singleton] at hpiece
        obtain rfl := hpiece
        exact List.mem_append_left _ List.mem_cons_self
    · exact belongs_lengthPieces List.mem_cons_self _ piece hpiece
    · exact hlater piece hpiece
    · cases htrailing : line.trailing with
      | none => simp [htrailing] at hpiece
      | some spacing =>
        simp only [htrailing, Option.map_some, Option.toList_some, List.mem_singleton] at hpiece
        obtain rfl := hpiece
        refine List.mem_append_right _ (List.mem_singleton.mpr ?_)
        rw [← hlast]
        rfl

end Line

/-- The constraint is on the gap at a seam, or it says nothing of any side. -/
def Constraint.Along (seams : List (Seam V)) (c : Constraint V) : Prop :=
  (∃ seam ∈ seams, c.first = seam.1 ∧ c.second = some seam.2) ∨ c.IsLevel

namespace Line

variable {seams : List (Seam V)} {items : List (Item V)} {bindings : Bindings V}

/-- The constraint of a clause on a gap lies between the two sides of that gap. -/
theorem ends_of_ofGapClause {first second : Anchor V} {clause : Clause} {c : Constraint V}
    (h : Piece.ofGapClause bindings first second clause = .ok c) :
    c.first = first ∧ c.second = some second := by
  obtain ⟨constant, -, h⟩ := exists_of_bind_ok h
  obtain ⟨priority, -, h⟩ := exists_of_bind_ok h
  obtain rfl := Except.ok.inj h
  exact ⟨rfl, rfl⟩

/-- A clause on a length compares it with a number or with the length of another view. -/
theorem isLevel_of_ofLengthClause {anchor : Anchor V} (hattr : anchor.attr.IsLevel)
    (hview : anchor.item ≠ .container) {clause : Clause} {c : Constraint V}
    (h : Piece.ofLengthClause bindings anchor clause = .ok c) : c.IsLevel := by
  obtain ⟨priority, -, h⟩ := exists_of_bind_ok h
  obtain ⟨⟨item?, constant⟩, hmeasure, h⟩ := exists_of_bind_ok h
  obtain rfl := Except.ok.inj h
  refine ⟨⟨hview, hattr⟩, fun second hsecond => ?_⟩
  obtain ⟨item, hitem, rfl⟩ := Option.map_eq_some_iff.mp hsecond
  refine ⟨?_, hattr⟩
  rintro rfl
  obtain rfl := hitem
  simp only [Bindings.measure] at hmeasure
  split at hmeasure
  · cases hmeasure
  · split at hmeasure <;> cases hmeasure

/-- A piece of a line gives constraints on the gap at its seam, or level ones. -/
theorem along_of_belongs {piece : Piece V} (hpiece : Belongs seams items piece)
    (hviews : Item.container ∉ items) {constraints : List (Constraint V)}
    (h : piece.constraints bindings = .ok constraints) : ∀ c ∈ constraints, c.Along seams := by
  intro c hc
  cases piece with
  | gap first second standard spacing =>
    have hends : c.first = first ∧ c.second = some second := by
      cases spacing with
      | flush =>
        obtain rfl := Except.ok.inj h
        obtain rfl := List.mem_singleton.mp hc
        exact ⟨rfl, rfl⟩
      | standard =>
        obtain rfl := Except.ok.inj h
        obtain rfl := List.mem_singleton.mp hc
        exact ⟨rfl, rfl⟩
      | gap clauses =>
        obtain ⟨clause, -, hclause⟩ := exists_of_mem_mapM h hc
        exact ends_of_ofGapClause hclause
    exact .inl ⟨(first, second), hpiece, hends⟩
  | length anchor clause =>
    have hview : anchor.item ≠ .container := fun hcontainer =>
      hviews (hcontainer ▸ hpiece.2)
    obtain ⟨found, hfound, rfl⟩ := exists_of_map_ok h
    obtain rfl := List.mem_singleton.mp hc
    exact .inr (isLevel_of_ofLengthClause (.inl hpiece.1) hview hfound)

/-- Alignments across a horizontal line say nothing of any side. -/
theorem isLevel_of_mem_alignNeighbours {attr : Attribute} (hattr : attr.IsLevel)
    (hviews : Item.container ∉ items) : ∀ c ∈ alignNeighbours attr items, c.IsLevel := by
  induction items with
  | nil => exact fun c hc => absurd hc List.not_mem_nil
  | cons first items ih =>
    rw [List.mem_cons, not_or] at hviews
    cases items with
    | nil => exact fun c hc => absurd hc List.not_mem_nil
    | cons second items =>
      have hsecond : second ≠ .container := fun heq =>
        hviews.2 (heq ▸ List.mem_cons_self)
      intro c hc
      rcases List.mem_cons.mp hc with rfl | hc
      · refine ⟨⟨hsecond, hattr⟩, fun anchor hanchor => ?_⟩
        obtain rfl := Option.some.inj hanchor
        exact ⟨Ne.symm hviews.1, hattr⟩
      · exact ih hviews.2 c hc

/-- The items of a line are the views that its names are bound to. -/
theorem items_of_mapM {views : List View}
    (h : views.mapM (bindings.item ·.name) = .ok items) :
    items.map Item.handle? = views.map (bindings.views.get? ·.name) ∧
      Item.container ∉ items := by
  rw [mapM_eq_ok_iff] at h
  induction h with
  | nil => exact ⟨rfl, List.not_mem_nil⟩
  | cons hitem _ ih =>
    obtain ⟨hhandles, hviews⟩ := ih
    obtain ⟨handle, hhandle, rfl⟩ := Bindings.exists_of_item hitem
    rw [List.map_cons, List.map_cons, hhandles, hhandle]
    exact ⟨rfl, by simp [hviews]⟩

/-- The constraints of a horizontal line from left to right: those on the gaps at its seams, and
level ones. -/
theorem along_of_resolve {line : Line} (haxis : line.axis = .horizontal) {options : Options}
    (hspan : Span.along .horizontal options = .leftToRight) {config : StandardSpacing}
    {constraints : List (Constraint V)}
    (h : line.resolve options bindings config = .ok constraints) :
    ∃ items, items.map Item.handle? = line.views.map (bindings.views.get? ·.name) ∧
      Item.container ∉ items ∧ ∀ c ∈ constraints, c.Along (Line.seams items) := by
  obtain ⟨items, spaced, hitems, ⟨parts, hparts, rfl⟩, hcross, rfl⟩ := exists_of_resolve h
  obtain ⟨hhandles, hviews⟩ := items_of_mapM hitems
  have hlength : items.length ≤ line.views.length := by
    have hcount := congrArg List.length hhandles
    rw [List.length_map, List.length_map] at hcount
    omega
  rw [haxis, hspan] at hparts
  rw [haxis] at hcross
  refine ⟨items, hhandles, hviews, fun c hc => ?_⟩
  rcases List.mem_append.mp hc with hc | hc
  · obtain ⟨part, hpart, hc⟩ := List.mem_flatten.mp hc
    obtain ⟨piece, hpiece, hconstraints⟩ := exists_of_mem_mapM hparts hpart
    have hbelongs := belongs_pieces config line (line.views.zip items) piece hpiece
    rw [List.map_snd_zip hlength] at hbelongs
    exact along_of_belongs hbelongs hviews hconstraints c hc
  · obtain ⟨alignment, hmem, hc⟩ := List.mem_flatMap.mp hc
    have hlevel : alignment.2.IsLevel := by
      cases hattr : alignment.2.axis with
      | horizontal => exact absurd hattr (hcross alignment hmem)
      | vertical => exact .inr hattr
    exact .inr (isLevel_of_mem_alignNeighbours hlevel hviews c hc)

/-- Neighbours meet with their sides. -/
theorem isSide_of_mem_laterSeams {before : Item V} {later : List (Item V)} :
    ∀ seam ∈ laterSeams before later, seam.1.attr.IsSide ∧ seam.2.attr.IsSide := by
  induction later generalizing before with
  | nil => exact fun seam hseam => absurd hseam List.not_mem_nil
  | cons item later ih => exact List.forall_mem_cons.mpr ⟨⟨.inl rfl, .inr rfl⟩, ih⟩

/-- The two ends of a seam are sides. -/
theorem isSide_of_mem_seams : ∀ seam ∈ Line.seams items,
    seam.1.attr.IsSide ∧ seam.2.attr.IsSide := by
  cases items with
  | nil => exact fun seam hseam => absurd hseam List.not_mem_nil
  | cons first later =>
    intro seam hseam
    rcases List.mem_append.mp hseam with hseam | hseam
    · rcases List.mem_cons.mp hseam with rfl | hseam
      · exact ⟨.inl rfl, .inl rfl⟩
      · exact isSide_of_mem_laterSeams seam hseam
    · obtain rfl := List.mem_singleton.mp hseam
      exact ⟨.inr rfl, .inr rfl⟩

end Line

/-! ### Gaps -/

/-- How far the first side of a seam lies beyond the second. -/
def Layout.gap (layout : Layout V) (seam : Seam V) : Rat :=
  layout.assignment.measure seam.1 - layout.assignment.measure seam.2

/-- Every constraint on the gap at the seam allows the distance. -/
def Allowed (constraints : List (Constraint V)) (seam : Seam V) (distance : Rat) : Prop :=
  ∀ c ∈ constraints, c.first = seam.1 → c.second = some seam.2 → c.Allows distance

namespace Constraint

variable {c : Constraint V} {seam : Seam V}

/-- A constraint at a seam is met when it allows the gap there. -/
theorem met_iff_allows_gap (hfirst : c.first = seam.1) (hsecond : c.second = some seam.2)
    (layout : Layout V) : c.Met layout.assignment ↔ c.Allows (layout.gap seam) := by
  rw [met_iff_allows, hfirst, Assignment.base, hsecond]
  rfl

/-- Constraints along seams are taken apart: level ones on the one hand, and for each seam those on
its gap on the other. -/
theorem forall_iff_of_along {constraints : List (Constraint V)} {seams : List (Seam V)}
    (halong : ∀ c ∈ constraints, c.Along seams) {P : Constraint V → Prop} {distance : Seam V → Rat}
    (hgap : ∀ seam ∈ seams, ∀ c : Constraint V, c.first = seam.1 → c.second = some seam.2 →
      (P c ↔ c.Allows (distance seam))) :
    (∀ c ∈ constraints, P c) ↔ (∀ c ∈ constraints, c.IsLevel → P c) ∧
      ∀ seam ∈ seams, Allowed constraints seam (distance seam) := by
  constructor
  · intro hall
    refine ⟨fun c hc _ => hall c hc, fun seam hseam c hc hfirst hsecond => ?_⟩
    exact (hgap seam hseam c hfirst hsecond).mp (hall c hc)
  · rintro ⟨hlevel, hallowed⟩ c hc
    rcases halong c hc with ⟨seam, hseam, hfirst, hsecond⟩ | hc'
    · exact (hgap seam hseam c hfirst hsecond).mpr (hallowed seam hseam c hc hfirst hsecond)
    · exact hlevel c hc hc'

end Constraint

/-! ### Moving the views -/

namespace Layout

/-- The layout with each view moved to the right by its own offset, and the right edge of the
container by another one. -/
def moved (layout : Layout V) (offset : Option V → Rat) (stop : Rat) : Layout V where
  container := { layout.container with right := layout.container.right + stop }
  frame view :=
    { layout.frame view with
      left := (layout.frame view).left + offset (some view)
      right := (layout.frame view).right + offset (some view) }

/-- How far a side is moved. -/
def shift (offset : Option V → Rat) (stop : Rat) (anchor : Anchor V) : Rat :=
  match anchor.item with
  | .view _ handle => offset (some handle)
  | .container => if anchor.attr = .right then stop else 0

/-- Sides go along with what is moved. -/
theorem measure_moved_of_isSide (layout : Layout V) (offset : Option V → Rat) (stop : Rat)
    {anchor : Anchor V} (h : anchor.attr.IsSide) :
    (layout.moved offset stop).assignment.measure anchor =
      layout.assignment.measure anchor + shift offset stop anchor := by
  obtain ⟨item, attr⟩ := anchor
  obtain rfl | rfl := h
  · cases item with
    | view name handle => rfl
    | container => exact (Rat.add_zero _).symm
  · cases item with
    | view name handle => rfl
    | container => rfl

/-- Moving views to the side changes nothing that is level. -/
theorem measure_moved_of_isLevel (layout : Layout V) (offset : Option V → Rat) (stop : Rat)
    {anchor : Anchor V} (hview : anchor.item ≠ .container) (h : anchor.attr.IsLevel) :
    (layout.moved offset stop).assignment.measure anchor = layout.assignment.measure anchor := by
  obtain ⟨item, attr⟩ := anchor
  cases item with
  | view name handle =>
    have hwidth : ((layout.moved offset stop).frame handle).right -
        ((layout.moved offset stop).frame handle).left =
          (layout.frame handle).right - (layout.frame handle).left := by
      simp only [moved]
      grind
    exact Frame.value_eq_of_isLevel hwidth rfl rfl rfl rfl h
  | container => exact absurd rfl hview

/-- Level constraints do not see that views are moved. -/
theorem met_moved_of_isLevel (layout : Layout V) (offset : Option V → Rat) (stop : Rat)
    {c : Constraint V} (h : c.IsLevel) :
    c.Met (layout.moved offset stop).assignment ↔ c.Met layout.assignment := by
  have hbase : (layout.moved offset stop).assignment.base c = layout.assignment.base c := by
    cases hsecond : c.second with
    | none => simp only [Assignment.base, hsecond]
    | some second =>
      obtain ⟨hview, hlevel⟩ := h.2 second hsecond
      simp only [Assignment.base, hsecond]
      exact layout.measure_moved_of_isLevel offset stop hview hlevel
  rw [Constraint.met_iff_allows, Constraint.met_iff_allows, hbase,
    layout.measure_moved_of_isLevel offset stop h.1.1 h.1.2]

/-- A seam lies between two of the items. -/
theorem items_of_mem_laterSeams {before : Item V} {later : List (Item V)} {seam : Seam V}
    (h : seam ∈ Line.laterSeams before later) :
    seam.1.item ∈ later ∧ seam.2.item ∈ before :: later := by
  induction later generalizing before with
  | nil => cases h
  | cons item later ih =>
    rcases List.mem_cons.mp h with rfl | h
    · exact ⟨List.mem_cons_self, List.mem_cons_self⟩
    · obtain ⟨hfirst, hsecond⟩ := ih h
      exact ⟨List.mem_cons_of_mem _ hfirst, List.mem_cons_of_mem _ hsecond⟩

/-- A side of a view is moved by the offset of that view. -/
theorem shift_of_view (offset : Option V → Rat) (stop : Rat) {anchor : Anchor V}
    (h : anchor.item ≠ .container) : shift offset stop anchor = offset anchor.item.handle? := by
  obtain ⟨item, attr⟩ := anchor
  cases item with
  | view name handle => rfl
  | container => exact absurd rfl h

/-- Different views can be moved one after the other so that each gap grows as it should: a view
goes along with the one before it, and by the growth of the gap between them. -/
theorem exists_offset (growth : Seam V → Rat) (start : Rat) {before : Item V}
    {later : List (Item V)} (hviews : Item.container ∉ before :: later)
    (hnodup : ((before :: later).map Item.handle?).Nodup) :
    ∃ offset : Option V → Rat, offset before.handle? = start ∧
      ∀ stop, ∀ seam ∈ Line.laterSeams before later,
        shift offset stop seam.1 = shift offset stop seam.2 + growth seam := by
  classical
  induction later generalizing before start with
  | nil => exact ⟨fun _ => start, rfl, fun _ seam hseam => absurd hseam List.not_mem_nil⟩
  | cons item later ih =>
    let gap : Seam V := (⟨item, .left⟩, ⟨before, .right⟩)
    rw [List.mem_cons, not_or] at hviews
    rw [List.map_cons, List.nodup_cons] at hnodup
    obtain ⟨offset, hstart, hgaps⟩ := ih (start + growth gap) hviews.2 hnodup.2
    -- The first view is none of the later ones, so its offset may still be chosen.
    let offset' : Option V → Rat := fun view =>
      if view = before.handle? then start else offset view
    have hkeep : ∀ anchor : Anchor V, anchor.item ∈ item :: later → ∀ stop,
        shift offset' stop anchor = shift offset stop anchor := by
      intro anchor hitem stop
      have hview : anchor.item ≠ .container := fun heq => hviews.2 (heq ▸ hitem)
      have hne : anchor.item.handle? ≠ before.handle? := fun heq =>
        hnodup.1 (heq ▸ List.mem_map_of_mem hitem)
      rw [shift_of_view offset' stop hview, shift_of_view offset stop hview]
      exact if_neg hne
    refine ⟨offset', if_pos rfl, fun stop seam hseam => ?_⟩
    rcases List.mem_cons.mp hseam with rfl | hseam
    · have hitem : item ≠ .container := fun heq => hviews.2 (heq ▸ List.mem_cons_self)
      have hfirst : shift offset stop ⟨item, .left⟩ = start + growth gap :=
        (shift_of_view offset stop hitem).trans hstart
      have hsecond : shift offset' stop ⟨before, .right⟩ = start :=
        (shift_of_view offset' stop (Ne.symm hviews.1)).trans (if_pos rfl)
      rw [hkeep ⟨item, .left⟩ List.mem_cons_self, hfirst, hsecond]
    · obtain ⟨hfirst, hsecond⟩ := items_of_mem_laterSeams hseam
      rw [hkeep seam.1 (List.mem_cons_of_mem _ hfirst), hkeep seam.2 hsecond]
      exact hgaps stop seam hseam

/-- The gaps of a line without repetitions can all be made to grow at once, each as it should. -/
theorem exists_moved {items : List (Item V)} (hviews : Item.container ∉ items)
    (hnodup : (items.map Item.handle?).Nodup) (growth : Seam V → Rat) :
    ∃ offset stop, ∀ seam ∈ Line.seams items,
      shift offset stop seam.1 = shift offset stop seam.2 + growth seam := by
  cases items with
  | nil => exact ⟨fun _ => 0, 0, fun seam hseam => absurd hseam List.not_mem_nil⟩
  | cons first later =>
    let start : Seam V := (⟨first, .left⟩, ⟨.container, .left⟩)
    let last := (first :: later).getLast (List.cons_ne_nil _ _)
    have hlast : last ≠ .container := fun heq => hviews (heq ▸ List.getLast_mem _)
    obtain ⟨offset, hstart, hgaps⟩ := exists_offset growth (growth start) hviews hnodup
    refine ⟨offset, offset last.handle? + growth (⟨.container, .right⟩, ⟨last, .right⟩),
      fun seam hseam => ?_⟩
    rcases List.mem_append.mp hseam with hseam | hseam
    · rcases List.mem_cons.mp hseam with rfl | hseam
      · have hfirst : first ≠ .container := fun heq => hviews (heq ▸ List.mem_cons_self)
        rw [shift_of_view _ _ hfirst, hstart]
        exact (Rat.zero_add _).symm
      · exact hgaps _ seam hseam
    · obtain rfl := List.mem_singleton.mp hseam
      have hstop : ∀ stop, shift offset stop ⟨last, .right⟩ = offset last.handle? := fun stop =>
        shift_of_view offset stop hlast
      have hmoved : ∀ stop, shift offset stop ⟨.container, .right⟩ = stop := fun stop => by
        simp only [shift, if_true]
      rw [hmoved, hstop]

/-- The gaps of a line without repetitions can have any widths, whatever the level constraints. -/
theorem exists_gaps (layout : Layout V) {items : List (Item V)} (hviews : Item.container ∉ items)
    (hnodup : (items.map Item.handle?).Nodup) (width : Seam V → Rat) :
    ∃ layout' : Layout V,
      (∀ c : Constraint V, c.IsLevel → (c.Met layout'.assignment ↔ c.Met layout.assignment)) ∧
        ∀ seam ∈ Line.seams items, layout'.gap seam = width seam := by
  obtain ⟨offset, stop, hshift⟩ :=
    exists_moved hviews hnodup fun seam => width seam - layout.gap seam
  refine ⟨layout.moved offset stop, fun c hc => layout.met_moved_of_isLevel offset stop hc,
    fun seam hseam => ?_⟩
  obtain ⟨hfirst, hsecond⟩ := Line.isSide_of_mem_seams seam hseam
  have hmoved := hshift seam hseam
  simp only [gap, measure_moved_of_isSide, hfirst, hsecond] at hmoved ⊢
  grind

end Layout
end LayoutLine
