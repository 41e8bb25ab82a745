import LayoutLine.Proofs.Resolve

/-!
# The parts of a line

A line has its parts before anything is bound: the spacings that have a view beside them and the
clauses on lengths, in the order of the text and with the names of the views they are about. The
pieces that constraints are made from are these parts with items in the place of names. What is
said of every part is said of the leading and the trailing spacing of a line that has a view, of
each spacing between two views, and of every clause on a length.
-/

namespace LayoutLine

variable {V : Type}

/-- The name by which a line mentions the item. The container has none. -/
def Item.name? : Item V → Option String
  | .view name _ => some name
  | .container => none

namespace Line

/-- What stands at one place of a line. -/
inductive Part where
  /-- A spacing between two neighbours. -/
  | spacing (before after : Option String) (spacing : Spacing)
  /-- A clause on the length of an item. -/
  | length (item : Option String) (clause : Clause)

/-- The clauses on the length of a view. -/
def View.parts (view : View) : List Part := view.clauses.map (Part.length (some view.name))

/-- The views after `before`, each with the spacing in front of it. -/
def partsAfter (before : String) : List View → List Spacing → List Part
  | [], _ => []
  | view :: later, spacings =>
    (spacings.head?.map (Part.spacing (some before) (some view.name))).toList ++ view.parts ++
      partsAfter view.name later spacings.tail

/-- The parts of a line in textual order. Edges without a view between them are no parts. -/
def parts (line : Line) : List Part :=
  match line.views with
  | [] => []
  | first :: later =>
    let last := (first :: later).getLast (List.cons_ne_nil _ _)
    (line.leading.map (Part.spacing none (some first.name))).toList ++ first.parts ++
      partsAfter first.name later line.spacings ++
      (line.trailing.map (Part.spacing (some last.name) none)).toList

end Line

/-- The part of the line that a piece comes from. -/
def Piece.part : Piece V → Line.Part
  | .gap first second _ spacing => .spacing second.item.name? first.item.name? spacing
  | .length anchor clause => .length anchor.item.name? clause

namespace Line

/-! ### Pieces one by one -/

/-- What is said of all neighbours and of what lies between them is said of the first two and of all
behind them. -/
theorem forall_neighbours_cons {α β : Type} (Q : α → β → β → Prop) (links : List α)
    (first second : β) (later : List β) :
    (∀ i, ∀ link ∈ links[i]?, ∀ a ∈ (first :: second :: later)[i]?,
        ∀ b ∈ (first :: second :: later)[i + 1]?, Q link a b) ↔
      (∀ link ∈ links.head?, Q link first second) ∧
        ∀ i, ∀ link ∈ links.tail[i]?, ∀ a ∈ (second :: later)[i]?,
          ∀ b ∈ (second :: later)[i + 1]?, Q link a b := by
  simp only [List.getElem?_tail, List.head?_eq_getElem?]
  constructor
  · intro h
    exact ⟨fun link hlink => h 0 link hlink first rfl second rfl, fun i => h (i + 1)⟩
  · rintro ⟨hfirst, hlater⟩ (_ | i) link hlink a ha b hb
    · obtain rfl := Option.some.inj ha
      obtain rfl := Option.some.inj hb
      exact hfirst link hlink
    · exact hlater i link hlink a ha b hb

/-- What is said of every piece behind an item is said of the spacing in front of each view there,
and of the clauses on its length. -/
theorem forall_laterPieces_iff (P : Piece V → Prop) (span : Span) (config : StandardSpacing)
    (before : Placed V) (later : List (Placed V)) (spacings : List Spacing) :
    (∀ piece ∈ laterPieces span config before.2 later spacings, P piece) ↔
      (∀ i, ∀ spacing ∈ spacings[i]?, ∀ a ∈ (before :: later)[i]?,
        ∀ b ∈ (before :: later)[i + 1]?,
          P (.gap ⟨b.2, span.start⟩ ⟨a.2, span.stop⟩ config.between spacing)) ∧
      ∀ placed ∈ later, ∀ piece ∈ lengthPieces span placed, P piece := by
  induction later generalizing before spacings with
  | nil => simp [laterPieces]
  | cons next later ih =>
    have hhead : (∀ piece ∈ (spacings.head?.map (Piece.gap ⟨next.2, span.start⟩
        ⟨before.2, span.stop⟩ config.between)).toList, P piece) ↔
        ∀ spacing ∈ spacings.head?,
          P (.gap ⟨next.2, span.start⟩ ⟨before.2, span.stop⟩ config.between spacing) := by
      simp
    rw [laterPieces, List.forall_mem_append, List.forall_mem_append, ih next spacings.tail,
      List.forall_mem_cons, hhead, forall_neighbours_cons]
    exact and_and_and_comm

/-- What is said of every piece of a line is said of the spacings at its two ends, of those between
neighbours, and of all clauses on lengths. -/
theorem forall_pieces_iff (P : Piece V → Prop) (span : Span) (config : StandardSpacing)
    (line : Line) (placed : List (Placed V)) :
    (∀ piece ∈ line.pieces span config placed, P piece) ↔
      (∀ spacing ∈ line.leading, ∀ first ∈ placed.head?,
        P (.gap ⟨first.2, span.start⟩ ⟨.container, span.start⟩ config.edge spacing)) ∧
      (∀ i, ∀ spacing ∈ line.spacings[i]?, ∀ a ∈ placed[i]?, ∀ b ∈ placed[i + 1]?,
        P (.gap ⟨b.2, span.start⟩ ⟨a.2, span.stop⟩ config.between spacing)) ∧
      (∀ spacing ∈ line.trailing, ∀ last ∈ placed.getLast?,
        P (.gap ⟨.container, span.stop⟩ ⟨last.2, span.stop⟩ config.edge spacing)) ∧
      ∀ view ∈ placed, ∀ piece ∈ lengthPieces span view, P piece := by
  cases placed with
  | nil => simp [pieces]
  | cons first later =>
    have hleading : (∀ piece ∈ (line.leading.map (Piece.gap ⟨first.2, span.start⟩
        ⟨.container, span.start⟩ config.edge)).toList, P piece) ↔
        ∀ spacing ∈ line.leading, ∀ view ∈ (first :: later).head?,
          P (.gap ⟨view.2, span.start⟩ ⟨.container, span.start⟩ config.edge spacing) := by
      simp
    have htrailing : (∀ piece ∈ (line.trailing.map (Piece.gap ⟨.container, span.stop⟩
        ⟨((first :: later).getLast (List.cons_ne_nil _ _)).2, span.stop⟩ config.edge)).toList,
          P piece) ↔
        ∀ spacing ∈ line.trailing, ∀ view ∈ (first :: later).getLast?,
          P (.gap ⟨.container, span.stop⟩ ⟨view.2, span.stop⟩ config.edge spacing) := by
      simp [List.getLast?_eq_some_getLast (List.cons_ne_nil first later)]
    simp only [pieces, List.forall_mem_append, hleading, forall_laterPieces_iff, htrailing,
      List.forall_mem_cons]
    constructor
    · rintro ⟨⟨⟨hfirst, hsize⟩, hbetween, hsizes⟩, hlast⟩
      exact ⟨hfirst, hbetween, hlast, hsize, hsizes⟩
    · rintro ⟨hfirst, hbetween, hlast, hsize, hsizes⟩
      exact ⟨⟨⟨hfirst, hsize⟩, hbetween, hsizes⟩, hlast⟩

/-! ### Pieces and parts -/

theorem map_part_lengthPieces (span : Span) {placed : Placed V}
    (hname : placed.2.name? = some placed.1.name) :
    (lengthPieces span placed).map Piece.part = placed.1.parts := by
  rw [lengthPieces, View.parts, List.map_map, ← hname]
  rfl

theorem map_part_laterPieces (span : Span) (config : StandardSpacing) {before : Placed V}
    (hbefore : before.2.name? = some before.1.name) {later : List (Placed V)}
    (hlater : ∀ placed ∈ later, placed.2.name? = some placed.1.name) (spacings : List Spacing) :
    (laterPieces span config before.2 later spacings).map Piece.part =
      partsAfter before.1.name (later.map Prod.fst) spacings := by
  induction later generalizing before spacings with
  | nil => rfl
  | cons next later ih =>
    obtain ⟨hnext, hlater⟩ := List.forall_mem_cons.mp hlater
    have hspacing : ((spacings.head?.map (Piece.gap ⟨next.2, span.start⟩ ⟨before.2, span.stop⟩
        config.between)).toList).map Piece.part =
          (spacings.head?.map (Part.spacing (some before.1.name) (some next.1.name))).toList := by
      rw [← hbefore, ← hnext]
      cases spacings <;> rfl
    rw [laterPieces, List.map_append, List.map_append, hspacing, map_part_lengthPieces span hnext,
      ih hnext hlater]
    rfl

/-- The pieces of a line come from its parts, one from each and in the same order. -/
theorem map_part_pieces (span : Span) (config : StandardSpacing) (line : Line)
    {placed : List (Placed V)} (hviews : placed.map Prod.fst = line.views)
    (hname : ∀ view ∈ placed, view.2.name? = some view.1.name) :
    (line.pieces span config placed).map Piece.part = line.parts := by
  rw [parts, ← hviews]
  cases placed with
  | nil => rfl
  | cons first later =>
    obtain ⟨hfirst, hlater⟩ := List.forall_mem_cons.mp hname
    have hleading : ((line.leading.map (Piece.gap ⟨first.2, span.start⟩
        ⟨.container, span.start⟩ config.edge)).toList).map Piece.part =
          (line.leading.map (Part.spacing none (some first.1.name))).toList := by
      rw [← hfirst]
      cases line.leading <;> rfl
    have htrailing : ((line.trailing.map (Piece.gap ⟨.container, span.stop⟩
        ⟨((first :: later).getLast (List.cons_ne_nil _ _)).2, span.stop⟩ config.edge)).toList).map
          Piece.part = (line.trailing.map (Part.spacing
            (some (((first :: later).map Prod.fst).getLast (by simp)).name) none)).toList := by
      rw [List.getLast_map, ← hname _ (List.getLast_mem _)]
      cases line.trailing <;> rfl
    rw [pieces, List.map_append, List.map_append, List.map_append, hleading, htrailing,
      map_part_lengthPieces span hfirst, map_part_laterPieces span config hfirst hlater]
    rfl

/-- The views of a line that are all bound go by their names. -/
theorem name?_of_items {bindings : Bindings V} {views : List View} {items : List (Item V)}
    (h : views.mapM (bindings.item ·.name) = .ok items) :
    ∀ placed ∈ views.zip items, placed.2.name? = some placed.1.name := by
  intro placed hplaced
  obtain ⟨handle, -, hitem⟩ := Bindings.exists_of_item ((zip_of_mapM_ok h).2.2 placed hplaced)
  rw [hitem]
  rfl

/-- What is said of every part of a line is said of the spacings that have a view beside them, and
of all clauses on lengths. -/
theorem forall_parts_iff (P : Part → Prop) (line : Line) :
    (∀ part ∈ line.parts, P part) ↔
      (∀ spacing ∈ line.leading, ∀ first ∈ line.views.head?,
        P (.spacing none (some first.name) spacing)) ∧
      (∀ i, ∀ spacing ∈ line.spacings[i]?, ∀ a ∈ line.views[i]?, ∀ b ∈ line.views[i + 1]?,
        P (.spacing (some a.name) (some b.name) spacing)) ∧
      (∀ spacing ∈ line.trailing, ∀ last ∈ line.views.getLast?,
        P (.spacing (some last.name) none spacing)) ∧
      ∀ view ∈ line.views, ∀ clause ∈ view.clauses, P (.length (some view.name) clause) := by
  -- Views that stand for themselves: any handles and any attributes serve.
  let placed : List (Placed Unit) := line.views.map fun view => (view, .view view.name ())
  let span : Span := Span.along line.axis .empty
  have hviews : placed.map Prod.fst = line.views := by simp [placed, Function.comp_def]
  have hname : ∀ view ∈ placed, view.2.name? = some view.1.name := by
    intro view hview
    obtain ⟨_, -, rfl⟩ := List.mem_map.mp hview
    rfl
  rw [← map_part_pieces span {} line hviews hname, List.forall_mem_map, forall_pieces_iff]
  simp [placed, lengthPieces, Piece.part, Item.name?]

end Line
end LayoutLine
