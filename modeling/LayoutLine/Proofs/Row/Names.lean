import LayoutLine.Proofs.Row.Build
import LayoutLine.Proofs.Symbol
import Mathlib.Data.List.Nodup

/-!
# What the symbols of a row stand for

The symbols that the fragment of an operand binds carry the operand's numbers. Since no number is
used twice, joining fragments loses no binding: in the fragment of a row every symbol stands for
what it stood for in the fragment of its operand.
-/

namespace LayoutLine

/-- Every binding of `a` is a binding of `b`. -/
structure Bindings.PartOf {V : Type} (a b : Bindings V) : Prop where
  /-- The views keep their names. -/
  views : ∀ name view, a.views.get? name = some view → b.views.get? name = some view
  /-- The lengths keep their names. -/
  metrics : ∀ name value, a.metrics.get? name = some value → b.metrics.get? name = some value

namespace Row

variable {V : Type}

/-! ### The symbols of an operand -/

/-- The one name of a table with one entry stands for its value. -/
theorem get?_singleton {α : Type} (name : String) (value : α) (other : String) (found : α) :
    (Table.singleton name value).get? other = some found ↔ other = name ∧ found = value := by
  rw [Table.singleton, Table.get?_insert, Table.get?_empty]
  by_cases h : other = name
  · simp [h, eq_comm]
  · simp [h]

theorem not_get?_empty {α : Type} {name : String} {value : α}
    (h : (Table.empty : Table α).get? name = some value) : False := by
  rw [Table.get?_empty] at h
  cases h

theorem view_ne_metric : Symbol.Kind.view ≠ Symbol.Kind.metric := by decide

theorem relative_ne_metric : Symbol.Kind.relative ≠ Symbol.Kind.metric := by decide

/-- A number that exists lies where it should. -/
theorem val_advance_of_le {id : SymbolId} {i : Nat} (h : id.val + i < 4294967296) :
    (id.advance i).val = id.val + i := by
  rw [SymbolId.val_advance]
  omega

/-- The symbols of a list of clauses have different names, wherever their numbers start, unless
there are more clauses than numbers. -/
theorem nodup_names_clauseSymbols (id : SymbolId) {count : Nat} (h : count ≤ 4294967296) :
    ((Fragment.clauseSymbols id count).map Symbol.name).Nodup := by
  rw [Fragment.clauseSymbols, List.map_map]
  refine List.Nodup.map_on ?_ List.nodup_range
  intro i hi j hj hname
  rw [List.mem_range] at hi hj
  have hsymbol := congrArg (fun s => s.id.val) (Symbol.name_injective hname)
  simp only [SymbolId.val_around] at hsymbol
  omega

/-- The lengths of clauses are bound to their symbols, in order. -/
theorem entries_metrics_ofLengths (id : SymbolId) {clauses : List LengthClause} (view : V)
    (h : clauses.length ≤ 4294967296) :
    (Fragment.ofLengths id view clauses).metrics.entries =
      ((Fragment.clauseSymbols id clauses.length).zip clauses).map fun p =>
        (p.1.name, p.2.length) := by
  have hlength : (Fragment.clauseSymbols id clauses.length).length = clauses.length := by
    simp [Fragment.clauseSymbols]
  have hentries : List.zipWith (fun (symbol : Symbol) (clause : LengthClause) =>
      (symbol.name, clause.length)) (Fragment.clauseSymbols id clauses.length) clauses =
        ((Fragment.clauseSymbols id clauses.length).zip clauses).map fun p =>
          (p.1.name, p.2.length) := by
    rw [List.map_zip_eq_zipWith]
    rfl
  have hnames : (((Fragment.clauseSymbols id clauses.length).zip clauses).map fun p =>
      (p.1.name, p.2.length)).map Prod.fst =
        (Fragment.clauseSymbols id clauses.length).map Symbol.name := by
    rw [List.map_map]
    calc
      _ = (((Fragment.clauseSymbols id clauses.length).zip clauses).map Prod.fst).map
          Symbol.name := (List.map_map).symm
      _ = (Fragment.clauseSymbols id clauses.length).map Symbol.name := by
        rw [List.map_fst_zip (Nat.le_of_eq hlength)]
  have hnodup := nodup_names_clauseSymbols id h
  rw [← hnames] at hnodup
  rw [← hentries] at hnodup ⊢
  exact Table.entries_ofList hnodup

/-- The names a fragment binds are those of symbols with numbers from `first` up to, but not
including, `stop`; views and lengths have symbols of their own kinds. -/
structure Numbered (f : Fragment V) (first stop : Nat) : Prop where
  /-- Views have symbols for views. -/
  views : ∀ name view, f.views.get? name = some view →
    ∃ s : Symbol, s.name = name ∧ s.kind ≠ .metric ∧ first ≤ s.id.val ∧ s.id.val < stop
  /-- Lengths have symbols for lengths. -/
  metrics : ∀ name value, f.metrics.get? name = some value →
    ∃ s : Symbol, s.name = name ∧ s.kind = .metric ∧ first ≤ s.id.val ∧ s.id.val < stop

/-- A gap of whole points binds nothing. -/
theorem numbered_gap (points : Int) (first stop : Nat) :
    Numbered (Fragment.gap points : Fragment V) first stop where
  views := fun _ _ h => (not_get?_empty h).elim
  metrics := fun _ _ h => (not_get?_empty h).elim

/-- A view binds its own number. -/
theorem numbered_ofView (id : SymbolId) (view : V) :
    Numbered (Fragment.ofView id view) id.val (id.val + 1) where
  views := by
    intro name found h
    obtain ⟨rfl, -⟩ := (get?_singleton _ _ _ _).mp h
    exact ⟨_, rfl, view_ne_metric, Nat.le_refl _, Nat.lt_succ_self _⟩
  metrics := fun _ _ h => (not_get?_empty h).elim

/-- A length binds its own number. -/
theorem numbered_ofMetric (id : SymbolId) (metric : Metric) :
    Numbered (Fragment.ofMetric id metric : Fragment V) id.val (id.val + 1) where
  views := fun _ _ h => (not_get?_empty h).elim
  metrics := by
    intro name found h
    obtain ⟨rfl, -⟩ := (get?_singleton _ _ _ _).mp h
    exact ⟨_, rfl, rfl, Nat.le_refl _, Nat.lt_succ_self _⟩

/-- A view with conditions binds a number for each, the first one twice: for the view and for a
length. -/
theorem numbered_ofLengths {id : SymbolId} {clauses : List LengthClause} (view : V)
    (hsome : 0 < clauses.length) (hfits : id.val + clauses.length ≤ 4294967296) :
    Numbered (Fragment.ofLengths id view clauses) id.val (id.val + clauses.length) where
  views := by
    intro name found h
    obtain ⟨rfl, -⟩ := (get?_singleton _ _ _ _).mp h
    exact ⟨_, rfl, view_ne_metric, Nat.le_refl _, Nat.lt_add_of_pos_right hsome⟩
  metrics := by
    intro name found h
    rw [Table.get?_eq_some_iff, entries_metrics_ofLengths id view (by omega)] at h
    obtain ⟨⟨symbol, clause⟩, hmem, heq⟩ := List.mem_map.mp h
    obtain ⟨rfl, -⟩ := Prod.mk.inj heq
    obtain ⟨i, hi, rfl⟩ := List.mem_map.mp (List.of_mem_zip hmem).1
    rw [List.mem_range] at hi
    refine ⟨_, rfl, rfl, ?_⟩
    rw [SymbolId.val_around]
    omega

/-- A view that is measured by another binds both, in this order. -/
theorem entries_views_ofRelative (id : SymbolId) (view : V) (relation : Relation) (other : V)
    (priority : Priority) :
    (Fragment.ofRelative id view relation other priority).views.entries =
      [(Symbol.name ⟨.view, id⟩, view), (Symbol.name ⟨.relative, id.advance 1⟩, other)] := by
  refine Table.entries_ofList ?_
  have hne : Symbol.name ⟨.view, id⟩ ≠ Symbol.name ⟨.relative, id.advance 1⟩ := fun h =>
    nomatch congrArg Symbol.kind (Symbol.name_injective h)
  simpa using hne

/-- A view that is measured by another binds the two numbers of both. -/
theorem numbered_ofRelative {id : SymbolId} (view : V) (relation : Relation) (other : V)
    (priority : Priority) (hfits : id.val + 2 ≤ 4294967296) :
    Numbered (Fragment.ofRelative id view relation other priority) id.val (id.val + 2) where
  views := by
    intro name found h
    rw [Table.get?_eq_some_iff, entries_views_ofRelative] at h
    rcases List.mem_pair.mp h with h | h
    · obtain ⟨rfl, -⟩ := Prod.mk.inj h
      exact ⟨_, rfl, view_ne_metric, Nat.le_refl _, Nat.lt_add_of_pos_right (by decide)⟩
    · obtain ⟨rfl, -⟩ := Prod.mk.inj h
      refine ⟨_, rfl, relative_ne_metric, ?_⟩
      rw [val_advance_of_le (by omega)]
      omega
  metrics := fun _ _ h => (not_get?_empty h).elim

/-- The fragment of an operand binds symbols with the operand's numbers. -/
theorem Placed.numbered {p : Placed V} (hfits : p.stop ≤ 4294967296) :
    Numbered p.fragment p.id.val p.stop := by
  obtain ⟨id, operand⟩ := p
  cases operand with
  | gap points => exact numbered_gap points _ _
  | metric value priority => exact numbered_ofMetric id ⟨value, priority⟩
  | view operand =>
    simp only [Placed.stop, Operand.idCount, ViewOperand.idCount] at hfits ⊢
    simp only [Placed.fragment, Operand.fragment, ViewOperand.fragment]
    cases hsizing : operand.sizing with
    | clauses list =>
      rw [hsizing] at hfits
      cases list with
      | nil => exact numbered_ofView id operand.view
      | cons clause clauses =>
        have hcount : max 1 (clause :: clauses).length = (clause :: clauses).length := by
          simp
        simp only [hcount] at hfits ⊢
        exact numbered_ofLengths operand.view (by simp) hfits
    | relative relation other priority =>
      rw [hsizing] at hfits
      exact numbered_ofRelative operand.view relation other priority hfits

/-! ### Joining -/

/-- The bindings of a fragment are those of operands put together. -/
structure MadeOf (f : Fragment V) (ps : List (Placed V)) : Prop where
  /-- A view comes from one of the operands. -/
  views : ∀ name view, f.views.get? name = some view →
    ∃ p ∈ ps, p.fragment.views.get? name = some view
  /-- A length comes from one of the operands. -/
  metrics : ∀ name value, f.metrics.get? name = some value →
    ∃ p ∈ ps, p.fragment.metrics.get? name = some value
  /-- What an operand binds is bound. -/
  parts : ∀ p ∈ ps, p.fragment.toBindings.PartOf f.toBindings

/-- An edge is put together from no operand. -/
theorem madeOf_edge : MadeOf (Fragment.edge : Fragment V) [] where
  views := fun _ _ h => (not_get?_empty h).elim
  metrics := fun _ _ h => (not_get?_empty h).elim
  parts := fun _ h => absurd h List.not_mem_nil

/-- The fragment of one operand is put together from it. -/
theorem madeOf_fragment (p : Placed V) : MadeOf p.fragment [p] where
  views := fun _ _ h => ⟨p, List.mem_singleton_self p, h⟩
  metrics := fun _ _ h => ⟨p, List.mem_singleton_self p, h⟩
  parts := by
    intro q hq
    obtain rfl := List.mem_singleton.mp hq
    exact ⟨fun _ _ h => h, fun _ _ h => h⟩

/-- Two operands that share no number bind no name differently. -/
theorem agree_of_apart {p q : Placed V} (hp : p.stop ≤ 4294967296) (hq : q.stop ≤ 4294967296)
    (h : p.Apart q) (name : String) :
    (∀ v w, p.fragment.views.get? name = some v → q.fragment.views.get? name = some w → v = w) ∧
    (∀ v w, p.fragment.metrics.get? name = some v → q.fragment.metrics.get? name = some w →
      v = w) := by
  rcases h with rfl | hapart
  · exact ⟨fun _ _ hv hw => Option.some.inj (hv.symm.trans hw),
      fun _ _ hv hw => Option.some.inj (hv.symm.trans hw)⟩
  · constructor
    · intro v w hv hw
      obtain ⟨s, hs, -, hids⟩ := (Placed.numbered hp).views name v hv
      obtain ⟨s', hs', -, hids'⟩ := (Placed.numbered hq).views name w hw
      obtain rfl := Symbol.name_injective (hs.trans hs'.symm)
      exact absurd hids' (hapart _ hids)
    · intro v w hv hw
      obtain ⟨s, hs, -, hids⟩ := (Placed.numbered hp).metrics name v hv
      obtain ⟨s', hs', -, hids'⟩ := (Placed.numbered hq).metrics name w hw
      obtain rfl := Symbol.name_injective (hs.trans hs'.symm)
      exact absurd hids' (hapart _ hids)

/-- The part on the right decides what a view's name stands for in joined fragments. -/
theorem get?_join_views (f g : Fragment V) (glyph name : String) :
    (f.join glyph g).views.get? name = (g.views.get? name).or (f.views.get? name) :=
  Table.get?_merge f.views g.views name

/-- The part on the right decides what a length's name stands for in joined fragments. -/
theorem get?_join_metrics (f g : Fragment V) (glyph name : String) :
    (f.join glyph g).metrics.get? name = (g.metrics.get? name).or (f.metrics.get? name) :=
  Table.get?_merge f.metrics g.metrics name

/-- A binding of either side that the other side does not contradict is one of both together. -/
theorem or_eq_some_of_agree {α : Type} {x y : Option α} {v : α} (hy : y = some v)
    (h : ∀ w, x = some w → v = w) : x.or y = some v := by
  cases x with
  | none => exact hy
  | some w => exact congrArg some (h w rfl).symm

/-- Joining one more operand, apart from those before, keeps all bindings. -/
theorem MadeOf.join {f : Fragment V} {ps : List (Placed V)} {q : Placed V} (h : MadeOf f ps)
    (hps : ∀ p ∈ ps, p.stop ≤ 4294967296) (hq : q.stop ≤ 4294967296)
    (hapart : ∀ p ∈ ps, p.Apart q) (glyph : String) :
    MadeOf (f.join glyph q.fragment) (q :: ps) where
  views := by
    intro name view hview
    rw [get?_join_views] at hview
    rcases Option.or_eq_some_iff.mp hview with hright | ⟨-, hleft⟩
    · exact ⟨q, List.mem_cons_self, hright⟩
    · obtain ⟨p, hp, hbound⟩ := h.views name view hleft
      exact ⟨p, List.mem_cons_of_mem _ hp, hbound⟩
  metrics := by
    intro name value hvalue
    rw [get?_join_metrics] at hvalue
    rcases Option.or_eq_some_iff.mp hvalue with hright | ⟨-, hleft⟩
    · exact ⟨q, List.mem_cons_self, hright⟩
    · obtain ⟨p, hp, hbound⟩ := h.metrics name value hleft
      exact ⟨p, List.mem_cons_of_mem _ hp, hbound⟩
  parts := by
    intro p hp
    rcases List.mem_cons.mp hp with rfl | hp
    · constructor
      · intro name view hview
        rw [get?_join_views, hview, Option.some_or]
      · intro name value hvalue
        rw [get?_join_metrics, hvalue, Option.some_or]
    · have hagree := agree_of_apart (hps p hp) hq (hapart p hp)
      constructor
      · intro name view hview
        rw [get?_join_views]
        exact or_eq_some_of_agree ((h.parts p hp).views name view hview) fun w hw =>
          (hagree name).1 view w hview hw
      · intro name value hvalue
        rw [get?_join_metrics]
        exact or_eq_some_of_agree ((h.parts p hp).metrics name value hvalue) fun w hw =>
          (hagree name).2 value w hvalue hw

/-- An edge binds nothing. -/
theorem MadeOf.join_edge {f : Fragment V} {ps : List (Placed V)} (h : MadeOf f ps)
    (glyph : String) :
    MadeOf (f.join glyph .edge) ps :=
  ⟨h.views, h.metrics, h.parts⟩

/-- Operands that are pairwise apart keep their bindings when their fragments are joined. -/
theorem MadeOf.joinAll {f : Fragment V} {ps : List (Placed V)} {steps : List (Link × Placed V)}
    (h : MadeOf f ps) (hfits : ∀ p ∈ ps, p.stop ≤ 4294967296)
    (hsteps : ∀ step ∈ steps, step.2.stop ≤ 4294967296)
    (hapart : ∀ p ∈ ps, ∀ step ∈ steps, p.Apart step.2)
    (hpairs : steps.Pairwise fun a b => a.2.Apart b.2) :
    ∃ qs, MadeOf (joinAll f steps) qs ∧ ∀ q, q ∈ qs ↔ q ∈ ps ∨ ∃ step ∈ steps, step.2 = q := by
  induction steps generalizing f ps with
  | nil => exact ⟨ps, h, by simp⟩
  | cons step steps ih =>
    obtain ⟨link, p⟩ := step
    have hp := hsteps _ List.mem_cons_self
    have hjoin := h.join hfits hp (fun q hq => hapart q hq _ List.mem_cons_self) link.glyph
    rw [List.pairwise_cons] at hpairs
    obtain ⟨qs, hmade, hmem⟩ := ih hjoin
      (fun q hq => (List.mem_cons.mp hq).elim (fun heq => heq ▸ hp) (hfits q))
      (fun step hstep => hsteps step (List.mem_cons_of_mem _ hstep))
      (fun q hq step hstep => (List.mem_cons.mp hq).elim
        (fun heq => heq ▸ hpairs.1 step hstep)
        fun hq => hapart q hq step (List.mem_cons_of_mem _ hstep))
      hpairs.2
    refine ⟨qs, hmade, fun q => ?_⟩
    rw [hmem, List.mem_cons]
    simp only [List.mem_cons, exists_eq_or_imp]
    tauto

/-! ### Numbers -/


/-- The next number as a run of entries with room for its numbers needs it: it is `m`, or the last
number there is. Behind a block of all numbers the next one stays where it was, but then no later
entry needs a number. -/
def NextAt (next : SymbolId) (m : Nat) (steps : List (Link × Entry V)) : Prop :=
  idCount steps ≠ 0 → next.val = min m 4294967295

/-- A source stands at its next number. -/
theorem nextAt_self (next : SymbolId) (steps : List (Link × Entry V)) :
    NextAt next next.val steps := by
  intro _
  have hlt := next.isLt
  omega

/-- Past one entry the next number moves on like `m`. -/
theorem NextAt.tail {next : SymbolId} {m : Nat} {link : Link} {entry : Entry V}
    {steps : List (Link × Entry V)} (h : NextAt next m ((link, entry) :: steps))
    (hroom : m + entry.idCount + idCount steps ≤ 4294967296) :
    NextAt (next.advance entry.taken) (m + entry.idCount) steps := by
  intro hsome
  have hnext := h (by rw [idCount]; omega)
  have htaken : entry.taken = entry.idCount := blockSize_of_lt (by omega)
  rw [SymbolId.val_advance, htaken]
  omega

/-- An operand in a run of entries was built before, or it has numbers from the next one on. The
next number is `m`, or the last number there is when all are taken. -/
theorem mem_place {steps : List (Link × Entry V)} {next : SymbolId} {m : Nat}
    (hnext : NextAt next m steps) (hroom : m + idCount steps ≤ 4294967296)
    {step : Link × Placed V} (h : step ∈ place next steps) :
    step.2 ∈ steps.filterMap (·.2.kept?) ∨
      step.2.stop ≤ 4294967296 ∧ ∀ n, step.2.Has n → m ≤ n := by
  induction steps generalizing next m with
  | nil => exact absurd h List.not_mem_nil
  | cons first steps ih =>
    obtain ⟨link, entry⟩ := first
    have hroom' : m + entry.idCount + idCount steps ≤ 4294967296 := by
      rw [Nat.add_assoc]
      exact hroom
    rcases List.mem_cons.mp h with rfl | hlater
    · cases entry with
      | made operand =>
        have hlt := next.isLt
        have hcount : (Entry.made operand).idCount = operand.idCount := rfl
        have hval (hsome : operand.idCount ≠ 0) : next.val = min m 4294967295 :=
          hnext (by rw [idCount]; omega)
        refine .inr ⟨?_, ?_⟩
        · simp only [Entry.place, Placed.stop]
          omega
        · intro n hn
          simp only [Entry.place, Placed.Has, Placed.stop] at hn
          omega
      | kept placed => exact .inl (by simp [Entry.kept?, Entry.place])
    · rcases ih (hnext.tail hroom') hroom' hlater with hkept | ⟨hstop, hnumbers⟩
      · refine .inl ?_
        rw [List.filterMap_cons]
        cases entry with
        | made operand => exact hkept
        | kept placed => exact List.mem_cons_of_mem _ hkept
      · refine .inr ⟨hstop, fun n hn => ?_⟩
        have hle := hnumbers n hn
        omega

/-- The operands of a run of entries share no numbers. -/
theorem pairwise_apart_place {steps : List (Link × Entry V)} {next : SymbolId} {m : Nat}
    (hnext : NextAt next m steps) (hroom : m + idCount steps ≤ 4294967296)
    (hearlier : ∀ p ∈ steps.filterMap (·.2.kept?), p.stop ≤ m)
    (hapart : (steps.filterMap (·.2.kept?)).Pairwise Placed.Apart) :
    (place next steps).Pairwise fun a b => a.2.Apart b.2 := by
  -- Operands that were built before end at `m`, and those that are built here begin there.
  induction steps generalizing next m with
  | nil => exact .nil
  | cons first steps ih =>
    obtain ⟨link, entry⟩ := first
    have hroom' : m + entry.idCount + idCount steps ≤ 4294967296 := by
      rw [Nat.add_assoc]
      exact hroom
    have hlater {step : Link × Placed V}
        (hstep : step ∈ place (next.advance entry.taken) steps) :=
      mem_place (hnext.tail hroom') hroom' hstep
    cases entry with
    | made operand =>
      have hcount : (Entry.made operand).idCount = operand.idCount := rfl
      refine .cons ?_ (ih (hnext.tail hroom') hroom' (fun p hp => ?_) hapart)
      · intro step hstep
        refine .inr fun n hn hn' => ?_
        simp only [Entry.place, Placed.Has, Placed.stop] at hn
        have hval := hnext (by rw [idCount]; omega)
        rcases hlater hstep with hkept | ⟨-, hnumbers⟩
        · have hstop := hearlier step.2 hkept
          have hlt := hn'.2
          omega
        · have hle := hnumbers n hn'
          omega
      · have hstop := hearlier p hp
        omega
    | kept placed =>
      rw [List.filterMap_cons] at hearlier hapart
      simp only [Entry.kept?] at hearlier hapart
      rw [List.pairwise_cons] at hapart
      refine .cons ?_ (ih (hnext.tail hroom') hroom' (fun p hp => ?_) hapart.2)
      · intro step hstep
        rcases hlater hstep with hkept | ⟨-, hnumbers⟩
        · exact hapart.1 step.2 hkept
        · refine .inr fun n hn hn' => ?_
          have hstop := hearlier placed List.mem_cons_self
          have hle := hnumbers n hn'
          have hlt : n < placed.stop := hn.2
          omega
      · exact Nat.le_add_right_of_le (hearlier p (List.mem_cons_of_mem _ hp))

/-- The numbers of all operands of a row exist. -/
theorem Fresh.stop_le {row : Row V} {ids : IdSource} (h : row.Fresh ids) {step : Link × Placed V}
    (hstep : step ∈ row.placed ids.next) : step.2.stop ≤ 4294967296 := by
  rcases mem_place (nextAt_self ids.next _) h.room hstep with hkept | ⟨hstop, -⟩
  · have hearlier := h.earlier step.2 hkept
    have hlt := ids.next.isLt
    omega
  · exact hstop

/-- In the fragment of a row with fresh numbers, the symbols of every operand stand for what the
operand bound them to. -/
theorem Fresh.madeOf {row : Row V} {ids : IdSource} (h : row.Fresh ids) :
    ∃ ps, MadeOf (row.fragment ids.next) ps ∧
      ∀ p, p ∈ ps ↔ ∃ step ∈ row.placed ids.next, step.2 = p := by
  let first := row.first.place ids.next
  let rest := place (ids.next.advance row.first.taken) row.steps
  have hplaced : row.placed ids.next = (.standard, first) :: rest := rfl
  have hpairs : (row.placed ids.next).Pairwise fun a b => a.2.Apart b.2 :=
    pairwise_apart_place (nextAt_self ids.next _) h.room h.earlier h.apart
  rw [hplaced, List.pairwise_cons] at hpairs
  have hmem : (Link.standard, first) ∈ row.placed ids.next := List.mem_cons_self
  have hfirst : first.stop ≤ 4294967296 := h.stop_le hmem
  have hstart : MadeOf (if row.leading then Fragment.edge.join Link.standard.glyph first.fragment
      else first.fragment) [first] := by
    cases row.leading with
    | true => exact madeOf_edge.join (by simp) hfirst (by simp) _
    | false => exact madeOf_fragment first
  obtain ⟨ps, hmade, hmem⟩ := hstart.joinAll
    (fun p hp => List.mem_singleton.mp hp ▸ hfirst)
    (fun step hstep => h.stop_le (List.mem_cons_of_mem _ hstep))
    (fun p hp step hstep => List.mem_singleton.mp hp ▸ hpairs.1 step hstep) hpairs.2
  refine ⟨ps, ?_, fun p => ?_⟩
  · simp only [fragment]
    cases row.trailing with
    | true => exact hmade.join_edge _
    | false => exact hmade
  · rw [hmem, hplaced, List.mem_singleton]
    simp only [List.mem_cons, exists_eq_or_imp, eq_comm]
    exact Iff.rfl

/-- The bindings of each operand are bindings of the row. -/
theorem Fresh.partOf {row : Row V} {ids : IdSource} (h : row.Fresh ids) {step : Link × Placed V}
    (hstep : step ∈ row.placed ids.next) :
    step.2.fragment.toBindings.PartOf (row.fragment ids.next).toBindings := by
  obtain ⟨ps, hmade, hmem⟩ := h.madeOf
  exact hmade.parts step.2 ((hmem step.2).mpr ⟨step, hstep, rfl⟩)

/-- No symbol for views names a length in a row. -/
theorem Fresh.get?_metrics_eq_none {row : Row V} {ids : IdSource} (h : row.Fresh ids) {s : Symbol}
    (hkind : s.kind ≠ .metric) : (row.fragment ids.next).metrics.get? s.name = none := by
  obtain ⟨ps, hmade, hmem⟩ := h.madeOf
  cases hfound : (row.fragment ids.next).metrics.get? s.name with
  | none => rfl
  | some value =>
    obtain ⟨p, hp, hbound⟩ := hmade.metrics s.name value hfound
    obtain ⟨step, hstep, rfl⟩ := (hmem p).mp hp
    have hnumbered := Placed.numbered (h.stop_le hstep)
    obtain ⟨s', hname, hmetric, -⟩ := hnumbered.metrics s.name value hbound
    rw [Symbol.name_injective hname] at hmetric
    exact absurd hmetric hkind

/-! ### What a view binds -/

/-- The symbol of an operand's view stands for that view. -/
theorem get?_view_fragment (operand : ViewOperand V) (id : SymbolId) :
    (operand.fragment id).views.get? (Symbol.name ⟨.view, id⟩) = some operand.view := by
  simp only [ViewOperand.fragment]
  cases operand.sizing with
  | clauses list =>
    cases list with
    | nil => exact (get?_singleton _ _ _ _).mpr ⟨rfl, rfl⟩
    | cons clause clauses => exact (get?_singleton _ _ _ _).mpr ⟨rfl, rfl⟩
  | relative relation other priority =>
    rw [Table.get?_eq_some_iff, entries_views_ofRelative]
    exact List.mem_cons_self

/-- The symbol behind it stands for the view it is measured by. -/
theorem get?_relative_fragment {operand : ViewOperand V} {relation : Relation} {other : V}
    {priority : Priority} (h : operand.sizing = .relative relation other priority) (id : SymbolId) :
    (operand.fragment id).views.get? (Symbol.name ⟨.relative, id.advance 1⟩) = some other := by
  simp only [ViewOperand.fragment, h]
  rw [Table.get?_eq_some_iff, entries_views_ofRelative]
  exact List.mem_cons_of_mem _ List.mem_cons_self

/-- The symbols of a view's conditions stand for their lengths. -/
theorem get?_clause_fragment {operand : ViewOperand V} {list : List LengthClause}
    (h : operand.sizing = .clauses list) {id : SymbolId}
    (hfits : id.val + operand.idCount ≤ 4294967296) {p : Symbol × LengthClause}
    (hp : p ∈ (Fragment.clauseSymbols id list.length).zip list) :
    (operand.fragment id).metrics.get? p.1.name = some p.2.length := by
  have hlength : list.length ≤ operand.idCount := by
    simp only [ViewOperand.idCount, h]
    exact Nat.le_max_right 1 list.length
  simp only [ViewOperand.fragment, h]
  cases list with
  | nil => simp at hp
  | cons clause clauses =>
    rw [Table.get?_eq_some_iff, entries_metrics_ofLengths id operand.view (by omega)]
    exact List.mem_map.mpr ⟨p, hp, rfl⟩

end Row
end LayoutLine
