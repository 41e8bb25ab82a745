import LayoutLine.Table
import Mathlib.Data.List.Basic
import Mathlib.Data.List.Perm.Subperm

/-!
# Tables laid over one another

Merging tables lays them over one another: a name keeps the place where it first came up, and the
last table that binds it says what it stands for. Its names in order and what they stand for are all
there is to a table, so it makes no difference which of several tables are merged first. Where the
order is left out of account, what the names stand for is all.
-/

namespace LayoutLine

section Names

variable {α : Type} [BEq α] [LawfulBEq α]

/-- A list without repetitions has none to erase. -/
theorem eraseDups_of_nodup {xs : List α} (h : xs.Nodup) : xs.eraseDups = xs := by
  induction xs with
  | nil => rfl
  | cons x xs ih =>
    rw [List.nodup_cons] at h
    have hkeep : xs.filter (fun y => !y == x) = xs := by
      refine List.filter_eq_self.mpr fun y hy => ?_
      have hne : y ≠ x := by
        rintro rfl
        exact h.1 hy
      simp [hne]
    rw [List.eraseDups_cons, hkeep, ih h.2]

/-- First occurrences are selected like all others. -/
theorem eraseDups_filter (p : α → Bool) (xs : List α) :
    (xs.filter p).eraseDups = xs.eraseDups.filter p := by
  cases xs with
  | nil => rfl
  | cons x xs =>
    have hlater := eraseDups_filter p (xs.filter fun y => !y == x)
    rw [List.filter_filter] at hlater
    cases hx : p x with
    | true =>
      rw [List.filter_cons_of_pos hx, List.eraseDups_cons, List.eraseDups_cons,
        List.filter_cons_of_pos hx, ← hlater, List.filter_filter]
      simp only [Bool.and_comm]
    | false =>
      have hother : (xs.filter fun y => p y && !y == x) = xs.filter p := by
        refine List.filter_congr fun y _ => ?_
        by_cases hy : y = x
        · rw [hy, hx, Bool.false_and]
        · simp [hy]
      rw [hother] at hlater
      rw [List.filter_cons_of_neg (by simp [hx]), List.eraseDups_cons,
        List.filter_cons_of_neg (by simp [hx]), hlater]
termination_by xs.length
decreasing_by exact Nat.lt_succ_of_le (List.length_filter_le _ _)

end Names

/-- Values that are related by equality, or none on either side, are the same. -/
theorem rel_eq_iff {α : Type} {x y : Option α} : Option.Rel (fun a b => a = b) x y ↔ x = y := by
  constructor
  · intro h
    cases h with
    | some hab => exact congrArg some hab
    | none => rfl
  · rintro rfl
    cases x with
    | none => exact .none
    | some a => exact .some rfl

/-- Where one side of each has a value, so has the other, and the first one counts. -/
theorem rel_or {α β : Type} {R : α → β → Prop} {x y : Option α} {x' y' : Option β}
    (hx : Option.Rel R x x') (hy : Option.Rel R y y') : Option.Rel R (x.or y) (x'.or y') := by
  cases hx with
  | some h => exact .some h
  | none => exact hy

namespace Table

variable {α : Type} {t u : Table α}

/-- A table is told by its names in order and what each of them stands for. -/
theorem entries_eq_filterMap (t : Table α) :
    t.entries = t.names.filterMap fun name => (t.get? name).map (name, ·) := by
  have hentry : ∀ entry ∈ t.entries,
      ((fun name => (t.get? name).map (name, ·)) ∘ Prod.fst) entry = some entry := by
    intro entry hmem
    rw [Function.comp_apply, (t.get?_eq_some_iff entry.1 entry.2).mpr hmem]
    rfl
  rw [names, List.filterMap_map, List.filterMap_congr hentry, List.filterMap_some]

/-- A table is known by its names in order and by what they stand for. -/
theorem ext_get? (hnames : t.names = u.names) (hget : ∀ name, t.get? name = u.get? name) :
    t = u := by
  refine ext ?_
  rw [entries_eq_filterMap t, entries_eq_filterMap u, hnames]
  simp only [hget]

/-- Entries under other names change nothing for a name. -/
theorem get?_insertAll_of_notMem (t : Table α) {entries : List (String × α)}
    {name : String} (h : name ∉ entries.map Prod.fst) :
    (t.insertAll entries).get? name = t.get? name := by
  induction entries generalizing t with
  | nil => rfl
  | cons entry entries ih =>
    rw [List.map_cons, List.mem_cons, not_or] at h
    rw [insertAll_cons, ih _ h.2, get?_insert, if_neg h.1]

/-- Tables with the same entries bind alike, whatever the order. -/
theorem get?_of_perm (h : t.entries.Perm u.entries)
    (name : String) : t.get? name = u.get? name := by
  refine Option.ext fun value => ?_
  rw [get?_eq_some_iff, get?_eq_some_iff, h.mem_iff]

/-! ### Names -/

theorem eraseDups_names (t : Table α) : t.names.eraseDups = t.names := eraseDups_of_nodup t.nodup

/-- Inserting entries appends those of their names that are new. -/
theorem names_insertAll (t : Table α) (entries : List (String × α)) :
    (t.insertAll entries).names = (t.names ++ entries.map Prod.fst).eraseDups := by
  induction entries generalizing t with
  | nil =>
    rw [insertAll_nil, List.map_nil, List.append_nil, eraseDups_names]
  | cons entry entries ih =>
    obtain ⟨name, value⟩ := entry
    rw [insertAll_cons, ih, names_insert, List.map_cons]
    by_cases hknown : name ∈ t.names
    · rw [if_pos hknown, List.eraseDups_append, List.eraseDups_append, List.removeAll,
        List.removeAll, List.filter_cons_of_neg (by simpa using hknown)]
    · rw [if_neg hknown, List.append_assoc, List.singleton_append]

theorem mem_names_insertAll (t : Table α) (entries : List (String × α)) (name : String) :
    name ∈ (t.insertAll entries).names ↔ name ∈ t.names ∨ name ∈ entries.map Prod.fst := by
  rw [names_insertAll, List.mem_eraseDups, List.mem_append]

theorem mem_names_ofList (entries : List (String × α)) (name : String) :
    name ∈ (ofList entries).names ↔ name ∈ entries.map Prod.fst := by
  rw [ofList, mem_names_insertAll, names_empty]
  simp

/-- The names of merged tables are those of both in turn, each in its first place. -/
theorem names_merge (a b : Table α) : (a.merge b).names = (a.names ++ b.names).eraseDups :=
  a.names_insertAll b.entries

/-- The names of both tables are the names of the merged one. -/
theorem mem_names_merge (a b : Table α) (name : String) :
    name ∈ (a.merge b).names ↔ name ∈ a.names ∨ name ∈ b.names :=
  a.mem_names_insertAll b.entries name

/-- Tables that share no name are merged one behind the other. -/
theorem names_merge_of_disjoint (h : ∀ name ∈ t.names, name ∉ u.names) :
    (t.merge u).names = t.names ++ u.names := by
  have hnodup : (t.names ++ u.names).Nodup :=
    List.nodup_append.mpr ⟨t.nodup, u.nodup, fun name ht other hu heq => h name ht (heq ▸ hu)⟩
  rw [names_merge, eraseDups_of_nodup hnodup]

/-! ### Overlays -/

@[simp] theorem empty_merge (t : Table α) : empty.merge t = t := ext (entries_ofList t.nodup)

/-- The table is made up of others that are laid over one another: a name stands where the first of
them has it, and for what the last of them binds it to. -/
structure Overlays (t : Table α) (parts : List (Table α)) : Prop where
  /-- The names in the order in which they first come up. -/
  names : t.names = (parts.flatMap Table.names).eraseDups
  /-- The value under a name is the last one it is bound to. -/
  values : ∀ name, t.get? name = parts.reverse.findSome? (·.get? name)

theorem Overlays.single (t : Table α) : t.Overlays [t] where
  names := by rw [List.flatMap_singleton, eraseDups_names]
  values := fun name => by simp

/-- Only one table is made up of given others. -/
theorem Overlays.unique {parts : List (Table α)} (ht : t.Overlays parts) (hu : u.Overlays parts) :
    t = u :=
  ext_get? (ht.names.trans hu.names.symm) fun name =>
    (ht.values name).trans (hu.values name).symm

/-- What is merged is made up of all the parts of both. -/
theorem Overlays.merge {parts later : List (Table α)} (ht : t.Overlays parts)
    (hu : u.Overlays later) : (t.merge u).Overlays (parts ++ later) where
  names := by
    have hselect (xs ys : List String) :
        (xs.removeAll ys).eraseDups = xs.eraseDups.removeAll ys := eraseDups_filter _ xs
    have hknown : u.names.removeAll t.names = u.names.removeAll (parts.flatMap Table.names) := by
      simp only [List.removeAll, ht.names, List.elem_eq_mem, List.mem_eraseDups]
    calc
      (t.merge u).names = t.names ++ u.names.removeAll t.names := by
        rw [names_merge, List.eraseDups_append, hselect, eraseDups_names, eraseDups_names]
      _ = ((parts ++ later).flatMap Table.names).eraseDups := by
        rw [List.flatMap_append, List.eraseDups_append, hselect, ← ht.names, ← hu.names, hknown]
  values := fun name => by
    rw [get?_merge, ht.values, hu.values, List.reverse_append, List.findSome?_append]

/-- It makes no difference which of three tables are merged first. -/
theorem merge_assoc (a b c : Table α) : (a.merge b).merge c = a.merge (b.merge c) :=
  have left := ((Overlays.single a).merge (.single b)).merge (.single c)
  have right := (Overlays.single a).merge ((Overlays.single b).merge (.single c))
  left.unique right

/-! ### Equality in any order -/

section SameEntries

variable {same : α → α → Bool} {t u t' u' : Table α}

/-- Tables have the same entries when they have as many and each value of the one is that of the
other under the same name. -/
theorem sameEntries_iff_length : t.sameEntries same u = true ↔
    t.entries.length = u.entries.length ∧
      ∀ name x, t.get? name = some x → ∃ y, u.get? name = some y ∧ same x y = true := by
  simp only [sameEntries, Bool.and_eq_true, beq_iff_eq, List.all_eq_true, Prod.forall,
    ← get?_eq_some_iff]
  refine and_congr_right' (forall₂_congr fun name x => imp_congr_right fun _ => ?_)
  cases u.get? name with
  | none => simp
  | some y => simp

/-- A table of the same size as another that has all its names has no others. -/
theorem names_perm_of_subset (hsize : t.entries.length = u.entries.length)
    (hsubset : t.names ⊆ u.names) : t.names.Perm u.names := by
  refine (List.subperm_of_subset t.nodup hsubset).perm_of_length_le (Nat.le_of_eq ?_)
  simp only [names, List.length_map, hsize]

/-- Tables have the same entries when a name is bound in both, to values that are the same, or in
neither. -/
theorem sameEntries_iff : t.sameEntries same u = true ↔
    ∀ name, Option.Rel (fun x y => same x y = true) (t.get? name) (u.get? name) := by
  rw [sameEntries_iff_length]
  constructor
  · rintro ⟨hsize, hbound⟩ name
    have hsubset : t.names ⊆ u.names := by
      intro name hname
      obtain ⟨entry, hentry, rfl⟩ := List.mem_map.mp hname
      obtain ⟨y, hy, -⟩ := hbound entry.1 entry.2 ((t.get?_eq_some_iff _ _).mpr hentry)
      exact mem_names_of_get? hy
    cases ht : t.get? name with
    | some x =>
      obtain ⟨y, hy, hsame⟩ := hbound name x ht
      rw [hy]
      exact .some hsame
    -- There are as many names on either side, so that none is left over.
    | none =>
      rw [get?_eq_none_iff, (names_perm_of_subset hsize hsubset).mem_iff, ← get?_eq_none_iff] at ht
      rw [ht]
      exact .none
  · intro h
    have hnames (name : String) : name ∈ t.names ↔ name ∈ u.names := by
      rw [← not_iff_not, ← get?_eq_none_iff, ← get?_eq_none_iff]
      have hrel := h name
      generalize t.get? name = x, u.get? name = y at hrel
      cases hrel with
      | some _ => simp
      | none => simp
    have hperm : t.names.Perm u.names := (List.perm_ext_iff_of_nodup t.nodup u.nodup).mpr hnames
    refine ⟨by simpa [names] using hperm.length_eq, fun name x hx => ?_⟩
    have hrel := h name
    rw [hx] at hrel
    generalize u.get? name = bound at hrel ⊢
    cases hrel with
    | some hsame => exact ⟨_, rfl, hsame⟩

/-- Tables with the same entries give tables with the same entries when they are merged, also where
a name is in both. -/
theorem sameEntries_merge (ht : t.sameEntries same t' = true) (hu : u.sameEntries same u' = true) :
    (t.merge u).sameEntries same (t'.merge u') = true := by
  rw [sameEntries_iff] at ht hu ⊢
  intro name
  rw [get?_merge, get?_merge]
  exact rel_or (hu name) (ht name)

end SameEntries
end Table
end LayoutLine
