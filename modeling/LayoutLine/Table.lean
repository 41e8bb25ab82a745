/-!
# Tables by name

A table binds names to values and keeps its entries in the order in which their names first came
in. Inserting under a known name replaces the value and keeps the place. Equality of tables that
ignores the order is `sameEntries`.
-/

namespace LayoutLine

/-- The entries with a value put under a name: in the place of that name, else at the end. -/
def insertEntry {α : Type} (name : String) (value : α) : List (String × α) → List (String × α)
  | [] => [(name, value)]
  | entry :: entries =>
    if entry.1 = name then (name, value) :: entries else entry :: insertEntry name value entries

/-- The names stay as they are when the new one is among them; otherwise it goes to the end. -/
theorem map_fst_insertEntry {α : Type} (name : String) (value : α) (entries : List (String × α)) :
    (insertEntry name value entries).map Prod.fst =
      if name ∈ entries.map Prod.fst then entries.map Prod.fst
      else entries.map Prod.fst ++ [name] := by
  induction entries with
  | nil => simp [insertEntry]
  | cons entry entries ih =>
    by_cases h : entry.1 = name
    · simp [insertEntry, h]
    · simp only [insertEntry, h, if_false, List.map_cons, ih, List.mem_cons, Ne.symm h, false_or]
      split <;> simp

/-- Values by name, in order of first insertion. -/
structure Table (α : Type) where
  /-- The entries in order. -/
  entries : List (String × α) := []
  /-- No name occurs twice. -/
  nodup : (entries.map Prod.fst).Nodup := by simp

namespace Table

variable {α : Type}

/-- The table without entries. -/
def empty : Table α := {}

instance : Inhabited (Table α) := ⟨empty⟩

/-- The names, in order. -/
def names (t : Table α) : List String := t.entries.map Prod.fst

/-- The values, in the order of their names. -/
def values (t : Table α) : List α := t.entries.map Prod.snd

/-- The value under a name. -/
def get? (t : Table α) (name : String) : Option α := t.entries.lookup name

/-- Whether a name is bound. -/
def contains (t : Table α) (name : String) : Bool := (t.get? name).isSome

/-- Binds a name. A bound name keeps its place and gets the new value; a new one goes to the end. -/
def insert (t : Table α) (name : String) (value : α) : Table α where
  entries := insertEntry name value t.entries
  nodup := by
    rw [map_fst_insertEntry]
    split
    · exact t.nodup
    · rename_i h
      exact List.nodup_append.2 ⟨t.nodup, by simp, by
        intro a ha b hb hab
        simp only [List.mem_singleton] at hb
        exact h (hb ▸ hab ▸ ha)⟩

/-- Inserts entries in turn. -/
def insertAll (t : Table α) (entries : List (String × α)) : Table α :=
  entries.foldl (fun t entry => t.insert entry.1 entry.2) t

/-- The table that results from inserting the entries in turn into an empty one. -/
def ofList (entries : List (String × α)) : Table α := empty.insertAll entries

/-- The table with one entry. -/
def singleton (name : String) (value : α) : Table α := empty.insert name value

/-- Both tables in one; a name in both keeps its place on the left and its value on the right. -/
def merge (a b : Table α) : Table α := a.insertAll b.entries

/-- Whether two tables bind the same names to values that `same` accepts, whatever their order. -/
def sameEntries (same : α → α → Bool) (a b : Table α) : Bool :=
  a.entries.length == b.entries.length && a.entries.all fun entry =>
    match b.get? entry.1 with
    | some value => same entry.2 value
    | none => false

/-- Tables with the same entries in the same order are the same. -/
theorem ext {a b : Table α} (h : a.entries = b.entries) : a = b := by
  cases a; cases b; cases h; rfl

/-- Binding a name adds it at the end of the names unless it is among them. -/
theorem names_insert (t : Table α) (name : String) (value : α) :
    (t.insert name value).names = if name ∈ t.names then t.names else t.names ++ [name] :=
  map_fst_insertEntry name value t.entries

/-- Only the new name is looked up differently afterwards. -/
theorem lookup_insertEntry (name other : String) (value : α) (entries : List (String × α)) :
    (insertEntry name value entries).lookup other =
      if other = name then some value else entries.lookup other := by
  induction entries with
  | nil =>
    by_cases h : other = name
    · simp [insertEntry, h]
    · simp [insertEntry, h, List.lookup_cons, beq_eq_false_iff_ne.2 h]
  | cons entry entries ih =>
    obtain ⟨known, bound⟩ := entry
    by_cases hk : known = name
    · subst hk
      by_cases h : other = known
      · simp [insertEntry, h]
      · simp [insertEntry, h, List.lookup_cons, beq_eq_false_iff_ne.2 h]
    · by_cases h : other = known
      · subst h
        simp [insertEntry, hk]
      · simp only [insertEntry, hk, if_false, List.lookup_cons, beq_eq_false_iff_ne.2 h, ih]

/-- Binding a name changes what it stands for, and what no other name stands for. -/
theorem get?_insert (t : Table α) (name other : String) (value : α) :
    (t.insert name value).get? other = if other = name then some value else t.get? other :=
  lookup_insertEntry name other value t.entries

@[simp] theorem get?_empty (name : String) : (empty : Table α).get? name = none := rfl

@[simp] theorem names_empty : (empty : Table α).names = [] := rfl

/-- A name is bound exactly when it is among the names. -/
theorem get?_eq_none_iff (t : Table α) (name : String) : t.get? name = none ↔ name ∉ t.names := by
  simp only [get?, names, List.lookup_eq_none_iff, List.mem_map, not_exists, not_and]
  constructor
  · intro h entry hentry hname
    simpa [hname] using h entry hentry
  · intro h entry hentry
    exact bne_iff_ne.2 fun hname => h entry hentry hname.symm

@[simp] theorem insertAll_nil (t : Table α) : t.insertAll [] = t := rfl

@[simp] theorem insertAll_cons (t : Table α) (name : String) (value : α)
    (entries : List (String × α)) :
    t.insertAll ((name, value) :: entries) = (t.insert name value).insertAll entries := rfl

@[simp] theorem merge_empty (t : Table α) : t.merge empty = t := rfl

/-- A new name goes to the end. -/
theorem insertEntry_of_notMem {name : String} {value : α} {entries : List (String × α)}
    (h : name ∉ entries.map Prod.fst) :
    insertEntry name value entries = entries ++ [(name, value)] := by
  induction entries with
  | nil => rfl
  | cons entry entries ih =>
    rw [List.map_cons, List.mem_cons, not_or] at h
    rw [insertEntry, if_neg (Ne.symm h.1), ih h.2, List.cons_append]

/-- Entries under names that are new, and new to each other, are appended. -/
theorem entries_insertAll (t : Table α) {entries : List (String × α)}
    (h : ((t.entries ++ entries).map Prod.fst).Nodup) :
    (t.insertAll entries).entries = t.entries ++ entries := by
  induction entries generalizing t with
  | nil => rw [insertAll_nil, List.append_nil]
  | cons entry entries ih =>
    have hnew : entry.1 ∉ t.entries.map Prod.fst := by
      rw [List.map_append, List.nodup_append] at h
      exact fun hmem => h.2.2 entry.1 hmem entry.1 List.mem_cons_self rfl
    have hentries : (t.insert entry.1 entry.2).entries = t.entries ++ [entry] :=
      insertEntry_of_notMem hnew
    have hlater := ih (t.insert entry.1 entry.2) (by rwa [hentries, List.append_assoc])
    rw [hentries, List.append_assoc] at hlater
    exact hlater

/-- Entries under different names make up the whole table. -/
theorem entries_ofList {entries : List (String × α)} (h : (entries.map Prod.fst).Nodup) :
    (ofList entries).entries = entries :=
  entries_insertAll empty h

/-- What a name is bound to is the value in its entry. -/
theorem get?_eq_some_iff (t : Table α) (name : String) (value : α) :
    t.get? name = some value ↔ (name, value) ∈ t.entries := by
  obtain ⟨entries, hnodup⟩ := t
  simp only [get?]
  induction entries with
  | nil => simp
  | cons entry entries ih =>
    rw [List.map_cons, List.nodup_cons] at hnodup
    rw [List.lookup_cons, List.mem_cons]
    by_cases hname : name = entry.1
    · subst hname
      have hlater : (entry.1, value) ∉ entries := fun hmem =>
        hnodup.1 (List.mem_map.2 ⟨_, hmem, rfl⟩)
      simp only [BEq.rfl, Option.some.injEq, hlater, or_false, Prod.ext_iff, true_and]
      exact eq_comm
    · have hne : (name, value) ≠ entry := fun heq => hname (congrArg Prod.fst heq)
      simp only [beq_eq_false_iff_ne.2 hname, ih hnodup.2, hne, false_or]

/-- A name that stands for something is among the names. -/
theorem mem_names_of_get? {t : Table α} {name : String} {value : α}
    (h : t.get? name = some value) : name ∈ t.names :=
  List.mem_map.2 ⟨_, (t.get?_eq_some_iff name value).1 h, rfl⟩

/-- Of entries with different names, each one prevails over what the table had before. -/
theorem get?_insertAll (t : Table α) {entries : List (String × α)}
    (h : (entries.map Prod.fst).Nodup) (name : String) :
    (t.insertAll entries).get? name = (entries.lookup name).or (t.get? name) := by
  induction entries generalizing t with
  | nil => rfl
  | cons entry entries ih =>
    obtain ⟨known, value⟩ := entry
    rw [List.map_cons, List.nodup_cons] at h
    rw [insertAll_cons, ih (t.insert known value) h.2, get?_insert, List.lookup_cons]
    by_cases hname : name = known
    · subst hname
      have hlater : entries.lookup name = none := by
        rw [List.lookup_eq_none_iff]
        exact fun entry hentry => bne_iff_ne.2 fun heq =>
          h.1 (List.mem_map.2 ⟨entry, hentry, heq.symm⟩)
      simp [hlater]
    · simp only [if_neg hname, beq_eq_false_iff_ne.2 hname]

/-- The binding on the right counts. -/
theorem get?_merge (a b : Table α) (name : String) :
    (a.merge b).get? name = (b.get? name).or (a.get? name) :=
  a.get?_insertAll b.nodup name

end Table
end LayoutLine
