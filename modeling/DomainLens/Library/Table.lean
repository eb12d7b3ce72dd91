import Mathlib

/-!
# Tables with a primary key

A table holds its rows in order and no key twice.  Reading by key, updating under a fixed key,
inserting under a new key and deleting all stay inside the type, and each has one lemma that says
what is read afterwards.
-/

namespace DomainLens

/-- Rows in order, no two under one key. -/
structure Table {Row Key : Type*} (key : Row → Key) where
  rows : List Row
  distinct : (rows.map key).Nodup

namespace Table

variable {Row Key : Type*} {key : Row → Key}

def empty : Table key where
  rows := []
  distinct := List.nodup_nil

@[ext] theorem ext_rows {left right : Table key} (same : left.rows = right.rows) :
    left = right := by
  cases left
  cases right
  cases same
  rfl

instance [DecidableEq Row] : DecidableEq (Table key) := fun left right =>
  decidable_of_iff (left.rows = right.rows) ⟨ext_rows, fun same => same ▸ rfl⟩

/-- Keep the rows a condition holds of. -/
def filter (table : Table key) (keep : Row → Bool) : Table key where
  rows := table.rows.filter keep
  distinct := (List.filter_sublist.map key).nodup table.distinct

/-- Rewrite every row, under its own key. -/
def modify (table : Table key) (change : Row → Row) (keeps : ∀ row, key (change row) = key row) :
    Table key where
  rows := table.rows.map change
  distinct := by
    rw [List.map_map, show key ∘ change = key from funext keeps]
    exact table.distinct

variable [DecidableEq Key]

def find (table : Table key) (id : Key) : Option Row :=
  table.rows.find? fun row => key row = id

/-- Rewrite the row under a key, which stays the same. -/
def update (table : Table key) (id : Key) (write : Row → Row)
    (keeps : ∀ row, key (write row) = key row) : Table key where
  rows := table.rows.map fun row => if key row = id then write row else row
  distinct := by
    have same : (key ∘ fun row => if key row = id then write row else row) = key := by
      funext row
      by_cases held : key row = id <;> simp [held, keeps]
    rw [List.map_map, same]
    exact table.distinct

def insert (table : Table key) (row : Row) (fresh : table.find (key row) = none) : Table key where
  rows := table.rows ++ [row]
  distinct := by
    have absent : key row ∉ table.rows.map key := by
      intro member
      obtain ⟨held, found, same⟩ := List.mem_map.mp member
      simpa [same] using List.find?_eq_none.mp fresh held found
    simpa [List.nodup_append, table.distinct] using
      fun held found same => absent (List.mem_map.mpr ⟨held, found, same⟩)

/-- Replace the row under the key of a new one, which goes last. -/
def put (table : Table key) (row : Row) : Table key :=
  (table.filter fun other => key other ≠ key row).insert row (by
    simp [find, filter, List.find?_eq_none])

/-- Insert a row, or rewrite the one under its key. -/
def upsert (table : Table key) (row : Row) (change : Row → Row)
    (keeps : ∀ row, key (change row) = key row) : Table key :=
  if fresh : table.find (key row) = none then table.insert row fresh
  else table.update (key row) change keeps

/-! ## Reading -/

theorem find_eq_some {table : Table key} {id : Key} {row : Row} :
    table.find id = some row ↔ row ∈ table.rows ∧ key row = id := by
  constructor
  · intro found
    exact ⟨List.mem_of_find?_eq_some found, by simpa using List.find?_some found⟩
  · rintro ⟨member, rfl⟩
    obtain ⟨other, found⟩ := Option.isSome_iff_exists.mp
      ((@List.find?_isSome _ table.rows fun row' => decide (key row' = key row)).mpr
        ⟨row, member, by simp⟩)
    have same : key other = key row := by simpa using List.find?_some found
    rw [find, found, List.inj_on_of_nodup_map table.distinct
      (List.mem_of_find?_eq_some found) member same]

theorem find_eq_none {table : Table key} {id : Key} :
    table.find id = none ↔ ∀ row ∈ table.rows, key row ≠ id := by
  simp [find]

theorem find_of_mem {table : Table key} {row : Row} (member : row ∈ table.rows) :
    table.find (key row) = some row :=
  find_eq_some.mpr ⟨member, rfl⟩

theorem mem_of_find {table : Table key} {id : Key} {row : Row} (found : table.find id = some row) :
    row ∈ table.rows :=
  (find_eq_some.mp found).1

theorem key_of_find {table : Table key} {id : Key} {row : Row} (found : table.find id = some row) :
    key row = id :=
  (find_eq_some.mp found).2

theorem find_update {table : Table key} {id other : Key} {write : Row → Row}
    (keeps : ∀ row, key (write row) = key row) :
    (table.update id write keeps).find other =
      if other = id then (table.find id).map write else table.find other := by
  have step : ∀ rows : List Row,
      (rows.map fun row => if key row = id then write row else row).find?
          (fun row => key row = other) =
        if other = id then (rows.find? fun row => key row = id).map write
        else rows.find? fun row => key row = other := by
    intro rows
    induction rows with
    | nil => simp
    | cons head rows induction =>
        by_cases same : other = id
        · subst same
          by_cases held : key head = other
          · simp [held, keeps]
          · simpa [held] using induction
        · by_cases held : key head = id
          · simpa [held, keeps, same, Ne.symm same] using induction
          · by_cases wanted : key head = other
            · simp [wanted, same]
            · simpa [held, wanted, same] using induction
  exact step table.rows

theorem find_insert {table : Table key} {row : Row} {id : Key}
    (fresh : table.find (key row) = none) :
    (table.insert row fresh).find id = if id = key row then some row else table.find id := by
  by_cases same : id = key row
  · subst same
    rw [find] at fresh
    simp [insert, find, List.find?_append, fresh]
  · simp [insert, find, List.find?_append, same, Ne.symm same]

theorem find_filter {table : Table key} {keep : Row → Bool} {id : Key} :
    (table.filter keep).find id = (table.find id).filter keep := by
  apply Option.ext
  intro row
  simp only [find_eq_some, filter, List.mem_filter, Option.filter_eq_some_iff]
  exact ⟨fun ⟨⟨member, kept⟩, same⟩ => ⟨⟨member, same⟩, kept⟩,
    fun ⟨⟨member, same⟩, kept⟩ => ⟨⟨member, kept⟩, same⟩⟩

theorem find_modify {table : Table key} {change : Row → Row}
    (keeps : ∀ row, key (change row) = key row) {id : Key} :
    (table.modify change keeps).find id = (table.find id).map change := by
  have step : (table.rows.map change).find? (fun row => key row = id) =
      (table.rows.find? fun row => key (change row) = id).map change := List.find?_map ..
  rw [find, modify, step]
  simp only [keeps]
  rfl

theorem find_put {table : Table key} {row : Row} {id : Key} :
    (table.put row).find id = if id = key row then some row else table.find id := by
  rw [put, find_insert]
  split
  · rfl
  · rename_i different
    rw [find_filter]
    cases found : table.find id with
    | none => rfl
    | some held => simp [Option.filter, key_of_find found, different]

theorem find_upsert {table : Table key} {row : Row} {change : Row → Row}
    (keeps : ∀ row, key (change row) = key row) {id : Key} :
    (table.upsert row change keeps).find id =
      if id = key row then some ((table.find id).elim row change) else table.find id := by
  unfold upsert
  split
  · rename_i fresh
    rw [find_insert]
    split
    · rename_i same
      rw [same, fresh]
      rfl
    · rfl
  · rename_i taken
    obtain ⟨held, found⟩ := Option.ne_none_iff_exists'.mp taken
    rw [find_update]
    split
    · rename_i same
      rw [same, found]
      rfl
    · rfl

theorem length_upsert {table : Table key} {row : Row} {change : Row → Row}
    (keeps : ∀ row, key (change row) = key row) :
    (table.upsert row change keeps).rows.length =
      table.rows.length + if table.find (key row) = none then 1 else 0 := by
  unfold upsert
  split <;> rename_i fresh
  · simp [insert]
  · simp [update]

theorem upsert_eq_self {table : Table key} {row held : Row} {change : Row → Row}
    (keeps : ∀ row, key (change row) = key row) (found : table.find (key row) = some held)
    (same : change held = held) : table.upsert row change keeps = table := by
  rw [upsert, dif_neg (by simp [found])]
  refine ext_rows ?_
  calc table.rows.map (fun other => if key other = key row then change other else other)
      = table.rows.map id := List.map_congr_left fun other member => by
        split
        · rename_i isHeld
          have other_found := find_of_mem member
          rw [isHeld, found] at other_found
          rw [← Option.some.inj other_found, same]
          rfl
        · rfl
    _ = table.rows := List.map_id _

theorem mem_put {table : Table key} {row other : Row} (member : other ∈ (table.put row).rows) :
    other ∈ table.rows ∨ other = row := by
  rcases List.mem_append.mp member with old | new
  · exact .inl (List.mem_of_mem_filter old)
  · exact .inr (List.mem_singleton.mp new)

end Table
end DomainLens
