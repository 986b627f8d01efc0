import Mathlib

/-! # Keyed tables

A table is a list of rows together with a proof that its key column has no duplicate, so a
primary key cannot be violated by a value of this type. The operations follow the statements
a relational store runs: an insert that fails on a duplicate key, `ON CONFLICT DO NOTHING`,
`ON CONFLICT DO UPDATE`, `UPDATE ... WHERE` and `DELETE ... WHERE`. Each one has a membership
lemma, and users of a table reason through those lemmas rather than through the row list.
-/

namespace Relational

/-- Membership after a change of the rows that meet a condition. -/
theorem mem_map_ite {ρ : Type*} {rows : List ρ} {p : ρ → Prop} [DecidablePred p] {change : ρ → ρ} {row : ρ} :
    row ∈ rows.map (fun row => if p row then change row else row) ↔
      (row ∈ rows ∧ ¬ p row) ∨ ∃ old ∈ rows, p old ∧ change old = row := by
  rw [List.mem_map]
  constructor
  · rintro ⟨old, mem, rfl⟩
    by_cases hit : p old
    · exact .inr ⟨old, mem, hit, by rw [if_pos hit]⟩
    · exact .inl (by rw [if_neg hit]; exact ⟨mem, hit⟩)
  · rintro (⟨mem, miss⟩ | ⟨old, mem, hit, rfl⟩)
    · exact ⟨row, mem, if_neg miss⟩
    · exact ⟨old, mem, if_pos hit⟩

/-- A change of other columns leaves the key as it is. -/
theorem kept {ρ κ : Type*} (key : ρ → κ) (row : ρ) : key row = key row := rfl

/-- Rows with pairwise distinct keys. -/
structure Table (ρ : Type*) {κ : Type*} (key : ρ → κ) where
  rows : List ρ
  unique : (rows.map key).Nodup

namespace Table

variable {ρ κ : Type*} {key : ρ → κ} {table table' : Table ρ key} {row other : ρ} {p : ρ → Prop} [DecidablePred p]
  {change : ρ → ρ} {keeps : ∀ row, key (change row) = key row}

instance : Membership ρ (Table ρ key) := ⟨fun table row => row ∈ table.rows⟩

instance (table : Table ρ key) (p : ρ → Prop) [DecidablePred p] :
    Decidable (∃ row, row ∈ table ∧ p row) :=
  inferInstanceAs (Decidable (∃ row, row ∈ table.rows ∧ p row))

instance (table : Table ρ key) (p : ρ → Prop) [DecidablePred p] :
    Decidable (∀ row, row ∈ table → p row) :=
  inferInstanceAs (Decidable (∀ row, row ∈ table.rows → p row))

theorem mem_def : row ∈ table ↔ row ∈ table.rows := Iff.rfl

/-- The key determines the row. -/
theorem eq_of_key (mem : row ∈ table) (otherMember : other ∈ table) (same : key row = key other) : row = other :=
  List.inj_on_of_nodup_map table.unique mem otherMember same

def empty : Table ρ key := ⟨[], List.nodup_nil⟩

@[simp] theorem not_mem_empty (row : ρ) : row ∉ (empty : Table ρ key) := List.not_mem_nil

/-- `SELECT ... WHERE key = k`. -/
def find? [DecidableEq κ] (table : Table ρ key) (k : κ) : Option ρ :=
  table.rows.find? fun row => key row = k

theorem find?_eq_some [DecidableEq κ] {k : κ} : table.find? k = some row ↔ row ∈ table ∧ key row = k := by
  constructor
  · intro found
    exact ⟨List.mem_of_find?_eq_some found, by simpa using List.find?_some found⟩
  · rintro ⟨mem, rfl⟩
    cases found : table.find? (key row) with
    | none =>
      have missing := List.find?_eq_none.mp found row mem
      simp at missing
    | some other =>
      have same : key other = key row := by simpa using List.find?_some found
      rw [eq_of_key (List.mem_of_find?_eq_some found) mem same]

theorem find?_eq_none [DecidableEq κ] {k : κ} : table.find? k = none ↔ ∀ row ∈ table, key row ≠ k := by
  unfold find?
  rw [List.find?_eq_none]
  simp only [decide_eq_true_eq]
  rfl

/-- `INSERT`, refused when the key is taken. -/
def insert? [DecidableEq κ] (table : Table ρ key) (row : ρ) : Option (Table ρ key) :=
  if taken : key row ∈ table.rows.map key then none
  else some ⟨table.rows ++ [row], by
    rw [List.map_append]
    exact table.unique.append (List.nodup_singleton _) (by simpa using taken)⟩

theorem mem_of_insert? [DecidableEq κ] (inserted : table.insert? row = some table') (other : ρ) :
    other ∈ table' ↔ other ∈ table ∨ other = row := by
  unfold insert? at inserted
  split at inserted
  · simp at inserted
  · cases inserted
    simp [mem_def]

theorem insert?_eq_none [DecidableEq κ] :
    table.insert? row = none ↔ ∃ other ∈ table, key other = key row := by
  unfold insert?
  split
  · next taken => simpa [mem_def] using taken
  · next free => simpa [mem_def] using free

theorem free_of_insert? [DecidableEq κ] (inserted : table.insert? row = some table') :
    ∀ old ∈ table, key old ≠ key row := by
  intro old mem same
  rw [insert?_eq_none.mpr ⟨old, mem, same⟩] at inserted
  cases inserted

/-- `INSERT ... ON CONFLICT DO NOTHING`. -/
def insertOrIgnore [DecidableEq κ] (table : Table ρ key) (row : ρ) : Table ρ key :=
  (table.insert? row).getD table

theorem mem_insertOrIgnore [DecidableEq κ] : other ∈ table.insertOrIgnore row ↔
      other ∈ table ∨ (other = row ∧ ∀ old ∈ table, key old ≠ key row) := by
  unfold insertOrIgnore
  cases outcome : table.insert? row with
  | none =>
    obtain ⟨old, mem, same⟩ := insert?_eq_none.mp outcome
    constructor
    · exact .inl
    · rintro (known | ⟨-, free⟩)
      · exact known
      · exact absurd same (free old mem)
  | some table' =>
    rw [Option.getD_some, mem_of_insert? outcome]
    exact or_congr_right ⟨fun same => ⟨same, free_of_insert? outcome⟩, And.left⟩

/-- `UPDATE ... SET change WHERE p`, for a change that keeps the key. -/
def update (table : Table ρ key) (p : ρ → Prop) [DecidablePred p] (change : ρ → ρ)
    (keeps : ∀ row, key (change row) = key row := by intro _; rfl) : Table ρ key :=
  ⟨table.rows.map fun row => if p row then change row else row, by
    have same : (table.rows.map fun row => if p row then change row else row).map key = table.rows.map key := by
      rw [List.map_map]
      refine List.map_congr_left fun row _ => ?_
      simp only [Function.comp]
      split
      · exact keeps row
      · rfl
    rw [same]
    exact table.unique⟩

theorem mem_update : row ∈ table.update p change keeps ↔
      (row ∈ table ∧ ¬ p row) ∨ ∃ old ∈ table, p old ∧ change old = row := mem_map_ite

/-- Every row is still there after an update, changed or not. -/
theorem exists_mem_update (mem : row ∈ table) (p : ρ → Prop) [DecidablePred p] (change : ρ → ρ) (keeps : ∀ row, key (change row) = key row) :
    ∃ new ∈ table.update p change keeps, new = row ∨ new = change row := by
  by_cases hit : p row
  · exact ⟨change row, mem_update.mpr (.inr ⟨row, mem, hit, rfl⟩), .inr rfl⟩
  · exact ⟨row, mem_update.mpr (.inl ⟨mem, hit⟩), .inl rfl⟩

/-- `INSERT ... ON CONFLICT(key) DO UPDATE`. -/
def upsert [DecidableEq κ] (table : Table ρ key) (row : ρ) (change : ρ → ρ)
    (keeps : ∀ row, key (change row) = key row := by intro _; rfl) : Table ρ key :=
  match table.insert? row with
  | some inserted => inserted
  | none => table.update (fun old => key old = key row) change keeps

theorem mem_upsert [DecidableEq κ] : other ∈ table.upsert row change keeps ↔
      (other ∈ table ∧ key other ≠ key row) ∨ (∃ old ∈ table, key old = key row ∧ change old = other) ∨
      ((∀ old ∈ table, key old ≠ key row) ∧ other = row) := by
  unfold upsert
  split
  · next table' inserted =>
    have free := free_of_insert? inserted
    rw [mem_of_insert? inserted]
    constructor
    · rintro (mem | rfl)
      · exact .inl ⟨mem, free other mem⟩
      · exact .inr (.inr ⟨free, rfl⟩)
    · rintro (⟨mem, -⟩ | ⟨old, mem, same, -⟩ | ⟨-, rfl⟩)
      · exact .inl mem
      · exact absurd same (free old mem)
      · exact .inr rfl
  · next taken =>
    obtain ⟨old, mem, same⟩ := insert?_eq_none.mp taken
    rw [mem_update]
    constructor
    · rintro (unchanged | changed)
      · exact .inl unchanged
      · exact .inr (.inl changed)
    · rintro (unchanged | changed | ⟨free, -⟩)
      · exact .inl unchanged
      · exact .inr changed
      · exact absurd same (free old mem)

/-- An upsert that only raises a level keeps every key at its level or above. -/
theorem upsert_raises [DecidableEq κ] (level : ρ → ℕ) (raises : ∀ old, level old ≤ level (change old)) {old : ρ} (mem : old ∈ table) :
    ∃ new ∈ table.upsert row change keeps, key new = key old ∧ level old ≤ level new := by
  by_cases same : key old = key row
  · exact ⟨change old, mem_upsert.mpr (.inr (.inl ⟨old, mem, same, rfl⟩)), keeps old, raises old⟩
  · exact ⟨old, mem_upsert.mpr (.inl ⟨mem, same⟩), rfl, Nat.le_refl _⟩

/-- An upsert whose change reaches the level of the row leaves its key there or above. -/
theorem upsert_reaches [DecidableEq κ] (level : ρ → ℕ) (reaches : ∀ old, level row ≤ level (change old)) :
    ∃ new ∈ table.upsert row change keeps, key new = key row ∧ level row ≤ level new := by
  by_cases known : ∃ old ∈ table, key old = key row
  · obtain ⟨old, mem, same⟩ := known
    exact ⟨change old, mem_upsert.mpr (.inr (.inl ⟨old, mem, same, rfl⟩)), (keeps old).trans same, reaches old⟩
  · refine ⟨row, mem_upsert.mpr (.inr (.inr ⟨?_, rfl⟩)), rfl, Nat.le_refl _⟩
    intro old mem same
    exact known ⟨old, mem, same⟩

/-- An update that matches no row. -/
theorem update_of_unmatched (unmatched : ∀ row ∈ table, ¬ p row) : table.update p change keeps = table := by
  have same : (table.rows.map fun row => if p row then change row else row) = table.rows :=
    (List.map_congr_left fun row mem => if_neg (unmatched row mem)).trans (List.map_id' _)
  simp only [update, same]

/-- `DELETE ... WHERE p`. -/
def delete (table : Table ρ key) (p : ρ → Prop) [DecidablePred p] : Table ρ key :=
  ⟨table.rows.filter fun row => ¬ p row, table.unique.sublist (List.filter_sublist.map key)⟩

/-- A deletion that matches no row. -/
theorem delete_of_unmatched (unmatched : ∀ row ∈ table, ¬ p row) : table.delete p = table := by
  have same : (table.rows.filter fun row => ¬ p row) = table.rows :=
    List.filter_eq_self.mpr fun row mem => decide_eq_true (unmatched row mem)
  simp only [delete, same]

theorem mem_delete : row ∈ table.delete p ↔ row ∈ table ∧ ¬ p row := by
  simp [mem_def, delete]

section Find

variable [DecidableEq κ] {k : κ}

theorem find?_update : (table.update p change keeps).find? k =
      (table.find? k).map fun row => if p row then change row else row := by
  refine Option.ext fun row => ?_
  simp only [find?_eq_some, mem_update, Option.map_eq_some_iff]
  constructor
  · rintro ⟨⟨mem, miss⟩ | ⟨old, mem, hit, rfl⟩, same⟩
    · exact ⟨row, ⟨mem, same⟩, if_neg miss⟩
    · exact ⟨old, ⟨mem, (keeps old).symm.trans same⟩, if_pos hit⟩
  · rintro ⟨old, ⟨mem, same⟩, rfl⟩
    by_cases hit : p old
    · rw [if_pos hit]
      exact ⟨.inr ⟨old, mem, hit, rfl⟩, (keeps old).trans same⟩
    · rw [if_neg hit]
      exact ⟨.inl ⟨mem, hit⟩, same⟩

theorem find?_delete : (table.delete p).find? k = (table.find? k).filter fun row => ¬ p row := by
  refine Option.ext fun row => ?_
  simp only [find?_eq_some, mem_delete, Option.filter_eq_some_iff, decide_eq_true_eq]
  tauto

theorem find?_of_insert? (inserted : table.insert? row = some table') :
    table'.find? k = if key row = k then some row else table.find? k := by
  refine Option.ext fun other => ?_
  simp only [find?_eq_some, mem_of_insert? inserted]
  have free := free_of_insert? inserted
  split
  · next here =>
    constructor
    · rintro ⟨mem | rfl, same⟩
      · exact absurd (same.trans here.symm) (free other mem)
      · rfl
    · rintro ⟨⟩
      exact ⟨.inr rfl, here⟩
  · next elsewhere =>
    rw [find?_eq_some]
    constructor
    · rintro ⟨mem | rfl, same⟩
      · exact ⟨mem, same⟩
      · exact absurd same elsewhere
    · rintro ⟨mem, same⟩
      exact ⟨.inl mem, same⟩

end Find
end Table

/-- A table with a second unique column set next to its key. -/
structure IndexedTable (ρ : Type*) {κ ι : Type*} (key : ρ → κ) (index : ρ → ι) extends Table ρ key where
  indexUnique : (rows.map index).Nodup

namespace IndexedTable

variable {ρ κ ι : Type*} {key : ρ → κ} {index : ρ → ι} {table table' : IndexedTable ρ key index} {row other : ρ}
  {p : ρ → Prop} [DecidablePred p] {change : ρ → ρ} {keeps : ∀ row, key (change row) = key row}
  {keepsIndex : ∀ row, index (change row) = index row}

instance : Membership ρ (IndexedTable ρ key index) := ⟨fun table row => row ∈ table.toTable⟩

instance (table : IndexedTable ρ key index) (p : ρ → Prop) [DecidablePred p] :
    Decidable (∃ row, row ∈ table ∧ p row) :=
  inferInstanceAs (Decidable (∃ row, row ∈ table.rows ∧ p row))

instance (table : IndexedTable ρ key index) (p : ρ → Prop) [DecidablePred p] :
    Decidable (∀ row, row ∈ table → p row) :=
  inferInstanceAs (Decidable (∀ row, row ∈ table.rows → p row))

theorem mem_def : row ∈ table ↔ row ∈ table.rows := Iff.rfl

/-- The index determines the row, as the key does. -/
theorem eq_of_index (mem : row ∈ table) (otherMember : other ∈ table) (same : index row = index other) : row = other :=
  List.inj_on_of_nodup_map table.indexUnique mem otherMember same

def empty : IndexedTable ρ key index := ⟨.empty, List.nodup_nil⟩

@[simp] theorem not_mem_empty (row : ρ) : row ∉ (empty : IndexedTable ρ key index) :=
  List.not_mem_nil

/-- `SELECT ... WHERE index = i`. -/
def findIndex? [DecidableEq ι] (table : IndexedTable ρ key index) (i : ι) : Option ρ :=
  table.rows.find? fun row => index row = i

theorem findIndex?_eq_some [DecidableEq ι] {i : ι} :
    table.findIndex? i = some row ↔ row ∈ table ∧ index row = i :=
  @Table.find?_eq_some ρ ι index ⟨table.rows, table.indexUnique⟩ row _ i

/-- `INSERT`, refused when the key or the index is taken. -/
def insert? [DecidableEq κ] [DecidableEq ι] (table : IndexedTable ρ key index) (row : ρ) :
    Option (IndexedTable ρ key index) :=
  if taken : key row ∈ table.rows.map key ∨ index row ∈ table.rows.map index then none
  else some
    { rows := table.rows ++ [row]
      unique := by
        rw [List.map_append]
        exact table.unique.append (List.nodup_singleton _) (by simpa using fun h => taken (.inl h))
      indexUnique := by
        rw [List.map_append]
        exact table.indexUnique.append (List.nodup_singleton _)
          (by simpa using fun h => taken (.inr h)) }

theorem mem_of_insert? [DecidableEq κ] [DecidableEq ι] (inserted : table.insert? row = some table') (other : ρ) :
    other ∈ table' ↔ other ∈ table ∨ other = row := by
  unfold insert? at inserted
  split at inserted
  · simp at inserted
  · cases inserted
    simp [mem_def]

theorem free_of_insert? [DecidableEq κ] [DecidableEq ι] (inserted : table.insert? row = some table') :
    ∀ old ∈ table, key old ≠ key row := by
  unfold insert? at inserted
  split at inserted
  · cases inserted
  · next free =>
    intro old mem same
    exact free (.inl (List.mem_map.mpr ⟨old, mem, same⟩))

/-- `UPDATE ... SET change WHERE p`, for a change that keeps the key and the index. -/
def update (table : IndexedTable ρ key index) (p : ρ → Prop) [DecidablePred p] (change : ρ → ρ)
    (keeps : ∀ row, key (change row) = key row := by intro _; rfl)
    (keepsIndex : ∀ row, index (change row) = index row := by intro _; rfl) :
    IndexedTable ρ key index where
  toTable := table.toTable.update p change keeps
  indexUnique := (Table.update ⟨table.rows, table.indexUnique⟩ p change keepsIndex).unique

theorem mem_update : row ∈ table.update p change keeps keepsIndex ↔
      (row ∈ table ∧ ¬ p row) ∨ ∃ old ∈ table, p old ∧ change old = row :=
  @Table.mem_update ρ κ key table.toTable row p _ change keeps

theorem exists_of_mem_update (mem : row ∈ table.update p change keeps keepsIndex) :
    ∃ old ∈ table, row = old ∨ row = change old := by
  rcases mem_update.mp mem with ⟨old, -⟩ | ⟨old, oldMember, -, rfl⟩
  · exact ⟨row, old, .inl rfl⟩
  · exact ⟨old, oldMember, .inr rfl⟩

/-- Every row is still there after an update, changed or not. -/
theorem exists_mem_update (mem : row ∈ table) (p : ρ → Prop) [DecidablePred p] (change : ρ → ρ) (keeps : ∀ row, key (change row) = key row)
    (keepsIndex : ∀ row, index (change row) = index row) :
    ∃ new ∈ table.update p change keeps keepsIndex, new = row ∨ new = change row :=
  Table.exists_mem_update mem p change keeps

/-- `DELETE ... WHERE p`. -/
def delete (table : IndexedTable ρ key index) (p : ρ → Prop) [DecidablePred p] :
    IndexedTable ρ key index where
  toTable := table.toTable.delete p
  indexUnique := table.indexUnique.sublist (List.filter_sublist.map index)

theorem mem_delete : row ∈ table.delete p ↔ row ∈ table ∧ ¬ p row :=
  Table.mem_delete

end IndexedTable
end Relational
