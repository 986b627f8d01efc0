import Veritra.Relational.Table

/-! # The keys of a table

The keys in use form a finite set, and counting the rows of a query that looks at keys only is
counting in that set. Two tables that hold the same keys therefore answer such a count alike, in
whatever order and with whatever other columns their rows stand.
-/

namespace Relational.Table

variable {ρ κ : Type*} {key : ρ → κ} {table table' : Table ρ key} {row : ρ} {k : κ}

def keys (table : Table ρ key) : Finset κ := ⟨table.rows.map key, table.unique⟩

theorem mem_keys : k ∈ table.keys ↔ ∃ row ∈ table, key row = k :=
  List.mem_map

theorem mem_keys_iff_find? [DecidableEq κ] : k ∈ table.keys ↔ (table.find? k).isSome := by
  rw [mem_keys, Option.isSome_iff_exists]
  exact exists_congr fun row => find?_eq_some.symm

/-- A count that looks at keys only. -/
theorem card_filter_keys (table : Table ρ key) (p : κ → Prop) [DecidablePred p] :
    (table.keys.filter p).card = (table.rows.filter fun row => p (key row)).length := by
  have counted : (table.keys.filter p).card = ((table.rows.map key).filter p).length := rfl
  rw [counted, List.filter_map, List.length_map]
  rfl

variable [DecidableEq κ]

theorem rows_of_insert? (inserted : table.insert? row = some table') : table'.rows = table.rows ++ [row] := by
  unfold insert? at inserted
  split at inserted <;> cases inserted
  rfl

theorem missing_of_insert? (inserted : table.insert? row = some table') : table.find? (key row) = none :=
  find?_eq_none.mpr (free_of_insert? inserted)

theorem find?_upsert {table : Table ρ key} {row : ρ} {change : ρ → ρ}
    {keeps : ∀ row, key (change row) = key row} {k : κ} :
    (table.upsert row change keeps).find? k =
      if key row = k then some (((table.find? k).map change).getD row) else table.find? k := by
  unfold upsert
  split
  · next table' inserted =>
    rw [find?_of_insert? inserted]
    split
    · next here =>
      rw [← here, missing_of_insert? inserted]
      rfl
    · rfl
  · next taken =>
    obtain ⟨old, mem, same⟩ := insert?_eq_none.mp taken
    rw [find?_update]
    split
    · next here =>
      have found : table.find? k = some old := find?_eq_some.mpr ⟨mem, same.trans here⟩
      rw [found]
      simp [same]
    · next elsewhere =>
      cases found : table.find? k with
      | none => rfl
      | some other =>
        have there := (find?_eq_some.mp found).2
        simp [there, Ne.symm elsewhere]

theorem find?_insertOrIgnore {table : Table ρ key} {row : ρ} {k : κ} :
    (table.insertOrIgnore row).find? k = if key row = k then some ((table.find? k).getD row) else table.find? k := by
  -- An ignored insert is one that updates nothing.
  have ignored : table.insertOrIgnore row = table.upsert row id fun _ => rfl := by
    unfold insertOrIgnore upsert update
    cases table.insert? row <;> simp
  rw [ignored, find?_upsert, Option.map_id, id]

variable {last : Table ρ key} {why why' p : ρ → Prop} [DecidablePred p] {change : ρ → ρ}

/-- The row stays, or the update takes it. -/
theorem find?_of_update (table' : Table ρ key) {table : Table ρ key}
    (after : ∀ keeps, table' = table.update p change keeps) (k : κ)
    (keeps : ∀ row, key (change row) = key row := by intro _; rfl) :
    table'.find? k = table.find? k ∨ ∃ row, table.find? k = some row ∧ p row ∧ table'.find? k = some (change row) := by
  rw [after keeps, find?_update]
  cases table.find? k with
  | none => exact .inl rfl
  | some row =>
    by_cases hit : p row
    · exact .inr ⟨row, rfl, hit, by rw [Option.map_some, if_pos hit]⟩
    · exact .inl (by rw [Option.map_some, if_neg hit])

/-- Rows only go, each for the reason. -/
def Drops (why : ρ → Prop) (table table' : Table ρ key) : Prop :=
  ∀ k, table'.find? k = table.find? k ∨ ∃ row, table.find? k = some row ∧ why row ∧ table'.find? k = none

theorem drops_delete (table : Table ρ key) (p : ρ → Prop) [DecidablePred p] : Drops p table (table.delete p) := by
  intro k
  rw [find?_delete]
  cases table.find? k with
  | none => exact .inl rfl
  | some row =>
    by_cases hit : p row
    · exact .inr ⟨row, rfl, hit, by simp [hit]⟩
    · exact .inl (by simp [hit])

theorem Drops.mono (drops : Drops why table table') (weaker : ∀ row, why row → why' row) :
    Drops why' table table' := fun k =>
  (drops k).imp_right fun ⟨row, found, holds, gone⟩ => ⟨row, found, weaker row holds, gone⟩

theorem Drops.trans (first : Drops why table table') (second : Drops why table' last) : Drops why table last := by
  intro k
  rcases second k with same | ⟨row, found, holds, gone⟩
  · rw [same]
    exact first k
  · rcases first k with kept | ⟨_, -, -, missing⟩
    · exact .inr ⟨row, kept.symm.trans found, holds, gone⟩
    · cases missing.symm.trans found

/-- The rows stay, with the columns that `columns` reads. -/
def Keeps {α : Type*} (columns : ρ → α) (table table' : Table ρ key) : Prop :=
  ∀ k row, table.find? k = some row → ∃ row', table'.find? k = some row' ∧ columns row' = columns row

variable {α : Type*} {columns : ρ → α}

theorem Keeps.of_eq (same : table' = table) : Keeps columns table table' :=
  fun _ row found => ⟨row, same ▸ found, rfl⟩

theorem Keeps.trans (first : Keeps columns table table') (second : Keeps columns table' last) :
    Keeps columns table last := by
  intro k row found
  obtain ⟨row', found', same⟩ := first k row found
  obtain ⟨row'', found'', same'⟩ := second k row' found'
  exact ⟨row'', found'', same'.trans same⟩

theorem keeps_of_update (after : ∀ keeps, table' = table.update p change keeps)
    (same : ∀ row, columns (change row) = columns row)
    (keeps : ∀ row, key (change row) = key row := by intro _; rfl) : Keeps columns table table' := by
  intro k row found
  rw [after keeps]
  refine ⟨_, find?_update.trans (by rw [found, Option.map_some]), ?_⟩
  split
  · exact same row
  · rfl

theorem keeps_of_insert? {new : ρ} (inserted : table.insert? new = some table') : Keeps columns table table' := by
  intro k row found
  have elsewhere : key new ≠ k := fun here => by
    cases (here ▸ missing_of_insert? inserted).symm.trans found
  exact ⟨row, by rw [find?_of_insert? inserted, if_neg elsewhere, found], rfl⟩

end Relational.Table
