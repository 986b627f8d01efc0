import Veritra.Relational.Table

/-! # Tables as multisets

What a query over all rows of a table sees does not depend on their order. The contents of a table under
such a query is a multiset, and the writes add to it and take from it.
-/

namespace Relational

variable {ρ κ ι α : Type*}

namespace Table

variable {key : ρ → κ} {table table' : Table ρ key} {row : ρ} {read : ρ → Option α} {p : ρ → Prop} [DecidablePred p]

/-- What a query reads from the rows of a table, in no order. -/
def contents (table : Table ρ key) (read : ρ → Option α) : Multiset α := ↑(table.rows.filterMap read)

theorem mem_contents {a : α} : a ∈ table.contents read ↔ ∃ row ∈ table, read row = some a := List.mem_filterMap

theorem contents_delete (table : Table ρ key) (p : ρ → Prop) [DecidablePred p] (read : ρ → Option α) :
    table.contents read = (table.delete p).contents read + ↑((table.rows.filter p).filterMap read) := by
  have split : (table.rows : Multiset ρ) = ↑(table.rows.filter fun row => ¬ p row) + ↑(table.rows.filter p) := by
    have parts := List.filter_append_perm (fun row => decide ¬ p row) table.rows
    simpa using parts.symm
  have queried := congrArg (Multiset.filterMap read) split
  rwa [Multiset.filterMap_add] at queried

/-- Deleting rows that the query does not read changes nothing. -/
theorem contents_delete_unread (unread : ∀ row ∈ table, p row → read row = none) :
    (table.delete p).contents read = table.contents read := by
  have none : (table.rows.filter p).filterMap read = [] := by
    refine List.filterMap_eq_nil_iff.mpr fun row mem => ?_
    obtain ⟨stored, hit⟩ := List.mem_filter.mp mem
    exact unread row stored (of_decide_eq_true hit)
  rw [table.contents_delete p read, none, Multiset.coe_nil, add_zero]

/-- Deleting the row under a key takes what the query read from it. -/
theorem contents_delete_key [DecidableEq κ] (mem : row ∈ table) (read : ρ → Option α) :
    table.contents read = (table.delete (key · = key row)).contents read + ↑(read row).toList := by
  have only : (table.rows.filter (key · = key row)).Perm [row] := by
    have nodup := List.Nodup.of_map key table.unique
    refine (List.perm_ext_iff_of_nodup (nodup.filter _) (List.nodup_singleton row)).mpr fun other => ?_
    simp only [List.mem_filter, decide_eq_true_eq, List.mem_singleton]
    refine ⟨fun ⟨stored, same⟩ => eq_of_key stored mem same, ?_⟩
    rintro rfl
    exact ⟨mem, rfl⟩
  rw [table.contents_delete (key · = key row) read, Multiset.coe_eq_coe.mpr (only.filterMap read)]
  cases found : read row <;> simp [found]

theorem contents_of_insert? [DecidableEq κ] (read : ρ → Option α)
    (inserted : table.insert? row = some table') :
    table'.contents read = table.contents read + ↑(read row).toList := by
  unfold insert? at inserted
  split at inserted
  · cases inserted
  · cases inserted
    simp only [contents, List.filterMap_append, ← Multiset.coe_add]
    cases found : read row <;> simp [found]

/-- An update of rows in which the query reads the same before and after changes nothing. -/
theorem contents_update {change : ρ → ρ} {keeps : ∀ row, key (change row) = key row}
    (same : ∀ row, read (change row) = read row) :
    (table.update p change keeps).contents read = table.contents read := by
  simp only [contents, update, List.filterMap_map]
  congr 2
  funext row
  simp only [Function.comp]
  split
  · exact same row
  · rfl

/-- An update after which the query no longer reads the changed rows takes them away. -/
theorem contents_hide (table : Table ρ key) (p : ρ → Prop) [DecidablePred p] (change : ρ → ρ)
    (keeps : ∀ row, key (change row) = key row) (read : ρ → Option α)
    (hidden : ∀ row, read (change row) = none) :
    table.contents read = (table.update p change keeps).contents read + ↑((table.rows.filter p).filterMap read) := by
  rw [table.contents_delete p read]
  congr 1
  simp only [contents, delete, update, List.filterMap_map, List.filterMap_filter]
  congr 2
  funext row
  by_cases hit : p row <;> simp [hit, hidden row]

/-- Two tables share some rows and differ by those that only one of them has. -/
theorem contents_diff [DecidableEq ρ] (table table' : Table ρ key) (read : ρ → Option α) :
    ∃ shared : Multiset α,
      table.contents read = shared + ↑((table.rows.filter (· ∉ table'.rows)).filterMap read) ∧
      table'.contents read = shared + ↑((table'.rows.filter (· ∉ table.rows)).filterMap read) := by
  have nodup := List.Nodup.of_map key table.unique
  have nodup' := List.Nodup.of_map key table'.unique
  have shared : (table'.rows.filter (· ∈ table.rows)).Perm (table.rows.filter (· ∈ table'.rows)) := by
    refine (List.perm_ext_iff_of_nodup (nodup'.filter _) (nodup.filter _)).mpr fun row => ?_
    simp only [List.mem_filter, decide_eq_true_eq, and_comm]
  have parts (rows other : List ρ) : (↑(rows.filterMap read) : Multiset α) =
      ↑((rows.filter (· ∈ other)).filterMap read) + ↑((rows.filter (· ∉ other)).filterMap read) := by
    rw [Multiset.coe_add, ← List.filterMap_append, Multiset.coe_eq_coe]
    refine List.Perm.filterMap read ?_
    simpa using (List.filter_append_perm (· ∈ other) rows).symm
  refine ⟨_, parts table.rows table'.rows, ?_⟩
  rw [← Multiset.coe_eq_coe.mpr (shared.filterMap read)]
  exact parts table'.rows table.rows

end Table

namespace IndexedTable

variable {key : ρ → κ} {index : ρ → ι}

theorem contents_of_insert? [DecidableEq κ] [DecidableEq ι] {table table' : IndexedTable ρ key index}
    {row : ρ} (read : ρ → Option α) (inserted : table.insert? row = some table') :
    table'.toTable.contents read = table.toTable.contents read + ↑(read row).toList := by
  unfold insert? at inserted
  split at inserted
  · cases inserted
  · cases inserted
    simp only [Table.contents, List.filterMap_append, ← Multiset.coe_add]
    cases found : read row <;> simp [found]

end IndexedTable
end Relational
