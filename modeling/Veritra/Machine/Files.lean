import Veritra.Relational.Keys

/-! # A file system

The entries of a file system by path. Renaming is atomic and takes the place of what was at the target.
-/

namespace Machine

open Relational

variable {π κ : Type*} [DecidableEq π]

/-- The entries by path. -/
structure Files (π κ : Type*) where
  table : Table (π × κ) Prod.fst

namespace Files

instance [DecidableEq κ] : DecidableEq (Files π κ) := fun fs other =>
  decidable_of_iff (fs.table.rows = other.table.rows) <| by
    obtain ⟨⟨_, _⟩⟩ := fs
    obtain ⟨⟨_, _⟩⟩ := other
    simp only [Files.mk.injEq, Table.mk.injEq]

def empty : Files π κ := ⟨.empty⟩

def at? (fs : Files π κ) (path : π) : Option κ := (fs.table.find? path).map Prod.snd

def present (fs : Files π κ) (path : π) : Bool := (fs.at? path).isSome

def paths (fs : Files π κ) : List π := fs.table.rows.map Prod.fst

def remove (fs : Files π κ) (path : π) : Files π κ := ⟨fs.table.delete (·.1 = path)⟩

def put (fs : Files π κ) (path : π) (entry : κ) : Files π κ :=
  ⟨(fs.remove path).table.insertOrIgnore (path, entry)⟩

def rename? (fs : Files π κ) (source target : π) : Option (Files π κ) :=
  (fs.at? source).map fun entry => (fs.remove source).put target entry

variable {fs fs' : Files π κ} {path other source target : π} {entry : κ}

theorem at?_remove : (fs.remove path).at? other = if path = other then none else fs.at? other := by
  unfold at? remove
  rw [Table.find?_delete]
  split
  · next same =>
    cases found : fs.table.find? other with
    | none => rfl
    | some row =>
      have key : row.1 = other := (Table.find?_eq_some.mp found).2
      simp [key, same]
  · next apart =>
    cases found : fs.table.find? other with
    | none => rfl
    | some row =>
      have key : row.1 = other := (Table.find?_eq_some.mp found).2
      have stays : ¬ row.1 = path := fun same => apart (same.symm.trans key)
      rw [Option.filter_some, if_pos (decide_eq_true stays)]

theorem at?_put : (fs.put path entry).at? other = if path = other then some entry else fs.at? other := by
  have removed : (fs.remove path).at? other = if path = other then none else fs.at? other := at?_remove
  unfold put at?
  rw [Table.find?_insertOrIgnore]
  cases found : (fs.remove path).table.find? other with
  | none =>
    rw [at?, found, Option.map_none] at removed
    split
    · rfl
    · next apart => rw [if_neg apart] at removed; exact removed
  | some row =>
    rw [at?, found, Option.map_some] at removed
    split
    · next same => rw [if_pos same] at removed; cases removed
    · next apart => rw [if_neg apart] at removed; exact removed

theorem at?_rename (renamed : fs.rename? source target = some fs') :
    fs'.at? other = if target = other then fs.at? source else if source = other then none else fs.at? other := by
  obtain ⟨entry, found, rfl⟩ := Option.map_eq_some_iff.mp renamed
  rw [at?_put, at?_remove, found]

end Files
end Machine
