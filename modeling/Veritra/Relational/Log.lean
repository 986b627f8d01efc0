import Veritra.Relational.Table

/-! # Append-only logs with generated ids

A log is the content of a table whose integer key is generated and never reused: the rows stand
in the order of their ids, and `last` is the largest id ever given out, which stays when rows
are deleted. Rows are appended under the next id, rewritten in place without changing their id,
and deleted; all three keep the order and the bound, which are fields of the structure.
-/

namespace Relational

/-- Rows in increasing id order, all at most the last id given out. -/
structure Log (ρ : Type*) (id : ρ → ℕ) where
  rows : List ρ
  last : ℕ
  ordered : rows.Pairwise fun row next => id row < id next
  bounded : ∀ row ∈ rows, id row ≤ last

namespace Log

variable {ρ : Type*} {id : ρ → ℕ} {log : Log ρ id} {row : ρ} {p : ρ → Prop} {make : ℕ → ρ} {change : ρ → ρ}

instance : Membership ρ (Log ρ id) := ⟨fun log row => row ∈ log.rows⟩

instance (log : Log ρ id) (p : ρ → Prop) [DecidablePred p] :
    Decidable (∃ row, row ∈ log ∧ p row) :=
  inferInstanceAs (Decidable (∃ row, row ∈ log.rows ∧ p row))

instance (log : Log ρ id) (p : ρ → Prop) [DecidablePred p] :
    Decidable (∀ row, row ∈ log → p row) :=
  inferInstanceAs (Decidable (∀ row, row ∈ log.rows → p row))

theorem mem_def : row ∈ log ↔ row ∈ log.rows := Iff.rfl

/-- The id determines the row. -/
theorem eq_of_id {other : ρ} (mem : row ∈ log) (otherMember : other ∈ log)
    (same : id row = id other) : row = other := by
  have distinct : (log.rows.map id).Nodup :=
    List.pairwise_map.mpr (log.ordered.imp fun less => Nat.ne_of_lt less)
  exact List.inj_on_of_nodup_map distinct mem otherMember same

def empty : Log ρ id := ⟨[], 0, List.Pairwise.nil, by simp⟩

@[simp] theorem not_mem_empty (row : ρ) : row ∉ (empty : Log ρ id) := List.not_mem_nil

/-- `INSERT` under the next generated id. -/
def append (log : Log ρ id) (make : ℕ → ρ) (named : ∀ n, id (make n) = n := by intro _; rfl) :
    Log ρ id where
  rows := log.rows ++ [make (log.last + 1)]
  last := log.last + 1
  ordered := by
    refine List.pairwise_append.mpr ⟨log.ordered, List.pairwise_singleton _ _, ?_⟩
    intro row mem next fresh
    rw [List.mem_singleton.mp fresh, named]
    exact Nat.lt_succ_of_le (log.bounded row mem)
  bounded := by
    intro row mem
    rcases List.mem_append.mp mem with old | fresh
    · exact Nat.le_succ_of_le (log.bounded row old)
    · exact Nat.le_of_eq (List.mem_singleton.mp fresh ▸ named _)

@[simp] theorem mem_append {named : ∀ n, id (make n) = n} :
    row ∈ log.append make named ↔ row ∈ log ∨ row = make (log.last + 1) := by
  simp [mem_def, append]

/-- `UPDATE ... SET change WHERE p`, for a change that keeps the id. -/
def update (log : Log ρ id) (p : ρ → Prop) [DecidablePred p] (change : ρ → ρ)
    (keeps : ∀ row, id (change row) = id row := by intro _; rfl) : Log ρ id :=
  have same : ∀ row, id (if p row then change row else row) = id row := by
    intro row
    split
    · exact keeps row
    · rfl
  { rows := log.rows.map fun row => if p row then change row else row
    last := log.last
    ordered := by
      refine List.pairwise_map.mpr (log.ordered.imp ?_)
      intro row next less
      rw [same, same]
      exact less
    bounded := by
      intro row mem
      obtain ⟨old, oldMember, rfl⟩ := List.mem_map.mp mem
      rw [same]
      exact log.bounded old oldMember }

theorem mem_update [DecidablePred p] {keeps : ∀ row, id (change row) = id row} :
    row ∈ log.update p change keeps ↔ (row ∈ log ∧ ¬ p row) ∨ ∃ old ∈ log, p old ∧ change old = row := mem_map_ite

/-- `DELETE ... WHERE p`; the ids of the deleted rows are not given out again. -/
def delete (log : Log ρ id) (p : ρ → Prop) [DecidablePred p] : Log ρ id where
  rows := log.rows.filter fun row => ¬ p row
  last := log.last
  ordered := log.ordered.filter _
  bounded row mem := log.bounded row (List.mem_of_mem_filter mem)

theorem mem_delete [DecidablePred p] : row ∈ log.delete p ↔ row ∈ log ∧ ¬ p row := by
  simp [mem_def, delete]

/-- The later log has every row of the earlier one, and its other rows have higher ids and satisfy
`P`: between the two, rows were only appended. -/
structure Grows (P : ρ → Prop) (log later : Log ρ id) : Prop where
  last_le : log.last ≤ later.last
  keeps : ∀ row ∈ log, row ∈ later
  fresh : ∀ row ∈ later, row ∈ log ∨ (log.last < id row ∧ P row)

namespace Grows

variable {P Q : ρ → Prop} {log middle later : Log ρ id}

theorem refl (log : Log ρ id) : Grows P log log := ⟨Nat.le_refl _, fun _ mem => mem, fun _ => .inl⟩

theorem trans (first : Grows P log middle) (second : Grows P middle later) : Grows P log later where
  last_le := Nat.le_trans first.last_le second.last_le
  keeps row mem := second.keeps row (first.keeps row mem)
  fresh row mem := by
    rcases second.fresh row mem with old | ⟨above, holds⟩
    · exact first.fresh row old
    · exact .inr ⟨Nat.lt_of_le_of_lt first.last_le above, holds⟩

theorem mono (grows : Grows P log later) (weaker : ∀ row, P row → Q row) : Grows Q log later :=
  ⟨grows.last_le, grows.keeps, fun row mem =>
    (grows.fresh row mem).imp_right fun ⟨above, holds⟩ => ⟨above, weaker row holds⟩⟩

theorem append (log : Log ρ id) {named : ∀ n, id (make n) = n}
    (holds : P (make (log.last + 1))) : Grows P log (log.append make named) where
  last_le := Nat.le_succ _
  keeps _ mem := mem_append.mpr (.inl mem)
  fresh row mem := by
    rcases mem_append.mp mem with old | rfl
    · exact .inl old
    · exact .inr ⟨by rw [named]; exact Nat.lt_succ_self _, holds⟩

end Grows

/-- Between the two logs rows were rewritten by `R`, and rows that satisfy `P` were appended. -/
structure Revises (R : ρ → ρ → Prop) (P : ρ → Prop) (log later : Log ρ id) : Prop where
  last_le : log.last ≤ later.last
  keeps : ∀ row ∈ log, ∃ row' ∈ later, R row row'
  fresh : ∀ row' ∈ later, (∃ row ∈ log, R row row') ∨ (log.last < id row' ∧ P row')

namespace Revises

variable {R : ρ → ρ → Prop} {P : ρ → Prop} {log middle later : Log ρ id}

theorem refl (reflexive : ∀ row, R row row) (log : Log ρ id) : Revises R P log log :=
  ⟨Nat.le_refl _, fun row mem => ⟨row, mem, reflexive row⟩, fun row mem => .inl ⟨row, mem, reflexive row⟩⟩

theorem of_grows (reflexive : ∀ row, R row row) (grows : Grows P log later) : Revises R P log later where
  last_le := grows.last_le
  keeps row mem := ⟨row, grows.keeps row mem, reflexive row⟩
  fresh row mem := (grows.fresh row mem).imp_left fun old => ⟨row, old, reflexive row⟩

theorem trans (transitive : ∀ a b c, R a b → R b c → R a c) (keepsP : ∀ a b, P a → R a b → P b)
    (keepsID : ∀ a b, R a b → id b = id a) (first : Revises R P log middle)
    (second : Revises R P middle later) : Revises R P log later where
  last_le := Nat.le_trans first.last_le second.last_le
  keeps row mem := by
    obtain ⟨row', member', step⟩ := first.keeps row mem
    obtain ⟨row'', member'', step'⟩ := second.keeps row' member'
    exact ⟨row'', member'', transitive _ _ _ step step'⟩
  fresh row'' member'' := by
    rcases second.fresh row'' member'' with ⟨row', member', step'⟩ | ⟨above, holds⟩
    · rcases first.fresh row' member' with ⟨row, mem, step⟩ | ⟨above, holds⟩
      · exact .inl ⟨row, mem, transitive _ _ _ step step'⟩
      · exact .inr ⟨by rw [keepsID _ _ step']; exact above, keepsP _ _ holds step'⟩
    · exact .inr ⟨Nat.lt_of_le_of_lt first.last_le above, holds⟩

theorem mono {Q : ρ → Prop} (revises : Revises R P log later) (weaker : ∀ row, P row → Q row) :
    Revises R Q log later :=
  ⟨revises.last_le, revises.keeps, fun row mem =>
    (revises.fresh row mem).imp_right fun ⟨above, holds⟩ => ⟨above, weaker row holds⟩⟩

theorem update (reflexive : ∀ row, R row row) (log : Log ρ id) [DecidablePred p]
    {keeps : ∀ row, id (change row) = id row} (rewrites : ∀ row, p row → R row (change row)) :
    Revises R P log (log.update p change keeps) where
  last_le := Nat.le_refl _
  keeps row mem := by
    by_cases hit : p row
    · exact ⟨_, mem_update.mpr (.inr ⟨row, mem, hit, rfl⟩), rewrites row hit⟩
    · exact ⟨row, mem_update.mpr (.inl ⟨mem, hit⟩), reflexive row⟩
  fresh row' mem := by
    rcases mem_update.mp mem with ⟨old, -⟩ | ⟨old, oldMember, hit, rfl⟩
    · exact .inl ⟨row', old, reflexive row'⟩
    · exact .inl ⟨old, oldMember, rewrites old hit⟩

end Revises
end Log
end Relational
