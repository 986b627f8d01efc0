import Veritra.Bytes.BigEndian

/-! # Codes that end themselves

A code says which values it has and how each is written. Whatever follows a written value, the value and
what follows can be read off. Codes are put together from smaller ones, so this holds of a whole format as
soon as it holds of its parts.
-/

open BigEndian

structure Code (α : Type) where
  write : α → List UInt8
  Valid : α → Prop
  unique : ∀ {a a' rest rest'}, Valid a → Valid a' → write a ++ rest = write a' ++ rest' → a = a' ∧ rest = rest'

namespace Code

variable {α β : Type}

/-- The same bytes always. -/
def exactly (bytes : List UInt8) : Code Unit where
  write _ := bytes
  Valid _ := True
  unique _ _ same := ⟨rfl, List.append_cancel_left same⟩

/-- So many bytes. -/
def bytes (count : ℕ) : Code (List UInt8) where
  write bytes := bytes
  Valid bytes := bytes.length = count
  unique valid valid' same := List.append_inj same (valid.trans valid'.symm)

def number (width : ℕ) : Code ℕ where
  write := put width
  Valid n := n < 256 ^ width
  unique valid valid' same := by
    obtain ⟨digits, rest⟩ := List.append_inj same (by simp)
    exact ⟨put_inj valid valid' digits, rest⟩

/-- One code after the other. -/
def both (first : Code α) (second : Code β) : Code (α × β) where
  write pair := first.write pair.1 ++ second.write pair.2
  Valid pair := first.Valid pair.1 ∧ second.Valid pair.2
  unique valid valid' same := by
    rw [List.append_assoc, List.append_assoc] at same
    obtain ⟨one, more⟩ := first.unique valid.1 valid'.1 same
    obtain ⟨two, rest⟩ := second.unique valid.2 valid'.2 more
    exact ⟨Prod.ext one two, rest⟩

variable {code : Code α}

/-- Values that fill some bytes can be read off one by one. -/
theorem flatMap_inj (filled : ∀ a, code.Valid a → code.write a ≠ []) {list list' : List α}
    (valid : ∀ a ∈ list, code.Valid a) (valid' : ∀ a ∈ list', code.Valid a)
    (same : list.flatMap code.write = list'.flatMap code.write) : list = list' := by
  induction list generalizing list' with
  | nil =>
    cases list' with
    | nil => rfl
    | cons a' list' => exact absurd (List.append_eq_nil_iff.mp same.symm).1 (filled a' (valid' a' List.mem_cons_self))
  | cons a list ih =>
    rw [List.forall_mem_cons] at valid
    cases list' with
    | nil => exact absurd (List.append_eq_nil_iff.mp same).1 (filled a valid.1)
    | cons a' list' =>
      rw [List.forall_mem_cons] at valid'
      obtain ⟨rfl, more⟩ := code.unique valid.1 valid'.1 same
      rw [ih valid.2 valid'.2 more]

end Code
