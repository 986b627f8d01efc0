import Mathlib

/-! # Guarded transactions

A transaction that can be refused is an `Except` computation: a sequence of requirements and steps
in which the first failing one refuses the whole. The lemmas here say what a committed transaction
has passed, so that a proof about it peels off one requirement or one step at a time.
-/

namespace Machine

variable {ε α β : Type} {condition : Prop} [Decidable condition] {refusal : ε} {rest : Unit → Except ε β}
  {result : β}

/-- Continue when the condition holds, and refuse otherwise. -/
def require (condition : Prop) [Decidable condition] (refusal : ε) : Except ε Unit :=
  if condition then .ok () else .error refusal

/-- A sequence commits exactly when its first part does and the rest does after it. -/
theorem bind_eq_ok {first : Except ε α} {rest : α → Except ε β} :
    (first >>= rest) = .ok result ↔ ∃ value, first = .ok value ∧ rest value = .ok result := by
  cases first <;> simp [bind, Except.bind]

/-- A check in front of a transaction is passed by every commit of it. -/
theorem check_bind_eq_ok {check : Except ε Unit} :
    (check >>= rest) = .ok result ↔ check = .ok () ∧ rest () = .ok result := by
  rw [bind_eq_ok]
  exact ⟨fun ⟨_, passed, ok⟩ => ⟨passed, ok⟩, fun ⟨passed, ok⟩ => ⟨(), passed, ok⟩⟩

/-- A requirement commits exactly when its condition holds. -/
theorem require_eq_ok {done : Unit} : require condition refusal = .ok done ↔ condition := by
  unfold require
  split <;> simp_all

/-- A requirement in front of a transaction is passed by every commit of it. -/
theorem require_ok :
    (require condition refusal >>= rest) = .ok result ↔ condition ∧ rest () = .ok result := by
  simp only [bind_eq_ok, require_eq_ok]
  exact ⟨fun ⟨_, holds, ok⟩ => ⟨holds, ok⟩, fun ⟨holds, ok⟩ => ⟨(), holds, ok⟩⟩

/-- What a commit did after a requirement. -/
theorem of_require (ok : (require condition refusal >>= rest) = .ok result) : rest () = .ok result :=
  (require_ok.mp ok).2

/-- A requirement that holds can be dropped. -/
theorem require_bind_of (holds : condition) : (require condition refusal >>= rest) = rest () := by
  simp only [require, if_pos holds]
  rfl

theorem pure_eq_ok {value result : α} : (pure value : Except ε α) = .ok result ↔ value = result := by
  simp [pure, Except.pure]

/-- A mapped transaction commits exactly when the transaction does. -/
theorem map_eq_ok {result : Except ε α} {f : α → β} {value : β} :
    result.map f = .ok value ↔ ∃ inner, result = .ok inner ∧ f inner = value := by
  cases result <;> simp [Except.map]

end Machine
