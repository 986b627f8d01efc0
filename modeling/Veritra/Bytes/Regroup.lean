import Mathlib

/-! # Regrouping bits

Digits of one width are packed into digits of another, the most significant bit first, through a buffer
whose low bits have not been given out.
-/

namespace Regroup

/-- The number that digits of a width spell. -/
def spelled (width : ℕ) (digits : List ℕ) : ℕ := Nat.ofDigits (2 ^ width) digits.reverse

theorem spelled_concat (width : ℕ) (digits : List ℕ) (digit : ℕ) :
    spelled width (digits ++ [digit]) = spelled width digits * 2 ^ width + digit := by
  simp [spelled, Nat.ofDigits_cons, Nat.mul_comm, Nat.add_comm]

/-- As many digits that spell one number are the same digits. -/
theorem spelled_inj {width : ℕ} {digits digits' : List ℕ} (positive : 0 < width)
    (count : digits.length = digits'.length) (fits : ∀ digit ∈ digits, digit < 2 ^ width)
    (fits' : ∀ digit ∈ digits', digit < 2 ^ width) (same : spelled width digits = spelled width digits') :
    digits = digits' := by
  apply List.reverse_inj.mp
  apply Nat.ofDigits_inj_of_len_eq (Nat.one_lt_two_pow positive.ne') _ _ _ same
  · simpa using count
  · simpa using fits
  · simpa using fits'

/-- The digits read are the digits given out and the low bits of the buffer. -/
structure Packed (width width' : ℕ) (read given : List ℕ) (buffer bits : ℕ) : Prop where
  number : spelled width read = spelled width' given * 2 ^ bits + buffer % 2 ^ bits
  count : width * read.length = width' * given.length + bits

namespace Packed

variable {width width' digit buffer bits : ℕ} {read given : List ℕ}

theorem start : Packed width width' [] [] 0 0 := ⟨rfl, rfl⟩

theorem feed (packed : Packed width width' read given buffer bits) (fits : digit < 2 ^ width) :
    Packed width width' (read ++ [digit]) given (buffer <<< width ||| digit) (bits + width) where
  number := by
    have low : (buffer * 2 ^ width + digit) % 2 ^ width = digit := by
      rw [Nat.mul_add_mod_self_right, Nat.mod_eq_of_lt fits]
    have high : (buffer * 2 ^ width + digit) / 2 ^ width = buffer := by
      rw [Nat.mul_comm, Nat.mul_add_div (by positivity), Nat.div_eq_of_lt fits, Nat.add_zero]
    rw [spelled_concat, packed.number, ← Nat.shiftLeft_add_eq_or_of_lt fits, Nat.shiftLeft_eq,
      Nat.add_comm bits, pow_add, Nat.mod_mul, low, high]
    ring
  count := by
    rw [List.length_append, Nat.mul_add, packed.count]
    simp [Nat.add_assoc]

/-- A digit is given out of the top of the waiting bits. -/
theorem give (packed : Packed width width' read given buffer (bits + width')) :
    Packed width width' read (given ++ [buffer >>> bits &&& (2 ^ width' - 1)]) buffer bits where
  number := by
    rw [packed.number, spelled_concat, Nat.and_two_pow_sub_one_eq_mod, Nat.shiftRight_eq_div_pow, pow_add, Nat.mod_mul]
    ring
  count := by
    rw [List.length_append, Nat.mul_add, packed.count]
    simp only [List.length_singleton]
    ring

/-- The bits above the waiting ones may be cleared. -/
theorem mask (packed : Packed width width' read given buffer bits) :
    Packed width width' read given (buffer &&& ((1 <<< bits) - 1)) bits where
  number := by
    rw [packed.number, Nat.one_shiftLeft, Nat.and_two_pow_sub_one_eq_mod, Nat.mod_mod]
  count := packed.count

end Packed
end Regroup
