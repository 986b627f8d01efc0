import Mathlib

/-! # Big-endian numbers

A number as a fixed count of bytes, the most significant first, and back, and fields behind the number of
their bytes.
-/

namespace BigEndian

/-- The last `width` bytes of a number. -/
def put : ℕ → ℕ → List UInt8
  | 0, _ => []
  | width + 1, n => UInt8.ofNat (n / 256 ^ width) :: put width n

/-- The number that bytes spell. -/
def get : List UInt8 → ℕ
  | [] => 0
  | byte :: bytes => byte.toNat * 256 ^ bytes.length + get bytes

@[simp] theorem length_put (width n : ℕ) : (put width n).length = width := by
  induction width with
  | zero => rfl
  | succ width ih => rw [put, List.length_cons, ih]

theorem get_put (width n : ℕ) : get (put width n) = n % 256 ^ width := by
  induction width with
  | zero => simp [put, get, Nat.mod_one]
  | succ width ih =>
    have byte : 2 ^ 8 = 256 := rfl
    rw [put, get, length_put, ih, UInt8.toNat_ofNat', byte, Nat.pow_succ, Nat.mod_mul, Nat.mul_comm, Nat.add_comm]

/-- A number that fits is read back. -/
theorem get_put_of_lt {width n : ℕ} (fits : n < 256 ^ width) : get (put width n) = n := by
  rw [get_put, Nat.mod_eq_of_lt fits]

/-- Numbers that fit have different spellings. -/
theorem put_inj {width first second : ℕ} (fits : first < 256 ^ width) (fits' : second < 256 ^ width)
    (same : put width first = put width second) : first = second := by
  rw [← get_put_of_lt fits, same, get_put_of_lt fits']

/-- A field behind its length. -/
def prefixed (width : ℕ) (field : List UInt8) : List UInt8 := put width field.length ++ field

variable {width : ℕ} {field field' rest rest' : List UInt8}

/-- A field that fits ends where its length says. -/
theorem prefixed_inj (fits : field.length < 256 ^ width) (fits' : field'.length < 256 ^ width)
    (same : prefixed width field ++ rest = prefixed width field' ++ rest') : field = field' ∧ rest = rest' := by
  rw [prefixed, prefixed, List.append_assoc, List.append_assoc] at same
  obtain ⟨lengths, same⟩ := List.append_inj same (by rw [length_put, length_put])
  exact List.append_inj same (put_inj fits fits' lengths)

/-- As many fields that all fit are read off one by one. -/
theorem fields_inj {fields fields' : List (List UInt8)} (count : fields.length = fields'.length)
    (fits : ∀ field ∈ fields, field.length < 256 ^ width) (fits' : ∀ field ∈ fields', field.length < 256 ^ width)
    (same : fields.flatMap (prefixed width) ++ rest = fields'.flatMap (prefixed width) ++ rest') :
    fields = fields' ∧ rest = rest' := by
  induction fields generalizing fields' with
  | nil =>
    cases List.length_eq_zero_iff.mp count.symm
    exact ⟨rfl, same⟩
  | cons field fields ih =>
    obtain ⟨field', fields', rfl⟩ := List.exists_cons_of_length_eq_add_one count.symm
    rw [List.forall_mem_cons] at fits fits'
    rw [List.flatMap_cons, List.flatMap_cons, List.append_assoc, List.append_assoc] at same
    obtain ⟨rfl, later⟩ := prefixed_inj fits.1 fits'.1 same
    obtain ⟨rfl, ends⟩ := ih (Nat.succ.inj count) fits.2 fits'.2 later
    exact ⟨rfl, ends⟩

end BigEndian
