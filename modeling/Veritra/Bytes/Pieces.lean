import Mathlib

/-! # Cutting a sequence into pieces of one size

A sequence is cut into consecutive runs of `size` elements, the last one possibly shorter. A piece is
found by its index, so the pieces of a prefix are the first pieces of the whole, and a concatenation
of blocks of one width is read back block by block.
-/

namespace Pieces

variable {α β : Type*} {size width : ℕ} {data rest : List α} {block : β → List α}

/-- The run of `size` elements that starts at `index * size`. -/
def piece (size : ℕ) (data : List α) (index : ℕ) : List α := (data.drop (index * size)).take size

/-- How many pieces a sequence of a length has. -/
def count (size length : ℕ) : ℕ := (length + size - 1) / size

/-- All pieces in order. -/
def pieces (size : ℕ) (data : List α) : List (List α) :=
  (List.range (count size data.length)).map (piece size data)

@[simp] theorem length_pieces : (pieces size data).length = count size data.length := by
  rw [pieces, List.length_map, List.length_range]

@[simp] theorem pieces_nil (positive : 0 < size) : pieces size ([] : List α) = [] := by
  have none_left : count size 0 = 0 := Nat.div_eq_of_lt (by omega)
  rw [pieces, List.length_nil, none_left, List.range_zero, List.map_nil]

theorem count_add_size (positive : 0 < size) (length : ℕ) : count size (size + length) = count size length + 1 := by
  have shifted : size + length + size - 1 = (length + size - 1) + size := by omega
  rw [count, shifted, Nat.add_div_right _ positive, count]

theorem lt_count (positive : 0 < size) (index length : ℕ) : index < count size length ↔ index * size < length := by
  rw [count, Nat.lt_iff_add_one_le, Nat.le_div_iff_mul_le positive, Nat.succ_mul]
  omega

theorem pieces_of_short (some_left : data ≠ []) (short : data.length ≤ size) : pieces size data = [data] := by
  have filled : 0 < data.length := List.length_pos_iff.mpr some_left
  have single : count size data.length = 1 := Nat.div_eq_of_lt_le (by omega) (by omega)
  rw [pieces, single, List.range_one, List.map_singleton, piece, zero_mul, List.drop_zero, List.take_of_length_le short]

/-- The first full piece is cut off. -/
theorem pieces_append (positive : 0 < size) {head : List α} (full : head.length = size) :
    pieces size (head ++ rest) = head :: pieces size rest := by
  have first : piece size (head ++ rest) 0 = head := by
    rw [piece, zero_mul, List.drop_zero, ← full, List.take_left]
  have later : ∀ index, piece size (head ++ rest) (index + 1) = piece size rest index := by
    intro index
    have start : (index + 1) * size = head.length + index * size := by rw [full]; ring
    rw [piece, start, List.drop_append, piece, List.drop_of_length_le (by omega), List.nil_append,
      Nat.add_sub_cancel_left]
  rw [pieces, List.length_append, full, count_add_size positive, List.range_succ_eq_map, List.map_cons, first,
    List.map_map, pieces]
  exact congrArg (head :: ·) (List.map_congr_left fun index _ => later index)

theorem pieces_flatten_append (positive : 0 < size) {heads : List (List α)}
    (full : ∀ head ∈ heads, head.length = size) :
    pieces size (heads.flatten ++ rest) = heads ++ pieces size rest := by
  induction heads with
  | nil => simp
  | cons head heads ih =>
    have later := ih fun other mem => full other (List.mem_cons_of_mem _ mem)
    rw [List.flatten_cons, List.append_assoc, pieces_append positive (full head List.mem_cons_self), later,
      List.cons_append]

/-- The elements of a piece, one by one. -/
theorem piece_drop_take {offset : ℕ} :
    ((piece size data (offset / size)).drop (offset - offset / size * size)) =
      (data.drop offset).take (size - offset % size) := by
  have split : offset / size * size + offset % size = offset := by
    rw [Nat.mul_comm]; exact Nat.div_add_mod offset size
  have inside : offset - offset / size * size = offset % size := by omega
  rw [inside, piece, List.drop_take, List.drop_drop, split]

/-- Blocks of one width are read back from their concatenation. -/
theorem piece_flatMap (uniform : ∀ item, (block item).length = width)
    (items : List β) {index : ℕ} (present : index < items.length) :
    piece width (items.flatMap block) index = block items[index] := by
  induction items generalizing index with
  | nil => cases present
  | cons head items ih =>
    cases index with
    | zero =>
      rw [piece, zero_mul, List.drop_zero, List.flatMap_cons, ← uniform head, List.take_left]
      rfl
    | succ index =>
      have start : (index + 1) * width = (block head).length + index * width := by rw [uniform]; ring
      have rest := ih (Nat.lt_of_succ_lt_succ present)
      rw [piece, List.flatMap_cons, start, List.drop_append, List.drop_of_length_le (by omega), List.nil_append,
        Nat.add_sub_cancel_left]
      exact rest

/-- Blocks of one width have that many elements together. -/
theorem length_flatMap (uniform : ∀ item, (block item).length = width)
    (items : List β) : (items.flatMap block).length = items.length * width := by
  induction items with
  | nil => rw [List.flatMap_nil, List.length_nil, List.length_nil, zero_mul]
  | cons head items ih => rw [List.flatMap_cons, List.length_append, uniform, ih, List.length_cons]; ring

end Pieces
