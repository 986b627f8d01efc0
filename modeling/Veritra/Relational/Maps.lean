import Mathlib

/-! # Finite maps

What Mathlib's finite maps lack here: keeping the entries that meet a condition, and giving one value to a
whole set of keys. A fold over a set has no order, so its step must commute.
-/

namespace Finmap

variable {α : Type*} [DecidableEq α]

section Filter

variable {β : α → Type*} {keep : ∀ a, β a → Prop} [∀ a b, Decidable (keep a b)]

def filter (keep : ∀ a, β a → Prop) [∀ a b, Decidable (keep a b)] (s : Finmap β) : Finmap β where
  entries := s.entries.filter fun entry => keep entry.1 entry.2
  nodupKeys := by
    obtain ⟨entries, nodup⟩ := s
    induction entries using Quotient.inductionOn with
    | h l => exact List.NodupKeys.sublist List.filter_sublist nodup

theorem lookup_filter_eq_some {s : Finmap β} {a : α} {b : β a} :
    (s.filter keep).lookup a = some b ↔ s.lookup a = some b ∧ keep a b := by
  rw [lookup_eq_some_iff, lookup_eq_some_iff]
  exact Multiset.mem_filter

theorem filter_filter_comm {other : ∀ a, β a → Prop} [∀ a b, Decidable (other a b)] {s : Finmap β} :
    (s.filter keep).filter other = (s.filter other).filter keep := by
  refine ext_lookup fun a => Option.ext fun b => ?_
  simp only [lookup_filter_eq_some]
  exact and_right_comm

end Filter

section InsertAll

variable {γ : Type*} {keys : Finset α} {value : γ} {s : Finmap fun _ : α => γ}

instance insert_rightCommutative : RightCommutative fun (s : Finmap fun _ : α => γ) (a : α) => s.insert a value where
  right_comm s a b := by
    by_cases same : a = b
    · rw [same]
    · exact insert_insert_of_ne s same

/-- Give one value to all these keys. -/
def insertAll (keys : Finset α) (value : γ) (s : Finmap fun _ : α => γ) : Finmap fun _ : α => γ :=
  keys.val.foldl (fun s a => s.insert a value) s

theorem lookup_insertAll {a : α} :
    (s.insertAll keys value).lookup a = if a ∈ keys then some value else s.lookup a := by
  obtain ⟨keys, nodup⟩ := keys
  change (keys.foldl (fun s a => s.insert a value) s).lookup a = if a ∈ keys then some value else s.lookup a
  clear nodup
  induction keys using Multiset.induction generalizing s with
  | empty => rfl
  | cons key rest ih =>
    rw [Multiset.foldl_cons, ih]
    by_cases later : a ∈ rest
    · rw [if_pos later, if_pos (Multiset.mem_cons_of_mem later)]
    · rw [if_neg later]
      by_cases same : a = key
      · rw [same, lookup_insert, if_pos (Multiset.mem_cons_self _ _)]
      · rw [lookup_insert_of_ne _ same, if_neg]
        exact fun mem => (Multiset.mem_cons.mp mem).elim same later

theorem mem_insertAll {a : α} : a ∈ s.insertAll keys value ↔ a ∈ keys ∨ a ∈ s := by
  rw [← lookup_isSome, lookup_insertAll, ← lookup_isSome]
  split
  · next mem => simp [mem]
  · next missing => simp [missing]

end InsertAll

/-- A key that is erased is in the map no more; the others are as before. -/
theorem lookup_erase_eq_some {β : α → Type*} {s : Finmap β} {a key : α} {b : β a} :
    (s.erase key).lookup a = some b ↔ a ≠ key ∧ s.lookup a = some b := by
  by_cases same : a = key
  · subst same
    simp [lookup_erase]
  · simp [lookup_erase_ne same, same]

end Finmap
