import Veritra.Model.Typing.Limiter

/-! # The limiter decides as a map of all pairs

What a rotation drops is an interval old, so that it throttles no more.
-/

namespace Veritra.Typing

variable {Pair : Type*} [DecidableEq Pair] {l : Limiter Pair} {last : Pair → Option ℕ} {pair : Pair} {now : ℕ}

/-- Serve an update, and note when each pair was last admitted. -/
def serve (s : Limiter Pair × (Pair → Option ℕ)) (update : Pair × ℕ) : Limiter Pair × (Pair → Option ℕ) :=
  let (allowed, l) := s.1.allow update.1 update.2
  (l, if allowed then Function.update s.2 update.1 (some update.2) else s.2)

def served (updates : List (Pair × ℕ)) : Limiter Pair × (Pair → Option ℕ) :=
  updates.foldl serve ({}, fun _ => none)

/-- The limiter holds the last admissions, but for those that are an interval older than its generation. -/
structure Tracks (l : Limiter Pair) (last : Pair → Option ℕ) : Prop where
  held : ∀ pair t, l.held.lookup pair = some t → last pair = some t ∧ t ≤ l.currentAt + typingInterval
  previous : ∀ pair t, l.previous.lookup pair = some t → last pair = some t ∧ t ≤ l.currentAt
  kept : ∀ pair t, last pair = some t → l.current.isNone = false ∧
    (t + typingInterval ≤ l.currentAt ∨ l.held.lookup pair = some t ∨ l.previous.lookup pair = some t)

theorem Tracks.rotate (tracks : Tracks l last) (now : ℕ) : Tracks (l.rotate now) last ∧
    now ≤ (l.rotate now).currentAt + typingInterval ∧ (l.rotate now).currentAt ≤ max l.currentAt now := by
  obtain ⟨held, previous, kept⟩ := tracks
  unfold Limiter.rotate
  split_ifs with whole half
  · refine ⟨⟨nofun, nofun, fun pair t known => ⟨rfl, .inl ?_⟩⟩, Nat.le_add_right _ _, le_max_right _ _⟩
    change _ ≤ now
    grind
  · refine ⟨⟨nofun, fun pair t found => ?_, fun pair t known => ⟨rfl, ?_⟩⟩, Nat.le_add_right _ _, le_max_right _ _⟩
    · have := held pair t found
      grind
    · change _ ≤ now ∨ _ ∨ l.held.lookup pair = some t
      grind
  · exact ⟨⟨held, previous, kept⟩, (not_le.mp half).le, le_max_left _ _⟩

theorem Tracks.record (tracks : Tracks l last) (recent : now ≤ l.currentAt + typingInterval) :
    Tracks (l.record pair now) (Function.update last pair (some now)) := by
  obtain ⟨held, previous, kept⟩ := tracks
  have inserted : ∀ other, (l.record pair now).held.lookup other =
      if other = pair then some now else l.held.lookup other := by
    intro other
    split_ifs with same
    · rw [same]
      exact Finmap.lookup_insert _
    · exact Finmap.lookup_insert_of_ne _ same
  have erased : ∀ other t, (l.record pair now).previous.lookup other = some t ↔
      other ≠ pair ∧ l.previous.lookup other = some t := fun _ _ => Finmap.lookup_erase_eq_some
  have same : (l.record pair now).currentAt = l.currentAt := rfl
  refine ⟨?_, ?_, fun other t known => ⟨rfl, ?_⟩⟩ <;> grind

theorem Tracks.serve (tracks : Tracks l last) (update : Pair × ℕ) :
    Tracks (serve (l, last) update).1 (serve (l, last) update).2 ∧
      (serve (l, last) update).1.currentAt ≤ max l.currentAt update.2 := by
  obtain ⟨rotated, recent, clock⟩ := tracks.rotate update.2
  by_cases refused : (l.rotate update.2).refuses update.1 update.2
  · simp only [Typing.serve, Limiter.allow, if_pos refused]
    exact ⟨rotated, clock⟩
  · simp only [Typing.serve, Limiter.allow, if_neg refused]
    exact ⟨rotated.record recent, clock⟩

theorem tracks_served {updates : List (Pair × ℕ)} (clock : ∀ update ∈ updates, update.2 ≤ now) :
    Tracks (served updates).1 (served updates).2 ∧ (served updates).1.currentAt ≤ now := by
  induction updates using List.reverseRecOn with
  | nil => exact ⟨⟨nofun, nofun, nofun⟩, Nat.zero_le _⟩
  | append_singleton updates update ih =>
    obtain ⟨tracks, earlier⟩ := ih fun other mem => clock other (List.mem_append_left _ mem)
    obtain ⟨served, started⟩ := tracks.serve update
    rw [Typing.served, List.foldl_concat]
    exact ⟨served, started.trans (max_le earlier (clock update (by simp)))⟩

/-- While the clock does not go back, an update is admitted exactly when the pair's last admission is an
interval old, but for new pairs that find the limiter full. -/
theorem typing_updates_spaced (earlier : List (Pair × ℕ)) (pair : Pair) (now : ℕ)
    (clock : ∀ update ∈ earlier, update.2 ≤ now) :
    ((served earlier).1.allow pair now).1 = true ↔
      (∀ t, (served earlier).2 pair = some t → t + typingInterval ≤ now) ∧
        ¬ ((served earlier).1.rotate now).full pair := by
  obtain ⟨tracks, started⟩ := tracks_served clock
  obtain ⟨⟨held, previous, kept⟩, -, started'⟩ := tracks.rotate now
  have started : ((served earlier).1.rotate now).currentAt ≤ now := started'.trans (max_le started le_rfl)
  unfold Limiter.allow
  by_cases refused : ((served earlier).1.rotate now).refuses pair now
  all_goals
    simp only [refused, if_true, if_false]
    simp only [Limiter.refuses, Generation.throttles, Option.mem_def] at refused
    grind

/-- The second update of `"a"` finds its last admission in the previous generation. -/
theorem typing_updates_spaced_rotated : let earlier := [("x", 0), ("a", 1900000000), ("y", 2000000000)]
    (served earlier).1.previous.lookup "a" = some 1900000000 ∧
      (∀ t, (served earlier).2 "a" = some t → t + typingInterval ≤ 3900000000) ∧
        ¬ ((served earlier).1.rotate 3900000000).full "a" :=
  ⟨by decide, (typing_updates_spaced _ "a" 3900000000 (by decide)).mp (by decide)⟩

end Veritra.Typing
