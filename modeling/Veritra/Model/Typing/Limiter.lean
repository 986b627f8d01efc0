import Veritra.Relational.Maps

/-! # The limiter of typing updates

`typingLimiter` of `typing_limiter.go`. A pair is an account and a conversation, and times are nanoseconds.
-/

namespace Veritra.Typing

def typingInterval : ℕ := 2000000000

def typingMaxEntries : ℕ := 50000

variable {Pair : Type*} [DecidableEq Pair]

/-- When each pair of a generation was admitted. -/
abbrev Generation (Pair : Type*) := Finmap fun _ : Pair => ℕ

/-- The zero value has no current generation yet. -/
structure Limiter (Pair : Type*) where
  current : Option (Generation Pair) := none
  previous : Generation Pair := ∅
  currentAt : ℕ := 0

def Generation.throttles (generation : Generation Pair) (pair : Pair) (now : ℕ) : Prop :=
  ∃ last ∈ generation.lookup pair, now < last + typingInterval
  deriving Decidable

namespace Limiter

def held (l : Limiter Pair) : Generation Pair := l.current.getD ∅

def entries (l : Limiter Pair) : ℕ := l.held.keys.card + l.previous.keys.card

/-- Start a new generation when the current one is an interval old, and forget it when it is two. -/
def rotate (l : Limiter Pair) (now : ℕ) : Limiter Pair :=
  if l.current.isNone ∨ l.currentAt + 2 * typingInterval ≤ now then ⟨some ∅, ∅, now⟩
  else if l.currentAt + typingInterval ≤ now then ⟨some ∅, l.held, now⟩
  else l

/-- A pair that is not held has no room. -/
def full (l : Limiter Pair) (pair : Pair) : Prop :=
  l.held.lookup pair = none ∧ l.previous.lookup pair = none ∧ typingMaxEntries ≤ l.entries
  deriving Decidable

def refuses (l : Limiter Pair) (pair : Pair) (now : ℕ) : Prop :=
  l.held.throttles pair now ∨ l.previous.throttles pair now ∨ l.full pair
  deriving Decidable

def record (l : Limiter Pair) (pair : Pair) (now : ℕ) : Limiter Pair :=
  { l with current := some (l.held.insert pair now), previous := l.previous.erase pair }

def allow (l : Limiter Pair) (pair : Pair) (now : ℕ) : Bool × Limiter Pair :=
  let l := l.rotate now
  if l.refuses pair now then (false, l) else (true, l.record pair now)

end Limiter
end Veritra.Typing
