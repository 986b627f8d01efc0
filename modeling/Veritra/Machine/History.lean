import Veritra.Machine.Run

/-! # What the history of a run says about its states

Two rules. A name that a call uses up cannot be used again before another call restores it. And what
holds of a state began with some call of the history and was not ended since.
-/

namespace Machine

variable {σ ι ε ο α : Type*} {step : σ → ι → Except ε (ο × σ)} {guard : σ → ι → Prop} {init state : σ}
  {history : List (Served σ ι ε ο)}

/-- Calls use names up: a used name is spent until a call restores it. -/
structure Spending (step : σ → ι → Except ε (ο × σ)) (uses restores : Served σ ι ε ο → α → Prop)
    (spent : α → σ → Prop) : Prop where
  use : ∀ {state call answer next name}, step state call = .ok (answer, next) →
    uses ⟨state, call, .ok answer, next⟩ name → ¬ spent name state ∧ spent name next
  keep : ∀ {state call answer next name}, step state call = .ok (answer, next) → spent name state →
    restores ⟨state, call, .ok answer, next⟩ name ∨ spent name next
  refused : ∀ {state call refusal name}, ¬ uses ⟨state, call, .error refusal, state⟩ name

namespace Spending

variable {uses restores : Served σ ι ε ο → α → Prop} {spent : α → σ → Prop} {name : α}

section

variable (spending : Spending step uses restores spent)

include spending

/-- Along a run that starts where the name is spent, it stays spent or is restored. -/
theorem restored_or_spent (run : Run step guard init history state) (start : spent name init) :
    (∃ entry ∈ history, restores entry name) ∨ spent name state := by
  induction run with
  | start => exact .inr start
  | @call history state call run allowed ih =>
    rcases ih with ⟨entry, mem, restored⟩ | held
    · exact .inl ⟨entry, List.mem_append_left _ mem, restored⟩
    · cases outcome : step state call with
      | ok result =>
        rw [serve_of_ok outcome]
        rcases spending.keep outcome held with restored | kept
        · exact .inl ⟨_, List.mem_concat_self, restored⟩
        · exact .inr kept
      | error refusal =>
        rw [serve_of_error outcome]
        exact .inr held

theorem uses_served {entry : Served σ ι ε ο}
    (served : entry = serve step entry.before entry.call) (used : uses entry name) :
    ¬ spent name entry.before ∧ spent name entry.after := by
  cases outcome : step entry.before entry.call with
  | ok result =>
    rw [serve_of_ok outcome] at served
    rw [served] at used ⊢
    exact spending.use outcome used
  | error refusal =>
    rw [serve_of_error outcome] at served
    rw [served] at used
    exact absurd used spending.refused

/-- A name that is used twice was restored in between. -/
theorem restored_between (run : Run step guard init history state) {first second : Served σ ι ε ο}
    {between : List (Served σ ι ε ο)} (part : first :: between ++ [second] <:+: history)
    (firstUse : uses first name) (secondUse : uses second name) :
    ∃ entry ∈ between, restores entry name := by
  obtain ⟨earlier, later, rfl⟩ := part
  have whole : earlier ++ (first :: between ++ [second]) ++ later =
      (earlier ++ first :: between) ++ second :: later := by simp
  rw [whole] at run
  have before := run.at_entry
  have usable := (spending.uses_served before.2.2 secondUse).1
  have used := (spending.uses_served before.1.at_entry.2.2 firstUse).2
  exact (spending.restored_or_spent before.1.after_entry used).resolve_right usable

end

end Spending

/-- What holds of the state began with a call of the history, and no later call ended it. -/
theorem Run.since {holds : σ → α → Prop} {begins ends : Served σ ι ε ο → α → Prop}
    (run : Run step guard init history state) (start : ∀ a, ¬ holds init a)
    (keep : ∀ history state call answer next a, Run step guard init history state →
      step state call = .ok (answer, next) → holds next a →
      holds state a ∧ ¬ ends ⟨state, call, .ok answer, next⟩ a ∨ begins ⟨state, call, .ok answer, next⟩ a)
    (refused : ∀ state call refusal a, ¬ ends ⟨state, call, .error refusal, state⟩ a)
    {a : α} (held : holds state a) :
    ∃ earlier entry later, history = earlier ++ entry :: later ∧ begins entry a ∧ ∀ other ∈ later, ¬ ends other a := by
  induction run with
  | start => exact absurd held (start a)
  | @call history state call run allowed ih =>
    have extend : ∀ {last : Served σ ι ε ο}, holds state a → ¬ ends last a →
        ∃ earlier entry later, history ++ [last] = earlier ++ entry :: later ∧ begins entry a ∧
          ∀ other ∈ later, ¬ ends other a := by
      intro last before lasting
      obtain ⟨earlier, entry, later, rfl, begun, unended⟩ := ih before
      refine ⟨earlier, entry, later ++ [last], by simp, begun, fun other mem => ?_⟩
      rcases List.mem_append.mp mem with old | new
      · exact unended other old
      · rwa [List.mem_singleton.mp new]
    cases outcome : step state call with
    | ok result =>
      rw [serve_of_ok outcome] at held ⊢
      rcases keep history state call result.1 result.2 a run outcome held with ⟨before, lasting⟩ | begun
      · exact extend before lasting
      · exact ⟨history, _, [], rfl, begun, fun _ none => absurd none List.not_mem_nil⟩
    | error refusal =>
      rw [serve_of_error outcome] at held ⊢
      exact extend held (refused state call refusal a)

end Machine
