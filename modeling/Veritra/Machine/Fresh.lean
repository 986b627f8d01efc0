import Veritra.Machine.Run

/-! # Fresh names

Calls bring names with them: random tokens, salts and ids that the caller generated. A history is fresh
if no state up to a call knows a name that the call brings. From then on a name that a state knew is never
brought again, so what calls without it keep holds to the end of the run.
-/

namespace Machine

variable {σ ι ε ο α : Type*}

/-- No state up to a call knows a name that the call brings. -/
structure Fresh (brings : Served σ ι ε ο → List α) (knows : σ → α → Prop)
    (history : List (Served σ ι ε ο)) : Prop where
  apart : history.Pairwise fun earlier later => ∀ name ∈ brings later, ¬ knows earlier.before name
  own : ∀ entry ∈ history, ∀ name ∈ brings entry, ¬ knows entry.before name

instance (brings : Served σ ι ε ο → List α) (knows : σ → α → Prop) [∀ state, DecidablePred (knows state)]
    (history : List (Served σ ι ε ο)) : Decidable (Fresh brings knows history) :=
  decidable_of_iff (_ ∧ _) ⟨fun ⟨apart, own⟩ => ⟨apart, own⟩, fun ⟨apart, own⟩ => ⟨apart, own⟩⟩

namespace Fresh

variable {brings : Served σ ι ε ο → List α} {knows : σ → α → Prop} {history : List (Served σ ι ε ο)}
  {entry : Served σ ι ε ο} {later : List (Served σ ι ε ο)} {name : α}

theorem earlier {more : List (Served σ ι ε ο)} (fresh : Fresh brings knows (history ++ more)) :
    Fresh brings knows history :=
  ⟨(List.pairwise_append.mp fresh.apart).1, fun e mem => fresh.own e (List.mem_append_left _ mem)⟩

theorem last (fresh : Fresh brings knows (history ++ [entry])) :
    ∀ name ∈ brings entry, ¬ knows entry.before name :=
  fresh.own entry List.mem_concat_self

variable (fresh : Fresh brings knows (history ++ entry :: later))

include fresh in
/-- A name that was known at a call is not brought after it. -/
theorem unbrought (known : knows entry.before name) : ∀ e ∈ later, name ∉ brings e := by
  intro e mem brought
  have apart := (List.pairwise_append.mp fresh.apart).2.1
  exact List.rel_of_pairwise_cons apart mem name brought known

include fresh in
/-- A name that was known up to a call is not brought by the call nor after it. -/
theorem unbrought_from {old : Served σ ι ε ο} (mem : old ∈ history ++ [entry])
    (known : knows old.before name) : ∀ e ∈ entry :: later, name ∉ brings e := by
  intro e next brought
  rcases List.mem_append.mp mem with before | same
  · exact (List.pairwise_append.mp fresh.apart).2.2 old before e next name brought known
  · cases List.mem_singleton.mp same
    rcases List.mem_cons.mp next with rfl | after
    · exact fresh.own e (List.mem_append_right _ List.mem_cons_self) name brought known
    · exact fresh.unbrought known e after brought

variable {step : σ → ι → Except ε (ο × σ)} {guard : σ → ι → Prop} {init state : σ}

include fresh in
/-- A name that is known after a call is not brought after it. -/
theorem unbrought_after
    (run : Run step guard init (history ++ entry :: later) state) (known : knows entry.after name) :
    ∀ e ∈ later, name ∉ brings e := by
  cases later with
  | nil => exact fun e mem => absurd mem List.not_mem_nil
  | cons next rest =>
    have rest : Run step guard entry.after ([] ++ next :: rest) state := run.after_entry
    have same : next.before = entry.after :=
      rest.at_entry.1.keeps_reading id fun e mem => absurd mem List.not_mem_nil
    rw [List.append_cons] at fresh
    exact fresh.unbrought_from List.mem_concat_self (same ▸ known)

end Fresh
end Machine
