import Mathlib

/-! # Programs that can be killed

A program is a sequence of operations on a state that outlives it. The process may be killed before any
operation, and an operation may fail without effect. A program is the list of all that may happen when it
runs: each ending with the state it leaves. The rules prove that no kill and no failure leaves a bad state:
a specification has a condition for the start, one for every cut and one for the result.
-/

namespace Machine

variable {σ ε : Type*} {α β : Type}

/-- How a run of a program ended. -/
inductive Ending (ε α : Type*)
  | killed
  | failed (reason : ε)
  | done (value : α)
  deriving DecidableEq, Repr

/-- The endings of a program that is started in a state, with the states they leave. -/
def Killable (σ ε α : Type*) := σ → List (Ending ε α × σ)

namespace Killable

def ret (value : α) : Killable σ ε α := fun state => [(.done value, state)]

/-- Go on after `x`, unless it was cut. -/
def andThen (x : Killable σ ε α) (next : α → Killable σ ε β) : Killable σ ε β := fun state =>
  (x state).flatMap fun
    | (.killed, cut) => [(.killed, cut)]
    | (.failed reason, cut) => [(.failed reason, cut)]
    | (.done value, after) => next value after

instance : Monad (Killable σ ε) where
  pure := ret
  bind := andThen

def fail (reason : ε) : Killable σ ε α := fun state => [(.failed reason, state)]

/-- One operation. `act` lists what it may do when it takes effect. -/
def operation (reason : ε) (act : σ → List (α × σ)) : Killable σ ε α := fun state =>
  (.killed, state) :: (.failed reason, state) :: (act state).map fun (value, after) => (.done value, after)

/-- Handle the failures of `x`. -/
def orElse (x : Killable σ ε α) (handle : ε → Killable σ ε α) : Killable σ ε α := fun state =>
  (x state).flatMap fun
    | (.killed, cut) => [(.killed, cut)]
    | (.failed reason, cut) => handle reason cut
    | (.done value, after) => [(.done value, after)]

/-- Run `x` for its effect only. -/
def ignore (x : Killable σ ε Unit) : Killable σ ε Unit := x.orElse fun _ => ret ()

/-- Run `x` if the condition holds. -/
def onlyIf (condition : Bool) (x : Killable σ ε Unit) : Killable σ ε Unit := if condition then x else ret ()

/-- Run `cleanup` after `x` unless the process was killed. It does not change how `x` ended. -/
def deferring (x : Killable σ ε α) (cleanup : Killable σ ε Unit) : Killable σ ε α := fun state =>
  (x state).flatMap fun
    | (.killed, cut) => [(.killed, cut)]
    | (ending, after) => (cleanup after).map fun
      | (.killed, cut) => (.killed, cut)
      | (_, left) => (ending, left)

/-- From a state with `P`, every cut leaves `I`, and a result `a` comes with `Q a`. -/
def Spec (P : σ → Prop) (x : Killable σ ε α) (I : σ → Prop) (Q : α → σ → Prop) : Prop :=
  ∀ state, P state → ∀ ending after, (ending, after) ∈ x state →
    match ending with
    | .killed | .failed _ => I after
    | .done value => Q value after

variable {P P' I I' : σ → Prop} {Q Q' : α → σ → Prop} {R : β → σ → Prop} {x : Killable σ ε α} {reason : ε}

theorem Spec.weaken (spec : Spec P x I Q) (start : ∀ s, P' s → P s) (cut : ∀ s, I s → I' s)
    (result : ∀ a s, Q a s → Q' a s) : Spec P' x I' Q' := by
  intro state holds ending after mem
  have left := spec state (start state holds) ending after mem
  cases ending with
  | killed => exact cut after left
  | failed reason => exact cut after left
  | done value => exact result value after left

theorem Spec.result (spec : Spec P x I Q) (result : ∀ a s, Q a s → Q' a s) : Spec P x I Q' :=
  spec.weaken (fun _ => id) (fun _ => id) result

theorem Spec.cutting (spec : Spec P x I Q) (cut : ∀ s, I s → I' s) : Spec P x I' Q :=
  spec.weaken (fun _ => id) cut fun _ _ => id

/-- A fact that does not depend on the state. -/
theorem Spec.given {fact : Prop} (spec : fact → Spec P x I Q) : Spec (fun s => P s ∧ fact) x I Q :=
  fun state ⟨holds, known⟩ => spec known state holds

theorem Spec.ret {value : α} (result : ∀ s, P s → Q value s) : Spec P (ret value : Killable σ ε α) I Q := by
  intro state holds ending after mem
  cases List.mem_singleton.mp mem
  exact result state holds

theorem Spec.fail (cut : ∀ s, P s → I s) : Spec P (fail reason : Killable σ ε α) I Q := by
  intro state holds ending after mem
  cases List.mem_singleton.mp mem
  exact cut state holds

theorem Spec.bind {next : α → Killable σ ε β} (first : Spec P x I Q) (rest : ∀ a, Spec (Q a) (next a) I R) :
    Spec P (x >>= next) I R := by
  intro state holds ending after mem
  obtain ⟨⟨ending', middle⟩, ran, went⟩ := List.mem_flatMap.mp mem
  have left := first state holds ending' middle ran
  cases ending' with
  | killed | failed reason =>
    cases List.mem_singleton.mp went
    exact left
  | done value => exact rest value middle left ending after went

theorem Spec.operation {act : σ → List (α × σ)} (cut : ∀ s, P s → I s)
    (effect : ∀ s, P s → ∀ value after, (value, after) ∈ act s → Q value after) :
    Spec P (operation reason act) I Q := by
  intro state holds ending after mem
  rcases List.mem_cons.mp mem with same | mem
  · cases same
    exact cut state holds
  rcases List.mem_cons.mp mem with same | mem
  · cases same
    exact cut state holds
  · obtain ⟨⟨value, left⟩, acted, same⟩ := List.mem_map.mp mem
    cases same
    exact effect state holds _ _ acted

/-- Failures go to the handler from the state they leave. -/
theorem Spec.orElse {handle : ε → Killable σ ε α} {J : σ → Prop} (first : Spec P x J Q)
    (handled : ∀ reason, Spec J (handle reason) I Q) (cut : ∀ s, J s → I s) :
    Spec P (x.orElse handle) I Q := by
  intro state holds ending after mem
  obtain ⟨⟨ending', middle⟩, ran, went⟩ := List.mem_flatMap.mp mem
  have left := first state holds ending' middle ran
  cases ending' with
  | killed =>
    cases List.mem_singleton.mp went
    exact cut _ left
  | failed reason => exact handled reason middle left ending after went
  | done value =>
    cases List.mem_singleton.mp went
    exact left

/-- An operation for its effect only that keeps a condition. -/
theorem Spec.ignore {x : Killable σ ε Unit} (keeps : Spec P x P fun _ => P) : Spec P (ignore x) P fun _ => P :=
  keeps.orElse (fun _ => .ret fun _ => id) fun _ => id

theorem Spec.onlyIf {condition : Bool} {x : Killable σ ε Unit} {Q : Unit → σ → Prop}
    (runs : condition = true → Spec P x I Q) (skips : condition = false → ∀ s, P s → Q () s) :
    Spec P (onlyIf condition x) I Q := by
  cases condition with
  | false => exact .ret (skips rfl)
  | true => exact runs rfl

/-- A cleanup that keeps what holds at the end. -/
theorem Spec.deferring {cleanup : Killable σ ε Unit} (body : Spec P x I Q) (cuts : Spec I cleanup I fun _ => I)
    (results : ∀ a, Spec (Q a) cleanup (Q a) fun _ => Q a) (cut : ∀ a s, Q a s → I s) :
    Spec P (x.deferring cleanup) I Q := by
  intro state holds ending after mem
  obtain ⟨⟨ending', middle⟩, ran, went⟩ := List.mem_flatMap.mp mem
  have left := body state holds ending' middle ran
  cases ending' with
  | killed =>
    cases List.mem_singleton.mp went
    exact left
  | failed reason =>
    obtain ⟨⟨last, state'⟩, cleaned, same⟩ := List.mem_map.mp went
    have kept := cuts middle left last state' cleaned
    cases last <;> cases same <;> exact kept
  | done value =>
    obtain ⟨⟨last, state'⟩, cleaned, same⟩ := List.mem_map.mp went
    have kept := results value middle left last state' cleaned
    cases last <;> cases same
    · exact cut value _ kept
    · exact kept
    · exact kept

/-- One condition all along. -/
theorem Spec.keeps_forM {xs : List β} {body : β → Killable σ ε Unit} (each : ∀ x ∈ xs, Spec P (body x) P fun _ => P) :
    Spec P (xs.forM body) P fun _ => P := by
  induction xs with
  | nil => exact .ret fun _ => id
  | cons head rest ih =>
    exact (each head List.mem_cons_self).bind fun _ => ih fun x mem => each x (List.mem_cons_of_mem _ mem)

/-- `x` was started any number of times and never came to its end. -/
inductive Retried (x : Killable σ ε α) (start : σ) : σ → Prop
  | first : Retried x start start
  | killed {cut cut' : σ} : Retried x start cut → (.killed, cut') ∈ x cut → Retried x start cut'
  | failed {cut cut' : σ} {reason : ε} :
      Retried x start cut → (.failed reason, cut') ∈ x cut → Retried x start cut'

/-- What every cut keeps holds after any number of attempts. -/
theorem Retried.keeps {start cut : σ} (retried : Retried x start cut) (spec : Spec P x P Q) (holds : P start) :
    P cut := by
  induction retried with
  | first => exact holds
  | killed _ ran ih | failed _ ran ih => exact spec _ ih _ _ ran

end Killable
end Machine
