import Mathlib

/-! # Runs of a transactional service

A service answers calls one after another. A call either commits, with an answer and a new state,
or is refused, and a refused call leaves the state as it was. Since every call is one transaction,
a run is the sequence of calls in the order in which they were served, and a statement about every
run is a statement about every interleaving of the callers. A history keeps the state before and
after each call, so that properties of single transitions can be stated over whole runs.
-/

namespace Machine

variable {σ ι ε ο : Type*} {step : σ → ι → Except ε (ο × σ)}

/-- One served call, with the states around it. -/
structure Served (σ ι ε ο : Type*) where
  before : σ
  call : ι
  answer : Except ε ο
  after : σ

theorem Served.exists_answer {entry : Served σ ι ε ο} (accepted : entry.answer.isOk) :
    ∃ answer, entry.answer = .ok answer := by
  cases outcome : entry.answer with
  | ok answer => exact ⟨answer, rfl⟩
  | error refusal =>
    rw [outcome] at accepted
    cases accepted

/-- Serve one call; a refusal keeps the state. -/
def serve (step : σ → ι → Except ε (ο × σ)) (state : σ) (call : ι) : Served σ ι ε ο :=
  match step state call with
  | .ok (answer, next) => ⟨state, call, .ok answer, next⟩
  | .error refusal => ⟨state, call, .error refusal, state⟩

section Serve

variable {step : σ → ι → Except ε (ο × σ)} {state next : σ} {call : ι} {answer : ο}

@[simp] theorem serve_before : (serve step state call).before = state := by
  unfold serve; split <;> rfl

@[simp] theorem serve_call : (serve step state call).call = call := by
  unfold serve; split <;> rfl

theorem serve_of_ok (ok : step state call = .ok (answer, next)) :
    serve step state call = ⟨state, call, .ok answer, next⟩ := by
  simp only [serve, ok]

theorem serve_of_error {refusal : ε} (refused : step state call = .error refusal) :
    serve step state call = ⟨state, call, .error refusal, state⟩ := by
  simp only [serve, refused]

/-- A served call with an answer was committed by the step function. -/
theorem ok_of_serve (answered : (serve step state call).answer = .ok answer) :
    step state call = .ok (answer, (serve step state call).after) := by
  unfold serve at answered ⊢
  split at answered
  · next ok => cases answered; simp only [ok]
  · cases answered

end Serve

/-- The states reachable from `init` by calls that meet `guard`, with the history of the calls. -/
inductive Run (step : σ → ι → Except ε (ο × σ)) (guard : σ → ι → Prop) (init : σ) :
    List (Served σ ι ε ο) → σ → Prop
  | start : Run step guard init [] init
  | call {history : List (Served σ ι ε ο)} {state : σ} (next : ι)
      (run : Run step guard init history state) (allowed : guard state next) :
      Run step guard init (history ++ [serve step state next]) (serve step state next).after

def unguarded (_ : σ) (_ : ι) : Prop := True

namespace Run

variable {step : σ → ι → Except ε (ο × σ)} {guard : σ → ι → Prop} {init state : σ}
  {history : List (Served σ ι ε ο)} {earlier later : List (Served σ ι ε ο)} {entry : Served σ ι ε ο}
  {α : Type*}

/-- A property of history and state that committed and refused calls keep holds of every run. -/
theorem preserves_history (Inv : List (Served σ ι ε ο) → σ → Prop)
    (run : Run step guard init history state) (start : Inv [] init)
    (commit : ∀ history state call answer next, Run step guard init history state →
      guard state call → Inv history state → step state call = .ok (answer, next) →
      Inv (history ++ [⟨state, call, .ok answer, next⟩]) next)
    (refuse : ∀ history state call refusal, Run step guard init history state →
      guard state call → Inv history state → step state call = .error refusal →
      Inv (history ++ [⟨state, call, .error refusal, state⟩]) state) : Inv history state := by
  induction run with
  | start => exact start
  | @call history state call run allowed ih =>
    cases outcome : step state call with
    | ok result =>
      rw [serve_of_ok outcome]
      exact commit history state call result.1 result.2 run allowed ih outcome
    | error refusal =>
      rw [serve_of_error outcome]
      exact refuse history state call refusal run allowed ih outcome

/-- A property that committed calls keep holds in every reachable state. -/
theorem preserves (Inv : σ → Prop) (run : Run step guard init history state) (start : Inv init)
    (keep : ∀ state call answer next, guard state call → Inv state →
      step state call = .ok (answer, next) → Inv next) : Inv state :=
  run.preserves_history (fun _ => Inv) start (fun _ state call answer next _ => keep state call answer next)
    fun _ _ _ _ _ _ holds _ => holds

/-- What holds at the start, and is kept by committed calls whose entries meet a condition, holds at the
end of a run whose entries all meet it. -/
theorem preserves_where (Inv : σ → Prop) {allowed : Served σ ι ε ο → Prop}
    (run : Run step guard init history state) (meets : ∀ entry ∈ history, allowed entry) (start : Inv init)
    (keep : ∀ {history state call answer next}, Run step guard init history state → guard state call →
      Inv state → step state call = .ok (answer, next) → allowed ⟨state, call, .ok answer, next⟩ →
      Inv next) : Inv state := by
  refine run.preserves_history (fun history state => (∀ entry ∈ history, allowed entry) → Inv state)
    (fun _ => start) ?_ ?_ meets
  · intro history state call answer next reached guarded holds ok meets
    refine keep reached guarded (holds fun entry mem => ?_) ok ?_
    · exact meets entry (List.mem_append_left _ mem)
    · exact meets _ List.mem_concat_self
  · intro history state call refusal _ _ holds _ meets
    exact holds fun entry mem => meets entry (List.mem_append_left _ mem)

/-- What does not hold at the start and holds at the end was brought about by an entry. -/
theorem exists_entry (Holds : σ → Prop) {brings : Served σ ι ε ο → Prop}
    (run : Run step guard init history state) (start : ¬ Holds init)
    (new : ∀ {history state call answer next}, Run step guard init history state →
      step state call = .ok (answer, next) → Holds next → Holds state ∨ brings ⟨state, call, .ok answer, next⟩)
    (holds : Holds state) : ∃ entry ∈ history, brings entry := by
  by_contra none
  refine run.preserves_where (¬ Holds ·) (fun entry mem hit => none ⟨entry, mem, hit⟩) start ?_ holds
  exact fun reached _ before ok quiet after => (new reached ok after).elim before quiet

section Entry

variable (run : Run step guard init (earlier ++ entry :: later) state)
include run

/-- A run is cut in two by each entry of its history. -/
private theorem cut_entry : (Run step guard init earlier entry.before ∧ guard entry.before entry.call ∧
      entry = serve step entry.before entry.call) ∧ Run step guard entry.after later state := by
  generalize whole : earlier ++ entry :: later = history at run
  induction run generalizing later with
  | start => simp at whole
  | @call history state call run allowed ih =>
    rcases List.eq_nil_or_concat later with rfl | ⟨rest, last, rfl⟩
    · obtain ⟨rfl, same⟩ := List.append_inj' whole rfl
      cases List.singleton_inj.mp same
      rw [serve_before, serve_call]
      exact ⟨⟨run, allowed, rfl⟩, .start⟩
    · rw [List.concat_eq_append, ← List.cons_append, ← List.append_assoc] at whole
      obtain ⟨same, last⟩ := List.append_inj' whole rfl
      rw [List.concat_eq_append, List.singleton_inj.mp last]
      exact ⟨(ih same).1, (ih same).2.call call allowed⟩

/-- A run passes through the state before each entry of its history. -/
theorem at_entry : Run step guard init earlier entry.before ∧ guard entry.before entry.call ∧
      entry = serve step entry.before entry.call := run.cut_entry.1

/-- A run passes through the state after each entry of its history. -/
theorem through_entry : Run step guard init (earlier ++ [entry]) entry.after := by
  obtain ⟨before, allowed, served⟩ := run.at_entry
  rw [served]
  exact before.call entry.call allowed

/-- A run goes on from the state after each entry of its history. -/
theorem after_entry : Run step guard entry.after later state := run.cut_entry.2

end Entry

/-- A reading of the state that no entry changes is the same at the end as at the start. -/
theorem keeps_reading (read : σ → α) (run : Run step guard init history state)
    (keep : ∀ entry ∈ history, read entry.after = read entry.before) : read state = read init := by
  induction run with
  | start => rfl
  | @call history state call run allowed ih =>
    have last := keep _ List.mem_concat_self
    rw [serve_before] at last
    exact last.trans (ih fun entry mem => keep entry (List.mem_append_left _ mem))

/-- What an entry left is what a later one finds, if no entry between them changes it. -/
theorem reading_between (read : σ → α) {middle : List (Served σ ι ε ο)} {first second : Served σ ι ε ο}
    (run : Run step guard init (earlier ++ first :: (middle ++ second :: later)) state)
    (keep : ∀ entry ∈ middle, read entry.after = read entry.before) :
    read second.before = read first.after :=
  run.after_entry.at_entry.1.keeps_reading read keep

section

variable (run : Run step guard init history state) (mem : entry ∈ history)

include run mem

/-- Every entry of a history was served in a state that a shorter run reaches. -/
theorem reaches_before :
    ∃ earlier, Run step guard init earlier entry.before ∧ guard entry.before entry.call ∧
      entry = serve step entry.before entry.call := by
  obtain ⟨earlier, later, rfl⟩ := List.append_of_mem mem
  exact ⟨earlier, run.at_entry⟩

/-- Every entry of a history was committed, or it was refused and kept the state. -/
theorem committed_or_refused :
    (∃ answer, entry.answer = .ok answer ∧ step entry.before entry.call = .ok (answer, entry.after)) ∨
      ∃ refusal, entry.answer = .error refusal ∧ entry.after = entry.before := by
  obtain ⟨_, -, -, served⟩ := run.reaches_before mem
  cases outcome : step entry.before entry.call with
  | ok result =>
    rw [serve_of_ok outcome] at served
    rw [served]
    exact .inl ⟨result.1, rfl, rfl⟩
  | error refusal =>
    rw [serve_of_error outcome] at served
    rw [served]
    exact .inr ⟨refusal, rfl, rfl⟩

end

/-- One committed call is a run. -/
theorem once {call : ι} {answer : ο} {next : σ} (ok : step init call = .ok (answer, next))
    (allowed : guard init call) : Run step guard init [⟨init, call, .ok answer, next⟩] next := by
  have run : Run step guard init _ _ := .call call .start allowed
  rwa [serve_of_ok ok] at run

/-- A run may go on where another one ended. -/
theorem trans {later : σ} {more : List (Served σ ι ε ο)} (run : Run step guard init history state)
    (rest : Run step guard state more later) : Run step guard init (history ++ more) later := by
  induction rest with
  | start => rwa [List.append_nil]
  | @call more middle next _ allowed ih =>
    rw [← List.append_assoc]
    exact ih.call next allowed

end Run

/-- Serve a list of calls in order. -/
def exec (step : σ → ι → Except ε (ο × σ)) (state : σ) (calls : List ι) : σ :=
  calls.foldl (fun state call => (serve step state call).after) state

/-- The history of serving a list of calls in order. -/
def execHistory (step : σ → ι → Except ε (ο × σ)) : σ → List ι → List (Served σ ι ε ο)
  | _, [] => []
  | state, call :: calls =>
    serve step state call :: execHistory step (serve step state call).after calls

theorem call_mem_of_mem_execHistory {state : σ} {calls : List ι}
    (mem : entry ∈ execHistory step state calls) : entry.call ∈ calls := by
  induction calls generalizing state with
  | nil => cases mem
  | cons call calls ih =>
    rcases List.mem_cons.mp mem with rfl | later
    · rw [serve_call]
      exact List.mem_cons_self
    · exact List.mem_cons_of_mem _ (ih later)

theorem execHistory_append (step : σ → ι → Except ε (ο × σ)) (state : σ) (calls more : List ι) :
    execHistory step state (calls ++ more) =
      execHistory step state calls ++ execHistory step (exec step state calls) more := by
  induction calls generalizing state with
  | nil => rfl
  | cons call calls ih =>
    rw [List.cons_append, execHistory, ih, execHistory, List.cons_append]
    rfl

theorem serve_mem_execHistory (step : σ → ι → Except ε (ο × σ)) (state : σ) (calls rest : List ι)
    (call : ι) :
    serve step (exec step state calls) call ∈ execHistory step state (calls ++ call :: rest) := by
  rw [execHistory_append]
  exact List.mem_append_right _ List.mem_cons_self

/-- Executing calls one by one, each meeting the guard where it is served, extends a run. -/
theorem Run.extend {guard : σ → ι → Prop} {init state : σ}
    {history : List (Served σ ι ε ο)} (run : Run step guard init history state) (calls : List ι)
    (allowed : ∀ entry ∈ execHistory step state calls, guard entry.before entry.call) :
    Run step guard init (history ++ execHistory step state calls) (exec step state calls) := by
  induction calls generalizing history state with
  | nil => simpa only [execHistory, exec, List.append_nil, List.foldl_nil] using run
  | cons call calls ih =>
    have first := allowed _ List.mem_cons_self
    rw [serve_before, serve_call] at first
    have rest := ih (run.call call first) fun entry mem => allowed entry (.tail _ mem)
    rw [List.append_assoc, List.singleton_append] at rest
    exact rest

/-- Executing calls one by one from the start is a run. -/
theorem run_exec (step : σ → ι → Except ε (ο × σ)) (init : σ) (calls : List ι) :
    Run step unguarded init (execHistory step init calls) (exec step init calls) :=
  Run.start.extend calls fun _ _ => trivial

end Machine
