import Veritra.Model.Sync.Engine

/-! # Sync passes and the requests they answer

A run of the owner holds one pass at a time, and requests wait only during a run. A request that comes in
during a pass asks for another one, so it is answered by a pass that started after it, unless the engine is
disposed or loses its ownership. A disposed engine starts nothing, and `_active` is the run in progress.
-/

namespace Veritra.Sync

open Machine Engine

variable {e e' : Engine} {event : Event} {history : List (Served Engine Event Unit Unit)}

/-- What the owner does for its requests. Passes are counted by their starts, and the one that ends is the
last. -/
structure Serves (history : List (Served Engine Event Unit Unit)) (e : Engine) : Prop where
  alone : e.working ≤ 1
  fresh : ∀ entry ∈ history, ∀ waiter, (waiter, true) ∈ entry.after.completed →
    (waiter, true) ∈ entry.before.completed ∨
      entry.call = .passEnded true ∧ waiter.asked < entry.before.passes ∨ entry.before.disposed ∨
      entry.before.isOwner = false
  /-- All requests have completed when the passes have ended. -/
  ends : e.working = 0 → ∀ waiter ∈ e.requests, ∃ success, (waiter, success) ∈ e.completed
  quiet : ∀ later e', Run step unguarded e later e' →
    (∀ entry ∈ later, entry.call ≠ .request ∧ entry.call ≠ .markRequested) → e'.passes ≤ e.passes + 1
  drained : ∀ earlier call middle done later, history = earlier ++ call :: (middle ++ done :: later) →
    call.call = .cancelAndDrain → call.before.launching = false → done.call = .drained call.before.active →
    done.answer = .ok () → e.working = 0 ∧ e.passes = done.before.passes

/-- A run holds one pass, and requests wait only during a run, for a pass that starts after them. -/
structure Engine.Sound (e : Engine) : Prop where
  alone : e.working = if e.running then 1 else 0
  waits : ∀ w ∈ e.waiters, e.running ∧ w.asked ≤ e.passes ∧ (w.asked < e.passes ∨ e.requested ∨ e.disposed)
  all : ∀ w ∈ e.requests, w ∈ e.waiters ∨ ∃ success, (w, success) ∈ e.completed
  known : e.running → e.launching = false → e.active = some e.runs

/-- What an event does. -/
structure Effect (e : Engine) (event : Event) (e' : Engine) : Prop where
  sound : e'.Sound
  fresh : ∀ w, (w, true) ∈ e'.completed → (w, true) ∈ e.completed ∨
    event = .passEnded true ∧ w.asked < e.passes ∨ e.disposed ∨ e.isOwner = false
  quiet : event ≠ .request → event ≠ .markRequested → e'.passes + e'.requested.toNat ≤ e.passes + e.requested.toNat
  closed : e.disposed → e'.disposed ∧ e'.passes = e.passes ∧ (e'.running → e.running ∧ e'.runs = e.runs)

theorem mem_complete {w : Waiter} {success result : Bool} : (w, result) ∈ (e.complete success).completed ↔
      (w, result) ∈ e.completed ∨ w ∈ e.waiters ∧ success = result := by
  simp [complete]

theorem all_complete {success : Bool} (all : ∀ w ∈ e.requests, w ∈ e.waiters ∨ ∃ result, (w, result) ∈ e.completed) :
    ∀ w ∈ e.requests, w ∈ [] ∨ ∃ result, (w, result) ∈ (e.complete success).completed := by
  intro w mem
  rcases all w mem with waiting | ⟨result, done⟩
  · exact .inr ⟨success, mem_complete.mpr (.inr ⟨waiting, rfl⟩)⟩
  · exact .inr ⟨result, mem_complete.mpr (.inl done)⟩

theorem effect_of_step {answer : Unit} (sound : e.Sound) (ok : step e event = .ok (answer, e')) :
    Effect e event e' := by
  have ⟨alone, waits, all, known⟩ := sound
  cases event with
  | request =>
    simp only [step, request, loop, Except.ok.injEq, Prod.mk.injEq, true_and] at ok
    split_ifs at ok <;> cases ok
    · exact ⟨⟨alone, waits, by grind, known⟩, by grind, (absurd rfl ·), (⟨·, rfl, (⟨·, rfl⟩)⟩)⟩
    · exact ⟨⟨alone, by grind, by grind, known⟩, fun _ => .inl, (absurd rfl ·), by grind⟩
    · exact ⟨⟨by grind, by grind, by grind, nofun⟩, fun _ => .inl, (absurd rfl ·), by grind⟩
  | passEnded success =>
    simp only [step, passEnded] at ok
    split at ok
    · next busy =>
      split at ok
      · next again =>
        rw [loop, if_neg (by grind)] at ok
        cases ok
        exact ⟨⟨by grind, by grind, all, by grind⟩, fun _ => .inl, by grind, by grind⟩
      · next closed =>
        cases ok
        exact ⟨⟨by grind [complete], nofun, all_complete all, nofun⟩, by grind [mem_complete],
          fun _ _ => Nat.le_refl _, (⟨·, rfl, nofun⟩)⟩
    · cases ok
  | dispose | cancelAndDrain =>
    simp only [step, dispose, Except.ok.injEq, Prod.mk.injEq, true_and] at ok
    split_ifs at ok <;> cases ok
    · exact ⟨⟨alone, by grind, all, known⟩, fun _ => .inl, fun _ _ => Nat.le_add_right _ _,
        fun _ => ⟨rfl, rfl, (⟨·, rfl⟩)⟩⟩
    · exact ⟨⟨alone, nofun, all_complete all, known⟩, by grind [mem_complete], fun _ _ => Nat.le_add_right _ _,
        fun _ => ⟨rfl, rfl, (⟨·, rfl⟩)⟩⟩
  | launched =>
    simp only [step] at ok
    split_ifs at ok
    cases ok
    exact ⟨⟨alone, waits, all, fun _ _ => rfl⟩, fun _ => .inl, fun _ _ => Nat.le_refl _, (⟨·, rfl, (⟨·, rfl⟩)⟩)⟩
  | drained =>
    simp only [step] at ok
    split_ifs at ok
    cases ok
    exact ⟨sound, fun _ => .inl, fun _ _ => Nat.le_refl _, (⟨·, rfl, (⟨·, rfl⟩)⟩)⟩
  | setOwner =>
    cases ok
    exact ⟨⟨alone, waits, all, known⟩, fun _ => .inl, fun _ _ => Nat.le_refl _, (⟨·, rfl, (⟨·, rfl⟩)⟩)⟩
  | markRequested =>
    cases ok
    exact ⟨⟨by grind, by grind, by grind, by grind⟩, by grind, fun _ other => absurd rfl other, by grind⟩

/-- A disposed engine only ends the run that is in progress. -/
theorem disposed_since (run : Run step unguarded e history e') (sound : e.Sound) (disposed : e.disposed) :
    e'.Sound ∧ e'.disposed ∧ e'.passes = e.passes ∧ (e'.running → e.running ∧ e'.runs = e.runs) := by
  refine run.preserves (fun e' => e'.Sound ∧ e'.disposed ∧ e'.passes = e.passes ∧
    (e'.running → e.running ∧ e'.runs = e.runs)) ⟨sound, disposed, rfl, fun running => ⟨running, rfl⟩⟩ ?_
  rintro _ _ _ _ - ⟨sound, disposed, passes, runs⟩ ok
  have effect := effect_of_step sound ok
  grind [effect.sound, effect.closed]

/-- In every run the owner makes one pass at a time, answers each request by a pass that started after it,
and is still once it was drained. -/
theorem sync_owner_serves (run : Run step unguarded {} history e) : Serves history e := by
  have sound {history e} (run : Run step unguarded {} history e) : e.Sound :=
    run.preserves Sound ⟨rfl, nofun, nofun, nofun⟩ fun _ _ _ _ _ sound ok => (effect_of_step sound ok).sound
  refine ⟨by grind [(sound run).alone], fun entry mem waiter completed => ?_, fun idle waiter asked => ?_, ?_, ?_⟩
  · obtain ⟨_, reached, -⟩ := run.reaches_before mem
    rcases run.committed_or_refused mem with ⟨_, -, ok⟩ | ⟨_, -, same⟩
    · exact (effect_of_step (sound reached) ok).fresh waiter completed
    · exact .inl (same ▸ completed)
  · refine ((sound run).all waiter asked).resolve_left fun waiting => ?_
    rw [(sound run).alone, if_pos ((sound run).waits waiter waiting).1] at idle
    cases idle
  · intro later e' rest silent
    have bound := (rest.preserves_where (fun e' => e'.Sound ∧
      e'.passes + e'.requested.toNat ≤ e.passes + e.requested.toNat) silent ⟨sound run, Nat.le_refl _⟩
      fun _ _ ⟨sound, bound⟩ ok allowed =>
        have effect := effect_of_step sound ok
        ⟨effect.sound, Nat.le_trans (effect.quiet allowed.1 allowed.2) bound⟩).2
    have one := Bool.toNat_le e.requested
    omega
  · rintro earlier call middle done later rfl asked outside returned accepted
    have disposes : call.after = call.before.dispose := by
      rw [run.at_entry.2.2, asked, serve_of_ok rfl]
    have known := (sound run.at_entry.1).known
    obtain ⟨since, -, served⟩ := run.after_entry.at_entry
    obtain ⟨quiet, closed, -, same⟩ := disposed_since since (sound run.through_entry) (by grind [dispose, complete])
    -- The run that was in progress is the one that is awaited, so it has ended.
    have ended : done.after = done.before ∧ done.before.running = false := by
      rw [returned] at served
      have ok := ok_of_serve (served ▸ accepted)
      simp only [step] at ok
      split_ifs at ok with busy
      grind [dispose, complete]
    obtain ⟨sound, -, passes, running⟩ := disposed_since run.after_entry.after_entry (ended.1 ▸ quiet)
      (ended.1 ▸ closed)
    exact ⟨by grind [sound.alone], ended.1 ▸ passes⟩

/-- The second request comes in during the first pass, and both are answered by the second pass. -/
theorem sync_owner_serves_two :
    Serves (execHistory step {} [.request, .launched, .request, .passEnded true, .passEnded true])
      (exec step {} [.request, .launched, .request, .passEnded true, .passEnded true]) ∧
    (exec step {} [.request, .launched, .request, .passEnded true, .passEnded true]).completed =
      [(⟨0, 0⟩, true), (⟨1, 1⟩, true)] :=
  ⟨sync_owner_serves (run_exec _ _ _), rfl⟩

end Veritra.Sync
