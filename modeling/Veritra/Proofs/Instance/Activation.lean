import Veritra.Proofs.Instance.RestoreSteps

/-! # From the staged copies to a recorded restore

The activation moves the originals aside one after the other, then brings in the staged copies. Wherever it is
cut, the condition of the rollback holds. Only when all parts are restored does the journal record it.
-/

namespace Veritra.Instance

open Machine Killable

namespace Plan

variable (plan : Plan)

/-- The verified copies wait in staging. -/
def Waiting (placed : List Part) (disk : Disk) : Prop :=
  ∀ part, plan.brings part → part ∉ placed → disk.files.at? (.staged (plan.staging part) part) = some (.restored part)

/-- The originals in `aside` were moved aside, and the copies in `placed` were brought in. -/
structure Forward (aside placed : List Part) (disk : Disk) : Prop extends plan.Activating disk where
  kept : ∀ part, part ∉ aside → plan.Original disk part
  moved : ∀ part ∈ aside, disk.rollback part = plan.home part ∧
    disk.live part = if part ∈ placed then some (.restored part) else none
  waiting : plan.Waiting placed disk

/-- The part is as the backup has it, with the original aside. The engine may have made companions for the
restored database. -/
def Restored (disk : Disk) (part : Part) : Prop :=
  disk.rollback part = plan.home part ∧
    (disk.live part = some (.restored part) ∨ plan.brings part = false ∧ disk.live part = none)

def AllRestored (disk : Disk) : Prop :=
  ∀ part, if plan.replaces part then plan.Restored disk part else plan.Original disk part

/-- Everything is in its place, but the journal does not say so yet. -/
def Placed (disk : Disk) : Prop := plan.Open disk ∧ plan.AllRestored disk

/-- No restore is under way, and none was recorded as finished. -/
structure Fresh (disk : Disk) : Prop where
  journal : disk.journal? = none
  unrecorded : plan.journal .activated ∉ disk.journals
  all : plan.AllOriginal disk

/-- The journal says that the restore has finished. -/
structure Recorded (disk : Disk) : Prop where
  journal : disk.journal? = some (.journal (plan.journal .activated))
  recorded : plan.journal .activated ∈ disk.journals
  all : plan.AllRestored disk

/-- The restore has finished, and its journal is gone. -/
structure Finished (disk : Disk) : Prop where
  journal : disk.journal? = none
  recorded : plan.journal .activated ∈ disk.journals
  all : plan.AllRestored disk

/-- What a kill or a failure may leave. -/
def Sound (disk : Disk) : Prop := plan.Fresh disk ∨ plan.Open disk ∨ plan.Recorded disk ∨ plan.Finished disk

def replaced : List Part := [.database, .wal, .shm, .blobs].filter plan.replaces

def brought : List Part := [.database, .blobs].filter plan.brings

variable {plan} {aside aside' placed placed' : List Part} {part : Part} {disk disk' : Disk}

theorem mem_replaced : part ∈ plan.replaced ↔ plan.replaces part := by
  cases part <;> simp [replaced]

theorem mem_brought : part ∈ plan.brought ↔ plan.brings part := by
  cases part <;> simp [brought, brings]

theorem Forward.congr (forward : plan.Forward aside placed disk) (moved : ∀ part, part ∈ aside ↔ part ∈ aside')
    (brought : ∀ part, part ∈ placed ↔ part ∈ placed') : plan.Forward aside' placed' disk := by
  refine ⟨forward.toActivating, fun part missing => forward.kept part ((moved part).not.mpr missing),
    fun part mem => ?_, fun part brings missing => forward.waiting part brings ((brought part).not.mpr missing)⟩
  simp only [← brought]
  exact forward.moved part ((moved part).mpr mem)

theorem Forward.open (forward : plan.Forward aside placed disk) (replaced : ∀ part ∈ aside, plan.replaces part) :
    plan.Open disk := by
  refine ⟨forward.toActivating, fun part => ?_⟩
  by_cases mem : part ∈ aside
  · obtain ⟨rollback, live⟩ := forward.moved part mem
    refine .inr ⟨List.not_mem_nil, replaced part mem, rollback, ?_⟩
    rw [live]
    split
    · exact .inr rfl
    · exact .inl rfl
  · exact .inl (forward.kept part mem)

/-- With every original aside and every copy in its place, the instance is restored. -/
theorem Forward.allPlaced (forward : plan.Forward plan.replaced plan.brought disk) : plan.Placed disk := by
  refine ⟨forward.open fun part => mem_replaced.mp, fun part => ?_⟩
  split
  · next replaces =>
    obtain ⟨rollback, live⟩ := forward.moved part (mem_replaced.mpr replaces)
    refine ⟨rollback, ?_⟩
    rw [live]
    split
    · exact .inl rfl
    · next missing => exact .inr ⟨Bool.eq_false_iff.mpr fun brings => missing (mem_brought.mpr brings), rfl⟩
  · next stays => exact forward.kept part fun mem => stays (mem_replaced.mp mem)

theorem AllOriginal.open (all : plan.AllOriginal disk) (activating : plan.Activating disk) : plan.Open disk :=
  ⟨activating, fun part => .inl (all part)⟩

theorem allOriginal_stable : StableOn Path.durable plan.AllOriginal := fun disk disk' agrees all part =>
  original_stable disk disk' agrees (all part)

theorem AllRestored.frame (all : plan.AllRestored disk) (live : ∀ part, disk'.live part = disk.live part)
    (rollback : ∀ part, disk'.rollback part = disk.rollback part) : plan.AllRestored disk' := by
  intro part
  unfold Restored Original
  rw [live, rollback]
  exact all part

theorem allRestored_stable : StableOn Path.durable plan.AllRestored := fun _ _ agrees all =>
  all.frame (fun part => agrees.files (.live part) rfl) fun part => agrees.files (.rollback part) rfl

theorem fresh_stable : StableOn Path.durable plan.Fresh := fun disk disk' agrees fresh =>
  ⟨(agrees.files .journal rfl).trans fresh.journal, agrees.journals ▸ fresh.unrecorded,
    allOriginal_stable disk disk' agrees fresh.all⟩

theorem recorded_stable : StableOn Path.durable plan.Recorded := fun disk disk' agrees recorded =>
  ⟨(agrees.files .journal rfl).trans recorded.journal, agrees.journals ▸ recorded.recorded,
    allRestored_stable disk disk' agrees recorded.all⟩

theorem finished_stable : StableOn Path.durable plan.Finished := fun disk disk' agrees finished =>
  ⟨(agrees.files .journal rfl).trans finished.journal, agrees.journals ▸ finished.recorded,
    allRestored_stable disk disk' agrees finished.all⟩

theorem sound_stable : StableOn Path.durable plan.Sound := fun disk disk' agrees sound =>
  sound.imp (fresh_stable disk disk' agrees) <| Or.imp (settled_stable disk disk' agrees) <|
    Or.imp (recorded_stable disk disk' agrees) (finished_stable disk disk' agrees)

theorem waiting_stable : StableOn Path.prepared (plan.Waiting placed) :=
  fun _ _ agrees waiting part brought missing => (agrees.files (.staged _ _) rfl).trans (waiting part brought missing)

end Plan

section Activation

variable {plan : Plan} {aside placed : List Part} {part : Part} {reason : String}

/-- One original goes aside; without an original there is nothing to move. -/
theorem spec_preserve (replaced : ∀ part ∈ aside, plan.replaces part) (new : part ∉ aside) (empty : part ∉ placed)
    (here : plan.replaces part) :
    Spec (plan.Forward aside placed) (preserve (plan.journal .activating) reason part) plan.Open
      fun _ => plan.Forward (part :: aside) placed := by
  unfold preserve
  rw [Plan.lists_journal, here, Bool.true_and]
  refine .onlyIf (fun listed => spec_rename (fun _ forward => forward.open replaced)
    fun disk files forward renamed => ?_) fun unlisted disk forward => ?_
  · have others : ∀ path, path ≠ .live part → path ≠ .rollback part → files.at? path = disk.files.at? path := by
      intro path live rollback
      rw [Files.at?_rename renamed, if_neg (Ne.symm rollback), if_neg (Ne.symm live)]
    refine ⟨⟨(others .journal nofun nofun).trans forward.journal, forward.unrecorded⟩, fun other missing => ?_,
      fun other mem => ?_, fun other brought missing => ?_⟩
    · have apart : other ≠ part := fun same => missing (same ▸ List.mem_cons_self)
      have original := forward.kept other fun mem => missing (List.mem_cons_of_mem _ mem)
      exact ⟨(others (.live other) (fun same => apart (Path.live.inj same)) nofun).trans original.1,
        (others (.rollback other) nofun fun same => apart (Path.rollback.inj same)).trans original.2⟩
    · by_cases same : other = part
      · subst same
        rw [if_neg empty]
        exact ⟨(Files.at?_rename renamed).trans ((if_pos rfl).trans (forward.kept other new).1),
          (Files.at?_rename renamed).trans ((if_neg nofun).trans (if_pos rfl))⟩
      · obtain ⟨rollback, live⟩ := forward.moved other ((List.mem_cons.mp mem).resolve_left same)
        exact ⟨(others (.rollback other) nofun fun path => same (Path.rollback.inj path)).trans rollback,
          (others (.live other) (fun path => same (Path.live.inj path)) nofun).trans live⟩
    · exact (others (.staged _ other) nofun nofun).trans (forward.waiting other brought missing)
  · have home : plan.home part = none := if_neg (Bool.eq_false_iff.mp unlisted)
    have original := forward.kept part new
    refine ⟨forward.toActivating, fun other missing => forward.kept other fun mem =>
      missing (List.mem_cons_of_mem _ mem), fun other mem => ?_, forward.waiting⟩
    rcases List.mem_cons.mp mem with rfl | mem
    · rw [if_neg empty]
      exact ⟨original.2.trans home.symm, original.1.trans home⟩
    · exact forward.moved other mem

/-- A staged copy comes to its place. -/
theorem spec_place (replaced : ∀ part ∈ aside, plan.replaces part) (moved : part ∈ aside) (new : part ∉ placed)
    (brought : plan.brings part) :
    Spec (plan.Forward aside placed) (rename reason (.staged (plan.staging part) part) (.live part)) plan.Open
      fun _ => plan.Forward aside (part :: placed) := by
  refine spec_rename (fun _ forward => forward.open replaced) fun disk files forward renamed => ?_
  have others : ∀ path, path ≠ .live part → path ≠ .staged (plan.staging part) part →
      files.at? path = disk.files.at? path := by
    intro path live staged
    rw [Files.at?_rename renamed, if_neg (Ne.symm live), if_neg (Ne.symm staged)]
  refine ⟨⟨(others .journal nofun nofun).trans forward.journal, forward.unrecorded⟩, fun other missing => ?_,
    fun other mem => ?_, fun other here missing => ?_⟩
  · have apart : other ≠ part := fun same => missing (same ▸ moved)
    have original := forward.kept other missing
    exact ⟨(others (.live other) (fun same => apart (Path.live.inj same)) nofun).trans original.1,
      (others (.rollback other) nofun nofun).trans original.2⟩
  · obtain ⟨rollback, live⟩ := forward.moved other mem
    refine ⟨(others (.rollback other) nofun nofun).trans rollback, ?_⟩
    by_cases same : other = part
    · subst same
      rw [if_pos List.mem_cons_self]
      exact (Files.at?_rename renamed).trans ((if_pos rfl).trans (forward.waiting other brought new))
    · refine (others (.live other) (fun path => same (Path.live.inj path)) nofun).trans (live.trans ?_)
      simp only [List.mem_cons, same, false_or]
  · have apart : other ≠ part := fun same => missing (same ▸ List.mem_cons_self)
    refine (others (.staged _ other) nofun fun path => apart (Path.staged.inj path).2).trans ?_
    exact forward.waiting other here fun mem => missing (List.mem_cons_of_mem _ mem)

/-- The engine may make a companion beside the restored database. -/
theorem placed_put_companion {disk : Disk} (holds : plan.Placed disk) (companion : part ∈ [.wal, .shm]) :
    plan.Placed { disk with files := disk.files.put (.live part) (.restored part) } := by
  have replaced : plan.replaces part := by
    cases part with
    | blobs => exact absurd companion (by decide)
    | _ => rfl
  have here : (disk.files.put (.live part) (.restored part)).at? (.live part) = some (.restored part) :=
    Files.at?_put.trans (if_pos rfl)
  have others : ∀ path, path ≠ .live part →
      (disk.files.put (.live part) (.restored part)).at? path = disk.files.at? path := by
    intro path apart
    rw [Files.at?_put, if_neg (Ne.symm apart)]
  have rollback : (disk.files.put (.live part) (.restored part)).at? (.rollback part) = plan.home part := by
    have before := holds.2 part
    rw [replaced, if_pos rfl] at before
    exact (others (.rollback part) nofun).trans before.1
  constructor
  · have rest : plan.Rest [] part { disk with files := disk.files.put (.live part) (.restored part) } :=
      (holds.1.rest part).frame (fun path _ apart _ => others path apart) rfl
    exact rest.open replaced ⟨rollback, .inr here⟩
  · intro other
    by_cases same : other = part
    · rw [same, replaced, if_pos rfl]
      exact ⟨rollback, .inl here⟩
    · unfold Plan.Restored Plan.Original Disk.live Disk.rollback
      rw [others _ fun path => same (Path.live.inj path), others (.rollback other) nofun]
      exact holds.2 other

theorem placed_put_companions {left : List Part} {disk : Disk} (holds : plan.Placed disk)
    (companions : ∀ part ∈ left, part ∈ [.wal, .shm]) :
    plan.Placed
      { disk with files := left.foldl (fun files part => files.put (.live part) (.restored part)) disk.files } := by
  induction left generalizing disk with
  | nil => exact holds
  | cons part rest ih =>
    have first := placed_put_companion holds (companions part List.mem_cons_self)
    exact ih first fun other mem => companions other (List.mem_cons_of_mem _ mem)

theorem spec_validate : Spec plan.Placed validate plan.Open fun _ => plan.Placed := by
  intro disk holds ending after mem
  obtain ⟨left, listed, checked⟩ := List.mem_flatMap.mp mem
  have companions : ∀ left ∈ [[], [Part.wal], [.shm], [.wal, .shm]], ∀ part ∈ left, part ∈ [Part.wal, .shm] := by
    decide
  have made := placed_put_companions holds (companions left listed)
  have checks : Spec plan.Placed (check "restored database validation failed") plan.Open fun _ => plan.Placed :=
    spec_check fun _ placed => placed.1
  exact checks _ made ending after checked

/-- The database and its companions go aside with every backup. -/
theorem replaces_of_mem (apart : .blobs ∉ aside) : ∀ part ∈ aside, plan.replaces part := by
  intro part mem
  cases part with
  | blobs => exact absurd mem apart
  | _ => rfl

theorem spec_preserveCompanions : Spec (plan.Forward [.database] [])
      (eitherOrder (preserve (plan.journal .activating) reason .wal) (preserve (plan.journal .activating) reason .shm))
      plan.Open fun _ => plan.Forward [.shm, .wal, .database] [] := by
  refine spec_eitherOrder ?_ ?_
  · exact (spec_preserve (replaces_of_mem (by decide)) (by decide) (by decide) rfl).bind fun _ =>
      spec_preserve (replaces_of_mem (by decide)) (by decide) (by decide) rfl
  · refine Spec.result ((spec_preserve (replaces_of_mem (by decide)) (by decide) (by decide) rfl).bind fun _ =>
      spec_preserve (replaces_of_mem (by decide)) (by decide) (by decide) rfl)
      fun _ _ forward => forward.congr (fun part => ?_) fun _ => .rfl
    cases part <;> decide

theorem spec_preserveBlobs :
    Spec (plan.Forward [.shm, .wal, .database] []) (preserve (plan.journal .activating) reason .blobs) plan.Open
      fun _ => plan.Forward plan.replaced [] := by
  cases included : plan.withBlobs with
  | true =>
    refine Spec.result (spec_preserve (replaces_of_mem (by decide)) (by decide) (by decide) included)
      fun _ _ forward => forward.congr (fun part => ?_) fun _ => .rfl
    rw [Plan.mem_replaced]
    cases part <;> simp [included, Plan.replaces]
  | false =>
    unfold preserve
    rw [Plan.lists_journal, show plan.replaces .blobs = false from included, Bool.false_and]
    refine .ret fun _ forward => forward.congr (fun part => ?_) fun _ => .rfl
    rw [Plan.mem_replaced]
    cases part <;> simp [included, Plan.replaces]

/-- The copies come in: the database, and the blobs if the backup has them. -/
theorem spec_placeBlobs : Spec (plan.Forward plan.replaced [.database])
      (.onlyIf plan.withBlobs (rename reason (.staged (plan.staging .blobs) .blobs) (.live .blobs))) plan.Open
      fun _ => plan.Forward plan.replaced plan.brought := by
  refine .onlyIf (fun included => ?_) fun skipped _ forward => ?_
  · refine Spec.result (spec_place (fun _ => Plan.mem_replaced.mp) (Plan.mem_replaced.mpr included) (by decide) included)
      fun _ _ forward => forward.congr (fun _ => .rfl) fun part => ?_
    rw [Plan.mem_brought]
    cases part <;> simp [included, Plan.brings]
  · refine forward.congr (fun _ => .rfl) fun part => ?_
    rw [Plan.mem_brought]
    cases part <;> simp [skipped, Plan.brings]

/-- An activation that finishes has restored every part. Wherever it is cut, it can be rolled back. -/
theorem spec_activate :
    Spec (plan.Forward [] []) (activate (plan.journal .activating)) plan.Open fun _ => plan.Placed := by
  have placed : Spec (plan.Forward plan.replaced [])
      (rename "activate staged backup" (.staged .beside .database) (.live .database)) plan.Open
      fun _ => plan.Forward plan.replaced [.database] :=
    spec_place (fun _ => Plan.mem_replaced.mp) (Plan.mem_replaced.mpr rfl) List.not_mem_nil rfl
  have opens : ∀ placed disk, plan.Forward plan.replaced placed disk → plan.Open disk :=
    fun _ _ forward => forward.open fun _ => Plan.mem_replaced.mp
  refine (spec_preserve (replaces_of_mem List.not_mem_nil) List.not_mem_nil List.not_mem_nil rfl).bind fun _ => ?_
  refine spec_preserveCompanions.bind fun _ => spec_preserveBlobs.bind fun _ => ?_
  refine (spec_check (opens [])).bind fun _ => placed.bind fun _ => spec_placeBlobs.bind fun _ => ?_
  refine (spec_check (opens _)).bind fun _ => ?_
  exact spec_validate.weaken (fun _ forward => forward.allPlaced) (fun _ => id) fun _ _ => id

end Activation

section Journalling

variable {plan : Plan} {reason : String}

/-- A journal comes in whole: a cut leaves the state before or the one with the new journal. -/
theorem spec_writeJournal {P Q : Disk → Prop} {journal : Journal} (stable : StableOn Path.prepared P)
    (recorded : ∀ disk disk', P disk →
      (∀ path, path.prepared → path ≠ .journal → disk'.files.at? path = disk.files.at? path) →
      disk'.journal? = some (.journal journal) → disk'.journals = journal :: disk.journals → Q disk') :
    Spec P (writeJournal reason journal) (fun disk => P disk ∨ Q disk) fun _ => Q := by
  have replaces : Spec P (replaceJournal reason journal) P fun _ => Q := by
    refine Spec.bind (Q := fun _ disk => P disk ∧ disk.files.at? .journalTmp = some (.journal journal))
      (spec_write (fun _ => id) fun disk holds =>
        ⟨stable disk _ (agrees_put rfl) holds, Files.at?_put.trans (if_pos rfl)⟩) fun _ => ?_
    refine spec_rename (fun _ holds => holds.1) fun disk files ⟨holds, written⟩ renamed =>
      recorded disk _ holds (fun path prepared apart => ?_) ?_ ?_
    · rw [Files.at?_rename renamed, if_neg (Ne.symm apart), if_neg]
      rintro rfl
      cases prepared
    · exact (Files.at?_rename renamed).trans ((if_pos rfl).trans written)
    · unfold Disk.journalsAfter
      rw [written]
  refine Spec.bind (Q := fun _ => P) ?_ fun _ => Spec.bind (Q := fun _ => Q) ?_ fun _ => spec_check fun _ => .inr
  · exact (keeps_remove stable rfl).ignore.cutting fun _ => .inl
  · refine replaces.orElse (fun _ => ?_) fun _ => .inl
    refine Spec.bind (Q := fun _ => P) ?_ fun _ => .fail fun _ => .inl
    exact (keeps_remove stable rfl).ignore.cutting fun _ => .inl

theorem spec_startJournal :
    Spec (fun disk => plan.Fresh disk ∧ plan.Waiting [] disk) (writeJournal reason (plan.journal .activating))
      plan.Sound fun _ => plan.Forward [] [] := by
  have stable : StableOn Path.prepared fun disk => plan.Fresh disk ∧ plan.Waiting [] disk :=
    fun disk disk' agrees ⟨fresh, waiting⟩ =>
      ⟨Plan.fresh_stable.prepared disk disk' agrees fresh, Plan.waiting_stable disk disk' agrees waiting⟩
  refine (spec_writeJournal stable fun disk disk' holds others journal journals => ?_).cutting ?_
  · obtain ⟨fresh, waiting⟩ := holds
    refine ⟨⟨journal, ?_⟩, fun part _ => ?_, nofun, fun part brought missing => ?_⟩
    · rw [journals]
      exact fun mem => (List.mem_cons.mp mem).elim nofun fresh.unrecorded
    · have original := fresh.all part
      exact ⟨(others (.live part) rfl nofun).trans original.1, (others (.rollback part) rfl nofun).trans original.2⟩
    · exact (others (.staged _ part) rfl nofun).trans (waiting part brought missing)
  · rintro disk (⟨fresh, _⟩ | forward)
    · exact .inl fresh
    · exact .inr (.inl (forward.open nofun))

/-- The second one records that it has finished. -/
theorem spec_recordJournal :
    Spec plan.Placed (writeJournal reason (plan.journal .activated)) plan.Sound fun _ => plan.Recorded := by
  have stable : StableOn Path.durable plan.Placed := fun disk disk' agrees ⟨isOpen, all⟩ =>
    ⟨Plan.settled_stable disk disk' agrees isOpen, Plan.allRestored_stable disk disk' agrees all⟩
  refine (spec_writeJournal stable.prepared fun disk disk' placed others journal journals => ?_).cutting ?_
  · exact ⟨journal, journals ▸ List.mem_cons_self, placed.2.frame (fun part => others (.live part) rfl nofun)
      fun part => others (.rollback part) rfl nofun⟩
  · rintro disk (placed | recorded)
    · exact .inr (.inl placed.1)
    · exact .inr (.inr (.inl recorded))

/-- Without the journal, what it stood for remains. -/
theorem original_without_journal {disk : Disk} (unrecorded : plan.journal .activated ∉ disk.journals)
    (all : plan.AllOriginal disk) : plan.Fresh { disk with files := disk.files.remove .journal } := by
  refine ⟨Files.at?_remove.trans (if_pos rfl), unrecorded, fun part => ?_⟩
  exact ⟨(Files.at?_remove.trans (if_neg nofun)).trans (all part).1,
    (Files.at?_remove.trans (if_neg nofun)).trans (all part).2⟩

theorem restored_without_journal {disk : Disk} (recorded : plan.Recorded disk) :
    plan.Finished { disk with files := disk.files.remove .journal } := by
  have others : ∀ path, path ≠ .journal → (disk.files.remove .journal).at? path = disk.files.at? path :=
    fun path apart => Files.at?_remove.trans (if_neg apart.symm)
  exact ⟨Files.at?_remove.trans (if_pos rfl), recorded.recorded,
    recorded.all.frame (fun _ => others _ nofun) fun _ => others _ nofun⟩

end Journalling

section Commands

variable {plan : Plan} {parts : List Part}

/-- Journal, activate, record. Every cut leaves a state that the next command can settle. -/
theorem spec_switch :
    Spec (fun disk => plan.Fresh disk ∧ plan.Waiting [] disk) (switch (plan.journal .activating)) plan.Sound
      fun _ => plan.Finished := by
  have opens : ∀ disk, plan.Open disk → plan.Sound disk := fun _ => .inr ∘ .inl
  -- After a rollback the journal may be there or not.
  have cleared : Spec (fun disk => plan.Activating disk ∧ plan.AllOriginal disk ∨ plan.Fresh disk)
      (do remove "remove journal" .journal; check "sync")
      (fun disk => plan.Activating disk ∧ plan.AllOriginal disk ∨ plan.Fresh disk)
      fun _ disk => plan.Activating disk ∧ plan.AllOriginal disk ∨ plan.Fresh disk := by
    refine Spec.bind (spec_remove (fun _ => id) ?_) fun _ => spec_check fun _ => id
    rintro disk (⟨activating, all⟩ | fresh)
    · exact .inr (original_without_journal activating.unrecorded all)
    · exact .inr (original_without_journal fresh.unrecorded fresh.all)
  refine spec_startJournal.bind fun _ => Spec.bind (Q := fun _ => plan.Placed) ?_ fun _ => ?_
  · refine spec_activate.orElse (fun _ => ?_) opens
    refine Spec.bind (spec_rollBackRestore.weaken (fun _ => id) opens fun _ _ holds => .inl holds)
      fun _ => Spec.bind (cleared.ignore.cutting ?_) fun _ => .fail ?_
    all_goals
      rintro disk (⟨activating, all⟩ | fresh)
      · exact opens disk (all.open activating)
      · exact .inl fresh
  · refine spec_recordJournal.bind fun _ => Spec.bind (Q := fun _ => plan.Finished) ?_ fun _ => ?_
    · exact spec_remove (fun _ recorded => .inr (.inr (.inl recorded))) fun _ => restored_without_journal
    · exact (spec_check fun _ => id).ignore.cutting fun _ finished => .inr (.inr (.inr finished))

/-- An original is listed exactly when it is there. -/
theorem Plan.Original.present {disk : Disk} {part : Part} (original : plan.Original disk part) :
    disk.files.present (.live part) = plan.original part := by
  rw [Files.present, show disk.files.at? (.live part) = plan.home part from original.1, Plan.home]
  cases plan.original part <;> rfl

theorem spec_listOriginals {P : Disk → Prop} (all : ∀ disk, P disk → plan.AllOriginal disk) :
    Spec P (listOriginals plan.withBlobs plan.separateBlobs) P
      fun journal disk => P disk ∧ journal = plan.journal .activating := by
  have listed : ∀ {reason} (part : Part), Spec P (lstat reason (.live part)) P
      fun present disk => P disk ∧ present = plan.original part := fun part =>
    (spec_lstat fun _ => id).result
      fun _ disk ⟨holds, present⟩ => ⟨holds, present.trans (all disk holds part).present⟩
  have blobs : Spec P (lstatBlobs plan.withBlobs) P
      fun present disk => P disk ∧ present = (plan.withBlobs && plan.original .blobs) := by
    cases plan.withBlobs with
    | false => exact .ret fun _ holds => ⟨holds, rfl⟩
    | true => exact listed .blobs
  refine (listed .database).bind fun _ => .given ?_
  rintro rfl
  refine (listed .wal).bind fun _ => .given ?_
  rintro rfl
  refine (listed .shm).bind fun _ => .given ?_
  rintro rfl
  refine blobs.bind fun _ => .given ?_
  rintro rfl
  exact .ret fun _ holds => ⟨holds, rfl⟩

/-- The instance is as it was, and these copies are staged. -/
def Plan.Copied (plan : Plan) (parts : List Part) (disk : Disk) : Prop :=
  plan.Fresh disk ∧ ∀ part ∈ parts, disk.files.at? (.staged (plan.staging part) part) = some (.restored part)

theorem Plan.copied_stable : StableOn Path.prepared (plan.Copied parts) :=
  fun disk disk' agrees ⟨fresh, copied⟩ => ⟨Plan.fresh_stable.prepared disk disk' agrees fresh,
    fun part mem => (agrees.files (.staged _ part) rfl).trans (copied part mem)⟩

theorem spec_copy {reason : String} (part : Part) :
    Spec (plan.Copied parts) (write reason (.staged (plan.staging part) part) (.restored part)) plan.Fresh
      fun _ => plan.Copied (part :: parts) := by
  refine spec_write (fun _ holds => holds.1) fun disk ⟨fresh, copied⟩ =>
    ⟨Plan.fresh_stable disk _ (agrees_put rfl) fresh, fun other mem => ?_⟩
  by_cases same : other = part
  · subst same
    exact Files.at?_put.trans (if_pos rfl)
  · refine (Files.at?_put.trans (if_neg fun path => same (Path.staged.inj path).2.symm)).trans ?_
    exact copied other ((List.mem_cons.mp mem).resolve_left same)

theorem spec_copyBackup : Spec plan.Fresh (copyBackup plan.withBlobs plan.separateBlobs) plan.Fresh
    fun _ disk => plan.Fresh disk ∧ plan.Waiting [] disk := by
  have fresh : ∀ parts disk, plan.Copied parts disk → plan.Fresh disk := fun _ _ copied => copied.1
  have nothing : ∀ disk, plan.Fresh disk → plan.Copied [] disk :=
    fun _ holds => ⟨holds, fun _ mem => absurd mem List.not_mem_nil⟩
  refine Spec.bind ((spec_copy .database).weaken nothing (fun _ => id) fun _ _ => id) fun _ => ?_
  refine (spec_check (fresh _)).bind fun _ => ?_
  refine Spec.bind (Q := fun _ => plan.Copied plan.brought) (.onlyIf (fun included => ?_) fun skipped disk copied => ?_)
    fun _ => ?_
  · refine Spec.bind (Q := fun _ => plan.Copied [.database]) (.onlyIf (fun _ => ?_) fun _ _ => id) fun _ => ?_
    · exact (keeps_makeStagingDir Plan.copied_stable rfl).cutting (fresh _)
    refine (spec_copy .blobs).bind fun _ => (spec_check (fresh _)).result
      fun _ disk copied => ⟨copied.1, fun part mem => copied.2 part ?_⟩
    have brings := Plan.mem_brought.mp mem
    cases part <;> first | decide | cases brings
  · refine ⟨copied.1, fun part mem => copied.2 part ?_⟩
    have brings := Plan.mem_brought.mp mem
    cases part <;> first | decide | cases brings | exact absurd (skipped.symm.trans brings) nofun
  · exact (spec_check (fresh _)).result
      fun _ _ copied => ⟨copied.1, fun part brings _ => copied.2 part (Plan.mem_brought.mpr brings)⟩

theorem spec_stageBackup : Spec plan.Fresh (stageBackup plan.withBlobs plan.separateBlobs) plan.Fresh
    fun _ disk => plan.Fresh disk ∧ plan.Waiting [] disk := by
  refine (spec_check fun _ => id).bind fun _ => ?_
  refine (keeps_makeStagingDir Plan.fresh_stable rfl).bind fun _ => ?_
  refine spec_copyBackup.orElse (fun _ => ?_) fun _ => id
  exact (keeps_removeStaged Plan.fresh_stable).bind fun _ => .fail fun _ => id

theorem spec_replaceInstance :
    Spec (fun disk => plan.Fresh disk ∧ plan.Waiting [] disk) (replaceInstance plan.withBlobs plan.separateBlobs)
      plan.Sound fun _ => plan.Finished := by
  have fresh : ∀ disk, plan.Fresh disk ∧ plan.Waiting [] disk → plan.Sound disk := fun _ holds => .inl holds.1
  refine (spec_check fresh).bind fun _ => ?_
  refine Spec.bind ((spec_listOriginals fun _ holds => holds.1.all).cutting fresh) fun journal => ?_
  refine .given ?_
  rintro rfl
  exact (spec_check fresh).bind fun _ => spec_switch

/-- Every kill and every failure of a restore leaves a state that the next command can settle. -/
theorem spec_restore :
    Spec plan.Fresh (restore plan.withBlobs plan.separateBlobs) plan.Sound fun _ => plan.Finished := by
  have fresh : ∀ disk, plan.Fresh disk → plan.Sound disk := fun _ => .inl
  have cleaned : ∀ {P : Disk → Prop}, StableOn Path.durable P → Spec P (do
        let named ← lstat "remove staging" .journal
        .onlyIf (!named) (removeStaged plan.separateBlobs)) P fun _ => P := fun stable =>
    Spec.bind (Spec.result (spec_lstat fun _ => id) fun _ _ holds => holds.1)
      fun _ => .onlyIf (fun _ => keeps_removeStaged stable) fun _ _ => id
  refine (spec_check fresh).bind fun _ => ?_
  refine Spec.bind (Spec.result (spec_lstat fresh) fun _ _ holds => holds.1) fun _ => ?_
  refine Spec.bind (Q := fun _ => plan.Fresh) (.onlyIf (fun _ => .fail fresh) fun _ _ => id) fun _ => ?_
  refine (spec_stageBackup.cutting fresh).bind fun _ => ?_
  exact spec_replaceInstance.deferring (cleaned Plan.sound_stable) (fun _ => cleaned Plan.finished_stable)
    fun _ _ finished => .inr (.inr (.inr finished))

/-- A settlement reads the journal, or finds none. `Under` is what holds beside the journal, `Over` what holds
once it is gone, and `Ready` what holds just before it goes. -/
theorem spec_settlement (journal : Journal) {Over Under Ready : Disk → Prop}
    (closed : ∀ disk, Over disk → disk.journal? = none)
    (under : ∀ disk, Under disk → disk.journal? = some (.journal journal)) (stable : StableOn Path.durable Over)
    (rolls : Spec Under (.onlyIf (journal.state = .activating) (rollBackRestore journal))
      (fun disk => Over disk ∨ Under disk) fun _ => Ready)
    (removes : Spec Ready (remove "remove journal" .journal) (fun disk => Over disk ∨ Under disk) fun _ => Over) :
    Spec (fun disk => Over disk ∨ Under disk) recoverInterruptedRestore (fun disk => Over disk ∨ Under disk)
      fun _ => Over := by
  refine Spec.bind (spec_lstat fun _ => id) fun present => .onlyIf (fun _ => ?_) fun absent disk holds => ?_
  · refine (spec_check fun _ holds => holds.1).bind fun _ => ?_
    refine Spec.bind (Q := fun found disk => found = none ∧ Over disk ∨ found = some journal ∧ Under disk)
      (.operation (fun _ holds => holds.1) ?_) fun found => ?_
    · rintro disk ⟨holds, _⟩ found after mem
      rcases holds with ended | begun
      · rw [show disk.files.at? .journal = none from closed disk ended] at mem
        cases List.mem_singleton.mp mem
        exact .inl ⟨rfl, ended⟩
      · rw [show disk.files.at? .journal = _ from under disk begun] at mem
        cases List.mem_singleton.mp mem
        exact .inr ⟨rfl, begun⟩
    · rintro disk (⟨rfl, ended⟩ | ⟨rfl, begun⟩)
      · exact (Spec.ret fun _ => id : Spec Over _ _ fun _ => Over) disk ended
      · have cleaned : Spec Over (removeStaged journal.separateBlobs) (fun disk => Over disk ∨ Under disk)
            fun _ => Over :=
          (keeps_removeStaged stable).cutting fun _ => .inl
        exact (rolls.bind fun _ => removes.bind fun _ => cleaned.bind fun _ => spec_check fun _ => .inl) disk begun
  · have missing : disk.journal? = none :=
      Option.not_isSome_iff_eq_none.mp (Bool.eq_false_iff.mp (holds.2.symm.trans absent))
    refine holds.1.resolve_right fun begun => ?_
    exact absurd (missing.symm.trans (under disk begun)) nofun

/-- An activation that was not recorded is rolled back. -/
theorem spec_recover_unrecorded :
    Spec (fun disk => plan.Fresh disk ∨ plan.Open disk) recoverInterruptedRestore
      (fun disk => plan.Fresh disk ∨ plan.Open disk) fun _ => plan.Fresh :=
  spec_settlement (plan.journal .activating) (fun _ fresh => fresh.journal) (fun _ isOpen => isOpen.journal)
    Plan.fresh_stable (spec_rollBackRestore.cutting (fun _ => .inr))
    (spec_remove (fun _ holds => .inr (holds.2.open holds.1)) fun _ holds =>
      original_without_journal holds.1.unrecorded holds.2)

/-- A recorded one is kept. -/
theorem spec_recover_recorded :
    Spec (fun disk => plan.Finished disk ∨ plan.Recorded disk) recoverInterruptedRestore
      (fun disk => plan.Finished disk ∨ plan.Recorded disk) fun _ => plan.Finished :=
  spec_settlement (plan.journal .activated) (fun _ finished => finished.journal)
    (fun _ recorded => recorded.journal) Plan.finished_stable (.ret fun _ => id)
    (spec_remove (fun _ => .inr) fun _ => restored_without_journal)

end Commands

end Veritra.Instance
