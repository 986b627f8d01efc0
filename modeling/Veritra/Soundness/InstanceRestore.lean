import Veritra.Proofs.Instance.Activation

/-! # A restore survives every kill

The restore may be killed before any operation, and any operation may fail. The commands after it settle what
it left, and they may be killed and fail as often as they like. The first one that gets through leaves the
instance all original or all restored, as the journal had it when the restore ended.
-/

namespace Veritra.Instance

open Machine Killable

/-- No original was deleted or overwritten. -/
def Plan.Preserved (plan : Plan) (disk : Disk) : Prop :=
  ∀ part, plan.original part → disk.live part = some (.original part) ∨ disk.rollback part = some (.original part)

/-- A WAL beside a database is the one of this database. -/
def Disk.WalBelongs (disk : Disk) : Prop :=
  ∀ wal database, disk.live .wal = some wal → disk.live .database = some database →
    wal = .original .wal ∧ database = .original .database ∨ wal = .restored .wal ∧ database = .restored .database

section Safety

variable {plan : Plan} {disk : Disk} {part : Part}

theorem Plan.Original.preserved (original : plan.Original disk part) (listed : plan.original part) :
    disk.live part = some (.original part) :=
  original.1.trans (if_pos listed)

theorem Plan.Aside.preserved (aside : plan.Aside disk part) (listed : plan.original part) :
    disk.rollback part = some (.original part) :=
  aside.1.trans (if_pos listed)

theorem Plan.AllRestored.preserved (all : plan.AllRestored disk) : plan.Preserved disk := by
  intro part listed
  have here := all part
  split at here
  · exact .inr (here.1.trans (if_pos listed))
  · exact .inl (here.preserved listed)

theorem Plan.Sound.preserved (sound : plan.Sound disk) : plan.Preserved disk := by
  rcases sound with fresh | isOpen | recorded | finished
  · exact fun part listed => .inl ((fresh.all part).preserved listed)
  · intro part listed
    exact (isOpen.parts part).imp (·.preserved listed) fun ⟨_, _, aside⟩ => aside.preserved listed
  · exact recorded.all.preserved
  · exact finished.all.preserved

theorem Plan.AllOriginal.walBelongs (all : plan.AllOriginal disk) : disk.WalBelongs := by
  intro wal database hasWal hasDatabase
  have home : ∀ part entry, disk.live part = some entry → entry = .original part := by
    intro part entry found
    rw [(all part).1, Plan.home] at found
    split at found
    · exact (Option.some.inj found).symm
    · cases found
  exact .inl ⟨home .wal wal hasWal, home .database database hasDatabase⟩

theorem Plan.AllRestored.walBelongs (all : plan.AllRestored disk) : disk.WalBelongs := by
  intro wal database hasWal hasDatabase
  have copies : ∀ part entry, plan.Restored disk part → disk.live part = some entry → entry = .restored part := by
    rintro part entry ⟨_, live | ⟨_, gone⟩⟩ found
    · exact Option.some.inj (found.symm.trans live)
    · cases found.symm.trans gone
  exact .inr ⟨copies .wal wal (all .wal) hasWal, copies .database database (all .database) hasDatabase⟩

theorem Plan.Sound.walBelongs (sound : plan.Sound disk) (unjournalled : disk.journal? = none) :
    disk.WalBelongs := by
  rcases sound with fresh | isOpen | recorded | finished
  · exact fresh.all.walBelongs
  · exact absurd (unjournalled.symm.trans isOpen.journal) nofun
  · exact absurd (unjournalled.symm.trans recorded.journal) nofun
  · exact finished.all.walBelongs

end Safety

/-- From any instance, after a restore that was killed anywhere or failed and any number of settlements that
were killed or failed: every original is in its place or aside; without a journal the WAL belongs to the
database beside it; and the first settlement that finishes leaves everything restored if the journal had
recorded this, and everything original otherwise. -/
theorem restore_survives_kills {plan : Plan} {start left cut : Disk} {ending : Ending String Unit}
    (fresh : plan.Fresh start) (ran : (ending, left) ∈ restore plan.withBlobs plan.separateBlobs start)
    (retried : Retried recoverInterruptedRestore left cut) :
    plan.Preserved cut ∧ (cut.journal? = none → cut.WalBelongs) ∧
      ∀ settled, (.done (), settled) ∈ recoverInterruptedRestore cut →
        settled.journal? = none ∧ plan.Preserved settled ∧
        (plan.journal .activated ∈ left.journals → plan.AllRestored settled) ∧
        (plan.journal .activated ∉ left.journals → plan.AllOriginal settled) := by
  have sound : plan.Sound left := by
    have after := spec_restore start fresh ending left ran
    cases ending with
    | killed => exact after
    | failed reason => exact after
    | done value => exact .inr (.inr (.inr after))
  have unrecorded : plan.Fresh left ∨ plan.Open left → plan.journal .activated ∉ left.journals :=
    Or.rec (fun fresh => fresh.unrecorded) fun isOpen => isOpen.unrecorded
  have recorded : plan.Finished left ∨ plan.Recorded left → plan.journal .activated ∈ left.journals :=
    Or.rec (fun finished => finished.recorded) fun journalled => journalled.recorded
  -- What the journal had recorded when the restore ended decides which way every settlement goes.
  have split : (plan.Fresh left ∨ plan.Open left) ∨ (plan.Finished left ∨ plan.Recorded left) := by
    rcases sound with here | here | here | here
    · exact .inl (.inl here)
    · exact .inl (.inr here)
    · exact .inr (.inr here)
    · exact .inr (.inl here)
  rcases split with before | before
  · have here := retried.keeps spec_recover_unrecorded before
    have atCut : plan.Sound cut := here.imp_right .inl
    refine ⟨atCut.preserved, atCut.walBelongs, fun settled ended => ?_⟩
    have after : plan.Fresh settled := spec_recover_unrecorded cut here _ settled ended
    exact ⟨after.journal, Plan.Sound.preserved (.inl after), fun was => absurd was (unrecorded before),
      fun _ => after.all⟩
  · have here := retried.keeps spec_recover_recorded before
    have atCut : plan.Sound cut := .inr (.inr here.symm)
    refine ⟨atCut.preserved, atCut.walBelongs, fun settled ended => ?_⟩
    have after : plan.Finished settled := spec_recover_recorded cut here _ settled ended
    exact ⟨after.journal, after.all.preserved, fun _ => after.all, absurd (recorded before)⟩

namespace Example

/-- An instance with a WAL and blobs, whose backup has blobs as well. -/
def plan : Plan := ⟨fun part => part ≠ .shm, true, false⟩

def running : Disk :=
  { files := [Part.database, .wal, .blobs].foldl (fun files part => files.put (.live part) (.original part)) .empty
    suffixes := 0
    journals := [] }

/-- The first state of `endings` that ended so and has the entry. -/
def leaving (endings : List (Ending String Unit × Disk)) (ending : Ending String Unit) (path : Path)
    (entry : Entry) : Disk :=
  ((endings.find? fun (how, disk) => how = ending ∧ disk.files.at? path = some entry).getD (.killed, running)).2

/-- Killed with the restored copies in place, before the journal says so. -/
def killed : Disk := leaving (restore true false running) .killed (.live .blobs) (.restored .blobs)

/-- Killed again with the database back and its WAL still aside. -/
def halfway : Disk := leaving (recoverInterruptedRestore killed) .killed (.live .database) (.original .database)

def settled : Disk := leaving (recoverInterruptedRestore halfway) (.done ()) (.live .wal) (.original .wal)

theorem running_fresh : plan.Fresh running :=
  ⟨by decide +kernel, by decide, fun part => by cases part <;> exact ⟨by decide +kernel, by decide +kernel⟩⟩

theorem killed_ran : (.killed, killed) ∈ restore plan.withBlobs plan.separateBlobs running := by decide +kernel

theorem halfway_retried : Retried recoverInterruptedRestore killed halfway := .killed .first (by decide +kernel)

theorem settled_ended : (.done (), settled) ∈ recoverInterruptedRestore halfway := by decide +kernel

end Example

open Example in
theorem restore_survives_two_kills :
    killed.live .database = some (.restored .database) ∧ killed.rollback .wal = some (.original .wal) ∧
      halfway.live .database = some (.original .database) ∧ halfway.rollback .wal = some (.original .wal) ∧
      plan.AllOriginal settled := by
  obtain ⟨_, _, ends⟩ := restore_survives_kills running_fresh killed_ran halfway_retried
  have unrecorded : plan.journal .activated ∉ killed.journals := by decide +kernel
  refine ⟨by decide +kernel, by decide +kernel, by decide +kernel, by decide +kernel, ?_⟩
  exact (ends settled settled_ended).2.2.2 unrecorded

end Veritra.Instance
