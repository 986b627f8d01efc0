import Veritra.Model.Instance.Restore

/-! # What the commands of a restore leave

While the journal says that an activation is under way, every part is in one of two places: the original is
live, or the original is aside and the live path holds a restored copy or nothing. Every operation of the
activation and of the rollback keeps this, so a rollback may start wherever an earlier command was cut. It
settles the parts one after the other.
-/

namespace Veritra.Instance

open Machine Killable

variable {state : JournalState} {P : Disk → Prop}

/-- The originals of an instance, and what its backup brings. -/
structure Plan where
  original : Part → Bool
  withBlobs : Bool
  separateBlobs : Bool

namespace Plan

variable {part : Part}

def replaces (plan : Plan) : Part → Bool
  | .blobs => plan.withBlobs
  | _ => true

def brings (plan : Plan) : Part → Bool
  | .database => true
  | .blobs => plan.withBlobs
  | _ => false

/-- The original of the part, if there is one. -/
def home (plan : Plan) (part : Part) : Option Entry :=
  if plan.original part then some (.original part) else none

def journal (plan : Plan) (state : JournalState) : Journal :=
  ⟨state, plan.original .database, plan.original .wal, plan.original .shm, plan.withBlobs,
    plan.withBlobs && plan.original .blobs, plan.separateBlobs⟩

def staging (plan : Plan) : Part → Staging
  | .blobs => if plan.separateBlobs then .blobs else .beside
  | _ => .beside

variable {plan : Plan}

theorem lists_journal : (plan.journal state).lists part = (plan.replaces part && plan.original part) := by
  cases part <;> rfl

end Plan

namespace Disk

def live (disk : Disk) (part : Part) : Option Entry := disk.files.at? (.live part)

def rollback (disk : Disk) (part : Part) : Option Entry := disk.files.at? (.rollback part)

def journal? (disk : Disk) : Option Entry := disk.files.at? .journal

/-- The same entries at these paths, and the same journals so far. -/
structure Agrees (paths : Path → Bool) (disk disk' : Disk) : Prop where
  files : ∀ path, paths path → disk'.files.at? path = disk.files.at? path
  journals : disk'.journals = disk.journals

end Disk

/-- The paths that recovery goes by. -/
def Path.durable : Path → Bool
  | .live _ | .rollback _ | .journal => true
  | _ => false

/-- Those, and the staged copies that the activation moves. -/
def Path.prepared : Path → Bool
  | .live _ | .rollback _ | .journal | .staged _ _ => true
  | _ => false

/-- The condition depends on these paths only. -/
def StableOn (paths : Path → Bool) (P : Disk → Prop) : Prop :=
  ∀ disk disk', disk.Agrees paths disk' → P disk → P disk'

theorem StableOn.prepared (stable : StableOn Path.durable P) : StableOn Path.prepared P :=
  fun disk disk' agrees => stable disk disk'
    ⟨fun path durable => agrees.files path (by cases path <;> first | rfl | cases durable), agrees.journals⟩

section Calls

variable {disk : Disk} {P I : Disk → Prop} {Q : Unit → Disk → Prop} {reason : String}
  {path source target : Path} {entry : Entry} {paths : Path → Bool}

section Cut

variable (cut : ∀ disk, P disk → I disk)
include cut

theorem spec_lstat :
    Spec P (lstat reason path) I fun present disk => P disk ∧ present = disk.files.present path := by
  refine .operation cut fun disk holds present after mem => ?_
  cases List.mem_singleton.mp mem
  exact ⟨holds, rfl⟩

theorem spec_check : Spec P (check reason) I fun _ => P := by
  refine .operation cut fun disk holds _ after mem => ?_
  cases List.mem_singleton.mp mem
  exact holds

theorem spec_rename (effect : ∀ disk files, P disk → disk.files.rename? source target = some files →
      Q () { disk with files, journals := disk.journalsAfter source target }) :
    Spec P (rename reason source target) I Q := by
  refine .operation cut fun disk holds _ after mem => ?_
  split at mem
  · split at mem
    · next files renamed =>
      cases List.mem_singleton.mp mem
      exact effect disk files holds renamed
    · cases mem
  · cases mem

theorem spec_remove (effect : ∀ disk, P disk → Q () { disk with files := disk.files.remove path }) :
    Spec P (remove reason path) I Q := by
  refine .operation cut fun disk holds _ after mem => ?_
  split at mem
  · cases List.mem_singleton.mp mem
    exact effect disk holds
  · cases mem

theorem spec_write (effect : ∀ disk, P disk → Q () { disk with files := disk.files.put path entry }) :
    Spec P (write reason path entry) I Q := by
  refine .operation cut fun disk holds _ after mem => ?_
  cases List.mem_singleton.mp mem
  exact effect disk holds

end Cut

theorem agrees_put (outside : paths path = false) :
    disk.Agrees paths { disk with files := disk.files.put path entry } := by
  refine ⟨fun other inside => ?_, rfl⟩
  rw [Files.at?_put, if_neg]
  rintro rfl
  rw [outside] at inside
  cases inside

theorem agrees_remove (outside : paths path = false) :
    disk.Agrees paths { disk with files := disk.files.remove path } := by
  refine ⟨fun other inside => ?_, rfl⟩
  rw [Files.at?_remove, if_neg]
  rintro rfl
  rw [outside] at inside
  cases inside

variable (stable : StableOn paths P)
include stable

theorem keeps_write (outside : paths path = false) : Spec P (write reason path entry) P fun _ => P :=
  spec_write (fun _ => id) fun disk holds => stable disk _ (agrees_put outside) holds

theorem keeps_remove (outside : paths path = false) : Spec P (remove reason path) P fun _ => P :=
  spec_remove (fun _ => id) fun disk holds => stable disk _ (agrees_remove outside) holds

theorem keeps_makeStagingDir {staging : Staging} (outside : paths (.dir staging) = false) :
    Spec P (makeStagingDir staging) P fun _ => P := by
  refine (keeps_write stable outside).bind fun _ => ?_
  refine (keeps_write stable outside).orElse (fun reason => ?_) fun _ => id
  exact (keeps_remove stable outside).ignore.bind fun _ => .fail fun _ => id

theorem keeps_freshSuffix {taken : Bool} : Spec P (freshSuffix taken) P fun _ => P := by
  cases taken with
  | false => exact .ret fun _ => id
  | true =>
    refine Spec.bind (.operation (fun _ => id) fun disk holds suffix after mem => ?_)
      fun _ => .ret fun _ => id
    cases List.mem_singleton.mp mem
    exact stable disk _ ⟨fun _ _ => rfl, rfl⟩ holds

end Calls

section Staging

variable {P : Disk → Prop} {staging : Staging} {separateBlobs : Bool} (stable : StableOn Path.durable P)
include stable

theorem keeps_removeStagingDir : Spec P (removeStagingDir staging) P fun _ => P := by
  intro disk holds ending after mem
  unfold removeStagingDir at mem
  split at mem
  · -- The entries are those of the start, and each lies in the directory.
    have entries : Spec P (((disk.files.paths.filter fun path => path.staging? = some staging).forM
        (remove "remove staging") : Command Unit)) P fun _ => P := by
      refine .keeps_forM fun path mem => keeps_remove stable ?_
      have inside := of_decide_eq_true (List.mem_filter.mp mem).2
      cases path <;> first | rfl | cases inside
    exact (entries.bind fun _ => keeps_remove stable rfl) disk holds ending after mem
  · cases List.mem_singleton.mp mem
    exact holds

theorem keeps_removeStaged : Spec P (removeStaged separateBlobs) P fun _ => P :=
  (keeps_removeStagingDir stable).ignore.bind fun _ =>
    .onlyIf (fun _ => (keeps_removeStagingDir stable).ignore) fun _ _ => id

theorem keeps_ensureStagingDir : Spec P (ensureStagingDir staging) P fun _ => P := by
  refine Spec.bind (spec_lstat fun _ => id) fun present => ?_
  refine Spec.weaken (P := P) ?_ (fun _ ⟨holds, _⟩ => holds) (fun _ => id) fun _ _ => id
  refine .onlyIf (fun _ => ?_) fun _ _ => id
  exact (keeps_write stable rfl).bind fun _ => keeps_write stable rfl

end Staging

namespace Plan

variable (plan : Plan)

def Original (disk : Disk) (part : Part) : Prop := disk.live part = plan.home part ∧ disk.rollback part = none

/-- The original is aside, and its place is empty or has a restored copy. -/
def Aside (disk : Disk) (part : Part) : Prop :=
  disk.rollback part = plan.home part ∧ (disk.live part = none ∨ disk.live part = some (.restored part))

/-- The journal says that an activation is under way, and none was ever recorded as finished. -/
structure Activating (disk : Disk) : Prop where
  journal : disk.journal? = some (.journal (plan.journal .activating))
  unrecorded : plan.journal .activated ∉ disk.journals

/-- An activation is under way. The originals of the parts in `back` are in their places. -/
structure Settled (back : List Part) (disk : Disk) : Prop extends plan.Activating disk where
  parts : ∀ part, plan.Original disk part ∨ part ∉ back ∧ plan.replaces part ∧ plan.Aside disk part

/-- The same, apart from one part. -/
structure Rest (back : List Part) (part : Part) (disk : Disk) : Prop extends plan.Activating disk where
  parts : ∀ other, other ≠ part → plan.Original disk other ∨ other ∉ back ∧ plan.replaces other ∧ plan.Aside disk other

abbrev Open (disk : Disk) : Prop := plan.Settled [] disk

variable {plan} {back back' : List Part} {part : Part} {disk disk' : Disk}

section

variable (settled : plan.Settled back disk)

include settled

theorem Settled.of_subset (subset : back' ⊆ back) : plan.Settled back' disk :=
  ⟨settled.toActivating, fun part =>
    (settled.parts part).imp_right fun ⟨missing, aside⟩ => ⟨fun mem => missing (subset mem), aside⟩⟩

theorem Settled.open : plan.Open disk :=
  settled.of_subset (List.nil_subset back)

theorem Settled.rest (part : Part) : plan.Rest back part disk :=
  ⟨settled.toActivating, fun other _ => settled.parts other⟩

end

section

variable (rest : plan.Rest back part disk)

include rest

theorem Rest.settled (here : plan.Original disk part) : plan.Settled (part :: back) disk := by
  refine ⟨rest.toActivating, fun other => ?_⟩
  by_cases same : other = part
  · exact .inl (same ▸ here)
  · refine (rest.parts other same).imp_right fun ⟨missing, aside⟩ => ⟨?_, aside⟩
    exact fun mem => (List.mem_cons.mp mem).elim same missing

theorem Rest.open (replaced : plan.replaces part) (aside : plan.Aside disk part) : plan.Open disk := by
  refine ⟨rest.toActivating, fun other => ?_⟩
  by_cases same : other = part
  · exact .inr ⟨List.not_mem_nil, same ▸ ⟨replaced, aside⟩⟩
  · exact (rest.parts other same).imp_right fun ⟨_, aside⟩ => ⟨List.not_mem_nil, aside⟩

/-- What holds of the other parts does not depend on this one. -/
theorem Rest.frame (files : ∀ path, path.durable → path ≠ .live part → path ≠ .rollback part →
      disk'.files.at? path = disk.files.at? path)
    (journals : disk'.journals = disk.journals) : plan.Rest back part disk' := by
  refine ⟨⟨(files .journal rfl nofun nofun).trans rest.journal, journals ▸ rest.unrecorded⟩, fun other apart => ?_⟩
  have live : disk'.live other = disk.live other :=
    files _ rfl (fun same => apart (Path.live.inj same)) nofun
  have rollback : disk'.rollback other = disk.rollback other :=
    files _ rfl nofun fun same => apart (Path.rollback.inj same)
  unfold Original Aside
  rw [live, rollback]
  exact rest.parts other apart

end

theorem original_stable : StableOn Path.durable (plan.Original · part) := fun _ _ agrees original =>
  ⟨(agrees.files (.live part) rfl).trans original.1, (agrees.files (.rollback part) rfl).trans original.2⟩

theorem aside_stable : StableOn Path.durable (plan.Aside · part) := by
  intro disk disk' agrees aside
  have live : disk'.live part = disk.live part := agrees.files (.live part) rfl
  have rollback : disk'.rollback part = disk.rollback part := agrees.files (.rollback part) rfl
  unfold Aside
  rw [live, rollback]
  exact aside

theorem activating_stable : StableOn Path.durable plan.Activating := fun _ _ agrees activating =>
  ⟨(agrees.files .journal rfl).trans activating.journal, agrees.journals ▸ activating.unrecorded⟩

theorem settled_stable : StableOn Path.durable (plan.Settled back) := fun _ _ agrees settled =>
  ⟨activating_stable _ _ agrees settled.toActivating, fun part =>
    (settled.parts part).imp (original_stable _ _ agrees) fun ⟨missing, replaced, aside⟩ =>
      ⟨missing, replaced, aside_stable _ _ agrees aside⟩⟩

theorem rest_stable : StableOn Path.durable (plan.Rest back part) := fun _ _ agrees rest =>
  rest.frame (fun path durable _ _ => agrees.files path durable) agrees.journals

end Plan

section Rollback

variable {step : Command Unit} {plan : Plan} {back : List Part} {part : Part} {staging : Staging}
  {Q : Unit → Disk → Prop}

/-- A withdrawal empties the live path of a part whose original is aside. -/
theorem spec_withdraw (plan : Plan) (back : List Part) :
    Spec (fun disk => plan.Rest back part disk ∧ plan.Aside disk part) (withdraw part staging)
      (fun disk => plan.Rest back part disk ∧ plan.Aside disk part)
      fun _ disk => plan.Rest back part disk ∧ plan.Aside disk part ∧ disk.live part = none := by
  have stable : StableOn Path.durable fun disk => plan.Rest back part disk ∧ plan.Aside disk part :=
    fun disk disk' agrees ⟨rest, aside⟩ =>
      ⟨Plan.rest_stable disk disk' agrees rest, Plan.aside_stable disk disk' agrees aside⟩
  refine Spec.bind (spec_lstat fun _ => id) fun present => .onlyIf (fun _ => ?_) fun absent disk holds => ?_
  · refine Spec.bind ((spec_lstat fun _ holds => holds.1)) fun taken => ?_
    refine Spec.bind (Spec.weaken (keeps_freshSuffix stable) (fun _ holds => holds.1.1) (fun _ => id)
      fun _ _ => id) fun suffix => ?_
    refine spec_rename (fun _ => id) fun disk files ⟨rest, aside⟩ renamed => ?_
    have moved : ∀ path, path.durable → path ≠ .live part → files.at? path = disk.files.at? path := by
      intro path durable apart
      rw [Files.at?_rename renamed, if_neg, if_neg (Ne.symm apart)]
      rintro rfl
      cases durable
    have emptied : files.at? (.live part) = none := by
      rw [Files.at?_rename renamed, if_neg nofun, if_pos rfl]
    exact ⟨rest.frame (fun path durable apart _ => moved path durable apart) rfl,
      ⟨(moved (.rollback part) rfl nofun).trans aside.1, .inl emptied⟩, emptied⟩
  · have emptied : disk.live part = none := by
      have gone := holds.2.symm.trans absent
      exact Option.not_isSome_iff_eq_none.mp (Bool.eq_false_iff.mp gone)
    exact ⟨holds.1.1, holds.1.2, emptied⟩

/-- A preserved original goes back, wherever an earlier attempt was cut. -/
theorem spec_putBack (replaced : plan.replaces part) (listed : plan.original part) :
    Spec (plan.Settled back) (putBack part staging) plan.Open fun _ => plan.Settled (part :: back) := by
  have home : plan.home part = some (.original part) := if_pos listed
  refine Spec.bind (spec_lstat fun _ => Plan.Settled.open) fun preserved =>
    .onlyIf (fun there => ?_) fun absent disk ⟨settled, looked⟩ => ?_
  · -- An original that is aside is not in its place.
    refine Spec.bind (Spec.weaken (spec_withdraw plan back) ?_ (fun _ ⟨rest, aside⟩ => rest.open replaced aside) fun _ _ => id)
      fun _ => ?_
    · intro disk ⟨settled, looked⟩
      refine ⟨settled.rest part, ?_⟩
      rcases settled.parts part with original | ⟨_, _, aside⟩
      · have gone : disk.files.present (.rollback part) = false := by
          rw [Files.present, show disk.files.at? (.rollback part) = none from original.2, Option.isSome_none]
        rw [gone, there] at looked
        cases looked
      · exact aside
    · refine spec_rename (fun _ ⟨rest, aside, _⟩ => rest.open replaced aside)
        fun disk files ⟨rest, aside, _⟩ renamed => ?_
      have framed : plan.Rest back part { disk with files, journals := disk.journals } := by
        refine rest.frame (fun path _ live rollback => ?_) rfl
        rw [Files.at?_rename renamed, if_neg (Ne.symm live), if_neg (Ne.symm rollback)]
      refine framed.settled ⟨?_, ?_⟩
      · exact (Files.at?_rename renamed).trans ((if_pos rfl).trans aside.1)
      · exact (Files.at?_rename renamed).trans ((if_neg nofun).trans (if_pos rfl))
  · -- The original was never moved, or is back already.
    refine (settled.rest part).settled ((settled.parts part).resolve_right fun ⟨_, _, aside⟩ => ?_)
    have there : disk.files.present (.rollback part) = true := by
      rw [Files.present, show disk.files.at? (.rollback part) = _ from aside.1, home, Option.isSome_some]
    rw [there, absent] at looked
    cases looked

/-- Without an original, whatever is live belongs to the backup. -/
theorem spec_withdraw_unlisted (replaced : plan.replaces part) (unlisted : plan.original part = false) :
    Spec (plan.Settled back) (withdraw part staging) plan.Open fun _ => plan.Settled (part :: back) := by
  have home : plan.home part = none := if_neg (Bool.eq_false_iff.mp unlisted)
  refine Spec.weaken (spec_withdraw plan back) (fun disk settled => ⟨settled.rest part, ?_⟩)
    (fun _ ⟨rest, aside⟩ => rest.open replaced aside)
    fun _ disk ⟨rest, aside, emptied⟩ => rest.settled ⟨emptied.trans home.symm, aside.1.trans home⟩
  rcases settled.parts part with original | ⟨_, _, aside⟩
  · exact ⟨original.2.trans home.symm, .inl (original.1.trans home)⟩
  · exact aside

theorem spec_settlePart (part : Part) (replaced : plan.replaces part) :
    Spec (plan.Settled back) (settlePart (plan.journal state) part staging) plan.Open
      fun _ => plan.Settled (part :: back) := by
  unfold settlePart
  rw [Plan.lists_journal, replaced, Bool.true_and]
  cases listed : plan.original part with
  | false => exact spec_withdraw_unlisted replaced listed
  | true => exact spec_putBack replaced listed

/-- One step of the rollback, which reports its failure. -/
theorem spec_settle (spec : Spec P step plan.Open Q) : Spec P (settle step) plan.Open Q :=
  spec.orElse (fun _ => (spec_check fun _ => id).ignore.bind fun _ => .fail fun _ => id)
    fun _ => id

/-- A step that runs only for some instances settles its part in those. -/
theorem spec_settle_onlyIf {condition : Bool} (part : Part)
    (runs : condition = true → Spec (plan.Settled back) step plan.Open fun _ => plan.Settled (part :: back)) :
    Spec (plan.Settled back) (.onlyIf condition step) plan.Open
      fun _ => plan.Settled (if condition then part :: back else back) := by
  refine .onlyIf (fun holds => ?_) fun skipped _ settled => ?_
  · rw [if_pos holds]
    exact runs holds
  · rw [skipped]
    exact settled

/-- Two steps in the order of a Go map. -/
theorem spec_eitherOrder {I : Disk → Prop} {first second : Command Unit}
    (forth : Spec P (do first; second) I Q) (reversed : Spec P (do second; first) I Q) :
    Spec P (eitherOrder first second) I Q := by
  intro disk holds ending after mem
  rcases List.mem_append.mp mem with mem | mem
  · exact forth disk holds ending after mem
  · exact reversed disk holds ending after mem

theorem spec_settleDatabase : Spec plan.Open (settleDatabase (plan.journal state)) plan.Open
      fun _ => plan.Settled (.database :: [.wal, .shm].filter (!plan.original ·)) := by
  refine spec_settle ?_
  have withdrawn : ∀ {back} {part : Part}, plan.replaces part → (!plan.original part) = true →
      Spec (plan.Settled back) (withdraw part .beside) plan.Open fun _ => plan.Settled (part :: back) :=
    fun replaced unlisted => spec_withdraw_unlisted replaced ((Bool.not_eq_true' _).mp unlisted)
  refine Spec.result ((spec_settle_onlyIf .wal (withdrawn rfl)).bind fun _ =>
    (spec_settle_onlyIf .shm (withdrawn rfl)).bind fun _ => spec_settlePart .database rfl)
    fun _ disk settled => settled.of_subset ?_
  grind

theorem spec_settleCompanions : Spec (plan.Settled back) (settleCompanions (plan.journal state)) plan.Open
      fun _ => plan.Settled ([.wal, .shm].filter (plan.original ·) ++ back) := by
  have returned : ∀ {back} {part : Part}, plan.replaces part → plan.original part = true →
      Spec (plan.Settled back) (settle (putBack part .beside)) plan.Open fun _ => plan.Settled (part :: back) :=
    fun replaced listed => spec_settle (spec_putBack replaced listed)
  refine spec_eitherOrder ?_ ?_
  · refine Spec.result ((spec_settle_onlyIf .wal (returned rfl)).bind fun _ => spec_settle_onlyIf .shm (returned rfl))
      fun _ _ settled => settled.of_subset ?_
    grind [Plan.journal]
  · refine Spec.result ((spec_settle_onlyIf .shm (returned rfl)).bind fun _ => spec_settle_onlyIf .wal (returned rfl))
      fun _ _ settled => settled.of_subset ?_
    grind [Plan.journal]

def Plan.AllOriginal (plan : Plan) (disk : Disk) : Prop := ∀ part, plan.Original disk part

/-- Wherever the activation or an earlier rollback was cut, a rollback that finishes has put every original
back. -/
theorem spec_rollBackRestore : Spec plan.Open (rollBackRestore (plan.journal state)) plan.Open
      fun _ disk => plan.Activating disk ∧ plan.AllOriginal disk := by
  refine (keeps_ensureStagingDir Plan.settled_stable).bind fun _ => ?_
  refine Spec.bind (.onlyIf (fun _ => keeps_ensureStagingDir Plan.settled_stable) fun _ _ => id) fun _ => ?_
  refine spec_settleDatabase.bind fun _ => spec_settleCompanions.bind fun _ => ?_
  refine Spec.bind (spec_settle_onlyIf .blobs fun included =>
    spec_settle (spec_settlePart .blobs included)) fun _ => ?_
  refine (spec_check fun _ => Plan.Settled.open).result
    fun _ disk settled => ⟨settled.toActivating, fun part => (settled.parts part).resolve_right ?_⟩
  -- Every part that the restore replaces was settled by one of the steps.
  rintro ⟨missing, replaced, _⟩
  apply missing
  cases part with
  | blobs => rw [if_pos (show (plan.journal state).withBlobs from replaced)]; exact List.mem_cons_self
  | database => grind
  | wal => grind
  | shm => grind

end Rollback

end Veritra.Instance
