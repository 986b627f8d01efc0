import Veritra.Machine.Files
import Veritra.Machine.Killable

/-! # Restoring an instance

`restore` of `backup_restore.go`. The backup is copied into a staging directory. Then the originals are
renamed aside, the staged copies are renamed into their places, and the result is validated. A journal says
which originals were there, and whether the activation has finished. A restore that fails puts the originals
back itself; one that was killed leaves the journal, and the next command settles it before it opens the
database: a finished activation is kept, any other is rolled back.

Each system call is one operation: the process may be killed before it, and it may fail without effect. The
engine has the live database open for a moment before the journal is written (`ProbeDatabaseExclusive`);
what it leaves of the WAL are the originals here. Names with a random suffix come from a counter.
-/

namespace Veritra.Instance

open Machine

/-- What a restore replaces. -/
inductive Part
  | database | wal | shm | blobs
  deriving DecidableEq, Repr

/-- `StagingDir`, and `BlobStagingDir` when the blob directory has another parent. -/
inductive Staging
  | beside | blobs
  deriving DecidableEq, Repr

inductive Path
  | live (part : Part)
  | rollback (part : Part)
  | journal
  | journalTmp
  | dir (staging : Staging)
  | staged (staging : Staging) (part : Part)
  | rolledBack (staging : Staging) (part : Part) (suffix : Option ℕ)
  deriving DecidableEq, Repr

def Path.staging? : Path → Option Staging
  | .staged staging _ | .rolledBack staging _ _ => some staging
  | _ => none

inductive JournalState
  | activating | activated
  deriving DecidableEq, Repr

/-- `restoreJournal`. A rollback path is either empty or the live path with the suffix of the restore, so
the journal says of each part whether it has one. -/
structure Journal where
  state : JournalState
  database : Bool
  wal : Bool
  shm : Bool
  withBlobs : Bool
  blobs : Bool
  separateBlobs : Bool
  deriving DecidableEq, Repr

/-- The journal has a rollback path for the original. -/
def Journal.lists (journal : Journal) : Part → Bool
  | .database => journal.database
  | .wal => journal.wal
  | .shm => journal.shm
  | .blobs => journal.blobs

def Journal.blobStaging (journal : Journal) : Staging := if journal.separateBlobs then .blobs else .beside

inductive Entry
  | original (part : Part)
  | restored (part : Part)
  | journal (journal : Journal)
  | directory (marked : Bool)
  deriving DecidableEq, Repr

/-- The disk, with the source of random suffixes and all journals that were ever in place. -/
structure Disk where
  files : Files Path Entry
  suffixes : ℕ
  journals : List Journal
  deriving DecidableEq

/-- The journals so far, once `source` is renamed to `target`. -/
def Disk.journalsAfter (disk : Disk) (source target : Path) : List Journal :=
  match target, disk.files.at? source with
  | .journal, some (.journal journal) => journal :: disk.journals
  | _, _ => disk.journals

abbrev Command (α : Type) := Killable Disk String α

/-- `Lstat`. -/
def lstat (reason : String) (path : Path) : Command Bool :=
  .operation reason fun disk => [(disk.files.present path, disk)]

/-- `Rename`. The source must be there, and the directory of the target. -/
def rename (reason : String) (source target : Path) : Command Unit :=
  .operation reason fun disk =>
    if ∀ staging ∈ target.staging?, disk.files.present (.dir staging) then
      match disk.files.rename? source target with
      | some files => [((), { disk with files, journals := disk.journalsAfter source target })]
      | none => []
    else []

/-- `Remove`. -/
def remove (reason : String) (path : Path) : Command Unit :=
  .operation reason fun disk =>
    if disk.files.present path then [((), { disk with files := disk.files.remove path })] else []

def write (reason : String) (path : Path) (entry : Entry) : Command Unit :=
  .operation reason fun disk => [((), { disk with files := disk.files.put path entry })]

/-- An operation that changes no entry: a sync, a lock, a check. -/
def check (reason : String) : Command Unit := .operation reason fun disk => [((), disk)]

def randomSuffix : Command ℕ :=
  .operation "random suffix" fun disk => [(disk.suffixes, { disk with suffixes := disk.suffixes + 1 })]

/-- Go over a Go map of the two companions, in either order. -/
def eitherOrder (first second : Command Unit) : Command Unit := fun disk =>
  (do first; second : Command Unit) disk ++ (do second; first : Command Unit) disk

/-- `removeStagingDir`: a directory without the marker stays. The entries go one by one. -/
def removeStagingDir (staging : Staging) : Command Unit := fun disk =>
  match disk.files.at? (.dir staging) with
  | some (.directory true) =>
    (do
      (disk.files.paths.filter fun path => path.staging? = some staging).forM (remove "remove staging")
      remove "remove staging" (.dir staging) : Command Unit) disk
  | _ => [(.done (), disk)]

def removeStaged (separateBlobs : Bool) : Command Unit := do
  (removeStagingDir .beside).ignore
  .onlyIf separateBlobs (removeStagingDir .blobs).ignore

/-- `makeStagingDir`. -/
def makeStagingDir (staging : Staging) : Command Unit := do
  write "staging directory" (.dir staging) (.directory false)
  (write "staging marker" (.dir staging) (.directory true)).orElse fun reason => do
    (remove "staging directory" (.dir staging)).ignore
    .fail reason

/-- Copy the database of the backup, and its blobs if it has them. -/
def copyBackup (withBlobs separateBlobs : Bool) : Command Unit := do
  write "stage backup" (.staged .beside .database) (.restored .database)
  check "backup validation failed"
  .onlyIf withBlobs do
    .onlyIf separateBlobs (makeStagingDir .blobs)
    write "stage encrypted blob" (.staged (if separateBlobs then .blobs else .beside) .blobs) (.restored .blobs)
    check "backup blob failed checksum verification"
  check "sync"

/-- `stageBackup`: copies of the backup, verified before anything live is touched. -/
def stageBackup (withBlobs separateBlobs : Bool) : Command Unit := do
  check "backup not readable"
  makeStagingDir .beside
  (copyBackup withBlobs separateBlobs).orElse fun reason => do
    removeStaged separateBlobs
    .fail reason

/-- Write a new file and rename it over the journal. -/
def replaceJournal (reason : String) (journal : Journal) : Command Unit := do
  write reason .journalTmp (.journal journal)
  rename reason .journalTmp .journal

/-- `writeJournal`. -/
def writeJournal (reason : String) (journal : Journal) : Command Unit := do
  (remove reason .journalTmp).ignore
  (replaceJournal reason journal).orElse fun reason => do
    (remove reason .journalTmp).ignore
    .fail reason
  check "sync"

/-- The blob directory counts only when the backup has blobs. -/
def lstatBlobs (withBlobs : Bool) : Command Bool :=
  if withBlobs then lstat "check live blob directory" (.live .blobs) else pure false

/-- The journal of a restore that starts now: it lists the originals that are there. -/
def listOriginals (withBlobs separateBlobs : Bool) : Command Journal := do
  let database ← lstat "check live database" (.live .database)
  let wal ← lstat "check SQLite companion" (.live .wal)
  let shm ← lstat "check SQLite companion" (.live .shm)
  let blobs ← lstatBlobs withBlobs
  pure ⟨.activating, database, wal, shm, withBlobs, blobs, separateBlobs⟩

/-- `ensureStagingDir`. -/
def ensureStagingDir (staging : Staging) : Command Unit := do
  let present ← lstat "check restore staging" (.dir staging)
  .onlyIf (!present) do
    write "recreate restore staging" (.dir staging) (.directory false)
    write "staging marker" (.dir staging) (.directory true)

/-- An earlier attempt may have used the plain name already. -/
def freshSuffix (taken : Bool) : Command (Option ℕ) :=
  if taken then do
    let suffix ← randomSuffix
    pure (some suffix)
  else pure none

/-- Move a restored copy out of its live path into staging. -/
def withdraw (part : Part) (staging : Staging) : Command Unit := do
  let present ← lstat "withdraw" (.live part)
  .onlyIf present do
    let taken ← lstat "withdraw" (.rolledBack staging part none)
    let suffix ← freshSuffix taken
    rename "withdraw" (.live part) (.rolledBack staging part suffix)

/-- Put a preserved original back, if it is not live. -/
def putBack (part : Part) (staging : Staging) : Command Unit := do
  let preserved ← lstat "put back" (.rollback part)
  .onlyIf preserved do
    withdraw part staging
    rename "put back" (.rollback part) (.live part)

/-- The part's preserved original comes back; without one, a restored copy is withdrawn. -/
def settlePart (journal : Journal) (part : Part) (staging : Staging) : Command Unit :=
  if journal.lists part then putBack part staging else withdraw part staging

/-- Run one step; a failure is reported after the parents were synced. -/
def settle (step : Command Unit) : Command Unit :=
  step.orElse fun reason => do
    (check "sync").ignore
    .fail reason

/-- The database comes back. Companions that the journal does not list belong to the restored one, so they go
before. -/
def settleDatabase (journal : Journal) : Command Unit := settle do
  .onlyIf (!journal.wal) (withdraw .wal .beside)
  .onlyIf (!journal.shm) (withdraw .shm .beside)
  settlePart journal .database .beside

def settleCompanions (journal : Journal) : Command Unit :=
  eitherOrder (.onlyIf journal.wal (settle (putBack .wal .beside)))
    (.onlyIf journal.shm (settle (putBack .shm .beside)))

/-- `rollBackRestore`: the database first, then its companions, then the blobs. -/
def rollBackRestore (journal : Journal) : Command Unit := do
  ensureStagingDir .beside
  .onlyIf journal.separateBlobs (ensureStagingDir .blobs)
  settleDatabase journal
  settleCompanions journal
  .onlyIf journal.withBlobs (settle (settlePart journal .blobs journal.blobStaging))
  check "sync"

/-- Rename an original aside, if the journal lists it. -/
def preserve (journal : Journal) (reason : String) (part : Part) : Command Unit :=
  .onlyIf (journal.lists part) (rename reason (.live part) (.rollback part))

/-- `ValidateDatabaseFile` on the live database. The engine may leave a WAL and an SHM beside it, also when
it is killed. -/
def validate : Command Unit := fun disk =>
  [[], [Part.wal], [.shm], [.wal, .shm]].flatMap fun left =>
    (check "restored database validation failed")
      { disk with files := left.foldl (fun files part => files.put (.live part) (.restored part)) disk.files }

/-- Move the originals aside and the staged copies into their places. -/
def activate (journal : Journal) : Command Unit := do
  preserve journal "preserve live database" .database
  eitherOrder (preserve journal "preserve SQLite companion" .wal) (preserve journal "preserve SQLite companion" .shm)
  preserve journal "preserve live blob directory" .blobs
  check "sync"
  rename "activate staged backup" (.staged .beside .database) (.live .database)
  .onlyIf journal.withBlobs
    (rename "activate staged blob directory" (.staged journal.blobStaging .blobs) (.live .blobs))
  check "sync"
  validate

/-- Journal, activate, record. A failed activation is rolled back at once. -/
def switch (journal : Journal) : Command Unit := do
  writeJournal "write restore journal" journal
  (activate journal).orElse fun reason => do
    rollBackRestore journal
    (do remove "remove journal" .journal; check "sync" : Command Unit).ignore
    .fail reason
  writeJournal "record finished restore" { journal with state := .activated }
  remove "finish" .journal
  (check "sync").ignore

def replaceInstance (withBlobs separateBlobs : Bool) : Command Unit := do
  check "database appears in use; stop the server before restore"
  let journal ← listOriginals withBlobs separateBlobs
  check "release blob storage lock"
  switch journal

/-- `restore`. The staging directories go at the end, unless a journal names them. -/
def restore (withBlobs separateBlobs : Bool) : Command Unit := do
  check "lock"
  let unfinished ← lstat "check for a restore journal" .journal
  .onlyIf unfinished (.fail "an earlier restore is unfinished; run the command again after it is settled")
  stageBackup withBlobs separateBlobs
  (replaceInstance withBlobs separateBlobs).deferring do
    let named ← lstat "remove staging" .journal
    .onlyIf (!named) (removeStaged separateBlobs)

def readJournal : Command (Option Journal) :=
  .operation "read restore journal" fun disk =>
    match disk.files.at? .journal with
    | some (.journal journal) => [(some journal, disk)]
    | some _ => []
    | none => [(none, disk)]

/-- `settleRestoreJournal`. -/
def settleRestoreJournal : Command Unit := do
  match ← readJournal with
  | none => pure ()
  | some journal =>
    .onlyIf (journal.state = .activating) (rollBackRestore journal)
    remove "remove journal" .journal
    removeStaged journal.separateBlobs
    check "sync"

/-- `recoverInterruptedRestore`, which every command runs before it opens the database. -/
def recoverInterruptedRestore : Command Unit := do
  let present ← lstat "read restore journal" .journal
  .onlyIf present do
    check "a server appears to be running"
    settleRestoreJournal

end Veritra.Instance
