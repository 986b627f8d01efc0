import Veritra.Proofs.Storage.BlobMoves
import Veritra.Soundness.HistoryTransfers

/-! # Storage accounting

The triggers change the usage counters by the size of one row at a time. In every reachable database the
counters are the sums over the rows, and an admitted upload leaves them within the quotas.
-/

namespace Veritra.Storage

open Relational Machine Database

variable {config : Config} {history : List Exchange} {db next : Database} {request : Request}
  {reply : Reply} {rows : Multiset BlobRow}

namespace Database

/-- The bytes of the account's attachments, backups, uploads and active transfers. -/
def accountBytes (db : Database) (accountID : AccountID) : ℤ :=
  ((db.store.attachments.rows.filter (·.ownerAccountID = accountID)).map (·.sizeBytes)).sum +
  ((db.blobs.backups.rows.filter (·.accountID = accountID)).map (·.sizeBytes)).sum +
  ((db.blobs.transfers.rows.filter fun t => t.state = .active ∧ t.accountID = accountID).map
    (·.sizeBytes)).sum +
  ((db.blobs.intents.rows.filter (·.accountID = accountID)).map (·.sizeBytes)).sum

/-- The bytes of all attachments, backups, uploads and active transfers. -/
def instanceBytes (db : Database) : ℤ :=
  (db.store.attachments.rows.map (·.sizeBytes)).sum + (db.blobs.backups.rows.map (·.sizeBytes)).sum +
  ((db.blobs.transfers.rows.filter (·.state = .active)).map (·.sizeBytes)).sum +
  (db.blobs.intents.rows.map (·.sizeBytes)).sum

end Database

section Sums

variable {ρ κ : Type} {key : ρ → κ}

theorem bytesOf_add (rows more : Multiset BlobRow) (accountID : AccountID) :
    bytesOf (rows + more) accountID = bytesOf rows accountID + bytesOf more accountID := by
  unfold bytesOf
  rw [Multiset.filter_add, Multiset.map_add, Multiset.sum_add]

theorem totalBytes_add (rows more : Multiset BlobRow) :
    totalBytes (rows + more) = totalBytes rows + totalBytes more := by
  unfold totalBytes
  rw [Multiset.map_add, Multiset.sum_add]

/-- The account's bytes among the rows that a table holds. -/
theorem bytesOf_contents (table : Table ρ key) (read : ρ → BlobRow) (p : ρ → Prop) [DecidablePred p]
    (accountID : AccountID) :
    bytesOf (table.contents fun row => if p row then some (read row) else none) accountID =
      ((table.rows.filter fun row => p row ∧ (read row).accountID = accountID).map
        fun row => (read row).sizeBytes).sum := by
  unfold bytesOf Table.contents
  rw [Multiset.filter_coe, Multiset.map_coe, Multiset.sum_coe]
  induction table.rows with
  | nil => rfl
  | cons row rest ih =>
    by_cases hit : p row <;> by_cases own : (read row).accountID = accountID <;>
      simp [hit, own, ih]

theorem totalBytes_contents (table : Table ρ key) (read : ρ → BlobRow) (p : ρ → Prop) [DecidablePred p] :
    totalBytes (table.contents fun row => if p row then some (read row) else none) =
      ((table.rows.filter p).map fun row => (read row).sizeBytes).sum := by
  unfold totalBytes Table.contents
  rw [Multiset.map_coe, Multiset.sum_coe]
  induction table.rows with
  | nil => rfl
  | cons row rest ih => by_cases hit : p row <;> simp [hit, ih]

end Sums

theorem bytesOf_blobRows (db : Database) (accountID : AccountID) :
    bytesOf db.blobRows accountID = db.accountBytes accountID := by
  have attachments := bytesOf_contents db.store.attachments (·.blobRow) (fun _ => True) accountID
  have backups := bytesOf_contents db.blobs.backups (·.blobRow) (fun _ => True) accountID
  have transfers := bytesOf_contents db.blobs.transfers (·.blobRow) (·.state = .active) accountID
  have intents := bytesOf_contents db.blobs.intents.toTable (·.blobRow) (fun _ => True) accountID
  simp only [if_true, true_and] at attachments backups intents
  unfold blobRows accountBytes
  rw [bytesOf_add, bytesOf_add, bytesOf_add, attachments, backups, intents]
  exact congrArg (_ + · + _) transfers

theorem totalBytes_blobRows (db : Database) : totalBytes db.blobRows = db.instanceBytes := by
  have attachments := totalBytes_contents db.store.attachments (·.blobRow) fun _ => True
  have backups := totalBytes_contents db.blobs.backups (·.blobRow) fun _ => True
  have transfers := totalBytes_contents db.blobs.transfers (·.blobRow) (·.state = .active)
  have intents := totalBytes_contents db.blobs.intents.toTable (·.blobRow) fun _ => True
  simp only [if_true, decide_true, List.filter_true] at attachments backups intents
  unfold blobRows instanceBytes
  rw [totalBytes_add, totalBytes_add, totalBytes_add, attachments, backups, intents]
  exact congrArg (_ + · + _) transfers

theorem bytesOf_nonneg (sizes : ∀ row ∈ rows, 0 ≤ row.sizeBytes)
    (accountID : AccountID) : 0 ≤ bytesOf rows accountID := by
  refine Multiset.sum_nonneg fun size mem => ?_
  obtain ⟨row, own, rfl⟩ := Multiset.mem_map.mp mem
  exact sizes row (Multiset.mem_of_mem_filter own)

theorem totalBytes_nonneg (sizes : ∀ row ∈ rows, 0 ≤ row.sizeBytes) : 0 ≤ totalBytes rows := by
  refine Multiset.sum_nonneg fun size mem => ?_
  obtain ⟨row, stored, rfl⟩ := Multiset.mem_map.mp mem
  exact sizes row stored

/-- The held blobs are within the quotas, where a negative quota admits none. -/
structure WithinQuota (config : Config) (rows : Multiset BlobRow) : Prop where
  sizes : ∀ row ∈ rows, 0 ≤ row.sizeBytes
  account : ∀ accountID, bytesOf rows accountID ≤ max 0 config.accountStorageBytes
  total : totalBytes rows ≤ max 0 config.instanceStorageBytes
  admits : ∀ row ∈ rows, 0 ≤ config.accountStorageBytes ∧ 0 ≤ config.instanceStorageBytes

/-- Dropping rows keeps the rest within the quotas. -/
theorem WithinQuota.of_add {dropped : Multiset BlobRow} (within : WithinQuota config (rows + dropped)) :
    WithinQuota config rows := by
  have less : ∀ row ∈ dropped, 0 ≤ row.sizeBytes :=
    fun row mem => within.sizes row (Multiset.mem_add.mpr (.inr mem))
  refine ⟨fun row mem => within.sizes row (Multiset.mem_add.mpr (.inl mem)), fun accountID => ?_, ?_,
    fun row mem => within.admits row (Multiset.mem_add.mpr (.inl mem))⟩
  · have bound := within.account accountID
    rw [bytesOf_add] at bound
    exact (le_add_of_nonneg_right (bytesOf_nonneg less accountID)).trans bound
  · have bound := within.total
    rw [totalBytes_add] at bound
    exact (le_add_of_nonneg_right (totalBytes_nonneg less)).trans bound

/-- An admitted blob fits into both quotas. -/
theorem quota_of_admitted {accountID : AccountID} {sizeBytes : ℤ} (counted : db.Counted)
    (within : WithinQuota config db.blobRows)
    (admitted : enforceBlobQuota config db accountID sizeBytes = .ok ()) :
    0 ≤ config.accountStorageBytes ∧ 0 ≤ config.instanceStorageBytes := by
  obtain ⟨size, account, total⟩ := enforceBlobQuota_ok admitted
  rw [counted.account] at account
  rw [counted.total] at total
  exact ⟨(add_nonneg (bytesOf_nonneg within.sizes accountID) size).trans account,
    (add_nonneg (totalBytes_nonneg within.sizes) size).trans total⟩

theorem withinQuota_of_move (move : BlobMove config db request next) (counted : db.Counted)
    (within : WithinQuota config db.blobRows) : WithinQuota config next.blobRows := by
  cases move with
  | released released => exact (released.rows ▸ within).of_add
  | @stored key _ accountID sizeBytes _ middle _ _ released admitted rows =>
    have middleWithin : WithinQuota config middle.blobRows := (released.rows ▸ within).of_add
    have middleCounted := released.counted counted
    obtain ⟨size, account, total⟩ := enforceBlobQuota_ok admitted
    rw [middleCounted.account] at account
    rw [middleCounted.total] at total
    rw [rows]
    refine ⟨fun row mem => ?_, fun other => ?_, ?_, fun _ _ => quota_of_admitted middleCounted middleWithin
      admitted⟩
    · rcases Multiset.mem_cons.mp mem with rfl | old
      · exact size
      · exact middleWithin.sizes row old
    · rw [BlobTables.bytesOf_cons]
      split
      · next own =>
        cases own
        exact account.trans (le_max_right _ _)
      · rw [add_zero]
        exact middleWithin.account other
    · rw [BlobTables.totalBytes_cons]
      exact total.trans (le_max_right _ _)
  | queued => exact queueBlobDeletion_blobRows db _ ▸ within
  | deleted => exact within

theorem counted_of_move (move : BlobMove config db request next) (counted : db.Counted) : next.Counted := by
  cases move with
  | released released => exact released.counted counted
  | stored _ released _ _ _ added => exact added (released.counted counted)
  | queued =>
    unfold Counted
    rw [queueBlobDeletion_blobRows]
    exact counted
  | deleted => exact counted

theorem counted_of_run (run : DatabaseRun config history db) :
    db.Counted ∧ WithinQuota config db.blobRows := by
  refine run.preserves_history (fun _ db => db.Counted ∧ WithinQuota config db.blobRows) ⟨?_, ?_⟩ ?_ ?_
  · exact ⟨fun _ => rfl, rfl, fun row none => absurd none (Multiset.notMem_zero row)⟩
  · exact ⟨fun row none => absurd none (Multiset.notMem_zero row), fun _ => le_max_left _ _, le_max_left _ _,
      fun row none => absurd none (Multiset.notMem_zero row)⟩
  · rintro history db request reply next run - ⟨counted, within⟩ ok
    have move := blobMove_of_run run ok
    exact ⟨counted_of_move move counted, withinQuota_of_move move counted within⟩
  · exact fun _ _ _ _ _ _ holds _ => holds

/-- The request uploads a blob: it records an attachment or a backup, or reserves or finalizes an upload of
history. -/
def Request.uploads : Request → Prop
  | .blob _ (.createAttachmentEnvelope _) | .blob _ (.createBackupBlob ..) | .history _ (.register ..)
  | .history _ (.finalize ..) => True
  | _ => False

theorem quota_of_upload (run : DatabaseRun config history db) (uploads : request.uploads)
    (ok : Database.step config db request = .ok (reply, next)) :
    0 ≤ config.accountStorageBytes ∧ 0 ≤ config.instanceStorageBytes := by
  obtain ⟨counted, within⟩ := counted_of_run run
  cases outcome_of_step ok with
  | @blob now request next served =>
    cases request <;> try exact uploads.elim
    case createAttachmentEnvelope =>
      exact quota_of_admitted counted within (createAttachmentEnvelope_ok served).1
    case createBackupBlob =>
      obtain ⟨_, _, created, -⟩ := createBackupBlob_ok served
      exact quota_of_admitted counted within created.admitted
  | @history now request reply next served =>
    cases request <;> simp only [historyStep] at served <;> try exact uploads.elim
    case register id access input key =>
      obtain ⟨inner, ran, -⟩ := map_eq_ok.mp served
      obtain ⟨_, _, registered⟩ := registerHistoryUpload_ok ran
      have released := db.released_intents fun intent => intent.linkID = id ∧ intent.expiresAt ≤ now
      exact quota_of_admitted (released.counted counted) (released.rows ▸ within).of_add registered.admitted
    case finalize id access input ref =>
      -- The registration of this upload was admitted, and its row is still there.
      obtain ⟨_, ran, -⟩ := map_eq_ok.mp served
      obtain ⟨_, intent, _, finalized⟩ := finalizeHistoryUpload_ok ran
      refine within.admits intent.blobRow (Multiset.mem_add.mpr (.inr ?_))
      exact Table.mem_contents.mpr ⟨intent, finalized.registered, rfl⟩
  | _ => exact uploads.elim

/-- The counters in a history and the database it ends in. -/
structure StorageUsageSound (config : Config) (history : List Exchange) (db : Database) : Prop where
  account : ∀ accountID, db.blobs.usageOf accountID = db.accountBytes accountID
  total : db.blobs.instanceUsage = db.instanceBytes
  /-- After an admitted upload no counter is above its quota. -/
  quota : ∀ exchange ∈ history, exchange.call.uploads → exchange.answer.isOk →
    (∀ accountID, exchange.after.blobs.usageOf accountID ≤ config.accountStorageBytes) ∧
      exchange.after.blobs.instanceUsage ≤ config.instanceStorageBytes

/-- The counters are exact in every run, and uploads stay within the quotas. -/
theorem storage_usage_sound (run : DatabaseRun config history db) : StorageUsageSound config history db where
  account accountID := ((counted_of_run run).1.account accountID).trans (bytesOf_blobRows db accountID)
  total := (counted_of_run run).1.total.trans (totalBytes_blobRows db)
  quota := by
    intro exchange member uploads accepted
    obtain ⟨earlier, later, rfl⟩ := List.append_of_mem member
    obtain ⟨before, -, -⟩ := run.at_entry
    obtain ⟨counted, within⟩ := counted_of_run run.through_entry
    rcases run.committed_or_refused member with ⟨answer, -, committed⟩ | ⟨refusal, refused, -⟩
    · obtain ⟨accountQuota, instanceQuota⟩ := quota_of_upload before uploads committed
      constructor
      · intro accountID
        rw [counted.account]
        exact (within.account accountID).trans (max_le accountQuota le_rfl)
      · rw [counted.total]
        exact within.total.trans (max_le instanceQuota le_rfl)
    · rw [refused] at accepted
      cases accepted

namespace Example

/-- Alice stores a backup and a photo. Her video is over the quota, so its handler queues the blob. Then she
deletes the backup, and the sweep deletes its blob. -/
def storesBlobs : List Request :=
  [.reserve 0 (.owner "first" alice "alice-phone"),
    .enroll 0 (.createOwner (registration "alice" "first")),
    .blob 1 (.createBackupBlob "backup" alice "alice-phone" "backup-key" "sha" 600 none ⟨"state", some 1⟩
      (List.replicate 32 1)),
    .blob 2 (.createAttachmentEnvelope ⟨"photo", alice, none, "photo-key", 300, 2⟩),
    .blob 3 (.createAttachmentEnvelope ⟨"video", alice, none, "video-key", 200, 3⟩),
    .blob 4 (.queueBlobDeletion "video-key"),
    .blob 5 (.deleteBackup "backup" alice),
    .blob 6 (.completeBlobDeletion "backup-key")]

end Example

open Example in
/-- Alice's counter is at the size of the photo; the backup and the photo were admitted, the video was not. -/
theorem storage_usage_sound_alice :
    StorageUsageSound smallConfig (served storesBlobs) (reached storesBlobs) ∧
      (((served storesBlobs).take 5).map (·.answer.isOk)) = [true, true, true, true, false] ∧
      (reached (storesBlobs.take 4)).blobs.usageOf alice = 900 ∧
      (reached storesBlobs).blobs.usageOf alice = 300 ∧ (reached storesBlobs).accountBytes alice = 300 :=
  ⟨storage_usage_sound (served_run storesBlobs), by decide +kernel⟩

end Veritra.Storage
