import Veritra.Proofs.Storage.HistoryRows
import Veritra.Relational.Contents

/-! # Blobs that come and go

A blob row is what an attachment, a backup, an upload or an active transfer says about the blob it holds.
Every request drops some of the rows and adds at most one, the triggers keep the counters at the sums over
the rows, and the keys of dropped rows are queued.
-/

namespace Veritra.Storage

open Relational Machine

/-- One held blob. -/
structure BlobRow where
  storageKey : Option StorageKey
  accountID : AccountID
  sizeBytes : ℤ
  deriving DecidableEq, Repr

def AttachmentEnvelope.blobRow (a : AttachmentEnvelope) : BlobRow :=
  ⟨some a.storageKey, a.ownerAccountID, a.sizeBytes⟩

def BackupBlob.blobRow (b : BackupBlob) : BlobRow := ⟨some b.storageKey, b.accountID, b.sizeBytes⟩

def UploadIntent.blobRow (i : UploadIntent) : BlobRow := ⟨some i.storageKey, i.accountID, i.sizeBytes⟩

def HistoryTransfer.blobRow (t : HistoryTransfer) : BlobRow := ⟨t.storageKey, t.accountID, t.sizeBytes⟩

/-- Only an active transfer holds its blob. -/
def HistoryTransfer.blobRow? (t : HistoryTransfer) : Option BlobRow :=
  if t.state = .active then some t.blobRow else none

/-- The keys of the blobs that the request stores a row for. -/
def Request.storedKeys : Request → List StorageKey
  | .blob _ (.createAttachmentEnvelope attachment) => [attachment.storageKey]
  | .blob _ (.createBackupBlob _ _ _ storageKey ..) => [storageKey]
  | .history _ (.register _ _ _ key) => [key]
  | _ => []

namespace Database

def blobRows (db : Database) : Multiset BlobRow :=
  db.store.attachments.contents (some ·.blobRow) + db.blobs.backups.contents (some ·.blobRow) +
    db.blobs.transfers.contents (·.blobRow?) + db.blobs.intents.contents (some ·.blobRow)

variable {config : Config} {db middle next : Database} {now : Time}

theorem enqueueEach_attachments (s : Store) (storageKeys : List StorageKey) :
    (storageKeys.foldl Store.enqueueBlobDeletion s).attachments = s.attachments := by
  obtain ⟨_, frame⟩ := s.enqueueEach_frame storageKeys
  rw [frame]

theorem withStore_blobRows (db : Database) (store : Store) : ∃ shared : Multiset BlobRow, db.blobRows =
      shared + ↑((db.store.attachments.rows.filter (· ∉ store.attachments.rows)).map (·.blobRow)) ∧
    (db.withStore store).blobRows =
      shared + ↑((store.attachments.rows.filter (· ∉ db.store.attachments.rows)).map (·.blobRow)) := by
  obtain ⟨backups, transfers, intents⟩ := db.withStore_tables store
  obtain ⟨shared, before, after⟩ := db.store.attachments.contents_diff store.attachments (some ·.blobRow)
  rw [List.filterMap_eq_map'] at before after
  refine ⟨shared + db.blobs.backups.contents (some ·.blobRow) + db.blobs.transfers.contents (·.blobRow?) +
    db.blobs.intents.contents (some ·.blobRow), ?_, ?_⟩
  · unfold blobRows
    rw [before]
    abel
  · unfold blobRows
    rw [backups, transfers, intents, show (db.withStore store).store = store from rfl, after]
    abel

theorem retireHistoryIntents_blobRows (db : Database) (p : UploadIntent → Prop) [DecidablePred p] :
    db.blobRows = (db.retireHistoryIntents p).blobRows + ↑((db.blobs.intents.rows.filter p).map (·.blobRow)) := by
  obtain ⟨backups, transfers, intents⟩ := db.retireHistoryIntents_tables p
  have dropped := db.blobs.intents.contents_delete p (some ·.blobRow)
  rw [List.filterMap_eq_map'] at dropped
  unfold blobRows
  rw [backups, transfers, intents, dropped, (db.retireHistoryIntents_retires p).store, ← add_assoc]
  rfl

theorem retireHistoryTransfers_blobRows (db : Database) (p : HistoryTransfer → Prop) [DecidablePred p]
    {state : TransferState} (terminal : state ≠ .active) (now : Time) :
    db.blobRows = (db.retireHistoryTransfers p state now).blobRows +
      ↑((db.blobs.transfers.rows.filter fun t => t.state = .active ∧ p t).map (·.blobRow)) := by
  have rows : (db.blobs.transfers.rows.filter fun t => t.state = .active ∧ p t).filterMap (·.blobRow?) =
      (db.blobs.transfers.rows.filter fun t => t.state = .active ∧ p t).map (·.blobRow) := by
    rw [← List.filterMap_eq_map']
    refine List.filterMap_congr fun t mem => if_pos ?_
    exact (of_decide_eq_true (List.mem_filter.mp mem).2).1
  obtain ⟨backups, transfers, intents⟩ := db.retireHistoryTransfers_tables p state now
  have dropped := db.blobs.transfers.contents_hide (fun t => t.state = .active ∧ p t)
    (·.retire state now) (fun _ => rfl) (·.blobRow?) fun t => if_neg terminal
  rw [rows] at dropped
  unfold blobRows
  rw [backups, transfers, intents, (db.retireHistoryTransfers_retires p state now).store, dropped, ← add_assoc,
    add_right_comm]

theorem deleteDeviceLinks_blobRows (db : Database) (p : DeviceLink → Prop) [DecidablePred p]
    (noIntents : ∀ intent ∈ db.blobs.intents, ¬ db.linkDeleted p intent.linkID)
    (noActive : ∀ t ∈ db.blobs.transfers, t.state = .active → ¬ db.linkDeleted p t.linkID) :
    (db.deleteDeviceLinks p).blobRows = db.blobRows := by
  obtain ⟨backups, transfers, intents⟩ := db.deleteDeviceLinks_tables p
  have noRow : (db.blobs.transfers.delete fun t => db.linkDeleted p t.linkID).contents (·.blobRow?) =
      db.blobs.transfers.contents (·.blobRow?) :=
    Table.contents_delete_unread fun t mem deleted =>
      if_neg fun active => noActive t mem active deleted
  have noUpload : (db.blobs.intents.toTable.delete fun i => db.linkDeleted p i.linkID).contents (some ·.blobRow) =
      db.blobs.intents.contents (some ·.blobRow) :=
    Table.contents_delete_unread fun i mem deleted => absurd deleted (noIntents i mem)
  unfold blobRows
  rw [backups, transfers, intents, noRow]
  exact congrArg _ noUpload

end Database

def bytesOf (rows : Multiset BlobRow) (accountID : AccountID) : ℤ :=
  ((rows.filter (·.accountID = accountID)).map (·.sizeBytes)).sum

def totalBytes (rows : Multiset BlobRow) : ℤ := (rows.map (·.sizeBytes)).sum

namespace BlobTables

variable {b : BlobTables} {rows : Multiset BlobRow} {row : BlobRow}

/-- The counters are the sums over the rows, and every account with a blob has one. -/
structure Counts (b : BlobTables) (rows : Multiset BlobRow) : Prop where
  account : ∀ accountID, b.usageOf accountID = bytesOf rows accountID
  total : b.instanceUsage = totalBytes rows
  counted : ∀ row ∈ rows, ∃ usage ∈ b.accountUsage, usage.accountID = row.accountID

theorem Counts.congr {b' : BlobTables} (counts : b.Counts rows) (accounts : b'.accountUsage = b.accountUsage)
    (total : b'.instanceUsage = b.instanceUsage) : b'.Counts rows := by
  refine ⟨fun accountID => ?_, total.trans counts.total, accounts ▸ counts.counted⟩
  unfold usageOf
  rw [accounts]
  exact counts.account accountID

theorem usageOf_addUsage (b : BlobTables) (accountID other : AccountID) (sizeBytes : ℤ) :
    (b.addUsage accountID sizeBytes).usageOf other = b.usageOf other + if other = accountID then sizeBytes else 0 := by
  unfold usageOf addUsage
  rw [Table.find?_upsert]
  by_cases same : accountID = other
  · subst same
    cases b.accountUsage.find? accountID <;> simp
  · simp [same, Ne.symm same]

theorem usageOf_dropUsage {accountID : AccountID}
    (counted : ∃ usage ∈ b.accountUsage, usage.accountID = accountID) (other : AccountID) (sizeBytes : ℤ) :
    (b.dropUsage accountID sizeBytes).usageOf other = b.usageOf other - if other = accountID then sizeBytes else 0 := by
  unfold usageOf dropUsage
  rw [Table.find?_update]
  by_cases same : other = accountID
  · cases same
    obtain ⟨usage, mem, known⟩ := counted
    rw [Table.find?_eq_some.mpr ⟨mem, known⟩]
    simp [known]
  · cases found : b.accountUsage.find? other with
    | none => simp [same]
    | some usage =>
      have own := (Table.find?_eq_some.mp found).2
      simp [same, show usage.accountID = other from own]

theorem bytesOf_cons (row : BlobRow) (rows : Multiset BlobRow) (accountID : AccountID) :
    bytesOf (row ::ₘ rows) accountID =
      bytesOf rows accountID + if accountID = row.accountID then row.sizeBytes else 0 := by
  unfold bytesOf
  by_cases own : row.accountID = accountID
  · rw [Multiset.filter_cons_of_pos (p := fun r : BlobRow => r.accountID = accountID) rows own, Multiset.map_cons, Multiset.sum_cons, if_pos own.symm, add_comm]
  · rw [Multiset.filter_cons_of_neg (p := fun r : BlobRow => r.accountID = accountID) rows own, if_neg (Ne.symm own), add_zero]

theorem totalBytes_cons (row : BlobRow) (rows : Multiset BlobRow) :
    totalBytes (row ::ₘ rows) = totalBytes rows + row.sizeBytes := by
  unfold totalBytes
  rw [Multiset.map_cons, Multiset.sum_cons, add_comm]

/-- The delete trigger of a row. -/
theorem Counts.drop (counts : b.Counts (row ::ₘ rows)) :
    (b.dropUsage row.accountID row.sizeBytes).Counts rows where
  account accountID := by
    rw [usageOf_dropUsage (counts.counted row (Multiset.mem_cons_self row rows)), counts.account,
      bytesOf_cons, add_sub_cancel_right]
  total := by
    have total := counts.total
    rw [totalBytes_cons] at total
    exact sub_eq_of_eq_add total
  counted other mem := by
    obtain ⟨usage, stored, own⟩ := counts.counted other (Multiset.mem_cons_of_mem mem)
    obtain ⟨new, present, rfl | rfl⟩ := Table.exists_mem_update stored (·.accountID = row.accountID)
      (fun usage => { usage with sizeBytes := usage.sizeBytes - row.sizeBytes }) fun _ => rfl
    · exact ⟨new, present, own⟩
    · exact ⟨_, present, own⟩

/-- The insert trigger of a row. -/
theorem Counts.add (counts : b.Counts rows) (row : BlobRow) :
    (b.addUsage row.accountID row.sizeBytes).Counts (row ::ₘ rows) where
  account accountID := by rw [usageOf_addUsage, counts.account, bytesOf_cons]
  total := by
    rw [totalBytes_cons, ← counts.total]
    rfl
  counted other mem := by
    rcases Multiset.mem_cons.mp mem with rfl | old
    · have reached : ∃ usage ∈ (b.addUsage other.accountID other.sizeBytes).accountUsage,
          usage.accountID = other.accountID ∧ 0 ≤ 0 := Table.upsert_reaches (fun _ => 0) fun _ => Nat.le_refl 0
      obtain ⟨usage, present, own, -⟩ := reached
      exact ⟨usage, present, own⟩
    · obtain ⟨known, stored, same⟩ := counts.counted other old
      obtain ⟨usage, present, own, -⟩ := Table.upsert_raises (fun _ => 0) (fun _ => Nat.le_refl 0) stored
      exact ⟨usage, present, own.trans same⟩

/-- The delete triggers of some rows. -/
theorem Counts.dropEach {ρ : Type} (list : List ρ) (read : ρ → BlobRow)
    (counts : b.Counts (rows + ↑(list.map read))) :
    (list.foldl (fun b row => b.dropUsage (read row).accountID (read row).sizeBytes) b).Counts rows := by
  induction list generalizing b with
  | nil => simpa using counts
  | cons first rest ih =>
    rw [List.map_cons, ← Multiset.cons_coe, Multiset.add_cons] at counts
    exact ih counts.drop

/-- The insert triggers of some rows. -/
theorem Counts.addEach {ρ : Type} (list : List ρ) (read : ρ → BlobRow) (counts : b.Counts rows) :
    (list.foldl (fun b row => b.addUsage (read row).accountID (read row).sizeBytes) b).Counts
      (rows + ↑(list.map read)) := by
  induction list generalizing b rows with
  | nil => simpa using counts
  | cons first rest ih =>
    rw [List.map_cons, ← Multiset.cons_coe, Multiset.add_cons, ← Multiset.cons_add]
    exact ih (counts.add (read first))

end BlobTables

namespace Database

variable {config : Config} {db middle next : Database} {now : Time}

/-- The counters are the sums over the held blobs. -/
def Counted (db : Database) : Prop := db.blobs.Counts db.blobRows

/-- The rows are dropped, their keys and no others are queued, and the counters follow. -/
structure Released (db next : Database) (dropped : Multiset BlobRow) : Prop where
  rows : db.blobRows = next.blobRows + dropped
  queue : ∀ key, key ∈ next.store.blobDeletions ↔ key ∈ db.store.blobDeletions ∨ some key ∈ dropped.map (·.storageKey)
  counted : db.Counted → next.Counted
  attachments : ∀ a ∈ next.store.attachments, a ∈ db.store.attachments

/-- Nothing is dropped. -/
theorem Released.of_rows (rows : next.blobRows = db.blobRows)
    (queue : next.store.blobDeletions = db.store.blobDeletions)
    (accounts : next.blobs.accountUsage = db.blobs.accountUsage)
    (total : next.blobs.instanceUsage = db.blobs.instanceUsage)
    (attachments : next.store.attachments = db.store.attachments) : Released db next 0 := by
  refine ⟨by rw [rows, add_zero], fun key => by simp [queue], fun counted => ?_, fun a mem => attachments ▸ mem⟩
  unfold Counted
  rw [rows]
  exact .congr counted accounts total

theorem Released.of_same (attachments : next.store.attachments = db.store.attachments)
    (queue : next.store.blobDeletions = db.store.blobDeletions) (blobs : next.blobs = db.blobs) :
    Released db next 0 := by
  refine .of_rows ?_ queue (by rw [blobs]) (by rw [blobs]) attachments
  unfold blobRows
  rw [attachments, blobs]

/-- Rows are dropped with their triggers, and their keys are queued. -/
theorem Released.of_dropped {ρ : Type} (list : List ρ) {read : ρ → BlobRow} {keys : List StorageKey} (b : BlobTables)
    (rows : db.blobRows = next.blobRows + ↑(list.map read))
    (store : next.store = keys.foldl Store.enqueueBlobDeletion db.store)
    (keyed : ∀ key, key ∈ keys ↔ ∃ row ∈ list, (read row).storageKey = some key)
    (blobs : next.blobs = list.foldl (fun b row => b.dropUsage (read row).accountID (read row).sizeBytes) b)
    (accounts : b.accountUsage = db.blobs.accountUsage) (total : b.instanceUsage = db.blobs.instanceUsage) :
    Released db next ↑(list.map read) where
  rows := rows
  queue key := by
    rw [store]
    refine (Store.mem_enqueueEach _ _ key).trans (or_congr_right ((keyed key).trans ?_))
    simp
  counted counted := by
    unfold Counted at counted ⊢
    rw [rows] at counted
    rw [blobs]
    exact .dropEach _ _ (.congr counted accounts total)
  attachments a mem := by
    rw [store, enqueueEach_attachments] at mem
    exact mem

theorem Released.trans {first second : Multiset BlobRow} (before : Released db middle first)
    (after : Released middle next second) : Released db next (second + first) where
  rows := by rw [before.rows, after.rows, add_assoc]
  queue key := by
    rw [after.queue, before.queue, Multiset.map_add, Multiset.mem_add, or_assoc, or_comm (a := _ ∈ _)
      (b := _ ∈ Multiset.map _ second)]
  counted counted := after.counted (before.counted counted)
  attachments a mem := before.attachments a (after.attachments a mem)

theorem released_intents (db : Database) (p : UploadIntent → Prop) [DecidablePred p] :
    Released db (db.retireHistoryIntents p) ↑((db.blobs.intents.rows.filter p).map (·.blobRow)) :=
  .of_dropped _ { db.blobs with intents := db.blobs.intents.delete p } (db.retireHistoryIntents_blobRows p) rfl
    (fun key => by simp [UploadIntent.blobRow]) rfl rfl rfl

theorem released_transfers (db : Database) (p : HistoryTransfer → Prop) [DecidablePred p]
    {state : TransferState} (terminal : state ≠ .active) (now : Time) :
    Released db (db.retireHistoryTransfers p state now)
      ↑((db.blobs.transfers.rows.filter fun t => t.state = .active ∧ p t).map (·.blobRow)) :=
  .of_dropped _ { db.blobs with
      transfers := db.blobs.transfers.update (fun t => t.state = .active ∧ p t) (·.retire state now) }
    (db.retireHistoryTransfers_blobRows p terminal now) rfl (fun key => by simp [HistoryTransfer.blobRow]) rfl rfl rfl

theorem released_links (db : Database) (p : DeviceLink → Prop) [DecidablePred p]
    (noIntents : ∀ intent ∈ db.blobs.intents, ¬ db.linkDeleted p intent.linkID)
    (noActive : ∀ t ∈ db.blobs.transfers, t.state = .active → ¬ db.linkDeleted p t.linkID) :
    Released db (db.deleteDeviceLinks p) 0 := by
  -- No row of the deleted links holds a blob, so no trigger runs.
  have uploads : db.blobs.intents.rows.filter (fun i => db.linkDeleted p i.linkID) = [] := by
    refine List.filter_eq_nil_iff.mpr fun i mem hit => ?_
    exact noIntents i mem (of_decide_eq_true hit)
  have actives : db.blobs.transfers.rows.filter
      (fun t => db.linkDeleted p t.linkID ∧ t.state = .active) = [] := by
    refine List.filter_eq_nil_iff.mpr fun t mem hit => ?_
    obtain ⟨deleted, active⟩ := of_decide_eq_true hit
    exact noActive t mem active deleted
  refine .of_rows (db.deleteDeviceLinks_blobRows p noIntents noActive) rfl ?_ ?_ rfl
  all_goals simp only [deleteDeviceLinks, uploads, actives, List.foldl_nil]

/-- Every operation that retires history releases what it drops. -/
theorem Retirement.released (retirement : Retirement db next) : ∃ dropped, Released db next dropped := by
  induction retirement with
  | refl => exact ⟨0, .of_same rfl rfl rfl⟩
  | trans _ _ first second =>
    obtain ⟨_, first⟩ := first
    obtain ⟨_, second⟩ := second
    exact ⟨_, first.trans second⟩
  | intents db p => exact ⟨_, db.released_intents p⟩
  | transfers db p terminal now => exact ⟨_, db.released_transfers p terminal now⟩
  | links db p noIntents noActive => exact ⟨0, db.released_links p noIntents noActive⟩

theorem withStore_counted (counted : db.Counted) (store : Store) : (db.withStore store).Counted := by
  obtain ⟨shared, before, after⟩ := db.withStore_blobRows store
  unfold Counted at counted ⊢
  rw [before] at counted
  rw [after]
  exact (BlobTables.Counts.dropEach _ _ counted).addEach
    (store.attachments.rows.filter (· ∉ db.store.attachments.rows)) (·.blobRow)

/-- Replacing the message store releases the attachments that went. -/
theorem released_store {store : Store} (released : AttachmentsReleased db.store store) :
    Released db (db.withStore store)
      ↑((db.store.attachments.rows.filter (· ∉ store.attachments.rows)).map (·.blobRow)) where
  rows := by
    obtain ⟨shared, before, after⟩ := db.withStore_blobRows store
    have none : store.attachments.rows.filter (· ∉ db.store.attachments.rows) = [] := by
      refine List.filter_eq_nil_iff.mpr fun a mem new => ?_
      exact of_decide_eq_true new (released.attachments a mem)
    rw [none, List.map_nil, Multiset.coe_nil, add_zero] at after
    rw [before, after]
  queue key := by
    refine (released.queue key).trans (or_congr_right ?_)
    simp [AttachmentEnvelope.blobRow, Table.mem_def, and_assoc]
  counted counted := db.withStore_counted counted store
  attachments := released.attachments

/-- The backups of an account are dropped and their keys queued. -/
theorem released_backups (db : Database) (accountID : AccountID) : Released db { db with
        store := (db.backupKeys accountID).foldl Store.enqueueBlobDeletion db.store
        blobs := dropBackups db.blobs accountID }
      ↑((db.blobs.backups.rows.filter (·.accountID = accountID)).map (·.blobRow)) := by
  refine .of_dropped _ { db.blobs with backups := db.blobs.backups.delete (·.accountID = accountID) } ?_ rfl
    (fun key => by simp [BackupBlob.blobRow, backupKeys]) rfl rfl rfl
  have dropped := db.blobs.backups.contents_delete (·.accountID = accountID) (some ·.blobRow)
  rw [List.filterMap_eq_map'] at dropped
  obtain ⟨backups, transfers, intents⟩ := dropBackups_tables db.blobs accountID
  unfold blobRows
  dsimp only
  rw [enqueueEach_attachments, backups, transfers, intents, dropped]
  abel

/-- A backup is deleted and its key queued. -/
theorem released_backup {backup : BackupBlob} (stored : backup ∈ db.blobs.backups) : Released db { db with
        store := db.store.enqueueBlobDeletion backup.storageKey
        blobs := { db.blobs with backups := db.blobs.backups.delete (·.id = backup.id) }.dropUsage
          backup.accountID backup.sizeBytes } {backup.blobRow} := by
  refine .of_dropped [backup] { db.blobs with backups := db.blobs.backups.delete (·.id = backup.id) } ?_
    (show _ = [backup.storageKey].foldl Store.enqueueBlobDeletion db.store from rfl)
    (fun key => by simp [BackupBlob.blobRow, eq_comm]) rfl rfl rfl
  have less := db.blobs.backups.contents_delete_key stored (some ·.blobRow)
  have attachments := enqueueEach_attachments db.store [backup.storageKey]
  rw [List.foldl_cons, List.foldl_nil] at attachments
  unfold blobRows
  dsimp only [BlobTables.dropUsage]
  rw [attachments, less, Option.toList_some, List.map_singleton]
  abel

theorem queueBlobDeletion_blobRows (db : Database) (storageKey : StorageKey) :
    (db.queueBlobDeletion storageKey).blobRows = db.blobRows := by
  have attachments : (db.store.enqueueBlobDeletion storageKey).attachments = db.store.attachments :=
    enqueueEach_attachments db.store [storageKey]
  unfold blobRows queueBlobDeletion
  rw [attachments]

/-- What a committed request did to the held blobs and the queue. -/
inductive BlobMove (config : Config) (db : Database) : Request → Database → Prop
  | released {next : Database} (released : Released db next dropped) : BlobMove config db request next
  | stored {middle next : Database} (brought : key ∈ request.storedKeys)
      (released : Released db middle dropped)
      (admitted : enforceBlobQuota config middle accountID sizeBytes = .ok ())
      (rows : next.blobRows = ⟨some key, accountID, sizeBytes⟩ ::ₘ middle.blobRows)
      (queue : next.store.blobDeletions = middle.store.blobDeletions)
      (counted : middle.Counted → next.Counted)
      (unique : middle.store.AttachmentKeysUnique → next.store.AttachmentKeysUnique) :
      BlobMove config db request next
  | queued {now : Time} :
      BlobMove config db (.blob now (.queueBlobDeletion storageKey)) (db.queueBlobDeletion storageKey)
  | deleted {now : Time} :
      BlobMove config db (.blob now (.completeBlobDeletion storageKey)) (db.completeBlobDeletion storageKey)

/-- The upload becomes a transfer that holds the same blob. -/
theorem released_finalized {id : LinkID} {input : HistoryTransferInput} {ref : BlobRef}
    {link : DeviceLink} {intent : UploadIntent} {transfer : HistoryTransfer} (sound : HistorySound db)
    (finalized : UploadFinalized db now id input ref link intent transfer next) : Released db next 0 := by
  obtain ⟨transfers, inserted, rfl⟩ := finalized.inserted
  obtain ⟨recipientDeviceID, expiresAt, rfl⟩ := finalized.created
  obtain ⟨link', known, takes⟩ := sound.taken intent finalized.registered
  cases Table.eq_of_key known finalized.member
    ((takes.id.trans finalized.ofLink).trans finalized.named.symm)
  have same : (input.transfer link recipientDeviceID ref now expiresAt).blobRow = intent.blobRow := by
    have size := sound.sized intent finalized.registered
    rw [finalized.metadata] at size
    simp only [HistoryTransfer.blobRow, UploadIntent.blobRow, HistoryTransferInput.transfer, finalized.key,
      takes.account, size]
  -- The rows besides the upload's, which the transfer's row joins.
  let others := db.store.attachments.contents (some ·.blobRow) + db.blobs.backups.contents (some ·.blobRow) +
    db.blobs.transfers.contents (·.blobRow?) +
    (db.blobs.intents.toTable.delete (·.storageKey = ref.storageKey)).contents (some ·.blobRow)
  have before : db.blobRows = intent.blobRow ::ₘ others := by
    have rest := db.blobs.intents.contents_delete_key finalized.registered (some ·.blobRow)
    rw [finalized.key] at rest
    unfold blobRows
    rw [rest, ← add_assoc, Option.toList_some, ← Multiset.singleton_add, add_comm]
    rfl
  have after : { db with
      blobs := ({ db.blobs with
        intents := db.blobs.intents.delete (·.storageKey = ref.storageKey), transfers }.dropUsage
          intent.accountID intent.sizeBytes).addUsage
            (input.transfer link recipientDeviceID ref now expiresAt).accountID
            (input.transfer link recipientDeviceID ref now expiresAt).sizeBytes }.blobRows =
      intent.blobRow ::ₘ others := by
    have more : transfers.contents (·.blobRow?) = db.blobs.transfers.contents (·.blobRow?) + {intent.blobRow} := by
      rw [Table.contents_of_insert? _ inserted, ← same]
      rfl
    unfold blobRows
    dsimp only [BlobTables.addUsage, BlobTables.dropUsage]
    rw [more, ← add_assoc, add_right_comm, add_comm, Multiset.singleton_add]
    rfl
  refine ⟨by rw [before, after, add_zero], fun key => by simp, fun counted => ?_, fun _ mem => mem⟩
  unfold Counted at counted ⊢
  rw [before] at counted
  rw [after]
  have account : (input.transfer link recipientDeviceID ref now expiresAt).accountID = intent.accountID :=
    congrArg BlobRow.accountID same
  have size : (input.transfer link recipientDeviceID ref now expiresAt).sizeBytes = intent.sizeBytes :=
    congrArg BlobRow.sizeBytes same
  rw [account, size]
  exact .congr ((BlobTables.Counts.drop counted).add intent.blobRow) rfl rfl

/-- The insert trigger counts an added row. -/
theorem counted_of_added {row : BlobRow} (rows : next.blobRows = row ::ₘ middle.blobRows)
    (accounts : next.blobs.accountUsage = (middle.blobs.addUsage row.accountID row.sizeBytes).accountUsage)
    (total : next.blobs.instanceUsage = (middle.blobs.addUsage row.accountID row.sizeBytes).instanceUsage)
    (counted : middle.Counted) : next.Counted := by
  unfold Counted
  rw [rows]
  exact .congr (BlobTables.Counts.add counted row) accounts total

theorem blobMove_of_history {request : HistoryRequest} {reply : HistoryReply} (sound : HistorySound db)
    (served : historyStep config db now request = .ok (reply, next)) :
    BlobMove config db (.history now request) next := by
  cases historyOutcome_of_step served with
  | unchanged => exact .released (.of_same rfl rfl rfl)
  | @registered key link _ id _ input _ registered =>
    obtain ⟨intents, inserted, rfl⟩ := registered.inserted
    have rows : { db.withoutExpired id now with
        blobs := { (db.withoutExpired id now).blobs with intents }.addUsage link.accountID
          input.sizeBytes }.blobRows =
        ⟨some key, link.accountID, input.sizeBytes⟩ ::ₘ (db.withoutExpired id now).blobRows := by
      have more := IndexedTable.contents_of_insert? (some ·.blobRow) inserted
      unfold blobRows
      dsimp only [BlobTables.addUsage]
      rw [more, ← add_assoc, add_comm]
      exact Multiset.singleton_add _ _
    exact .stored List.mem_cons_self (db.released_intents _) registered.admitted rows rfl
      (counted_of_added rows rfl rfl) fun unique => unique
  | finalized finalized => exact .released (released_finalized sound finalized)
  | aborted => exact .released (db.released_intents _)
  | acknowledged => exact .released (db.released_transfers _ (by decide) now)
  | @cancelled id =>
    have retired := (db.released_intents (·.linkID = id)).trans
      (released_transfers _ (·.linkID = id) (show TransferState.cancelled ≠ .active by decide) now)
    exact .released (retired.trans (.of_same rfl rfl rfl))

/-- Marking backups changes no held blob. -/
theorem released_of_same {backups : Table BackupBlob BackupBlob.id}
    {transfers : Table HistoryTransfer HistoryTransfer.linkID}
    (sameBackups : backups.contents (some ·.blobRow) = db.blobs.backups.contents (some ·.blobRow))
    (sameTransfers : transfers.contents (·.blobRow?) = db.blobs.transfers.contents (·.blobRow?)) :
    Released db { db with blobs := { db.blobs with backups, transfers } } 0 := by
  refine .of_rows ?_ rfl rfl rfl rfl
  unfold blobRows
  rw [sameBackups, sameTransfers]

theorem released_of_marked (marked : BackupsMarked db next) : Released db next 0 := by
  obtain ⟨p, change, keeps, same⟩ := marked
  refine released_of_same ?_ rfl
  refine Table.contents_update fun b => ?_
  obtain ⟨key, account, size⟩ := same b
  unfold BackupBlob.blobRow
  rw [key, account, size]

theorem blobMove_of_blob {request : BlobRequest} (served : blobStep config db now request = .ok next) :
    BlobMove config db (.blob now request) next := by
  cases request <;> simp only [blobStep] at served
  case createAttachmentEnvelope attachment =>
    obtain ⟨admitted, unused, attachments, inserted, rfl⟩ := createAttachmentEnvelope_ok served
    have brought : attachment.storageKey ∈ Request.storedKeys (.blob now (.createAttachmentEnvelope attachment)) :=
      List.mem_cons_self
    refine .stored brought (.of_same rfl rfl rfl) admitted ?_ rfl
      (fun counted => db.withStore_counted counted _) fun unique => ?_
    rotate_left
    · intro a mem other present same
      have mem := (Table.mem_of_insert? inserted a).mp mem
      have present := (Table.mem_of_insert? inserted other).mp present
      rcases mem with old | rfl <;> rcases present with old' | rfl
      · exact unique a old other old' same
      · exact absurd same (unused a old)
      · exact absurd same.symm (unused other old')
      · rfl
    obtain ⟨backups, transfers, intents⟩ := db.withStore_tables { db.store with attachments }
    have more : attachments.contents (some ·.blobRow) = db.store.attachments.contents (some ·.blobRow) +
        {⟨some attachment.storageKey, attachment.ownerAccountID, attachment.sizeBytes⟩} := by
      rw [Table.contents_of_insert? _ inserted]
      rfl
    unfold blobRows
    rw [backups, transfers, intents, show (db.withStore { db.store with attachments }).store.attachments =
      attachments from rfl, more, ← Multiset.singleton_add]
    abel
  case createBackupBlob id accountID deviceID storageKey ciphertextSHA256 sizeBytes chunkDigests metadata
      recoveryTokenHash =>
    obtain ⟨backup, backups, created, rfl, rfl, rfl⟩ := createBackupBlob_ok served
    have account := created.account
    subst account
    have brought : backup.storageKey ∈ Request.storedKeys (.blob now (.createBackupBlob id backup.accountID
        deviceID backup.storageKey ciphertextSHA256 backup.sizeBytes chunkDigests metadata
        recoveryTokenHash)) := List.mem_cons_self
    have rows : { db with
        blobs := { db.blobs with backups }.addUsage backup.accountID backup.sizeBytes }.blobRows =
        ⟨some backup.storageKey, backup.accountID, backup.sizeBytes⟩ ::ₘ db.blobRows := by
      have more : backups.contents (some ·.blobRow) = db.blobs.backups.contents (some ·.blobRow) +
            {⟨some backup.storageKey, backup.accountID, backup.sizeBytes⟩} := by
        rw [Table.contents_of_insert? _ created.inserted]
        exact congrArg (· + _) (Table.contents_update fun _ => rfl)
      unfold blobRows
      dsimp only [BlobTables.addUsage]
      rw [more, ← Multiset.singleton_add]
      abel
    exact .stored brought (.of_same rfl rfl rfl) created.admitted rows rfl (counted_of_added rows rfl rfl)
      fun unique => unique
  case deleteBackup id accountID =>
    obtain ⟨backup, stored, rfl, rfl, rfl⟩ := deleteBackup_ok served
    exact .released (released_backup stored)
  case queueBlobDeletion storageKey =>
    cases served
    exact .queued
  case completeBlobDeletion storageKey =>
    cases served
    exact .deleted
  case recordBlobChunkDigests storageKey ciphertextSHA256 sizeBytes chunkDigests =>
    have served := of_require served
    cases served
    exact .released (released_of_same (Table.contents_update fun _ => rfl)
      (Table.contents_update fun _ => rfl))
  case beginRecoveryTransfer => exact .released (released_of_marked (beginRecoveryTransfer_marks served))
  case renewRecoveryTransfer => exact .released (released_of_marked (renewRecoveryTransfer_marks served))
  case completeRecoveryTransfer => exact .released (released_of_marked (completeRecoveryTransfer_marks served))

/-- Every committed request did one of these to the held blobs. -/
theorem blobMove_of_step {request : Request} {reply : Reply} (sound : HistorySound db)
    (unique : db.store.AttachmentKeysUnique)
    (ok : Database.step config db request = .ok (reply, next)) : BlobMove config db request next := by
  have called : ∀ {request : PublicCall} {answer : Answer} {store : Store},
      Storage.step config.limits db.store request.1 = .ok (answer, store) →
      ∃ dropped, Released db (db.withStore store) dropped := by
    intro request answer store called
    refine ⟨_, released_store (.of_step unique called fun now a same => ?_)⟩
    have isPublic := request.2
    rw [same] at isPublic
    cases isPublic
  cases outcome_of_step ok with
  | called ran =>
    obtain ⟨_, released⟩ := called ran
    exact .released released
  | @revoked _ _ _ store now accountID deviceID ran =>
    obtain ⟨_, released⟩ := called ran
    obtain ⟨_, retired⟩ := (retireDeviceLinksForDevice_retirement
      { db.withStore store with sessions := db.sessions.delete (·.deviceID = some deviceID) }
      accountID deviceID now).released
    have sessions : Released (db.withStore store)
        { db.withStore store with sessions := db.sessions.delete (·.deviceID = some deviceID) } 0 :=
      .of_same rfl rfl rfl
    exact .released ((released.trans sessions).trans retired)
  | statusSet ran =>
    obtain ⟨_, released⟩ := called ran
    exact .released (released.trans (.of_same rfl rfl rfl))
  | @deleted _ _ _ store now accountID _ ran =>
    obtain ⟨_, released⟩ := called ran
    obtain ⟨_, retired⟩ := ((db.withStore store).withoutAccountLinks_retirement now accountID).released
    have backups := ((db.withStore store).withoutAccountLinks now accountID).released_backups accountID
    exact .released (((released.trans retired).trans backups).trans (.of_same rfl rfl rfl))
  | registered _ registered =>
    have same := (Store.registerAccount_calm registered.registered).blobs
    exact .released (.of_same same.attachments same.blobDeletions rfl)
  | @legacyApproved _ _ _ withSyncEvent _ _ _ enrolled =>
    have same := (Store.enrollDevice_calm enrolled).blobs
    cases withSyncEvent <;> exact .released (.of_same same.attachments same.blobDeletions rfl)
  | approved _ _ _ outcome =>
    cases outcome with
    | repeated => exact .released (.of_same rfl rfl rfl)
    | approved _ _ enrolled =>
      have same := (Store.enrollDevice_calm enrolled).blobs
      exact .released (.of_same same.attachments same.blobDeletions rfl)
  | completed _ _ _ _ outcome => cases outcome <;> exact .released (.of_same rfl rfl rfl)
  | history served => exact blobMove_of_history sound served
  | blob served => exact blobMove_of_blob served
  | recoveryAnswered _ _ _ outcome =>
    cases outcome with
    | completed _ _ _ _ _ _ recovered =>
      obtain ⟨_, revoked⟩ := recovered.revoked
      obtain ⟨_, recovered⟩ := Store.completeRecovery_ok revoked
      obtain ⟨_, retired⟩ := (db.withoutLinks_retirement _ _).released
      have same := recovered.sameBlobs
      exact .released (retired.trans (.of_same same.attachments same.blobDeletions rfl))
    | _ => exact .released (.of_same rfl rfl rfl)
  | @pruned now =>
    obtain ⟨_, retired⟩ := (db.withoutStaleLinks_retirement now).released
    exact .released (retired.trans (.of_same rfl rfl rfl))
  | _ => exact .released (.of_same rfl rfl rfl)

end Database

open Database

variable {config : Config} {history : List Exchange} {db next : Database} {request : Request}

theorem unique_of_move (move : BlobMove config db request next) (unique : db.store.AttachmentKeysUnique) :
    next.store.AttachmentKeysUnique := by
  have kept : ∀ {db next : Database} {dropped : Multiset BlobRow}, Released db next dropped →
      db.store.AttachmentKeysUnique → next.store.AttachmentKeysUnique := by
    intro db next dropped released unique a mem other present
    exact unique a (released.attachments a mem) other (released.attachments other present)
  cases move with
  | released released => exact kept released unique
  | stored _ released _ _ _ _ added => exact added (kept released unique)
  | @queued storageKey =>
    have same := enqueueEach_attachments db.store [storageKey]
    exact fun a mem other present => unique a (same ▸ mem) other (same ▸ present)
  | deleted => exact unique

theorem attachmentKeysUnique_of_run (run : DatabaseRun config history db) :
    db.store.AttachmentKeysUnique := by
  refine (run.preserves (fun db => HistorySound db ∧ db.store.AttachmentKeysUnique) ⟨.init, ?_⟩ ?_).2
  · exact fun a none => absurd none (Table.not_mem_empty a)
  · rintro db request reply next - ⟨sound, unique⟩ ok
    exact ⟨sound.of_move (historyMove_of_step ok), unique_of_move (blobMove_of_step sound unique ok) unique⟩

/-- In a run, every committed request is one of the moves. -/
theorem blobMove_of_run {reply : Reply} (run : DatabaseRun config history db)
    (ok : Database.step config db request = .ok (reply, next)) : BlobMove config db request next :=
  blobMove_of_step (historySound_of_run run) (attachmentKeysUnique_of_run run) ok

end Veritra.Storage
