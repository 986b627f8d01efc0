import Veritra.Proofs.Storage.LinkMoves

/-! # Where uploads and transfers of history come from

After a committed request every upload intent and every transfer was there before as it is, or an active
transfer was ended, or the request registered an upload, finalized one or filled in chunk digests. A
transfer that ends leaves its key in the deletion queue, and rows go only with their link.
-/

namespace Veritra.Storage

open Relational Machine

namespace BlobTables

variable {ρ : Type} (b : BlobTables) (rows : List ρ) (account : ρ → AccountID) (size : ρ → ℤ)

/-- The delete triggers write the counters only. -/
theorem dropEach_tables :
    (rows.foldl (fun b row => b.dropUsage (account row) (size row)) b).backups = b.backups ∧
    (rows.foldl (fun b row => b.dropUsage (account row) (size row)) b).transfers = b.transfers ∧
    (rows.foldl (fun b row => b.dropUsage (account row) (size row)) b).intents = b.intents := by
  induction rows generalizing b with
  | nil => exact ⟨rfl, rfl, rfl⟩
  | cons row rest ih => exact ih (b.dropUsage (account row) (size row))

/-- The insert triggers write the counters only. -/
theorem addEach_tables :
    (rows.foldl (fun b row => b.addUsage (account row) (size row)) b).backups = b.backups ∧
    (rows.foldl (fun b row => b.addUsage (account row) (size row)) b).transfers = b.transfers ∧
    (rows.foldl (fun b row => b.addUsage (account row) (size row)) b).intents = b.intents := by
  induction rows generalizing b with
  | nil => exact ⟨rfl, rfl, rfl⟩
  | cons row rest ih => exact ih (b.addUsage (account row) (size row))

end BlobTables

namespace Database

variable {config : Config} {db middle next : Database} {now : Time} {t : HistoryTransfer} {link : DeviceLink}

theorem withStore_tables (db : Database) (store : Store) :
    (db.withStore store).blobs.backups = db.blobs.backups ∧
    (db.withStore store).blobs.transfers = db.blobs.transfers ∧
    (db.withStore store).blobs.intents = db.blobs.intents := by
  simp only [withStore, BlobTables.addEach_tables, BlobTables.dropEach_tables, and_self]

theorem retireHistoryIntents_tables (db : Database) (p : UploadIntent → Prop) [DecidablePred p] :
    (db.retireHistoryIntents p).blobs.backups = db.blobs.backups ∧
    (db.retireHistoryIntents p).blobs.transfers = db.blobs.transfers ∧
    (db.retireHistoryIntents p).blobs.intents = db.blobs.intents.delete p := by
  simp only [retireHistoryIntents, BlobTables.dropEach_tables, and_self]

theorem UploadRegistered.transfers {id : LinkID} {input : HistoryTransferInput} {key : StorageKey}
    {approval : LinkApproval}
    (registered : UploadRegistered config db now id input key link approval next) :
    next.blobs.transfers = db.blobs.transfers := by
  obtain ⟨_, -, rfl⟩ := registered.inserted
  exact (db.retireHistoryIntents_tables _).2.1

theorem retireHistoryTransfers_tables (db : Database) (p : HistoryTransfer → Prop) [DecidablePred p]
    (state : TransferState) (now : Time) :
    (db.retireHistoryTransfers p state now).blobs.backups = db.blobs.backups ∧
    (db.retireHistoryTransfers p state now).blobs.transfers =
      db.blobs.transfers.update (fun t => t.state = .active ∧ p t) (·.retire state now) ∧
    (db.retireHistoryTransfers p state now).blobs.intents = db.blobs.intents := by
  simp only [retireHistoryTransfers, BlobTables.dropEach_tables, and_self]

theorem mem_retireHistoryTransfers {p : HistoryTransfer → Prop} [DecidablePred p] {state : TransferState} :
    t ∈ (db.retireHistoryTransfers p state now).blobs.transfers ↔
      (t ∈ db.blobs.transfers ∧ ¬ (t.state = .active ∧ p t)) ∨
        ∃ old ∈ db.blobs.transfers, (old.state = .active ∧ p old) ∧ old.retire state now = t := by
  rw [(db.retireHistoryTransfers_tables p state now).2.1]
  exact Table.mem_update

abbrev linkDeleted (db : Database) (p : DeviceLink → Prop) (linkID : LinkID) : Prop :=
  ∃ link ∈ db.links, link.id = linkID ∧ p link

theorem deleteDeviceLinks_tables (db : Database) (p : DeviceLink → Prop) [DecidablePred p] :
    (db.deleteDeviceLinks p).blobs.backups = db.blobs.backups ∧
    (db.deleteDeviceLinks p).blobs.transfers =
      db.blobs.transfers.delete (fun transfer => db.linkDeleted p transfer.linkID) ∧
    (db.deleteDeviceLinks p).blobs.intents = db.blobs.intents.delete fun intent => db.linkDeleted p intent.linkID := by
  simp only [deleteDeviceLinks, BlobTables.dropEach_tables, and_self]

theorem dropBackups_tables (b : BlobTables) (accountID : AccountID) :
    (dropBackups b accountID).backups = b.backups.delete (·.accountID = accountID) ∧
    (dropBackups b accountID).transfers = b.transfers ∧ (dropBackups b accountID).intents = b.intents := by
  simp only [dropBackups, BlobTables.dropEach_tables, and_self]

/-- Uploads are dropped, active transfers ended, and links deleted whose history has ended before. Every
operation that retires history is a sequence of these, so a relation that each keeps holds of all. -/
inductive Retirement : Database → Database → Prop
  | refl (db : Database) : Retirement db db
  | trans {db middle next : Database} (first : Retirement db middle) (second : Retirement middle next) :
      Retirement db next
  | intents (db : Database) (p : UploadIntent → Prop) [DecidablePred p] :
      Retirement db (db.retireHistoryIntents p)
  | transfers (db : Database) (p : HistoryTransfer → Prop) [DecidablePred p] {state : TransferState}
      (terminal : state ≠ .active) (now : Time) : Retirement db (db.retireHistoryTransfers p state now)
  | links (db : Database) (p : DeviceLink → Prop) [DecidablePred p]
      (noIntents : ∀ intent ∈ db.blobs.intents, ¬ db.linkDeleted p intent.linkID)
      (noActive : ∀ t ∈ db.blobs.transfers, t.state = .active → ¬ db.linkDeleted p t.linkID) :
      Retirement db (db.deleteDeviceLinks p)

section

variable (db : Database) (p : DeviceLink → Prop) [DecidablePred p] (now : Time)

theorem retireHistoryForLinks_retirement : Retirement db (db.retireHistoryForLinks p now) :=
  .trans (.intents db _) (.transfers _ _ (by decide) now)

/-- After the history of the links has been retired, their deletion drops no blob. -/
theorem retireHistoryForLinks_rows :
    (∀ intent ∈ (db.retireHistoryForLinks p now).blobs.intents, ¬ db.linkDeleted p intent.linkID) ∧
      ∀ t ∈ (db.retireHistoryForLinks p now).blobs.transfers, t.state = .active → ¬ db.linkDeleted p t.linkID := by
  constructor
  · intro intent mem deleted
    unfold retireHistoryForLinks at mem
    rw [(retireHistoryTransfers_tables _ _ _ _).2.2, (retireHistoryIntents_tables _ _).2.2] at mem
    exact (IndexedTable.mem_delete.mp mem).2 deleted
  · intro t mem active deleted
    rcases mem_retireHistoryTransfers.mp mem with ⟨-, kept⟩ | ⟨old, -, -, rfl⟩
    · exact kept ⟨active, deleted⟩
    · cases active

theorem retireLinks_retirement : Retirement db ((db.retireHistoryForLinks p now).deleteDeviceLinks p) := by
  obtain ⟨noIntents, noActive⟩ := db.retireHistoryForLinks_rows p now
  exact .trans (db.retireHistoryForLinks_retirement p now) (.links _ p noIntents noActive)

end

theorem retireDeviceLinksForDevice_retirement (db : Database) (accountID : AccountID)
    (deviceID : DeviceID) (now : Time) :
    Retirement db (db.retireDeviceLinksForDevice accountID deviceID now) :=
  db.retireLinks_retirement (·.ofDevice accountID deviceID) now

theorem withoutLinks_retirement (db : Database) (now : Time) (accountID : AccountID) :
    Retirement db (db.withoutLinks now accountID) :=
  retireEachDevice (R := Retirement db) accountID now _ (.refl db) fun middle deviceID _ retired =>
    retired.trans (middle.retireDeviceLinksForDevice_retirement accountID deviceID now)

theorem withoutAccountLinks_retirement (db : Database) (now : Time) (accountID : AccountID) :
    Retirement db (db.withoutAccountLinks now accountID) :=
  db.retireLinks_retirement (·.accountID = accountID) now

theorem retireStaleHistory_retirement (db : Database) (now : Time) :
    Retirement (db.retireHistoryForLinks (· ∈ db.staleLinks now) now) (db.retireStaleHistory now) :=
  .trans (.intents _ _) (.transfers _ _ (by decide) now)

/-- The database after the sweep deleted the stale links. -/
def withoutStaleLinks (db : Database) (now : Time) : Database :=
  (db.retireStaleHistory now).deleteDeviceLinks (· ∈ (db.retireStaleHistory now).staleLinks now)

/-- Uploads stay dropped and transfers stay ended while more of them are retired. -/
theorem Retirement.rows (retired : Retirement db next) :
    (∀ intent ∈ next.blobs.intents, intent ∈ db.blobs.intents) ∧
      ∀ t ∈ next.blobs.transfers, t ∈ db.blobs.transfers ∨ (t.state ≠ .active ∧
        ∃ old ∈ db.blobs.transfers, old.state = .active ∧ ∃ now, t = old.retire t.state now) := by
  induction retired with
  | refl => exact ⟨fun _ mem => mem, fun _ mem => .inl mem⟩
  | trans _ _ first second =>
    refine ⟨fun intent mem => first.1 intent (second.1 intent mem), fun t mem => ?_⟩
    rcases second.2 t mem with kept | ⟨terminal, old, known, active, now, ended⟩
    · exact first.2 t kept
    · rcases first.2 old known with kept | ⟨terminal', -⟩
      · exact .inr ⟨terminal, old, kept, active, now, ended⟩
      · exact absurd active terminal'
  | intents db p =>
    obtain ⟨-, transfers, intents⟩ := db.retireHistoryIntents_tables p
    rw [transfers, intents]
    exact ⟨fun _ mem => (IndexedTable.mem_delete.mp mem).1, fun _ mem => .inl mem⟩
  | transfers db p terminal now =>
    refine ⟨fun _ mem => (db.retireHistoryTransfers_tables p _ now).2.2 ▸ mem, fun t mem => ?_⟩
    rcases mem_retireHistoryTransfers.mp mem with ⟨kept, -⟩ | ⟨old, known, ⟨active, -⟩, rfl⟩
    · exact .inl kept
    · exact .inr ⟨terminal, old, known, active, now, rfl⟩
  | links db p =>
    obtain ⟨-, transfers, intents⟩ := db.deleteDeviceLinks_tables p
    rw [transfers, intents]
    exact ⟨fun _ mem => (IndexedTable.mem_delete.mp mem).1, fun _ mem => .inl (Table.mem_delete.mp mem).1⟩

theorem withoutStaleLinks_retirement (db : Database) (now : Time) :
    Retirement db (db.withoutStaleLinks now) := by
  obtain ⟨noIntents, noActive⟩ := db.retireHistoryForLinks_rows (· ∈ db.staleLinks now) now
  obtain ⟨intents, transfers⟩ := (db.retireStaleHistory_retirement now).rows
  refine .trans (.trans (db.retireHistoryForLinks_retirement _ now)
    (db.retireStaleHistory_retirement now)) (.links _ _ ?_ ?_)
  · exact fun intent mem => noIntents intent (intents intent mem)
  · intro t mem active
    rcases transfers t mem with kept | ⟨terminal, -⟩
    · exact noActive t kept active
    · exact absurd active terminal

/-- The same uploads, transfers and links. -/
structure SameHistory (db next : Database) : Prop where
  intents : next.blobs.intents = db.blobs.intents
  transfers : next.blobs.transfers = db.blobs.transfers
  links : next.links = db.links

theorem SameHistory.refl (db : Database) : SameHistory db db := ⟨rfl, rfl, rfl⟩

/-- Every link is still there, of the same account, and its history is cancelled if it was before. -/
def LinksStay (db next : Database) : Prop :=
  ∀ old ∈ db.links, ∃ link ∈ next.links, link.id = old.id ∧ link.accountID = old.accountID ∧
    link.historyCancelledAt = old.historyCancelledAt

theorem LinksStay.of_eq (links : next.links = db.links) : LinksStay db next :=
  fun old mem => ⟨old, links ▸ mem, rfl, rfl, rfl⟩

theorem LinksStay.of_update {p : DeviceLink → Prop} [DecidablePred p] {change : DeviceLink → DeviceLink}
    (rows : next.links.rows = db.links.rows.map fun link => if p link then change link else link)
    (same : ∀ link, (change link).id = link.id ∧ (change link).accountID = link.accountID ∧
      (change link).historyCancelledAt = link.historyCancelledAt) : LinksStay db next := by
  intro old mem
  have present : (if p old then change old else old) ∈ next.links := by
    rw [Table.mem_def, rows]
    exact List.mem_map_of_mem mem
  refine ⟨_, present, ?_⟩
  split
  · exact same old
  · exact ⟨rfl, rfl, rfl⟩

/-- The links after the history of one of them is cancelled. -/
def historyCancelledLinks (db : Database) (id : LinkID) (now : Time) : DeviceLinks :=
  db.links.update (·.id = id)
    (fun link => { link with historyCancelledAt := link.historyCancelledAt.or (some now) }) (kept DeviceLink.id)

theorem mem_historyCancelledLinks {id : LinkID} :
    link ∈ db.historyCancelledLinks id now ↔ (link ∈ db.links ∧ link.id ≠ id) ∨
      ∃ old ∈ db.links, old.id = id ∧
        { old with historyCancelledAt := old.historyCancelledAt.or (some now) } = link := by
  unfold historyCancelledLinks
  exact Table.mem_update

/-- The transfers after the digests of a blob are recorded. -/
def digestedTransfers (db : Database) (storageKey : StorageKey) (ciphertextSHA256 : String)
    (sizeBytes : ℤ) (chunkDigests : Bytes) : Table HistoryTransfer HistoryTransfer.linkID :=
  db.blobs.transfers.update
    (fun t => t.storageKey = some storageKey ∧ t.ciphertextSHA256 = ciphertextSHA256 ∧
      t.sizeBytes = sizeBytes ∧ t.chunkDigests = none)
    (fun t => { t with chunkDigests := some chunkDigests }) (kept HistoryTransfer.linkID)

theorem exists_mem_digestedTransfers (mem : t ∈ db.blobs.transfers)
    (storageKey : StorageKey) (ciphertextSHA256 : String) (sizeBytes : ℤ) (chunkDigests : Bytes) :
    ∃ new, { t with chunkDigests := new } ∈
      db.digestedTransfers storageKey ciphertextSHA256 sizeBytes chunkDigests := by
  unfold digestedTransfers
  by_cases hit : t.storageKey = some storageKey ∧ t.ciphertextSHA256 = ciphertextSHA256 ∧
      t.sizeBytes = sizeBytes ∧ t.chunkDigests = none
  · exact ⟨some chunkDigests, Table.mem_update.mpr (.inr ⟨t, mem, hit, rfl⟩)⟩
  · exact ⟨t.chunkDigests, Table.mem_update.mpr (.inl ⟨mem, hit⟩)⟩

/-- What a committed request did to uploads and transfers. -/
inductive HistoryMove (config : Config) (db : Database) : Request → Database → Prop
  | untouched {next : Database} (intents : next.blobs.intents = db.blobs.intents)
      (transfers : next.blobs.transfers = db.blobs.transfers) (links : LinksStay db next) :
      HistoryMove config db request next
  | retired {next : Database} (before : SameHistory db start)
      (retirement : Retirement start finish) (after : SameHistory finish next)
      (queue : ∀ key ∈ finish.store.blobDeletions, key ∈ next.store.blobDeletions) :
      HistoryMove config db request next
  | cancelled {now : Time} {id : LinkID} :
      HistoryMove config db (.history now (.cancel id access))
        { db.cancelledHistory id now with links := db.historyCancelledLinks id now }
  | registered {now : Time} {id : LinkID} {link : DeviceLink} {next : Database}
      (registered : UploadRegistered config db now id input key link approval next) :
      HistoryMove config db (.history now (.register id access input key)) next
  | finalized {now : Time} {id : LinkID} {link : DeviceLink} {next : Database}
      (finalized : UploadFinalized db now id input ref link intent transfer next) :
      HistoryMove config db (.history now (.finalize id access input ref)) next
  | digested {now : Time} {next : Database} (intents : next.blobs.intents = db.blobs.intents)
      (transfers : next.blobs.transfers = db.digestedTransfers storageKey ciphertextSHA256 sizeBytes chunkDigests)
      (links : next.links = db.links) :
      HistoryMove config db
        (.blob now (.recordBlobChunkDigests storageKey ciphertextSHA256 sizeBytes chunkDigests)) next

theorem linksStay_of_link {request : LinkRequest} {reply : LinkReply} {links : DeviceLinks}
    (served : linkStep config db now request = .ok (reply, links)) : LinksStay db { db with links } := by
  cases request <;> simp only [linkStep] at served <;> obtain ⟨inner, ran, same⟩ := map_eq_ok.mp served <;>
    cases same
  case create openLegacyLinks id linkNonce accountID deviceID code origin ttl =>
    obtain ⟨-, _, -, outcome⟩ := createDeviceLink_ok ran
    cases outcome with
    | repeated => exact .of_eq rfl
    | created _ inserted =>
      exact fun old mem => ⟨old, (Table.mem_of_insert? inserted old).mpr (.inl mem), rfl, rfl, rfl⟩
  case reserve newDeviceID nonce code requestID =>
    obtain ⟨-, _, -, -, -, -, -, outcome⟩ := reserveDeviceLink_ok ran
    cases outcome with
    | repeated => exact .of_eq rfl
    | reserved => exact .of_update rfl fun _ => ⟨rfl, rfl, rfl⟩
  case claim input =>
    obtain ⟨_, _, _, -, outcome⟩ := claimDeviceLink_ok ran
    cases outcome with
    | repeated => exact .of_eq rfl
    | claimed => exact .of_update rfl fun _ => ⟨rfl, rfl, rfl⟩
  case cancel id accountID deviceID =>
    obtain ⟨_, -, -, -, -, outcome⟩ := cancelDeviceLink_ok ran
    cases outcome with
    | repeated => exact .of_eq rfl
    | cancelled => exact .of_update rfl fun _ => ⟨rfl, rfl, rfl⟩

theorem historyMove_of_history {request : HistoryRequest} {reply : HistoryReply}
    (served : historyStep config db now request = .ok (reply, next)) :
    HistoryMove config db (.history now request) next := by
  cases historyOutcome_of_step served with
  | unchanged => exact .untouched rfl rfl (.of_eq rfl)
  | registered registered => exact .registered registered
  | finalized finalized => exact .finalized finalized
  | aborted => exact .retired (.refl db) (.intents db _) (.refl _) fun _ queued => queued
  | acknowledged => exact .retired (.refl db) (.transfers db _ (by decide) now) (.refl _) fun _ queued => queued
  | cancelled => exact .cancelled

theorem historyMove_of_blob {request : BlobRequest} (served : blobStep config db now request = .ok next) :
    HistoryMove config db (.blob now request) next := by
  have links := (blobStep_frame served).links
  cases request <;> simp only [blobStep] at served
  case createAttachmentEnvelope attachment =>
    obtain ⟨-, -, attachments, -, rfl⟩ := createAttachmentEnvelope_ok served
    obtain ⟨-, transfers, intents⟩ := db.withStore_tables { db.store with attachments }
    exact .untouched intents transfers (.of_eq links)
  case createBackupBlob =>
    obtain ⟨_, _, -, -, -, rfl⟩ := createBackupBlob_ok served
    exact .untouched rfl rfl (.of_eq links)
  case deleteBackup =>
    obtain ⟨_, -, -, -, rfl⟩ := deleteBackup_ok served
    exact .untouched rfl rfl (.of_eq links)
  case queueBlobDeletion | completeBlobDeletion =>
    cases served
    exact .untouched rfl rfl (.of_eq links)
  case recordBlobChunkDigests =>
    have served := of_require served
    cases served
    exact .digested rfl rfl links
  case beginRecoveryTransfer =>
    obtain ⟨⟩ := beginRecoveryTransfer_marks served
    exact .untouched rfl rfl (.of_eq links)
  case renewRecoveryTransfer =>
    obtain ⟨⟩ := renewRecoveryTransfer_marks served
    exact .untouched rfl rfl (.of_eq links)
  case completeRecoveryTransfer =>
    obtain ⟨⟩ := completeRecoveryTransfer_marks served
    exact .untouched rfl rfl (.of_eq links)

/-- Every committed request did one of these to uploads and transfers. -/
theorem historyMove_of_step {request : Request} {reply : Reply}
    (ok : Database.step config db request = .ok (reply, next)) : HistoryMove config db request next := by
  cases outcome_of_step ok with
  | @called _ _ _ store | @statusSet _ _ _ store =>
    obtain ⟨-, transfers, intents⟩ := db.withStore_tables store
    exact .untouched intents transfers (.of_eq rfl)
  | @revoked _ _ _ store now accountID deviceID =>
    obtain ⟨-, transfers, intents⟩ := db.withStore_tables store
    have retirement := retireDeviceLinksForDevice_retirement
      { db.withStore store with sessions := db.sessions.delete (·.deviceID = some deviceID) }
      accountID deviceID now
    have before : SameHistory db
        { db.withStore store with sessions := db.sessions.delete (·.deviceID = some deviceID) } :=
      ⟨intents, transfers, rfl⟩
    exact .retired before retirement (.refl _) fun _ queued => queued
  | @deleted _ _ _ store now accountID =>
    obtain ⟨-, transfers, intents⟩ := db.withStore_tables store
    refine .retired ⟨intents, transfers, rfl⟩ (withoutAccountLinks_retirement _ now accountID) ?_ ?_
    · obtain ⟨-, transfers, intents⟩ := dropBackups_tables
        ((db.withStore store).withoutAccountLinks now accountID).blobs accountID
      exact ⟨intents, transfers, rfl⟩
    · exact fun key queued => (Store.mem_enqueueEach _ _ key).mpr (.inl queued)
  | link served => exact .untouched rfl rfl (linksStay_of_link served)
  | approved _ _ _ outcome =>
    cases outcome with
    | repeated => exact .untouched rfl rfl (.of_eq rfl)
    | approved => exact .untouched rfl rfl (.of_update rfl fun _ => ⟨rfl, rfl, rfl⟩)
  | completed _ _ _ _ outcome =>
    cases outcome with
    | repeated => exact .untouched rfl rfl (.of_eq rfl)
    | completed => exact .untouched rfl rfl (.of_update rfl fun _ => ⟨rfl, rfl, rfl⟩)
  | history served => exact historyMove_of_history served
  | blob served => exact historyMove_of_blob served
  | recoveryAnswered _ _ _ outcome =>
    cases outcome with
    | completed _ _ _ _ _ _ recovered =>
      obtain ⟨_, revoked⟩ := recovered.revoked
      obtain ⟨_, recovered⟩ := Store.completeRecovery_ok revoked
      refine .retired (.refl db) (db.withoutLinks_retirement _ _) ⟨rfl, rfl, rfl⟩ ?_
      exact fun key queued => recovered.sameBlobs.blobDeletions ▸ queued
    | _ => exact .untouched rfl rfl (.of_eq rfl)
  | @pruned now =>
    exact .retired (.refl db) (db.withoutStaleLinks_retirement now) ⟨rfl, rfl, rfl⟩ fun _ queued => queued
  | _ => exact .untouched rfl rfl (.of_eq rfl)

end Database
end Veritra.Storage
