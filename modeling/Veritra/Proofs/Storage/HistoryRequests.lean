import Veritra.Proofs.Storage.Requests

/-! # Committed requests about history

What a committed registration, finalization, acknowledgement or cancellation has checked, and the
database it leaves.
-/

namespace Veritra.Storage

open Relational Machine

namespace Database

variable {config : Config} {db next : Database} {now : Time} {id : LinkID} {access : HistoryAccess}
  {input : HistoryTransferInput} {request : HistoryRequest} {answer : HistoryTransfer} {reply : HistoryReply}

/-- The link that a history request was let through to. -/
structure HistoryChecked (db : Database) (id : LinkID) (link : DeviceLink) : Prop where
  member : link ∈ db.links
  named : link.id = id

theorem historyLink_ok {sourceOnly source : Bool} {link : DeviceLink}
    (ok : db.historyLink now id access sourceOnly = .ok (link, source)) :
    HistoryChecked db id link ∧ source = decide (isHistorySource access link) := by
  obtain ⟨found, loaded, ok⟩ := bind_eq_ok.mp ok
  have ok := of_require ok
  have ok := of_require ok
  cases ok
  obtain ⟨mem, -, same⟩ := loadDeviceLink_ok loaded
  exact ⟨⟨mem, same⟩, rfl⟩

theorem enforceBlobQuota_ok {accountID : AccountID} {incoming : ℤ} {u : Unit}
    (admitted : enforceBlobQuota config db accountID incoming = .ok u) :
    0 ≤ incoming ∧ db.blobs.usageOf accountID + incoming ≤ config.accountStorageBytes ∧
      db.blobs.instanceUsage + incoming ≤ config.instanceStorageBytes := by
  obtain ⟨within, -⟩ := require_ok.mp admitted
  omega

/-- The database without the link's uploads that ran out. -/
def withoutExpired (db : Database) (id : LinkID) (now : Time) : Database :=
  db.retireHistoryIntents fun intent => intent.linkID = id ∧ intent.expiresAt ≤ now

/-- The upload that a registration reserves. -/
def registeredIntent (input : HistoryTransferInput) (link : DeviceLink) (approval : LinkApproval)
    (key : StorageKey) (now : Time) : UploadIntent :=
  { storageKey := key, linkID := link.id, accountID := link.accountID, transferID := input.transferID,
    metadataSHA256 := input, sizeBytes := input.sizeBytes, createdAt := now,
    expiresAt := min (now + historyIntentLifetime) approval.transferExpiresAt }

/-- A committed registration of an upload. -/
structure UploadRegistered (config : Config) (db : Database) (now : Time) (id : LinkID)
    (input : HistoryTransferInput) (key : StorageKey) (link : DeviceLink) (approval : LinkApproval)
    (next : Database) : Prop extends HistoryChecked db id link where
  uncancelled : link.historyCancelledAt = none
  noTransfer : ∀ transfer ∈ db.blobs.transfers, transfer.linkID ≠ id
  admitted : enforceBlobQuota config (db.withoutExpired id now) link.accountID input.sizeBytes = .ok ()
  inserted : ∃ intents, (db.withoutExpired id now).blobs.intents.insert?
      (registeredIntent input link approval key now) = some intents ∧
    next = { db.withoutExpired id now with
      blobs := { (db.withoutExpired id now).blobs with intents }.addUsage link.accountID input.sizeBytes }

theorem registerHistoryUpload_ok {key : StorageKey}
    (ok : registerHistoryUpload config db now id access input key = .ok next) :
    ∃ link approval, UploadRegistered config db now id input key link approval next := by
  have ok := of_require ok
  obtain ⟨⟨link, source⟩, checked, ok⟩ := bind_eq_ok.mp ok
  have ok := of_require ok
  obtain ⟨⟨uncancelled, noTransfer⟩, ok⟩ := require_ok.mp ok
  have ok := of_require ok
  obtain ⟨⟨⟩, admitted, ok⟩ := bind_eq_ok.mp ok
  obtain ⟨checked, -⟩ := historyLink_ok checked
  split at ok
  · next approval _ =>
    dsimp only at ok
    split at ok
    · cases ok
    · next intents inserted =>
      cases ok
      cases checked.named
      exact ⟨link, approval, checked, uncancelled, noTransfer, admitted, intents, inserted, rfl⟩
  · cases ok

/-- A committed finalization of an upload. -/
structure UploadFinalized (db : Database) (now : Time) (id : LinkID) (input : HistoryTransferInput)
    (ref : BlobRef) (link : DeviceLink) (intent : UploadIntent) (transfer : HistoryTransfer)
    (next : Database) : Prop extends HistoryChecked db id link where
  registered : intent ∈ db.blobs.intents
  key : intent.storageKey = ref.storageKey
  ofLink : intent.linkID = id
  metadata : intent.metadataSHA256 = input
  created : ∃ recipientDeviceID expiresAt, transfer = input.transfer link recipientDeviceID ref now expiresAt
  inserted : ∃ transfers, db.blobs.transfers.insert? transfer = some transfers ∧
    next = { db with
      blobs := ({ db.blobs with
        intents := db.blobs.intents.delete (·.storageKey = ref.storageKey), transfers }.dropUsage
          intent.accountID intent.sizeBytes).addUsage transfer.accountID transfer.sizeBytes }

theorem finalizeHistoryUpload_ok {ref : BlobRef}
    (ok : db.finalizeHistoryUpload now id access input ref = .ok (answer, next)) :
    ∃ link intent transfer, UploadFinalized db now id input ref link intent transfer next := by
  have ok := of_require ok
  obtain ⟨⟨link, source⟩, checked, ok⟩ := bind_eq_ok.mp ok
  obtain ⟨checked, -⟩ := historyLink_ok checked
  dsimp only at ok
  split at ok
  swap
  · cases ok
  next intent found =>
  obtain ⟨⟨ofLink, -⟩, ok⟩ := require_ok.mp ok
  obtain ⟨metadata, ok⟩ := require_ok.mp ok
  obtain ⟨registered, key⟩ := Table.find?_eq_some.mp found
  split at ok
  swap
  · cases ok
  have ok := of_require ok
  split at ok
  · cases ok
  · next transfers inserted =>
    cases ok
    exact ⟨link, intent, _, checked, registered, key, ofLink, metadata, ⟨_, _, rfl⟩, transfers, inserted, rfl⟩

/-- What a committed acknowledgement did: it was a repetition, or it ended the active transfer. -/
theorem acknowledgeHistoryTransfer_ok {transferID digest : String}
    (ok : db.acknowledgeHistoryTransfer now id access transferID digest = .ok (answer, next)) :
    next = db ∨ next = db.retireHistoryTransfers (·.linkID = id) .acknowledged now := by
  obtain ⟨⟨link, source⟩, checked, ok⟩ := bind_eq_ok.mp ok
  have ok := of_require ok
  split at ok
  · have ok := of_require ok
    split at ok
    · cases ok
      exact .inl rfl
    · cases ok
      exact .inr rfl
    · cases ok
  · cases ok

/-- The database after the link's upload and transfer are cancelled. -/
def cancelledHistory (db : Database) (id : LinkID) (now : Time) : Database :=
  (db.retireHistoryIntents (·.linkID = id)).retireHistoryTransfers (·.linkID = id) .cancelled now

theorem cancelHistoryTransfer_ok (ok : db.cancelHistoryTransfer now id access = .ok next) :
    ∃ link, HistoryChecked db id link ∧ next = { db.cancelledHistory id now with
        links := db.links.update (·.id = id)
          fun link => { link with historyCancelledAt := link.historyCancelledAt.or (some now) } } := by
  obtain ⟨⟨link, source⟩, checked, ok⟩ := bind_eq_ok.mp ok
  cases ok
  exact ⟨link, (historyLink_ok checked).1, rfl⟩

/-- What a committed request about history did. -/
inductive HistoryOutcome (config : Config) (db : Database) (now : Time) : HistoryRequest → Database → Prop
  | unchanged {request : HistoryRequest} : HistoryOutcome config db now request db
  | registered {id : LinkID} {access : HistoryAccess} {input : HistoryTransferInput} {next : Database}
      (registered : UploadRegistered config db now id input key link approval next) :
      HistoryOutcome config db now (.register id access input key) next
  | finalized {id : LinkID} {access : HistoryAccess} {input : HistoryTransferInput} {next : Database}
      (finalized : UploadFinalized db now id input ref link intent transfer next) :
      HistoryOutcome config db now (.finalize id access input ref) next
  | aborted :
      HistoryOutcome config db now (.abort key) (db.retireHistoryIntents (·.storageKey = key))
  | acknowledged {id : LinkID} {access : HistoryAccess} :
      HistoryOutcome config db now (.acknowledge id access transferID digest)
        (db.retireHistoryTransfers (·.linkID = id) .acknowledged now)
  | cancelled {id : LinkID} {access : HistoryAccess} :
      HistoryOutcome config db now (.cancel id access)
        { db.cancelledHistory id now with
          links := db.links.update (·.id = id)
            fun link => { link with historyCancelledAt := link.historyCancelledAt.or (some now) } }

section

variable (ok : historyStep config db now request = .ok (reply, next))

include ok

theorem historyOutcome_of_step : HistoryOutcome config db now request next := by
  cases request <;> simp only [historyStep] at ok
  case check id access input =>
    obtain ⟨_, -, same⟩ := map_eq_ok.mp ok
    cases same
    exact .unchanged
  case register id access input key =>
    obtain ⟨inner, ran, same⟩ := map_eq_ok.mp ok
    cases same
    obtain ⟨link, approval, registered⟩ := registerHistoryUpload_ok ran
    exact .registered registered
  case finalize id access input ref =>
    obtain ⟨⟨answer, inner⟩, ran, same⟩ := map_eq_ok.mp ok
    cases same
    obtain ⟨link, intent, transfer, finalized⟩ := finalizeHistoryUpload_ok ran
    exact .finalized finalized
  case abort key =>
    cases ok
    exact .aborted
  case acknowledge id access transferID digest =>
    obtain ⟨⟨answer, inner⟩, ran, same⟩ := map_eq_ok.mp ok
    cases same
    rcases acknowledgeHistoryTransfer_ok ran with rfl | rfl
    · exact .unchanged
    · exact .acknowledged
  case cancel id access =>
    obtain ⟨inner, ran, same⟩ := map_eq_ok.mp ok
    cases same
    obtain ⟨link, -, rfl⟩ := cancelHistoryTransfer_ok ran
    exact .cancelled

theorem historyStep_retires : Retires db next := by
  cases historyOutcome_of_step ok with
  | unchanged => exact .refl db
  | registered registered =>
    obtain ⟨intents, -, rfl⟩ := registered.inserted
    exact (db.retireHistoryIntents_retires _).trans ⟨rfl, rfl, rfl, rfl, rfl⟩
  | finalized finalized =>
    obtain ⟨transfers, -, rfl⟩ := finalized.inserted
    exact ⟨rfl, rfl, rfl, rfl, rfl⟩
  | aborted => exact db.retireHistoryIntents_retires _
  | acknowledged => exact db.retireHistoryTransfers_retires _ _ _
  | @cancelled id =>
    have retires : Retires db (db.cancelledHistory id now) :=
      (db.retireHistoryIntents_retires _).trans (retireHistoryTransfers_retires _ _ _ _)
    exact ⟨retires.store, retires.accounts, retires.sessions, retires.keyPackages, retires.recoveries⟩

end

end Database
end Veritra.Storage
