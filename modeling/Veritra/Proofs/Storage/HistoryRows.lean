import Veritra.Proofs.Storage.HistoryMoves

/-! # What holds of uploads and transfers

A link has an upload or a transfer, not both. An active transfer holds its content and an ended one holds
none. Uploads and active transfers belong to a link whose history is not cancelled.
-/

namespace Veritra.Storage

open Relational Machine Database

variable {config : Config} {history : List Exchange} {db middle next : Database} {request : Request}
  {reply : Reply}

/-- The content of the transfer is cleared. -/
structure HistoryTransfer.Cleared (t : HistoryTransfer) : Prop where
  handoff : t.handoff = none
  storageKey : t.storageKey = none
  chunkDigests : t.chunkDigests = none

theorem HistoryTransfer.retire_cleared (t : HistoryTransfer) (state : TransferState) (now : Time) :
    (t.retire state now).Cleared := ⟨rfl, rfl, rfl⟩

/-- The link takes uploads of its account. -/
structure DeviceLink.Takes (link : DeviceLink) (intent : UploadIntent) : Prop where
  id : link.id = intent.linkID
  account : link.accountID = intent.accountID
  uncancelled : link.historyCancelledAt = none

/-- The link has the transfer, which is active only while the link's history is not cancelled. -/
structure DeviceLink.Holds (link : DeviceLink) (t : HistoryTransfer) : Prop where
  id : link.id = t.linkID
  uncancelled : t.state = .active → link.historyCancelledAt = none

/-- What holds of the uploads and transfers of a reachable database. -/
structure HistorySound (db : Database) : Prop where
  apart : ∀ intent ∈ db.blobs.intents, ∀ t ∈ db.blobs.transfers, t.linkID ≠ intent.linkID
  filled : ∀ t ∈ db.blobs.transfers, t.state = .active → t.storageKey.isSome ∧ t.handoff.isSome
  cleared : ∀ t ∈ db.blobs.transfers, t.state ≠ .active → t.Cleared
  sized : ∀ intent ∈ db.blobs.intents, intent.sizeBytes = intent.metadataSHA256.sizeBytes
  taken : ∀ intent ∈ db.blobs.intents, ∃ link ∈ db.links, link.Takes intent
  held : ∀ t ∈ db.blobs.transfers, ∃ link ∈ db.links, link.Holds t

namespace HistorySound

variable {now : Time} {id : LinkID} {input : HistoryTransferInput} {link : DeviceLink}

theorem init : HistorySound Database.init where
  apart _ none := absurd none (IndexedTable.not_mem_empty _)
  filled _ none := absurd none (Table.not_mem_empty _)
  cleared _ none := absurd none (Table.not_mem_empty _)
  sized _ none := absurd none (IndexedTable.not_mem_empty _)
  taken _ none := absurd none (IndexedTable.not_mem_empty _)
  held _ none := absurd none (Table.not_mem_empty _)

section

variable (sound : HistorySound db)
include sound

theorem of_stay (intents : next.blobs.intents = db.blobs.intents)
    (transfers : next.blobs.transfers = db.blobs.transfers) (links : LinksStay db next) :
    HistorySound next where
  apart := by rw [intents, transfers]; exact sound.apart
  filled := by rw [transfers]; exact sound.filled
  cleared := by rw [transfers]; exact sound.cleared
  sized := by rw [intents]; exact sound.sized
  taken := by
    rw [intents]
    intro intent mem
    obtain ⟨old, known, takes⟩ := sound.taken intent mem
    obtain ⟨link, present, id, account, cancelled⟩ := links old known
    exact ⟨link, present, id.trans takes.id, account.trans takes.account, cancelled.trans takes.uncancelled⟩
  held := by
    rw [transfers]
    intro t mem
    obtain ⟨old, known, holds⟩ := sound.held t mem
    obtain ⟨link, present, id, -, cancelled⟩ := links old known
    exact ⟨link, present, id.trans holds.id, fun active => cancelled.trans (holds.uncancelled active)⟩

theorem of_same (same : SameHistory db next) : HistorySound next :=
  sound.of_stay same.intents same.transfers (.of_eq same.links)

theorem retireIntents (p : UploadIntent → Prop) [DecidablePred p] :
    HistorySound (db.retireHistoryIntents p) := by
  obtain ⟨-, transfers, intents⟩ := db.retireHistoryIntents_tables p
  have old : ∀ intent ∈ (db.retireHistoryIntents p).blobs.intents, intent ∈ db.blobs.intents := by
    rw [intents]
    exact fun intent mem => (IndexedTable.mem_delete.mp mem).1
  exact
    { apart := fun intent mem => transfers ▸ sound.apart intent (old intent mem)
      filled := transfers ▸ sound.filled
      cleared := transfers ▸ sound.cleared
      sized := fun intent mem => sound.sized intent (old intent mem)
      taken := fun intent mem => sound.taken intent (old intent mem)
      held := transfers ▸ sound.held }

theorem retireTransfers (p : HistoryTransfer → Prop) [DecidablePred p]
    {state : TransferState} (terminal : state ≠ .active) (now : Time) :
    HistorySound (db.retireHistoryTransfers p state now) := by
  obtain ⟨-, -, intents⟩ := db.retireHistoryTransfers_tables p state now
  refine ⟨?_, ?_, ?_, intents ▸ sound.sized, intents ▸ sound.taken, ?_⟩
  · rw [intents]
    intro intent mem t present
    rcases mem_retireHistoryTransfers.mp present with ⟨kept, -⟩ | ⟨old, known, -, rfl⟩
    · exact sound.apart intent mem t kept
    · exact sound.apart intent mem old known
  · intro t present active
    rcases mem_retireHistoryTransfers.mp present with ⟨kept, -⟩ | ⟨old, known, -, rfl⟩
    · exact sound.filled t kept active
    · exact absurd active terminal
  · intro t present ended
    rcases mem_retireHistoryTransfers.mp present with ⟨kept, -⟩ | ⟨old, known, -, rfl⟩
    · exact sound.cleared t kept ended
    · exact old.retire_cleared state now
  · intro t present
    rcases mem_retireHistoryTransfers.mp present with ⟨kept, -⟩ | ⟨old, known, -, rfl⟩
    · exact sound.held t kept
    · obtain ⟨link, mem, holds⟩ := sound.held old known
      exact ⟨link, mem, holds.id, fun active => absurd active terminal⟩

theorem deleteLinks (p : DeviceLink → Prop) [DecidablePred p] : HistorySound (db.deleteDeviceLinks p) := by
  obtain ⟨-, transfers, intents⟩ := db.deleteDeviceLinks_tables p
  have oldIntent : ∀ intent ∈ (db.deleteDeviceLinks p).blobs.intents,
      intent ∈ db.blobs.intents ∧ ¬ db.linkDeleted p intent.linkID := by
    rw [intents]
    exact fun intent mem => IndexedTable.mem_delete.mp mem
  have oldTransfer : ∀ t ∈ (db.deleteDeviceLinks p).blobs.transfers,
      t ∈ db.blobs.transfers ∧ ¬ db.linkDeleted p t.linkID := by
    rw [transfers]
    exact fun t mem => Table.mem_delete.mp mem
  refine ⟨?_, ?_, ?_, ?_, ?_, ?_⟩
  · intro intent mem t present
    exact sound.apart intent (oldIntent intent mem).1 t (oldTransfer t present).1
  · exact fun t present => sound.filled t (oldTransfer t present).1
  · exact fun t present => sound.cleared t (oldTransfer t present).1
  · exact fun intent mem => sound.sized intent (oldIntent intent mem).1
  · intro intent mem
    obtain ⟨known, kept⟩ := oldIntent intent mem
    obtain ⟨link, stored, takes⟩ := sound.taken intent known
    exact ⟨link, Table.mem_delete.mpr ⟨stored, fun hit => kept ⟨link, stored, takes.id, hit⟩⟩, takes⟩
  · intro t present
    obtain ⟨known, kept⟩ := oldTransfer t present
    obtain ⟨link, stored, holds⟩ := sound.held t known
    exact ⟨link, Table.mem_delete.mpr ⟨stored, fun hit => kept ⟨link, stored, holds.id, hit⟩⟩, holds⟩

theorem retirement (retired : Retirement db next) : HistorySound next := by
  induction retired with
  | refl => exact sound
  | trans _ _ first second => exact second (first sound)
  | intents db p => exact sound.retireIntents p
  | transfers db p terminal now => exact sound.retireTransfers p terminal now
  | links db p => exact sound.deleteLinks p

/-- A cancelled link has neither an upload nor an active transfer left. -/
theorem cancel (id : LinkID) (now : Time) :
    HistorySound { db.cancelledHistory id now with links := db.historyCancelledLinks id now } := by
  have retired := (sound.retireIntents (·.linkID = id)).retireTransfers (·.linkID = id)
    (show TransferState.cancelled ≠ .active by decide) now
  have stays : ∀ link ∈ db.links, link.id ≠ id → link ∈ db.historyCancelledLinks id now :=
    fun link mem other => mem_historyCancelledLinks.mpr (.inl ⟨mem, other⟩)
  refine ⟨retired.apart, retired.filled, retired.cleared, retired.sized, ?_, ?_⟩
  · intro intent mem
    obtain ⟨link, known, takes⟩ := retired.taken intent mem
    refine ⟨link, stays link known fun same => ?_, takes⟩
    dsimp only [cancelledHistory] at mem
    rw [(retireHistoryTransfers_tables _ _ _ _).2.2, (retireHistoryIntents_tables _ _).2.2] at mem
    exact (IndexedTable.mem_delete.mp mem).2 (takes.id.symm.trans same)
  · intro t present
    obtain ⟨link, known, holds⟩ := retired.held t present
    by_cases same : link.id = id
    · refine ⟨_, mem_historyCancelledLinks.mpr (.inr ⟨link, known, same, rfl⟩), holds.id, fun active => ?_⟩
      rcases mem_retireHistoryTransfers.mp present with ⟨-, kept⟩ | ⟨old, -, -, rfl⟩
      · exact absurd ⟨active, holds.id.symm.trans same⟩ kept
      · cases active
    · exact ⟨link, stays link known same, holds⟩

theorem register {key : StorageKey} {approval : LinkApproval}
    (registered : UploadRegistered config db now id input key link approval next) :
    HistorySound next := by
  have retired : HistorySound (db.withoutExpired id now) := sound.retireIntents _
  have transfers := registered.transfers
  obtain ⟨intents, inserted, rfl⟩ := registered.inserted
  have mem := IndexedTable.mem_of_insert? inserted
  refine ⟨?_, retired.filled, retired.cleared, ?_, ?_, retired.held⟩
  · intro intent stored t present
    rcases (mem intent).mp stored with old | rfl
    · exact retired.apart intent old t present
    · exact fun same => registered.noTransfer t (transfers ▸ present) (same.trans registered.named)
  · intro intent stored
    rcases (mem intent).mp stored with old | rfl
    · exact retired.sized intent old
    · rfl
  · intro intent stored
    rcases (mem intent).mp stored with old | rfl
    · exact retired.taken intent old
    · exact ⟨link, registered.member, rfl, rfl, registered.uncancelled⟩

theorem finalize {ref : BlobRef} {intent : UploadIntent} {transfer : HistoryTransfer}
    (finalized : UploadFinalized db now id input ref link intent transfer next) :
    HistorySound next := by
  obtain ⟨transfers, inserted, rfl⟩ := finalized.inserted
  obtain ⟨recipientDeviceID, expiresAt, rfl⟩ := finalized.created
  have mem := Table.mem_of_insert? inserted
  have old : ∀ i ∈ db.blobs.intents.delete (·.storageKey = ref.storageKey),
      i ∈ db.blobs.intents ∧ i.storageKey ≠ ref.storageKey := fun i => IndexedTable.mem_delete.mp
  refine ⟨?_, ?_, ?_, ?_, ?_, ?_⟩
  · intro i stored t present
    obtain ⟨known, other⟩ := old i stored
    rcases (mem t).mp present with kept | rfl
    · exact sound.apart i known t kept
    · -- The upload of the link is the one that was finalized.
      intro same
      have ofLink : i.linkID = intent.linkID := (same.symm.trans finalized.named).trans finalized.ofLink.symm
      cases IndexedTable.eq_of_index known finalized.registered ofLink
      exact other finalized.key
  · intro t present active
    rcases (mem t).mp present with kept | rfl
    · exact sound.filled t kept active
    · exact ⟨rfl, rfl⟩
  · intro t present ended
    rcases (mem t).mp present with kept | rfl
    · exact sound.cleared t kept ended
    · exact absurd rfl ended
  · exact fun i stored => sound.sized i (old i stored).1
  · exact fun i stored => sound.taken i (old i stored).1
  · intro t present
    rcases (mem t).mp present with kept | rfl
    · exact sound.held t kept
    · obtain ⟨link', known, takes⟩ := sound.taken intent finalized.registered
      exact ⟨link', known, (takes.id.trans finalized.ofLink).trans finalized.named.symm, fun _ => takes.uncancelled⟩

theorem digest {storageKey : StorageKey} {ciphertextSHA256 : String} {sizeBytes : ℤ}
    {chunkDigests : Bytes} (intents : next.blobs.intents = db.blobs.intents)
    (transfers : next.blobs.transfers = db.digestedTransfers storageKey ciphertextSHA256 sizeBytes chunkDigests)
    (links : next.links = db.links) : HistorySound next := by
  have mem : ∀ t ∈ next.blobs.transfers, t ∈ db.blobs.transfers ∨
      ∃ old ∈ db.blobs.transfers, old.storageKey = some storageKey ∧
        { old with chunkDigests := some chunkDigests } = t := by
    rw [transfers]
    intro t present
    rcases Table.mem_update.mp present with ⟨kept, -⟩ | ⟨old, known, ⟨stored, -⟩, same⟩
    · exact .inl kept
    · exact .inr ⟨old, known, stored, same⟩
  refine ⟨?_, ?_, ?_, intents ▸ sound.sized, intents ▸ links ▸ sound.taken, ?_⟩
  · rw [intents]
    intro intent stored t present
    rcases mem t present with kept | ⟨old, known, -, rfl⟩
    · exact sound.apart intent stored t kept
    · exact sound.apart intent stored old known
  · intro t present active
    rcases mem t present with kept | ⟨old, known, -, rfl⟩
    · exact sound.filled t kept active
    · exact sound.filled old known active
  · intro t present ended
    rcases mem t present with kept | ⟨old, known, stored, rfl⟩
    · exact sound.cleared t kept ended
    · rw [(sound.cleared old known ended).storageKey] at stored
      cases stored
  · rw [links]
    intro t present
    rcases mem t present with kept | ⟨old, known, -, rfl⟩
    · exact sound.held t kept
    · obtain ⟨link, stored, holds⟩ := sound.held old known
      exact ⟨link, stored, holds.id, holds.uncancelled⟩

theorem of_move (move : HistoryMove config db request next) : HistorySound next := by
  cases move with
  | untouched intents transfers links => exact sound.of_stay intents transfers links
  | retired before retirement after => exact ((sound.of_same before).retirement retirement).of_same after
  | cancelled => exact sound.cancel _ _
  | registered registered => exact sound.register registered
  | finalized finalized => exact sound.finalize finalized
  | digested intents transfers links => exact sound.digest intents transfers links

end

end HistorySound

theorem historySound_of_run (run : DatabaseRun config history db) : HistorySound db :=
  run.preserves HistorySound .init fun _ _ _ _ _ sound ok =>
    sound.of_move (historyMove_of_step ok)

end Veritra.Storage
