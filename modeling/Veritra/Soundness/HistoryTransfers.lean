import Veritra.Proofs.Storage.HistoryRows
import Veritra.Soundness.DeviceLinks

/-! # The lifecycle of a history transfer

Over every interleaving of uploads, acknowledgements, cancellations, sweeps and revocations, a link has at
most one upload or transfer. A transfer that ended stays as it is, a cancelled link has no active transfer
again, and a transfer that leaves the active state is cleared in the transaction that queues its blob.
-/

namespace Veritra.Storage

open Relational Machine Database

variable {t : HistoryTransfer} {id : LinkID} {start : Database} {later : List Exchange} {config : Config}
  {history : List Exchange} {db next : Database} {request : Request} {reply : Reply}

/-- What retiring history leaves of the transfers. -/
structure TransfersRetired (db next : Database) : Prop where
  links : ∀ link ∈ next.links, link ∈ db.links
  queue : ∀ key ∈ db.store.blobDeletions, key ∈ next.store.blobDeletions
  left : ∀ t ∈ db.blobs.transfers, t.state = .active →
    t ∈ next.blobs.transfers ∨ ∀ key ∈ t.storageKey, key ∈ next.store.blobDeletions
  ended : ∀ t ∈ db.blobs.transfers, t.state ≠ .active →
    t ∈ next.blobs.transfers ∨ ∀ link ∈ next.links, link.id ≠ t.linkID

theorem transfersRetired (retirement : Retirement db next) : TransfersRetired db next := by
  induction retirement with
  | refl =>
    exact ⟨fun _ mem => mem, fun _ mem => mem, fun _ mem _ => .inl mem, fun _ mem _ => .inl mem⟩
  | trans _ _ first second =>
    refine ⟨fun link mem => first.links link (second.links link mem),
      fun key queued => second.queue key (first.queue key queued), fun t mem active => ?_,
      fun t mem ended => ?_⟩
    · rcases first.left t mem active with kept | queued
      · exact second.left t kept active
      · exact .inr fun key has => second.queue key (queued key has)
    · rcases first.ended t mem ended with kept | gone
      · exact second.ended t kept ended
      · exact .inr fun link present => gone link (second.links link present)
  | intents db p =>
    have transfers := (db.retireHistoryIntents_tables p).2.1
    refine ⟨fun _ mem => mem, fun key queued => ?_, fun t mem _ => .inl (transfers ▸ mem),
      fun t mem _ => .inl (transfers ▸ mem)⟩
    exact (Store.mem_enqueueEach _ _ key).mpr (.inl queued)
  | transfers db p terminal now =>
    refine ⟨fun _ mem => mem, fun key queued => ?_, fun t mem active => ?_, fun t mem ended => ?_⟩
    · exact (Store.mem_enqueueEach _ _ key).mpr (.inl queued)
    · by_cases hit : p t
      · refine .inr fun key has => (Store.mem_enqueueEach _ _ key).mpr (.inr ?_)
        refine List.mem_filterMap.mpr ⟨t, List.mem_filter.mpr ⟨mem, ?_⟩, has⟩
        exact decide_eq_true ⟨active, hit⟩
      · exact .inl (mem_retireHistoryTransfers.mpr (.inl ⟨mem, fun both => hit both.2⟩))
    · exact .inl (mem_retireHistoryTransfers.mpr (.inl ⟨mem, fun both => ended both.1⟩))
  | links db p noIntents noActive =>
    have transfers := (db.deleteDeviceLinks_tables p).2.1
    refine ⟨fun _ mem => (Table.mem_delete.mp mem).1, fun _ queued => queued, fun t mem active => ?_,
      fun t mem ended => ?_⟩
    · exact .inl (transfers ▸ Table.mem_delete.mpr ⟨mem, noActive t mem active⟩)
    · by_cases deleted : db.linkDeleted p t.linkID
      · refine .inr fun link present same => ?_
        obtain ⟨link', known, same', hit⟩ := deleted
        obtain ⟨stays, kept⟩ := Table.mem_delete.mp present
        cases Table.eq_of_key known stays (same'.trans same.symm)
        exact kept hit
      · exact .inl (transfers ▸ Table.mem_delete.mpr ⟨mem, deleted⟩)

/-- An ended transfer stays as it is, unless its link goes. -/
theorem ended_of_move (sound : HistorySound db) (move : HistoryMove config db request next)
    (mem : t ∈ db.blobs.transfers) (ended : t.state ≠ .active) :
    t ∈ next.blobs.transfers ∨ ∀ link ∈ next.links, link.id ≠ t.linkID := by
  cases move with
  | untouched _ transfers => exact .inl (transfers ▸ mem)
  | retired before retirement after =>
    rw [after.transfers, after.links]
    exact (transfersRetired retirement).ended t (before.transfers ▸ mem) ended
  | cancelled =>
    refine .inl (mem_retireHistoryTransfers.mpr (.inl ⟨?_, fun both => ended both.1⟩))
    rwa [(retireHistoryIntents_tables _ _).2.1]
  | registered registered => exact .inl (registered.transfers ▸ mem)
  | finalized finalized =>
    obtain ⟨_, inserted, rfl⟩ := finalized.inserted
    exact .inl ((Table.mem_of_insert? inserted t).mpr (.inl mem))
  | digested _ transfers =>
    refine .inl ?_
    rw [transfers]
    refine Table.mem_update.mpr (.inl ⟨mem, fun hit => ?_⟩)
    rw [(sound.cleared t mem ended).storageKey] at hit
    cases hit.1

/-- An active transfer stays active, with the same content, or its key is queued. -/
theorem left_of_move (move : HistoryMove config db request next) (mem : t ∈ db.blobs.transfers)
    (active : t.state = .active) :
    (∃ chunkDigests, { t with chunkDigests } ∈ next.blobs.transfers) ∨
      ∀ key ∈ t.storageKey, key ∈ next.store.blobDeletions := by
  cases move with
  | untouched _ transfers => exact .inl ⟨t.chunkDigests, transfers ▸ mem⟩
  | retired before retirement after queue =>
    rcases (transfersRetired retirement).left t (before.transfers ▸ mem) active with kept | queued
    · exact .inl ⟨t.chunkDigests, after.transfers ▸ kept⟩
    · exact .inr fun key has => queue key (queued key has)
  | @cancelled _ now id =>
    have retired := (transfersRetired (.trans (.intents db (·.linkID = id))
      (.transfers _ (·.linkID = id) (show TransferState.cancelled ≠ .active by decide) now))).left t mem active
    exact retired.imp_left fun kept => ⟨t.chunkDigests, kept⟩
  | registered registered => exact .inl ⟨t.chunkDigests, registered.transfers ▸ mem⟩
  | finalized finalized =>
    obtain ⟨_, inserted, rfl⟩ := finalized.inserted
    exact .inl ⟨t.chunkDigests, (Table.mem_of_insert? inserted t).mpr (.inl mem)⟩
  | digested _ transfers =>
    rw [transfers]
    exact .inl (exists_mem_digestedTransfers mem _ _ _ _)

/-- A transfer that is active after a request was active before it, or its link had none. -/
theorem active_of_move (move : HistoryMove config db request next)
    (mem : t ∈ next.blobs.transfers) (active : t.state = .active) :
    (∃ old ∈ db.blobs.transfers, ∃ chunkDigests, t = { old with chunkDigests }) ∨
      ∀ old ∈ db.blobs.transfers, old.linkID ≠ t.linkID := by
  cases move with
  | untouched _ transfers => exact .inl ⟨t, transfers ▸ mem, t.chunkDigests, rfl⟩
  | retired before retirement after =>
    rcases retirement.rows.2 t (after.transfers ▸ mem) with kept | ⟨ended, -⟩
    · exact .inl ⟨t, before.transfers ▸ kept, t.chunkDigests, rfl⟩
    · exact absurd active ended
  | cancelled =>
    rcases mem_retireHistoryTransfers.mp mem with ⟨kept, -⟩ | ⟨old, -, -, rfl⟩
    · rw [(retireHistoryIntents_tables _ _).2.1] at kept
      exact .inl ⟨t, kept, t.chunkDigests, rfl⟩
    · cases active
  | registered registered => exact .inl ⟨t, registered.transfers ▸ mem, t.chunkDigests, rfl⟩
  | finalized finalized =>
    obtain ⟨_, inserted, rfl⟩ := finalized.inserted
    rcases (Table.mem_of_insert? inserted t).mp mem with kept | rfl
    · exact .inl ⟨t, kept, t.chunkDigests, rfl⟩
    · exact .inr (Table.free_of_insert? inserted)
  | digested _ transfers =>
    rw [transfers] at mem
    rcases Table.mem_update.mp mem with ⟨kept, -⟩ | ⟨old, known, -, rfl⟩
    · exact .inl ⟨t, kept, t.chunkDigests, rfl⟩
    · exact .inl ⟨old, known, _, rfl⟩

/-- A link whose history is cancelled stays so, and every other link was there before or is new. -/
theorem cancelled_of_row {link : DeviceLink} (row : LinkRow config db request link) :
    (∃ old ∈ db.links, old.id = link.id ∧
      (old.historyCancelledAt ≠ none → link.historyCancelledAt ≠ none)) ∨
      ∀ old ∈ db.links, old.id ≠ link.id := by
  cases row with
  | @kept old _ mem historyCancelledAt uncancelled =>
    refine .inl ⟨old, mem, rfl, fun cancelled => ?_⟩
    obtain ⟨time, marked⟩ := Option.ne_none_iff_exists'.mp cancelled
    rw [uncancelled time marked]
    exact Option.some_ne_none time
  | created _ _ _ free => exact .inr free
  | reserved mem | cancelled mem => exact .inl ⟨_, mem, rfl, id⟩
  | claimed signed => exact .inl ⟨_, signed.member, rfl, id⟩
  | approved checked | completed checked => exact .inl ⟨_, checked.member, rfl, id⟩

def Request.cancelsHistory (request : Request) (id : LinkID) : Prop :=
  ∃ now access, request = .history now (.cancel id access)

theorem marked_of_cancel (cancels : request.cancelsHistory id)
    (ok : Database.step config db request = .ok (reply, next)) :
    ∀ link ∈ next.links, link.id = id → link.historyCancelledAt ≠ none := by
  obtain ⟨now, access, rfl⟩ := cancels
  cases outcome_of_step ok with
  | history served =>
    obtain ⟨inner, ran, same⟩ := map_eq_ok.mp served
    cases same
    obtain ⟨_, -, rfl⟩ := cancelHistoryTransfer_ok ran
    intro link mem same
    rcases mem_historyCancelledLinks.mp mem with ⟨-, other⟩ | ⟨old, -, -, rfl⟩
    · exact absurd same other
    · cases old.historyCancelledAt <;> exact Option.some_ne_none _

/-- While no other link appears under its id, an ended transfer stays as it is or its link is gone. -/
theorem ended_of_rest (run : DatabaseRun config history start)
    (rest : Run (Database.step config) unguarded start later db)
    (mem : t ∈ start.blobs.transfers) (ended : t.state ≠ .active)
    (uncreated : ∀ exchange ∈ later, ¬ Exchange.CreatesLink exchange t.linkID) :
    t ∈ db.blobs.transfers ∨ ∀ link ∈ db.links, link.id ≠ t.linkID := by
  refine rest.preserves_where (fun db => t ∈ db.blobs.transfers ∨ ∀ link ∈ db.links, link.id ≠ t.linkID)
    uncreated (.inl mem) ?_
  rintro _ db request reply next before - (kept | gone) ok uncreated
  · exact ended_of_move (historySound_of_run (run.trans before)) (historyMove_of_step ok) kept ended
  · exact .inr fun link present same => uncreated ⟨gone, link, present, same⟩

/-- While no other link appears under its id, a link with cancelled history stays so. -/
theorem marked_of_rest (rest : Run (Database.step config) unguarded start later db)
    (marked : ∀ link ∈ start.links, link.id = id → link.historyCancelledAt ≠ none)
    (uncreated : ∀ exchange ∈ later, ¬ Exchange.CreatesLink exchange id) :
    ∀ link ∈ db.links, link.id = id → link.historyCancelledAt ≠ none := by
  refine rest.preserves_where (fun db => ∀ link ∈ db.links, link.id = id → link.historyCancelledAt ≠ none)
    uncreated marked ?_
  intro _ db request reply next _ _ marked ok uncreated link present same
  rcases cancelled_of_row (linkRow_of_step ok present) with ⟨old, known, sameID, stays⟩ | free
  · exact stays (marked old known (sameID.trans same))
  · exact absurd ⟨fun old known => same ▸ free old known, link, present, same⟩ uncreated

/-- The uploads and transfers of the link. -/
def Database.historyOf (db : Database) (id : LinkID) : List (UploadIntent ⊕ HistoryTransfer) :=
  (db.blobs.intents.rows.filter (·.linkID = id)).map .inl ++ (db.blobs.transfers.rows.filter (·.linkID = id)).map .inr

/-- Rows whose keys are distinct have at most one with a given key. -/
theorem length_filter_key_le_one {ρ κ : Type} [DecidableEq κ] {key : ρ → κ} {rows : List ρ}
    (unique : (rows.map key).Nodup) (k : κ) : (rows.filter (key · = k)).length ≤ 1 := by
  have counted := List.nodup_iff_count_le_one.mp unique k
  rwa [List.count, List.countP_map, List.countP_eq_length_filter] at counted

theorem historyOf_le_one (sound : HistorySound db) (id : LinkID) : (db.historyOf id).length ≤ 1 := by
  have intents := length_filter_key_le_one db.blobs.intents.indexUnique id
  have transfers := length_filter_key_le_one db.blobs.transfers.unique id
  rw [historyOf, List.length_append, List.length_map, List.length_map]
  cases uploads : db.blobs.intents.rows.filter (·.linkID = id) with
  | nil => simpa using transfers
  | cons intent rest =>
    have found : intent ∈ db.blobs.intents.rows.filter (·.linkID = id) := uploads ▸ List.mem_cons_self
    obtain ⟨stored, same⟩ := List.mem_filter.mp found
    have none : db.blobs.transfers.rows.filter (·.linkID = id) = [] := by
      refine List.filter_eq_nil_iff.mpr fun t mem => ?_
      simpa only [of_decide_eq_true same, decide_eq_true_eq] using sound.apart intent stored t mem
    rw [none, ← uploads]
    simpa using intents

/-- The lifecycle of history transfers, in a history and the database it ends in. -/
structure HistoryTransfersSound (history : List Exchange) (db : Database) : Prop where
  /-- A link has at most one upload or transfer. -/
  single : ∀ id, (db.historyOf id).length ≤ 1
  /-- A transfer that ended stays as it is. It goes with its link, and no other one takes its place before
  another link appears under the id. -/
  final : ∀ earlier exchange later, history = earlier ++ exchange :: later →
    ∀ t ∈ exchange.after.blobs.transfers, t.state ≠ .active →
    (∀ other ∈ later, ¬ Exchange.CreatesLink other t.linkID) →
      db.historyOf t.linkID = [.inr t] ∨ ((∀ link ∈ db.links, link.id ≠ t.linkID) ∧ db.historyOf t.linkID = [])
  /-- After a cancellation no transfer of the link is active, and there is no upload. -/
  cancelled : ∀ earlier exchange later id, history = earlier ++ exchange :: later →
    exchange.call.cancelsHistory id → exchange.answer.isOk →
    (∀ other ∈ later, ¬ Exchange.CreatesLink other id) →
      (∀ intent ∈ db.blobs.intents, intent.linkID ≠ id) ∧ ∀ t ∈ db.blobs.transfers, t.linkID = id → t.state ≠ .active
  /-- A transfer that leaves the active state is cleared, and its key is queued. -/
  left : ∀ exchange ∈ history, ∀ t ∈ exchange.before.blobs.transfers, t.state = .active →
    (∃ chunkDigests, { t with chunkDigests } ∈ exchange.after.blobs.transfers) ∨
      ((∀ t' ∈ exchange.after.blobs.transfers, t'.linkID = t.linkID → t'.state ≠ .active ∧ t'.Cleared) ∧
        ∃ key, t.storageKey = some key ∧ key ∈ exchange.after.store.blobDeletions)

theorem historyOf_of_transfer (sound : HistorySound db) (mem : t ∈ db.blobs.transfers) :
    db.historyOf t.linkID = [.inr t] := by
  have single := historyOf_le_one sound t.linkID
  have present : Sum.inr t ∈ db.historyOf t.linkID := by
    refine List.mem_append_right _ (List.mem_map_of_mem (List.mem_filter.mpr ⟨mem, ?_⟩))
    exact decide_eq_true rfl
  obtain ⟨one, only⟩ := List.length_eq_one_iff.mp (Nat.le_antisymm single (List.length_pos_of_mem present))
  rw [only] at present ⊢
  rw [List.mem_singleton.mp present]

theorem historyOf_of_unlinked (sound : HistorySound db) (gone : ∀ link ∈ db.links, link.id ≠ id) :
    db.historyOf id = [] := by
  refine List.append_eq_nil_iff.mpr ⟨?_, ?_⟩ <;> refine List.map_eq_nil_iff.mpr ?_ <;>
    refine List.filter_eq_nil_iff.mpr fun row mem same => ?_
  · obtain ⟨link, known, takes⟩ := sound.taken row mem
    exact gone link known (takes.id.trans (of_decide_eq_true same))
  · obtain ⟨link, known, holds⟩ := sound.held row mem
    exact gone link known (holds.id.trans (of_decide_eq_true same))

/-- Every run keeps the lifecycle of history transfers. -/
theorem history_transfers_sound (run : DatabaseRun config history db) : HistoryTransfersSound history db where
  single := historyOf_le_one (historySound_of_run run)
  final := by
    rintro earlier exchange later rfl t member ended uncreated
    have sound := historySound_of_run run
    rcases ended_of_rest run.through_entry run.after_entry member ended uncreated with kept | gone
    · exact .inl (historyOf_of_transfer sound kept)
    · exact .inr ⟨gone, historyOf_of_unlinked sound gone⟩
  cancelled := by
    rintro earlier exchange later id rfl cancels accepted uncreated
    have sound := historySound_of_run run
    have marked : ∀ link ∈ exchange.after.links, link.id = id → link.historyCancelledAt ≠ none := by
      rcases run.committed_or_refused (List.mem_append_right _ List.mem_cons_self) with
        ⟨answer, -, committed⟩ | ⟨refusal, refused, -⟩
      · exact marked_of_cancel cancels committed
      · rw [refused] at accepted
        cases accepted
    have stays := marked_of_rest run.after_entry marked uncreated
    constructor
    · intro intent member same
      obtain ⟨link, known, takes⟩ := sound.taken intent member
      exact stays link known (takes.id.trans same) takes.uncancelled
    · intro t member same active
      obtain ⟨link, known, holds⟩ := sound.held t member
      exact stays link known (holds.id.trans same) (holds.uncancelled active)
  left := by
    intro exchange member t known active
    obtain ⟨earlier, reached, -, -⟩ := run.reaches_before member
    rcases run.committed_or_refused member with ⟨answer, -, committed⟩ | ⟨refusal, -, same⟩
    · have move := historyMove_of_step committed
      have sound := historySound_of_run reached
      have soundAfter := sound.of_move move
      by_cases stays : ∃ chunkDigests, { t with chunkDigests } ∈ exchange.after.blobs.transfers
      · exact .inl stays
      · have queued := (left_of_move move known active).resolve_left stays
        obtain ⟨key, stored⟩ := Option.isSome_iff_exists.mp (sound.filled t known active).1
        refine .inr ⟨fun t' present same => ?_, key, stored, queued key stored⟩
        have ended : t'.state ≠ .active := by
          intro active'
          rcases active_of_move move present active' with ⟨old, known', chunkDigests, rfl⟩ | free
          · cases Table.eq_of_key known' known same
            exact stays ⟨chunkDigests, present⟩
          · exact free t known same.symm
        exact ⟨ended, soundAfter.cleared t' present ended⟩
    · exact .inl ⟨t.chunkDigests, same ▸ known⟩

namespace Example

/-- The history that Alice's phone announces. -/
def archive : HistoryTransferInput where
  protocolVersion := deviceLinkProtocol
  transferID := hexHash '1'
  claimRequestHash := tabletProof
  transcriptHash := List.replicate 32 4
  ciphertextSHA256 := hexHash '2'
  sizeBytes := 400
  handoff := [11]

def phone : HistoryAccess := ⟨alice, "alice-phone", ""⟩

def archiveKey (digit : Char) : StorageKey := "blob_" ++ String.ofList (List.replicate 32 digit)

/-- The phone uploads the archive; the first upload runs out, the second one is finalized. The tablet
acknowledges the transfer, a late cancellation leaves it acknowledged, and a third upload is refused. -/
def transfersHistory : List Request :=
  linksTablet ++
    [.history 6 (.register "link" phone archive (archiveKey '1')),
      .pruneOperationalRows (7 + historyIntentLifetime),
      .history (8 + historyIntentLifetime) (.register "link" phone archive (archiveKey '2')),
      .history (9 + historyIntentLifetime) (.finalize "link" phone archive
        ⟨archiveKey '2', archive.ciphertextSHA256, 400, none⟩),
      .history (10 + historyIntentLifetime) (.acknowledge "link" ⟨"", "", hexHash 'c'⟩ archive.transferID
        archive.ciphertextSHA256),
      .history (11 + historyIntentLifetime) (.cancel "link" phone),
      .history (12 + historyIntentLifetime) (.register "link" phone archive (archiveKey '3'))]

end Example

open Example in
/-- The acknowledged transfer is still there after the cancellation, both blobs are queued, and only the
last registration is refused. -/
theorem history_transfers_sound_tablet :
    HistoryTransfersSound (served transfersHistory) (reached transfersHistory) ∧
      ((served transfersHistory).map (·.answer.isOk)) = List.replicate 13 true ++ [false] ∧
      ((reached transfersHistory).blobs.transfers.rows.map (·.state)) = [.acknowledged] ∧
      (reached transfersHistory).store.blobDeletions = [archiveKey '1', archiveKey '2'] :=
  ⟨history_transfers_sound (served_run transfersHistory), by decide +kernel⟩

/-- An upload and a transfer belong to a link each, not to the same one, and an ended transfer is cleared. -/
theorem history_well_formed (config : Config) (requests : List Request) :
    HistorySound (exec (Database.step config) Database.init requests) :=
  historySound_of_run (run_exec _ _ _)

end Veritra.Storage
