import Veritra.Machine.Fresh
import Veritra.Soundness.StorageUsage

/-! # Blob bookkeeping

A storage key is made for one blob. While some attachment, backup, active transfer or upload refers to it,
it is the only one, and the key is not queued for deletion. When the reference goes, in whichever
transaction and through whichever table, the key is queued, and it stays queued until the blob is deleted.
-/

namespace Veritra.Storage

open Relational Machine Database

variable {key : StorageKey} {config : Config} {history : List Exchange} {db middle next : Database}
  {request : Request} {reply : Reply} {dropped : Multiset BlobRow}

/-- The storage keys that the rows refer to, once for each reference. -/
def Database.references (db : Database) : List StorageKey :=
  db.store.attachments.rows.map (·.storageKey) ++ db.blobs.backups.rows.map (·.storageKey) ++
    (db.blobs.transfers.rows.filter (·.state = .active)).filterMap (·.storageKey) ++
    db.blobs.intents.rows.map (·.storageKey)

def keysOf (rows : Multiset BlobRow) : Multiset StorageKey := rows.filterMap (·.storageKey)

theorem keysOf_add (rows more : Multiset BlobRow) : keysOf (rows + more) = keysOf rows + keysOf more :=
  Multiset.filterMap_add _ _ _

theorem mem_keysOf {rows : Multiset BlobRow} : key ∈ keysOf rows ↔ some key ∈ rows.map (·.storageKey) := by
  simp [keysOf]

theorem keysOf_cons (key : StorageKey) (accountID : AccountID) (sizeBytes : ℤ) (rows : Multiset BlobRow) :
    keysOf (⟨some key, accountID, sizeBytes⟩ ::ₘ rows) = key ::ₘ keysOf rows :=
  Multiset.filterMap_cons_some BlobRow.storageKey ⟨some key, accountID, sizeBytes⟩ rows rfl

theorem keysOf_blobRows (db : Database) : keysOf db.blobRows = ↑db.references := by
  have transfers : keysOf (db.blobs.transfers.contents (·.blobRow?)) =
      ↑((db.blobs.transfers.rows.filter (·.state = .active)).filterMap (·.storageKey)) := by
    refine congrArg _ ((List.filterMap_filterMap ..).trans ?_)
    rw [List.filterMap_filter]
    refine List.filterMap_congr fun t _ => ?_
    by_cases active : t.state = .active <;> simp [HistoryTransfer.blobRow?, HistoryTransfer.blobRow, active]
  unfold blobRows references
  rw [keysOf_add, keysOf_add, keysOf_add, transfers, ← Multiset.coe_add, ← Multiset.coe_add, ← Multiset.coe_add]
  have plain {ρ : Type} (rows : List ρ) (read : ρ → BlobRow) (key : ρ → StorageKey)
      (named : ∀ row, (read row).storageKey = some (key row)) :
      keysOf ↑(rows.filterMap (some <| read ·)) = ↑(rows.map key) := by
    refine congrArg _ ((List.filterMap_filterMap ..).trans ?_)
    rw [← List.filterMap_eq_map']
    exact List.filterMap_congr fun row _ => named row
  unfold Table.contents
  rw [plain _ _ (·.storageKey) fun _ => rfl, plain _ _ (·.storageKey) fun _ => rfl,
    plain _ _ (·.storageKey) fun _ => rfl]

/-- A key that a row refers to or that is queued. -/
def Database.KnowsKey (db : Database) (key : StorageKey) : Prop :=
  key ∈ db.references ∨ key ∈ db.store.blobDeletions
  deriving Decidable

/-- Uploads bring keys that were never known before. -/
abbrev FreshKeys (history : List Exchange) : Prop :=
  Fresh (fun exchange : Exchange => exchange.call.storedKeys) Database.KnowsKey history

/-- The key of a blob whose upload failed, which its handler queues. -/
def Request.uncommittedKeys : Request → List StorageKey
  | .blob _ (.queueBlobDeletion storageKey) => [storageKey]
  | _ => []

/-- Handlers queue the blobs whose rows were not committed. -/
def QueuesUncommitted (history : List Exchange) : Prop :=
  ∀ exchange ∈ history, ∀ key ∈ exchange.call.uncommittedKeys, key ∉ exchange.before.references
  deriving Decidable

/-- Every key is referred to once at most, and not queued while it is. -/
structure KeysSound (db : Database) : Prop where
  single : (keysOf db.blobRows).Nodup
  unqueued : ∀ key ∈ keysOf db.blobRows, key ∉ db.store.blobDeletions

theorem KeysSound.released (sound : KeysSound db)
    (released : Released db next dropped) : KeysSound next := by
  have single := sound.single
  rw [released.rows, keysOf_add, Multiset.nodup_add] at single
  obtain ⟨kept, -, apart⟩ := single
  refine ⟨kept, fun key mem queued => ?_⟩
  rcases (released.queue key).mp queued with old | went
  · refine sound.unqueued key ?_ old
    rw [released.rows, keysOf_add]
    exact Multiset.mem_add.mpr (.inl mem)
  · exact Multiset.disjoint_left.mp apart mem (mem_keysOf.mpr went)

/-- What was known is not more after a release. -/
theorem knows_of_released (released : Released db next dropped)
    (known : key ∈ keysOf next.blobRows ∨ key ∈ next.store.blobDeletions) :
    key ∈ keysOf db.blobRows ∨ key ∈ db.store.blobDeletions := by
  rw [released.rows, keysOf_add, Multiset.mem_add]
  rcases known with kept | queued
  · exact .inl (.inl kept)
  · rcases (released.queue key).mp queued with old | went
    · exact .inr old
    · exact .inl (.inr (mem_keysOf.mpr went))

theorem KeysSound.of_move (sound : KeysSound db) (move : BlobMove config db request next)
    (fresh : ∀ key ∈ request.storedKeys, key ∉ keysOf db.blobRows ∧ key ∉ db.store.blobDeletions)
    (uncommitted : ∀ key ∈ request.uncommittedKeys, key ∉ keysOf db.blobRows) : KeysSound next := by
  cases move with
  | released released => exact sound.released released
  | @stored key _ _ _ _ middle _ brought released _ rows queue =>
    have old := sound.released released
    have unknown : key ∉ keysOf middle.blobRows ∧ key ∉ middle.store.blobDeletions := by
      obtain ⟨unreferenced, unqueued⟩ := fresh key brought
      exact ⟨fun mem => (knows_of_released released (.inl mem)).elim unreferenced unqueued,
        fun queued => (knows_of_released released (.inr queued)).elim unreferenced unqueued⟩
    have keys : keysOf next.blobRows = key ::ₘ keysOf middle.blobRows := by rw [rows, keysOf_cons]
    refine ⟨?_, fun other mem => ?_⟩
    · rw [keys]
      exact Multiset.nodup_cons.mpr ⟨unknown.1, old.single⟩
    · rw [keys] at mem
      rw [queue]
      rcases Multiset.mem_cons.mp mem with rfl | kept
      · exact unknown.2
      · exact old.unqueued other kept
  | @queued storageKey _ =>
    refine ⟨queueBlobDeletion_blobRows db storageKey ▸ sound.single, fun key mem queued => ?_⟩
    rw [queueBlobDeletion_blobRows] at mem
    rcases (Store.mem_enqueueEach db.store [storageKey] key).mp queued with old | new
    · exact sound.unqueued key mem old
    · cases List.mem_singleton.mp new
      exact uncommitted _ List.mem_cons_self mem
  | deleted =>
    exact ⟨sound.single, fun key mem queued => sound.unqueued key mem (List.mem_filter.mp queued).1⟩

/-- The request takes the key out of the queue, after its blob was deleted. -/
def Exchange.CompletesDeletion (exchange : Exchange) (key : StorageKey) : Prop :=
  key ∈ exchange.before.store.blobDeletions ∧ ∃ now, exchange.call = .blob now (.completeBlobDeletion key)

/-- No reference is lost: a key stays known, unless its deletion is completed. -/
theorem knows_of_move (move : BlobMove config db request next) (answer : Except StoreError Reply)
    (known : key ∈ keysOf db.blobRows ∨ key ∈ db.store.blobDeletions) :
    (key ∈ keysOf next.blobRows ∨ key ∈ next.store.blobDeletions) ∨
      Exchange.CompletesDeletion ⟨db, request, answer, next⟩ key := by
  have kept : ∀ {next : Database} {dropped : Multiset BlobRow}, Released db next dropped →
      key ∈ keysOf next.blobRows ∨ key ∈ next.store.blobDeletions := by
    intro next dropped released
    rcases known with referenced | queued
    · rw [released.rows, keysOf_add, Multiset.mem_add] at referenced
      refine referenced.imp_right fun went => (released.queue key).mpr (.inr (mem_keysOf.mp went))
    · exact .inr ((released.queue key).mpr (.inl queued))
  cases move with
  | released released => exact .inl (kept released)
  | stored _ released _ rows queue =>
    refine .inl ((kept released).imp (fun referenced => ?_) fun queued => queue ▸ queued)
    rw [rows, keysOf_cons]
    exact Multiset.mem_cons_of_mem referenced
  | @queued storageKey _ =>
    refine .inl (known.imp (fun referenced => ?_) fun queued => ?_)
    · rwa [queueBlobDeletion_blobRows]
    · exact (Store.mem_enqueueEach db.store [storageKey] key).mpr (.inl queued)
  | @deleted storageKey now =>
    rcases known with referenced | queued
    · exact .inl (.inl referenced)
    · by_cases same : key = storageKey
      · cases same
        exact .inr ⟨queued, now, rfl⟩
      · exact .inl (.inr (List.mem_filter.mpr ⟨queued, decide_eq_true same⟩))

theorem mem_references : key ∈ db.references ↔ key ∈ keysOf db.blobRows := by
  rw [keysOf_blobRows]
  exact Iff.rfl

theorem keysSound_of_run (run : DatabaseRun config history db) (fresh : FreshKeys history)
    (uncommitted : QueuesUncommitted history) : KeysSound db := by
  refine run.preserves_history
    (fun history db => FreshKeys history → QueuesUncommitted history → KeysSound db) ?_ ?_ ?_ fresh uncommitted
  · exact fun _ _ => ⟨Multiset.nodup_zero, fun key none => absurd none (Multiset.notMem_zero key)⟩
  · intro history db request reply next run _ sound ok fresh uncommitted
    have earlier : QueuesUncommitted history :=
      fun exchange mem => uncommitted exchange (List.mem_append_left _ mem)
    refine (sound fresh.earlier earlier).of_move (blobMove_of_run run ok) ?_ ?_
    · intro key brought
      have unknown := fresh.last key brought
      exact ⟨fun mem => unknown (.inl (mem_references.mpr mem)), fun queued => unknown (.inr queued)⟩
    · intro key queued
      exact fun mem => uncommitted _ List.mem_concat_self key queued (mem_references.mpr mem)
  · intro history db request refusal _ _ sound _ fresh uncommitted
    exact sound fresh.earlier fun exchange mem => uncommitted exchange (List.mem_append_left _ mem)

/-- A key that is known at some point stays known, until its deletion is completed. -/
theorem knows_of_rest {start : Database} {later : List Exchange} (run : DatabaseRun config history start)
    (rest : Run (Database.step config) unguarded start later db)
    (known : key ∈ keysOf start.blobRows ∨ key ∈ start.store.blobDeletions) :
    (key ∈ keysOf db.blobRows ∨ key ∈ db.store.blobDeletions) ∨
      ∃ exchange ∈ later, Exchange.CompletesDeletion exchange key := by
  refine or_iff_not_imp_right.mpr fun uncompleted => rest.preserves_where
    (fun db => key ∈ keysOf db.blobRows ∨ key ∈ db.store.blobDeletions)
    (fun exchange mem completes => uncompleted ⟨exchange, mem, completes⟩) known ?_
  intro later db request reply next before _ held ok quiet
  exact (knows_of_move (blobMove_of_run (run.trans before) ok) (.ok reply) held).resolve_right quiet

/-- Blob bookkeeping in a history and the database it ends in. -/
structure BlobsSound (history : List Exchange) (db : Database) : Prop where
  /-- A key that is referred to is referred to once, and not queued. -/
  single : ∀ key ∈ db.references, db.references.count key = 1 ∧ key ∉ db.store.blobDeletions
  /-- A key that was ever referred to still is, or it is queued, or it was queued and its deletion was
  completed. -/
  tracked : ∀ exchange ∈ history, ∀ key,
    key ∈ exchange.before.references ∨ key ∈ exchange.after.references →
    key ∈ db.references ∨ key ∈ db.store.blobDeletions ∨ ∃ later ∈ history, Exchange.CompletesDeletion later key

/-- If uploads bring fresh keys, no blob leaks and no reference dangles. -/
theorem blobs_sound (run : DatabaseRun config history db) (fresh : FreshKeys history)
    (uncommitted : QueuesUncommitted history) : BlobsSound history db where
  single key member := by
    have sound := keysSound_of_run run fresh uncommitted
    have single := sound.single
    rw [keysOf_blobRows] at single
    exact ⟨List.count_eq_one_of_mem (Multiset.coe_nodup.mp single) member,
      sound.unqueued key (mem_references.mp member)⟩
  tracked := by
    intro exchange member key referenced
    obtain ⟨earlier, later, rfl⟩ := List.append_of_mem member
    obtain ⟨before, -, -⟩ := run.at_entry
    have known : (key ∈ keysOf exchange.after.blobRows ∨ key ∈ exchange.after.store.blobDeletions) ∨
        Exchange.CompletesDeletion exchange key := by
      rcases referenced with old | new
      · have held := Or.inl (b := key ∈ exchange.before.store.blobDeletions) (mem_references.mp old)
        rcases run.committed_or_refused member with ⟨answer, -, committed⟩ | ⟨refusal, -, same⟩
        · exact knows_of_move (blobMove_of_run before committed) exchange.answer held
        · exact .inl (same ▸ held)
      · exact .inl (.inl (mem_references.mp new))
    rcases known with known | completes
    · rcases knows_of_rest run.through_entry run.after_entry known with (kept | queued) | ⟨other, after, completes⟩
      · exact .inl (mem_references.mpr kept)
      · exact .inr (.inl queued)
      · exact .inr (.inr ⟨other, List.mem_append_right _ (List.mem_cons_of_mem _ after), completes⟩)
    · exact .inr (.inr ⟨exchange, member, completes⟩)

open Example in
/-- The attachment is referred to; the backup's key was queued and its deletion completed, and the key of the
refused upload is queued. -/
theorem blobs_sound_alice :
    FreshKeys (served storesBlobs) ∧ QueuesUncommitted (served storesBlobs) ∧
      BlobsSound (served storesBlobs) (reached storesBlobs) ∧
      (reached storesBlobs).references = ["photo-key"] ∧
      (reached storesBlobs).store.blobDeletions = ["video-key"] := by
  have fresh : FreshKeys (served storesBlobs) := by decide +kernel
  have uncommitted : QueuesUncommitted (served storesBlobs) := by decide +kernel
  exact ⟨fresh, uncommitted, blobs_sound (served_run storesBlobs) fresh uncommitted, by decide +kernel,
    by decide +kernel⟩

end Veritra.Storage
