import Veritra.Proofs.Storage.MessageRows
import Veritra.Proofs.Storage.PruneMarks
import Veritra.Soundness.CommitOrder

/-! # An answered cursor has missed nothing

Retention deletes events, so soundness of the expiry test is a statement about rows that are gone.
The archive keeps them next to the database. Along every run, each event pruned since the upgrade is
covered by the marks, except for a message event whose message nobody may read any more, and that
stays so as long as no message is stored under its id again. Events pruned before the upgrade are
covered by the legacy test only while the account has an event left that counts.
-/

namespace Veritra.Storage

open Relational Machine

variable {s s' : Store} {clock now : Time} {e : SyncEvent} {Saved : MessageID → Prop}

/-- The database, with every event that retention deleted and the latest clock reading. -/
structure Archive where
  store : Store
  pruned : List SyncEvent
  clock : Time

namespace Archive

/-- Serve a call, and keep the events that it deletes. -/
def step (limits : Limits) (a : Archive) (call : Call) : Except StoreError (Answer × Archive) :=
  (Storage.step limits a.store call).map fun (given, store) =>
    (given,
      { store
        pruned := a.pruned ++ a.store.events.rows.filter fun e => ¬ ∃ kept ∈ store.events, kept.id = e.id
        clock := call.now.getD a.clock })

/-- Time does not go backwards, and no message is stored under an id that a pruned event names. -/
structure Allowed (a : Archive) (call : Call) : Prop where
  forward : ∀ now ∈ call.now, a.clock ≤ now
  fresh : ∀ id, call.savedID = some id → ∀ e ∈ a.pruned, e.payload.messageID ≠ some id

/-- Any database that migration 0044 found, with the events at or below the recorded id pruned. -/
structure Upgraded (a : Archive) (legacy : EventID) : Prop where
  marks : a.store.pruneMarks = ⟨some ⟨legacy, legacy⟩, .empty, .empty⟩
  pruned : ∀ e ∈ a.pruned, e.id ≤ legacy
  kept : ∀ e ∈ a.store.events, legacy < e.id
  issued : legacy ≤ a.store.events.last

/-- Runs of the server from an upgraded database. -/
abbrev Reaches (limits : Limits) (a b : Archive) : Prop :=
  ∃ history, Run (step limits) Allowed a history b

/-- The migration finds such a database. -/
theorem upgraded_seeded {pruned : List SyncEvent} {legacy : ℕ}
    (through : legacy = (s.events.rows.head?.map (·.id - 1)).getD s.events.last)
    (issued : ∀ e ∈ s.events, 0 < e.id) (old : ∀ e ∈ pruned, e.id ≤ legacy) :
    Upgraded ⟨{ s with pruneMarks := .seeded s }, pruned, clock⟩ legacy := by
  refine ⟨by rw [through]; rfl, old, ?_, ?_⟩
  · intro e mem
    have positive := issued e mem
    have ordered := s.events.ordered
    cases rows : s.events.rows with
    | nil => rw [Log.mem_def, rows] at mem; cases mem
    | cons oldest rest =>
      rw [Log.mem_def, rows] at mem
      rw [rows] at through ordered
      rw [through]
      rcases List.mem_cons.mp mem with rfl | later
      · exact Nat.sub_one_lt_of_lt positive
      · exact Nat.lt_of_le_of_lt (Nat.sub_le _ _) (List.rel_of_pairwise_cons ordered later)
  · cases rows : s.events.rows with
    | nil => rw [rows] at through; exact through.le
    | cons oldest rest =>
      have bounded := s.events.bounded oldest (rows ▸ List.mem_cons_self)
      rw [rows] at through
      rw [through]
      exact (Nat.sub_le _ _).trans bounded

/-- What holds of the archive along a run. -/
structure Sound (legacy : EventID) (a : Archive) : Prop where
  present : a.store.pruneMarks.state.isSome
  state : ∀ state ∈ a.store.pruneMarks.state, state.legacyThrough = legacy ∧ legacy ≤ state.prunedThrough
  covered : ∀ e ∈ a.pruned, e.id ≤ legacy ∨ a.store.pruneMarks.Covers a.store a.clock e
  kept : ∀ e ∈ a.store.events, legacy < e.id
  issued : legacy ≤ a.store.events.last

theorem Upgraded.sound {a : Archive} {legacy : EventID} (upgraded : a.Upgraded legacy) :
    a.Sound legacy where
  present := by rw [upgraded.marks]; rfl
  state := by
    rintro state mem
    rw [upgraded.marks] at mem
    cases mem
    exact ⟨rfl, Nat.le_refl _⟩
  covered e mem := .inl (upgraded.pruned e mem)
  kept := upgraded.kept
  issued := upgraded.issued

end Archive

/-- SQLite's clock follows the server's. -/
theorem sqlNow_le {later : Time} (forward : now ≤ later) : sqlNow now ≤ sqlNow later :=
  Nat.mul_le_mul_right _ (Nat.div_le_div_right forward)

/-- A message event that is live now was live before, unless its message was stored anew. -/
theorem live_before (age : RowsAge Saved s s') {later : Time}
    (forward : now ≤ later) (fresh : ∀ id, Saved id → e.payload.messageID ≠ some id)
    (live : s'.syncEventEnvelopeLive later e) : s.syncEventEnvelopeLive now e := by
  intro type
  obtain ⟨m', member', named, unexpired, visible⟩ := live type
  rcases age m' member' with ⟨m, mem, older⟩ | saved
  · refine ⟨m, mem, older.id ▸ named, ?_, ?_⟩
    · intro expiresAt expires
      have before := unexpired expiresAt (older.expiresAt ▸ expires)
      exact Nat.lt_of_le_of_lt (sqlNow_le forward) before
    · refine visible.imp_left fun kept => ?_
      by_contra deleted
      exact older.deleted deleted kept
  · exact absurd named (fresh m'.id saved)

namespace PruneMarks

theorem Covers.later {marks : PruneMarks} (age : RowsAge Saved s s')
    {later : Time} (forward : now ≤ later) (fresh : ∀ id, Saved id → e.payload.messageID ≠ some id)
    (covers : marks.Covers s now e) :
    marks.Covers s' later e where
  highWater := covers.highWater
  account := covers.account
  conversation conversationID noAccount conversation :=
    (covers.conversation conversationID noAccount conversation).imp_right
      fun hidden live => hidden (live_before age forward fresh live)

end PruneMarks

namespace Archive

variable {limits : Limits} {a a' : Archive} {call : Call} {given : Answer} {legacy : EventID}

theorem step_ok (ok : step limits a call = .ok (given, a')) :
    Storage.step limits a.store call = .ok (given, a'.store) ∧
      a'.pruned = a.pruned ++ a.store.events.rows.filter
        (fun e => ¬ ∃ kept ∈ a'.store.events, kept.id = e.id) ∧
      a'.clock = call.now.getD a.clock := by
  unfold step at ok
  cases outcome : Storage.step limits a.store call with
  | error refusal => rw [outcome] at ok; cases ok
  | ok result =>
    rw [outcome] at ok
    cases ok
    exact ⟨rfl, rfl, rfl⟩

theorem Allowed.clock_le (allowed : a.Allowed call) : a.clock ≤ call.now.getD a.clock := by
  cases reading : call.now with
  | none => exact Nat.le_refl _
  | some now => exact allowed.forward now reading

/-- What a call prunes is covered by the marks it leaves, and the older marks still stand. -/
theorem marks_of_step (ok : Storage.step limits a.store call = .ok (given, s')) :
    a.store.pruneMarks.Raised s'.pruneMarks ∧ ∀ e ∈ a.store.events, (¬ ∃ kept ∈ s'.events, kept.id = e.id) →
        ∃ now ∈ call.now, call.savedID = none ∧ s'.pruneMarks.Covers a.store now e := by
  have effect := effect_of_step ok
  by_cases isPrune : call.isPrune = false
  · obtain ⟨marks, revises⟩ := effect.revises isPrune
    refine ⟨marks ▸ .refl _, ?_⟩
    intro e mem gone
    obtain ⟨kept, keptMember, rewritten⟩ := revises.keeps e mem
    exact absurd ⟨kept, keptMember, rewritten.id⟩ gone
  · obtain ⟨now, olderThan, _, rfl, pruned⟩ := effect.of_isPrune isPrune
    have batch := Store.pruneSyncEventsBatch_ok pruned
    obtain ⟨raised, covers⟩ := PruneMarks.markEach a.store now (a.store.oldSyncEvents olderThan)
      a.store.pruneMarks
    rw [batch.marks]
    refine ⟨raised, fun e mem gone => ⟨now, rfl, rfl, covers e ?_⟩⟩
    by_contra unlisted
    exact gone ⟨e, (batch.events e).mpr ⟨mem, unlisted⟩, rfl⟩

theorem Sound.step (sound : a.Sound legacy) (allowed : a.Allowed call)
    (ok : step limits a call = .ok (given, a')) : a'.Sound legacy := by
  obtain ⟨served, pruned, clock⟩ := step_ok ok
  obtain ⟨raised, covers⟩ := marks_of_step served
  have events := events_of_step served
  have age := rowsAge_of_step served
  refine ⟨raised.present.trans sound.present, ?_, ?_, ?_, sound.issued.trans events.last_le⟩
  · intro state' member'
    obtain ⟨state, mem, same, above⟩ := raised.state state' member'
    obtain ⟨recorded, below⟩ := sound.state state mem
    exact ⟨same.trans recorded, below.trans above⟩
  · intro e mem
    rw [pruned] at mem
    rcases List.mem_append.mp mem with old | fresh
    · -- The marks have only risen, and a hidden envelope stays hidden.
      refine (sound.covered e old).imp_right fun covered => raised.covers ?_
      refine covered.later age (clock ▸ allowed.clock_le) ?_
      exact fun id saved => allowed.fresh id saved e old
    · obtain ⟨present, gone⟩ := List.mem_filter.mp fresh
      obtain ⟨now, reading, noSave, covered⟩ := covers e present (of_decide_eq_true gone)
      have same : a'.clock = now := by rw [clock, Option.mem_def.mp reading]; rfl
      refine .inr (same ▸ covered.later age (Nat.le_refl _) ?_)
      intro id saved
      rw [noSave] at saved
      cases saved
  · intro e' mem
    rcases events.known e' mem with ⟨e, old, rewritten⟩ | above
    · exact rewritten.id ▸ sound.kept e old
    · exact Nat.lt_of_le_of_lt sound.issued above

theorem Reaches.sound {start : Archive} (upgraded : start.Upgraded legacy)
    (reached : Reaches limits start a) : a.Sound legacy := by
  obtain ⟨_, run⟩ := reached
  exact run.preserves (Sound legacy) upgraded.sound fun _ _ _ _ allowed sound ok =>
    sound.step allowed ok

variable {accountID : AccountID} {deviceID : DeviceID} {after : ℤ}

/-- The marks expire the cursor when a covered event after it could still be delivered. -/
theorem marks_expired (covers : a.store.pruneMarks.Covers a.store clock e) (forward : clock ≤ now)
    (beyond : after < e.id) (deliverable : a.store.deliverable now accountID deviceID e) :
    a.store.syncPruneMarksExpired accountID deviceID after := by
  rcases deliverable with ⟨account, device⟩ | ⟨noAccount, ⟨conversationID, conversation, mem⟩, visible⟩
  · obtain ⟨mark, listed, markAccount, markDevice, reached⟩ := covers.account accountID account
    refine .inl ⟨mark, listed, markAccount, ?_, ?_⟩
    · rw [markDevice]
      rcases device with every | this
      · exact .inl (by rw [every]; rfl)
      · exact .inr (by rw [this]; rfl)
    · exact lt_of_lt_of_le beyond (Int.ofNat_le.mpr reached)
  · have live : a.store.syncEventEnvelopeLive clock e :=
      live_before (.of_eq rfl) forward (fun _ never => never) visible.2.2
    have marked := (covers.conversation conversationID noAccount conversation).resolve_right
      (fun hidden => hidden live)
    obtain ⟨mark, listed, here, filtered, reached⟩ := marked
    have same : mark.conversationID = conversationID := Option.some.inj (here.symm.trans conversation)
    have past : after < mark.prunedThrough := lt_of_lt_of_le beyond (Int.ofNat_le.mpr reached)
    refine .inr ⟨mark, listed, same ▸ mem, past, ?_⟩
    by_cases plain : mark.rosterFiltered = false
    · exact .inl plain
    · have roster := visible.1 (by rw [← filtered]; simpa using plain)
      rcases roster with noGroup | ⟨row, rowMember, rowHere, rowDevice, joined, removed, -⟩
      · refine .inr (.inl fun ⟨g, group, groupHere⟩ => noGroup ⟨g, group, ?_⟩)
        rw [here, groupHere]
      · refine .inr (.inr ⟨row, rowMember, ?_, rowDevice, Nat.lt_of_lt_of_le joined reached, ?_⟩)
        · exact Option.some.inj (rowHere.symm.trans here)
        · intro bound isBound
          have within := removed bound isBound
          exact ⟨lt_of_lt_of_le beyond (Int.ofNat_le.mpr within), Nat.lt_of_lt_of_le joined within⟩

/-- Below the legacy id the old test expires every cursor of an account that still has an event. -/
theorem legacy_expired (sound : a.Sound legacy) (below : after < legacy)
    (counted : ∃ e ∈ a.store.events, a.store.countsForOldest accountID e) :
    a.store.legacySyncCursorExpired accountID after := by
  constructor
  · rintro ⟨e, mem, same, -⟩
    have above : (legacy : ℤ) < e.id := Int.ofNat_lt.mpr (sound.kept e mem)
    omega
  · obtain ⟨e, mem, counts⟩ := counted
    have found : (a.store.events.rows.find? fun e => a.store.countsForOldest accountID e).isSome :=
      List.find?_isSome.mpr ⟨e, mem, decide_eq_true counts⟩
    obtain ⟨oldest, isOldest⟩ := Option.isSome_iff_exists.mp found
    have above : (legacy : ℤ) < oldest.id :=
      Int.ofNat_lt.mpr (sound.kept oldest (List.mem_of_find?_eq_some isOldest))
    refine ⟨oldest.id, ?_, ?_⟩
    · rw [Store.syncOldest, isOldest]
      rfl
    · omega

/-- The state of the last read that the expiry test makes for the cursor. -/
def answeredAt (atState atMarks atLegacy : Archive) (after : ℤ) : Archive :=
  if ∃ state ∈ atState.store.pruneMarks.state, (state.prunedThrough : ℤ) ≤ after then atState
  else if ∃ state ∈ atState.store.pruneMarks.state, (state.legacyThrough : ℤ) ≤ after then atMarks
  else atLegacy

/-- The reads of one listing come one after another in a run from `start`. -/
structure Listing (limits : Limits) (start atPage atState atMarks atLegacy : Archive) : Prop where
  page : Reaches limits start atPage
  state : Reaches limits atPage atState
  marks : Reaches limits atState atMarks
  legacy : Reaches limits atMarks atLegacy

theorem Reaches.trans {b c : Archive} (first : Reaches limits a b) (second : Reaches limits b c) :
    Reaches limits a c := by
  obtain ⟨_, run⟩ := first
  obtain ⟨_, rest⟩ := second
  exact ⟨_, run.trans rest⟩

end Archive

/-- When a listing answers a cursor past the start, no pruned event after the cursor could be
delivered to the device, provided the cursor is not below the legacy id or the account has an event
left that counts towards its oldest bound. -/
theorem answered_cursor_missed_nothing {limits : Limits}
    {start atPage atState atMarks atLegacy : Archive} {legacy : EventID}
    (upgraded : start.Upgraded legacy)
    (reads : Archive.Listing limits start atPage atState atMarks atLegacy)
    {accountID : AccountID} {deviceID : DeviceID} {after limit : ℤ} {clock : Time}
    {events : List SyncEvent}
    (counted : (legacy : ℤ) ≤ after ∨ ∃ e ∈ atLegacy.store.events, atLegacy.store.countsForOldest accountID e)
    (positive : 0 < after)
    (answered : Store.listSyncEvents ⟨clock, atPage.store, atState.store, atMarks.store, atLegacy.store⟩
      accountID deviceID after limit = .ok events) :
    let moment := Archive.answeredAt atState atMarks atLegacy after
    ∀ e ∈ moment.pruned, after < e.id → ∀ now, moment.clock ≤ now →
      ¬ moment.store.deliverable now accountID deviceID e := by
  intro moment e pruned beyond now forward deliverable
  obtain ⟨_, -, answered⟩ := bind_eq_ok.mp answered
  obtain ⟨unexpired, -⟩ := require_ok.mp answered
  replace unexpired := unexpired positive
  have soundState : atState.Sound legacy := (reads.page.trans reads.state).sound upgraded
  have soundMarks : atMarks.Sound legacy :=
    ((reads.page.trans reads.state).trans reads.marks).sound upgraded
  have soundLegacy : atLegacy.Sound legacy :=
    (((reads.page.trans reads.state).trans reads.marks).trans reads.legacy).sound upgraded
  by_cases past : ∃ state ∈ atState.store.pruneMarks.state, (state.prunedThrough : ℤ) ≤ after
  · -- Everything pruned is at or below the high-water mark.
    obtain ⟨state, member, reached⟩ := past
    have here : moment = atState := if_pos ⟨state, member, reached⟩
    rw [here] at pruned
    have low : e.id ≤ state.prunedThrough := by
      rcases soundState.covered e pruned with old | covers
      · exact old.trans (soundState.state state member).2
      · exact covers.highWater state member
    have lowInt : (e.id : ℤ) ≤ state.prunedThrough := Int.ofNat_le.mpr low
    omega
  have tested : ∀ state ∈ atState.store.pruneMarks.state, after < state.prunedThrough := by
    intro state member
    by_contra reached
    exact past ⟨state, member, not_lt.mp reached⟩
  by_cases recent : (legacy : ℤ) ≤ after
  · have beyondLegacy : ¬ e.id ≤ legacy := by
      intro old
      have oldInt : (e.id : ℤ) ≤ legacy := Int.ofNat_le.mpr old
      omega
    obtain ⟨state, isState⟩ := Option.isSome_iff_exists.mp soundState.present
    have known : ∃ state ∈ atState.store.pruneMarks.state, (state.legacyThrough : ℤ) ≤ after := by
      refine ⟨state, isState, ?_⟩
      rw [(soundState.state state isState).1]
      exact recent
    have here : moment = atMarks := (if_neg past).trans (if_pos known)
    rw [here] at pruned forward deliverable
    have covers := (soundMarks.covered e pruned).resolve_left beyondLegacy
    exact unexpired ⟨tested, .inl (Archive.marks_expired covers forward beyond deliverable)⟩
  · have below : after < legacy := not_le.mp recent
    have remaining := counted.resolve_left recent
    refine unexpired ⟨tested, .inr ⟨?_, Archive.legacy_expired soundLegacy below remaining⟩⟩
    intro state member
    rw [(soundState.state state member).1]
    exact below

namespace Example

/-- Alice and Bob each get an account event, and retention prunes Bob's. -/
def bobsEventPruned : List Call :=
  [.registerAccount 0 alice .owner "alice-phone",
    .registerAccount 0 bob .member "bob-phone",
    .recordPlainEvent 1 .deviceUpdated (some alice) none (.device "alice-phone"),
    .recordPlainEvent 2 .deviceUpdated (some bob) none (.device "bob-phone"),
    .recordPlainEvent 3 .deviceUpdated (some alice) none (.device "alice-phone"),
    .pruneSyncEventsBatch 100 3]

def fresh : Archive := ⟨Store.init, [], 0⟩

def afterPrune : Archive := exec (Archive.step limits) fresh bobsEventPruned

/-- Everything that Alice's device was sent was pruned before the upgrade. -/
def beforeUpgrade : Store :=
  exec (step limits) Store.init
    [.registerAccount 0 alice .owner "alice-phone",
      .recordPlainEvent 1 .deviceUpdated (some alice) none (.device "alice-phone"),
      .recordPlainEvent 2 .deviceUpdated (some alice) none (.device "alice-phone")]

def emptied : Store := { beforeUpgrade with events := beforeUpgrade.events.delete fun _ => True }

def upgrade : Archive := ⟨{ emptied with pruneMarks := .seeded emptied }, beforeUpgrade.events.rows, 100⟩

theorem afterPrune_reached : Archive.Reaches limits fresh afterPrune := by
  refine ⟨_, Run.start.extend bobsEventPruned fun entry mem => ⟨?_, ?_⟩⟩
  · revert entry
    decide +kernel
  · intro id saved
    have unsaved : ∀ entry ∈ execHistory (Archive.step limits) fresh bobsEventPruned,
        entry.call.savedID = none := by decide +kernel
    rw [unsaved entry mem] at saved
    cases saved

theorem reads_at {start a : Archive} (reached : Archive.Reaches limits start a) :
    Archive.Listing limits start a a a a :=
  ⟨reached, ⟨_, .start⟩, ⟨_, .start⟩, ⟨_, .start⟩⟩

end Example

open Example in
/-- Alice's cursor is answered although Bob's event after it is gone, and she could not have had it. -/
theorem answered_cursor_missed_nothing_bob :
    ∃ e ∈ afterPrune.pruned, (1 : ℤ) < e.id ∧ ¬ afterPrune.store.deliverable 100 alice "alice-phone" e := by
  have upgraded : fresh.Upgraded 0 :=
    Archive.upgraded_seeded (s := Store.init) rfl (fun e member => absurd member (Log.not_mem_empty e))
      fun _ member => absurd member List.not_mem_nil
  have answered : ∃ events, Store.listSyncEvents ⟨100, afterPrune.store, afterPrune.store,
      afterPrune.store, afterPrune.store⟩ alice "alice-phone" 1 50 = .ok events := ⟨_, rfl⟩
  obtain ⟨events, answered⟩ := answered
  have missed := answered_cursor_missed_nothing upgraded (reads_at afterPrune_reached) (.inl (by decide))
    (by decide) answered
  simp only [Archive.answeredAt, ite_self] at missed
  have present : ∃ e ∈ afterPrune.pruned, (1 : ℤ) < e.id := by decide +kernel
  obtain ⟨e, pruned, beyond⟩ := present
  exact ⟨e, pruned, beyond, missed e pruned beyond 100 (by decide +kernel)⟩

open Example in
/-- With no event left for the account, a cursor below the legacy id is answered with an empty page
although an event after it was pruned and would be delivered. -/
theorem emptied_account_answered :
    ∃ start legacy, Archive.Upgraded start legacy ∧ Archive.Listing limits start start start start start ∧
      Store.listSyncEvents ⟨100, start.store, start.store, start.store, start.store⟩ alice
        "alice-phone" 1 50 = .ok [] ∧
      ∃ e ∈ start.pruned, (1 : ℤ) < e.id ∧ start.store.deliverable 100 alice "alice-phone" e := by
  refine ⟨upgrade, 2, ?_, reads_at ⟨_, .start⟩, ?_, ?_⟩
  · exact Archive.upgraded_seeded (by decide +kernel) (by decide +kernel) (by decide +kernel)
  · decide +kernel
  · decide +kernel

end Veritra.Storage
