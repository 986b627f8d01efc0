import Veritra.Proofs.Storage.Prune

/-! # The prune marks only rise, and cover what is pruned

Each trigger raises one high-water mark. After a batch every mark stands where it stood or higher,
and the marks of the places that could have sent a deleted event have reached its id. A message
event whose envelope nobody may read any more is the one kind that leaves no mark.
-/

namespace Veritra.Storage

open Relational

namespace PruneMarks

/-- The account's mark has reached the event. -/
def coversAccount (marks : PruneMarks) (e : SyncEvent) : Prop :=
  ∀ accountID ∈ e.accountID, ∃ mark ∈ marks.accounts, mark.accountID = accountID ∧
    mark.deviceID = e.deviceID.getD "" ∧ e.id ≤ mark.prunedThrough

/-- The conversation's mark for events of this kind has reached the event. -/
def coversConversation (marks : PruneMarks) (e : SyncEvent) : Prop :=
  ∃ mark ∈ marks.conversations, e.conversationID = some mark.conversationID ∧
    mark.rosterFiltered = e.eventType.rosterFiltered ∧ e.id ≤ mark.prunedThrough

/-- Every mark of the first is in the second, at least as high. -/
structure Raised (marks marks' : PruneMarks) : Prop where
  present : marks'.state.isSome = marks.state.isSome
  state : ∀ state' ∈ marks'.state, ∃ state ∈ marks.state,
    state'.legacyThrough = state.legacyThrough ∧ state.prunedThrough ≤ state'.prunedThrough
  accounts : ∀ mark ∈ marks.accounts, ∃ mark' ∈ marks'.accounts,
    mark'.key = mark.key ∧ mark.prunedThrough ≤ mark'.prunedThrough
  conversations : ∀ mark ∈ marks.conversations, ∃ mark' ∈ marks'.conversations,
    mark'.key = mark.key ∧ mark.prunedThrough ≤ mark'.prunedThrough

namespace Raised

variable {marks marks' marks'' : PruneMarks} {e : SyncEvent}

theorem refl (marks : PruneMarks) : Raised marks marks where
  present := rfl
  state state mem := ⟨state, mem, rfl, Nat.le_refl _⟩
  accounts mark mem := ⟨mark, mem, rfl, Nat.le_refl _⟩
  conversations mark mem := ⟨mark, mem, rfl, Nat.le_refl _⟩

theorem trans (first : Raised marks marks') (second : Raised marks' marks'') : Raised marks marks'' where
  present := second.present.trans first.present
  state state'' member'' := by
    obtain ⟨state', member', same', above'⟩ := second.state state'' member''
    obtain ⟨state, mem, same, above⟩ := first.state state' member'
    exact ⟨state, mem, same'.trans same, above.trans above'⟩
  accounts mark mem := by
    obtain ⟨mark', member', same, above⟩ := first.accounts mark mem
    obtain ⟨mark'', member'', same', above'⟩ := second.accounts mark' member'
    exact ⟨mark'', member'', same'.trans same, above.trans above'⟩
  conversations mark mem := by
    obtain ⟨mark', member', same, above⟩ := first.conversations mark mem
    obtain ⟨mark'', member'', same', above'⟩ := second.conversations mark' member'
    exact ⟨mark'', member'', same'.trans same, above.trans above'⟩

theorem coversAccount (raised : Raised marks marks') (covers : marks.coversAccount e) :
    marks'.coversAccount e := by
  intro accountID named
  obtain ⟨mark, mem, account, device, reached⟩ := covers accountID named
  obtain ⟨mark', member', same, above⟩ := raised.accounts mark mem
  exact ⟨mark', member', (congrArg Prod.fst same).trans account, (congrArg Prod.snd same).trans device,
    reached.trans above⟩

theorem coversConversation (raised : Raised marks marks') (covers : marks.coversConversation e) :
    marks'.coversConversation e := by
  obtain ⟨mark, mem, conversation, filtered, reached⟩ := covers
  obtain ⟨mark', member', same, above⟩ := raised.conversations mark mem
  have here : mark'.conversationID = mark.conversationID := congrArg Prod.fst same
  exact ⟨mark', member', here ▸ conversation, (congrArg Prod.snd same).trans filtered, reached.trans above⟩

end Raised

section

variable (marks : PruneMarks)

theorem markHighWater_raised (e : SyncEvent) : Raised marks (marks.markHighWater e) := by
  refine ⟨Option.isSome_map, ?_, (Raised.refl marks).accounts, (Raised.refl marks).conversations⟩
  intro state' mem
  obtain ⟨state, old, rfl⟩ := Option.mem_map.mp mem
  exact ⟨state, old, rfl, le_max_left _ _⟩

theorem markAccount_raised (e : SyncEvent) : Raised marks (marks.markAccount e) := by
  unfold markAccount
  split
  · exact .refl marks
  · refine ⟨rfl, (Raised.refl marks).state, ?_, (Raised.refl marks).conversations⟩
    intro mark mem
    exact Table.upsert_raises AccountMark.prunedThrough (fun _ => le_max_left _ _) mem

theorem markConversation_raised (s : Store) (clock : Time) (e : SyncEvent) :
    Raised marks (marks.markConversation s clock e) := by
  unfold markConversation
  split
  · split
    · refine ⟨rfl, (Raised.refl marks).state, (Raised.refl marks).accounts, ?_⟩
      intro mark mem
      exact Table.upsert_raises ConversationMark.prunedThrough (fun _ => le_max_left _ _) mem
    · exact .refl marks
  · exact .refl marks

theorem markAccount_covers (e : SyncEvent) : (marks.markAccount e).coversAccount e := by
  intro accountID named
  simp only [markAccount, Option.mem_def.mp named]
  have reached : ∃ mark ∈ marks.accounts.upsert ⟨accountID, e.deviceID.getD "", e.id⟩
      (fun mark => { mark with prunedThrough := max mark.prunedThrough e.id }),
      mark.key = (accountID, e.deviceID.getD "") ∧ e.id ≤ mark.prunedThrough :=
    Table.upsert_reaches AccountMark.prunedThrough fun _ => le_max_right _ _
  obtain ⟨mark, mem, same, above⟩ := reached
  exact ⟨mark, mem, congrArg Prod.fst same, congrArg Prod.snd same, above⟩

theorem markConversation_covers (s : Store) (clock : Time) {e : SyncEvent}
    {conversationID : ConversationID} (noAccount : e.accountID = none)
    (conversation : e.conversationID = some conversationID) (live : s.syncEventEnvelopeLive clock e) :
    (marks.markConversation s clock e).coversConversation e := by
  simp only [markConversation, noAccount, conversation, if_pos live]
  have reached : ∃ mark ∈ marks.conversations.upsert ⟨conversationID, e.eventType.rosterFiltered, e.id⟩
      (fun mark => { mark with prunedThrough := max mark.prunedThrough e.id }),
      mark.key = (conversationID, e.eventType.rosterFiltered) ∧ e.id ≤ mark.prunedThrough :=
    Table.upsert_reaches ConversationMark.prunedThrough fun _ => le_max_right _ _
  obtain ⟨mark, mem, same, above⟩ := reached
  have here : mark.conversationID = conversationID := congrArg Prod.fst same
  exact ⟨mark, mem, here ▸ conversation, congrArg Prod.snd same, above⟩

end

/-- What the marks say about a pruned event. -/
structure Covers (marks : PruneMarks) (s : Store) (clock : Time) (e : SyncEvent) : Prop where
  highWater : ∀ state ∈ marks.state, e.id ≤ state.prunedThrough
  account : marks.coversAccount e
  conversation : ∀ conversationID, e.accountID = none → e.conversationID = some conversationID →
    marks.coversConversation e ∨ ¬ s.syncEventEnvelopeLive clock e

theorem Raised.covers {marks marks' : PruneMarks} (raised : Raised marks marks') {s : Store}
    {clock : Time} {e : SyncEvent} (covers : marks.Covers s clock e) : marks'.Covers s clock e where
  highWater := by
    intro state' member'
    obtain ⟨state, mem, -, above⟩ := raised.state state' member'
    exact (covers.highWater state mem).trans above
  account := raised.coversAccount covers.account
  conversation conversationID noAccount conversation :=
    (covers.conversation conversationID noAccount conversation).imp_left raised.coversConversation

theorem markDeleted_raised (s : Store) (clock : Time) (marks : PruneMarks) (e : SyncEvent) :
    Raised marks (markDeleted s clock marks e) :=
  ((marks.markHighWater_raised e).trans (markAccount_raised _ e)).trans
    (markConversation_raised _ s clock e)

theorem markDeleted_covers (s : Store) (clock : Time) (marks : PruneMarks) (e : SyncEvent) :
    (markDeleted s clock marks e).Covers s clock e where
  highWater := by
    have high : ∀ state ∈ (marks.markHighWater e).state, e.id ≤ state.prunedThrough := by
      intro state mem
      obtain ⟨old, -, rfl⟩ := Option.mem_map.mp mem
      exact le_max_right _ _
    have same : (markDeleted s clock marks e).state = (marks.markHighWater e).state := by
      unfold markDeleted markConversation markAccount
      split <;> split <;> (try split) <;> rfl
    rwa [same]
  account := (markConversation_raised _ s clock e).coversAccount (markAccount_covers _ e)
  conversation := by
    intro conversationID noAccount conversation
    by_cases live : s.syncEventEnvelopeLive clock e
    · exact .inl (markConversation_covers _ s clock noAccount conversation live)
    · exact .inr live

/-- After a batch the marks have only risen, and cover each of its events. -/
theorem markEach (s : Store) (clock : Time) (batch : List SyncEvent) (marks : PruneMarks) :
    Raised marks (batch.foldl (markDeleted s clock) marks) ∧
      ∀ e ∈ batch, (batch.foldl (markDeleted s clock) marks).Covers s clock e := by
  induction batch generalizing marks with
  | nil => exact ⟨.refl marks, by simp⟩
  | cons first rest ih =>
    obtain ⟨raised, covers⟩ := ih (markDeleted s clock marks first)
    refine ⟨(markDeleted_raised s clock marks first).trans raised, ?_⟩
    intro e mem
    rcases List.mem_cons.mp mem with rfl | later
    · exact raised.covers (markDeleted_covers s clock marks e)
    · exact covers e later

end PruneMarks
end Veritra.Storage
