import Veritra.Soundness.CommitOrder

/-! # The listing is the plain filter

The recursive query walks one chain per membership and flags what the device may not see. Its pages
are those of the plain specification: the events after the cursor that can be delivered, in id
order. Following the last id of each page therefore reads every such event once.
-/

namespace Veritra.Storage

open Relational Machine

namespace Store

/-- The plain specification: the events after the cursor that can be delivered, in id order. -/
def deliverableAfter (s : Store) (clock : Time) (accountID : AccountID) (deviceID : DeviceID)
    (after : ℤ) : List SyncEvent :=
  s.events.rows.filter fun e => after < e.id && decide (s.deliverable clock accountID deviceID e)

variable {s : Store} {clock : Time} {accountID : AccountID} {deviceID : DeviceID} {after : ℤ}

theorem mem_chains {chain : Chain} : chain ∈ s.chains accountID ↔
    chain = .account ∨ ∃ id, chain = .conversation id ∧ s.isConversationMember id accountID := by
  simp only [chains, List.mem_append, List.mem_filterMap, List.mem_filter, List.mem_singleton, decide_eq_true_eq]
  constructor
  · rintro (⟨m, ⟨mem, account⟩, named⟩ | rfl)
    · split at named
      · next id scope =>
        cases named
        exact .inr ⟨id, rfl, m, mem, scope, account⟩
      · cases named
    · exact .inl rfl
  · rintro (rfl | ⟨id, rfl, m, mem, scope, account⟩)
    · exact .inr rfl
    · exact .inl ⟨m, ⟨mem, account⟩, by rw [scope]⟩

/-- A membership's key names its scope and its account, so the account has one per conversation. -/
theorem chains_nodup (s : Store) (accountID : AccountID) : (s.chains accountID).Nodup := by
  refine List.nodup_append.mpr ⟨?_, List.nodup_singleton _, ?_⟩
  · refine List.pairwise_filterMap.mpr (List.pairwise_filter.mpr ?_)
    refine (List.pairwise_map.mp s.memberships.unique).imp ?_
    rintro m m' differ account account' chain named _ named' rfl
    refine differ (Prod.ext ?_ ?_)
    · exact (of_decide_eq_true account).trans (of_decide_eq_true account').symm
    · split at named <;> split at named' <;> cases named <;> cases named'
      simp_all [Membership.key]
  · rintro chain listed other last rfl
    obtain ⟨m, -, named⟩ := List.mem_filterMap.mp listed
    rw [List.mem_singleton.mp last] at named
    split at named <;> cases named

/-- The query lists the events of the account's chains after the cursor, in id order. -/
theorem listSyncEventsQuery_eq (s : Store) (accountID : AccountID) (deviceID : DeviceID) (after : ℤ) :
    (s.listSyncEventsQuery accountID deviceID after).map (·.row) = (s.events.rows.filter fun e =>
          after < e.id && Merge.inSome (inChain accountID deviceID) (s.chains accountID) e) ∧
      ∀ candidate ∈ s.listSyncEventsQuery accountID deviceID after, candidate.chain ∈ s.chains accountID ∧
          inChain accountID deviceID candidate.chain candidate.row = true := by
  have ready : Merge.Ready SyncEvent.id s.events.rows (inChain accountID deviceID) (s.chains accountID)
      after (s.firstEvents accountID deviceID after) :=
    Merge.seeds_ready s.events.ordered (s.chains_nodup accountID)
  -- The account's own events name an account, the others do not.
  have apart : ∀ e ∈ s.events.rows, ∀ chain ∈ s.chains accountID, ∀ other ∈ s.chains accountID,
      inChain accountID deviceID chain e = true → inChain accountID deviceID other e = true → chain = other := by
    intro e _ chain _ other _ belongs otherBelongs
    cases chain <;> cases other <;> simp_all [inChain]
  obtain ⟨listed, chained⟩ := Merge.walk_eq s.events.ordered apart s.events.rows.length ready
  rw [List.take_of_length_le (List.length_filter_le _ _)] at listed
  exact ⟨listed, chained⟩

/-- A candidate is flagged visible exactly when its event can be delivered. -/
theorem candidateVisible_iff {candidate : Candidate} (listed : candidate.chain ∈ s.chains accountID)
    (belongs : inChain accountID deviceID candidate.chain candidate.row = true) :
    s.candidateVisible clock accountID deviceID candidate ↔ s.deliverable clock accountID deviceID candidate.row := by
  obtain ⟨chain, e⟩ := candidate
  cases chain with
  | account =>
    have addressed : e.accountID = some accountID ∧ (e.deviceID = none ∨ e.deviceID = some deviceID) := by
      simpa [inChain] using belongs
    exact ⟨fun _ => .inl addressed, fun _ => .inl rfl⟩
  | conversation id =>
    have here : e.conversationID = some id ∧ e.accountID = none := by simpa [inChain] using belongs
    have mem : s.isConversationMember id accountID := by simpa using mem_chains.mp listed
    constructor
    · rintro (isAccount | visible)
      · cases isAccount
      · exact .inr ⟨here.2, ⟨id, here.1, mem⟩, visible⟩
    · rintro (⟨account, -⟩ | ⟨-, -, visible⟩)
      · rw [here.2] at account
        cases account
      · exact .inr visible

/-- Every event that can be delivered is in one of the account's chains. -/
theorem inSome_of_deliverable {e : SyncEvent} (deliverable : s.deliverable clock accountID deviceID e) :
    Merge.inSome (inChain accountID deviceID) (s.chains accountID) e = true := by
  rcases deliverable with ⟨account, device⟩ | ⟨noAccount, ⟨id, here, mem⟩, -⟩
  · exact List.any_eq_true.mpr ⟨.account, mem_chains.mpr (.inl rfl), by simp [inChain, account, device]⟩
  · refine List.any_eq_true.mpr ⟨.conversation id, mem_chains.mpr (.inr ⟨id, rfl, mem⟩), ?_⟩
    simp [inChain, noAccount, Option.mem_def.mp here]

/-- On candidates in id order, reading ends with the first visible ones and never fails. -/
theorem readPage_eq (limit : ℕ) {last : ℤ} {queue : List Candidate}
    (ordered : queue.Pairwise fun candidate later => candidate.row.id < later.row.id)
    (beyond : ∀ candidate ∈ queue, last < candidate.row.id) :
    s.readPage clock accountID deviceID limit last queue =
      .ok (((queue.filter fun candidate => s.candidateVisible clock accountID deviceID candidate).map
        (·.row)).take limit) := by
  induction queue generalizing limit last with
  | nil => cases limit <;> simp [readPage]
  | cons candidate rest ih =>
    obtain ⟨above, orderedRest⟩ := List.pairwise_cons.mp ordered
    have next : ∀ later ∈ rest, (candidate.row.id : ℤ) < later.row.id := fun later mem =>
      Int.ofNat_lt.mpr (above later mem)
    cases limit with
    | zero => simp [readPage]
    | succ limit =>
      rw [readPage, require_bind_of (beyond candidate List.mem_cons_self)]
      by_cases visible : s.candidateVisible clock accountID deviceID candidate
      · rw [if_pos visible, ih limit orderedRest next]
        simp [visible, bind, Except.bind, pure, Except.pure]
      · rw [if_neg visible, ih (limit + 1) orderedRest next]
        simp [visible]

theorem listSyncEventsQuery_ordered (s : Store) (accountID : AccountID) (deviceID : DeviceID) (after : ℤ) :
    (s.listSyncEventsQuery accountID deviceID after).Pairwise
        (fun candidate later => candidate.row.id < later.row.id) ∧
      ∀ candidate ∈ s.listSyncEventsQuery accountID deviceID after, after < candidate.row.id := by
  obtain ⟨listed, -⟩ := s.listSyncEventsQuery_eq accountID deviceID after
  constructor
  · have ordered := s.events.ordered.filter fun e =>
      after < e.id && Merge.inSome (inChain accountID deviceID) (s.chains accountID) e
    rw [← listed, List.pairwise_map] at ordered
    exact ordered
  · intro candidate mem
    have inQuery := List.mem_map_of_mem (f := (·.row)) mem
    rw [listed] at inQuery
    have hit := (List.mem_filter.mp inQuery).2
    simp only [Bool.and_eq_true, decide_eq_true_eq] at hit
    exact hit.1

/-- The flagged candidates are the events of the plain specification. -/
theorem visible_candidates (s : Store) (clock : Time) (accountID : AccountID) (deviceID : DeviceID)
    (after : ℤ) :
    ((s.listSyncEventsQuery accountID deviceID after).filter fun candidate =>
      s.candidateVisible clock accountID deviceID candidate).map (·.row) =
      s.deliverableAfter clock accountID deviceID after := by
  obtain ⟨listed, chained⟩ := s.listSyncEventsQuery_eq accountID deviceID after
  calc ((s.listSyncEventsQuery accountID deviceID after).filter fun candidate =>
        s.candidateVisible clock accountID deviceID candidate).map (·.row)
      = ((s.listSyncEventsQuery accountID deviceID after).filter
          ((fun e => decide (s.deliverable clock accountID deviceID e)) ∘ (·.row))).map (·.row) := by
        refine congrArg _ (List.filter_congr fun candidate mem => ?_)
        obtain ⟨inChains, belongs⟩ := chained candidate mem
        exact decide_eq_decide.mpr (candidateVisible_iff inChains belongs)
    _ = (s.events.rows.filter fun e =>
          after < e.id && Merge.inSome (inChain accountID deviceID) (s.chains accountID) e).filter
          fun e => decide (s.deliverable clock accountID deviceID e) := by
        rw [← List.filter_map, listed]
    _ = s.deliverableAfter clock accountID deviceID after := by
        rw [List.filter_filter]
        refine List.filter_congr fun e _ => ?_
        by_cases deliverable : s.deliverable clock accountID deviceID e
        · simp [deliverable, inSome_of_deliverable deliverable]
        · simp [deliverable]

/-- A page is the first part of the plain specification. -/
theorem page_eq (s : Store) (clock : Time) (accountID : AccountID) (deviceID : DeviceID) (after : ℤ)
    (limit : ℕ) :
    s.listSyncEventsPage clock accountID deviceID after limit =
      .ok ((s.deliverableAfter clock accountID deviceID after).take limit) := by
  obtain ⟨ordered, beyond⟩ := s.listSyncEventsQuery_ordered accountID deviceID after
  rw [listSyncEventsPage, readPage_eq limit ordered beyond, visible_candidates]

/-- A client that asks for the page after the last event it was sent, until a page is empty. The first
argument bounds the number of pages. -/
def followPages (s : Store) (clock : Time) (accountID : AccountID) (deviceID : DeviceID) (limit : ℕ) :
    ℕ → ℤ → Except StoreError (List SyncEvent)
  | 0, _ => .ok []
  | fuel + 1, after => do
    let page ← s.listSyncEventsPage clock accountID deviceID after limit
    match page.getLast? with
    | none => pure []
    | some last => do
      let rest ← followPages s clock accountID deviceID limit fuel last.id
      pure (page ++ rest)

theorem deliverableAfter_ordered (s : Store) (clock : Time) (accountID : AccountID)
    (deviceID : DeviceID) (after : ℤ) :
    (s.deliverableAfter clock accountID deviceID after).Pairwise fun e later => e.id < later.id :=
  s.events.ordered.filter _

/-- What is left after a page begins behind the last event of the page. -/
theorem deliverableAfter_last {page rest : List SyncEvent} {last : SyncEvent}
    (split : s.deliverableAfter clock accountID deviceID after = page ++ rest)
    (isLast : page.getLast? = some last) :
    s.deliverableAfter clock accountID deviceID last.id = rest := by
  have ordered := s.deliverableAfter_ordered clock accountID deviceID after
  rw [split] at ordered
  obtain ⟨orderedPage, -, across⟩ := List.pairwise_append.mp ordered
  obtain ⟨before, rfl⟩ := List.getLast?_eq_some_iff.mp isLast
  have lastMember : last ∈ before ++ [last] := List.mem_append_right _ List.mem_cons_self
  have inSpec : last ∈ s.deliverableAfter clock accountID deviceID after := by
    rw [split]
    exact List.mem_append_left _ lastMember
  have beyond : after < last.id := by
    have hit := (List.mem_filter.mp inSpec).2
    simp only [Bool.and_eq_true, decide_eq_true_eq] at hit
    exact hit.1
  have narrowed : s.deliverableAfter clock accountID deviceID last.id =
      (s.deliverableAfter clock accountID deviceID after).filter fun e => (last.id : ℤ) < e.id := by
    simp only [deliverableAfter, List.filter_filter]
    refine List.filter_congr fun e _ => ?_
    by_cases later : (last.id : ℤ) < e.id
    · simp [later, beyond.trans later]
    · simp [later]
  have gone : (before ++ [last]).filter (fun e => (last.id : ℤ) < e.id) = [] := by
    refine List.filter_eq_nil_iff.mpr fun e mem later => ?_
    have less : last.id < e.id := Int.ofNat_lt.mp (of_decide_eq_true later)
    rcases List.mem_append.mp mem with earlier | isSelf
    · have below := (List.pairwise_append.mp orderedPage).2.2 e earlier last List.mem_cons_self
      exact absurd less (Nat.lt_asymm below)
    · rw [List.mem_singleton.mp isSelf] at less
      exact Nat.lt_irrefl _ less
  have kept : rest.filter (fun e => (last.id : ℤ) < e.id) = rest := by
    refine List.filter_eq_self.mpr fun e mem => decide_eq_true ?_
    exact Int.ofNat_lt.mpr (across last lastMember e mem)
  rw [narrowed, split, List.filter_append, gone, kept, List.nil_append]

/-- Enough pages read everything that can be delivered after the cursor. -/
theorem followPages_eq {limit fuel : ℕ} (positive : 0 < limit)
    (enough : (s.deliverableAfter clock accountID deviceID after).length < fuel) :
    s.followPages clock accountID deviceID limit fuel after =
      .ok (s.deliverableAfter clock accountID deviceID after) := by
  induction fuel generalizing after with
  | zero => omega
  | succ fuel ih =>
    rw [followPages, page_eq]
    have parts := List.take_append_drop limit (s.deliverableAfter clock accountID deviceID after)
    simp only [bind, Except.bind]
    split
    · next empty =>
      have none_left : s.deliverableAfter clock accountID deviceID after = [] := by
        rcases List.take_eq_nil_iff.mp (List.getLast?_eq_none_iff.mp empty) with zero | none_left
        · omega
        · exact none_left
      rw [none_left]
      rfl
    · next last isLast =>
      have rest := deliverableAfter_last parts.symm isLast
      have shorter : (s.deliverableAfter clock accountID deviceID last.id).length < fuel := by
        have some : s.deliverableAfter clock accountID deviceID after ≠ [] := by
          intro none_left
          simp [none_left] at isLast
        have size := List.length_pos_iff.mpr some
        rw [rest, List.length_drop]
        omega
      rw [ih shorter, rest]
      exact congrArg Except.ok parts

end Store

/-- A page of the merge is the first part of the plain specification, which holds each event once and
in id order, and following the pages reads all of it. -/
theorem listing_is_plain_filter (s : Store) (clock : Time) (accountID : AccountID) (deviceID : DeviceID)
    (after : ℤ) {limit : ℕ} (positive : 0 < limit) :
    s.listSyncEventsPage clock accountID deviceID after limit =
        .ok ((s.deliverableAfter clock accountID deviceID after).take limit) ∧
      (s.deliverableAfter clock accountID deviceID after).Pairwise (fun e later => e.id < later.id) ∧
      ∀ fuel, s.events.rows.length < fuel →
        s.followPages clock accountID deviceID limit fuel after =
          .ok (s.deliverableAfter clock accountID deviceID after) := by
  refine ⟨s.page_eq clock accountID deviceID after limit,
    s.deliverableAfter_ordered clock accountID deviceID after, fun fuel enough => ?_⟩
  have fewer : (s.deliverableAfter clock accountID deviceID after).length ≤ s.events.rows.length :=
    List.length_filter_le _ _
  exact Store.followPages_eq positive (by omega)

open Example in
/-- Alice reads the two commits one by one, and not the Welcome for Bob's device. -/
theorem listing_is_plain_filter_updated :
    ((exec (step limits) Store.init updated).deliverableAfter 100 alice "alice-phone" 0).map (·.id) = [2, 4] ∧
      (exec (step limits) Store.init updated).followPages 100 alice "alice-phone" 1 5 0 =
        .ok ((exec (step limits) Store.init updated).deliverableAfter 100 alice "alice-phone" 0) :=
  ⟨by decide +kernel, (listing_is_plain_filter _ 100 alice "alice-phone" 0 (by decide)).2.2 5 (by decide +kernel)⟩

/-- Whatever is asked, the log of events is appended to above all ids that were given. A stored event is changed
only by the redaction of its message, and deleted only by a sweep with a later cutoff. -/
theorem events_redacted_or_swept (limits : Limits) (s : Store) (calls : List Call) :
    EventsKept (fun e => ∃ call ∈ calls, call.prunes e) s (exec (step limits) s calls) := by
  refine (run_exec (step limits) s calls).preserves_where (EventsKept (fun e => ∃ call ∈ calls, call.prunes e) s)
    (fun _ => call_mem_of_mem_execHistory)
    ⟨le_rfl, fun e mem => .inl ⟨e, mem, .refl e⟩, fun e mem => .inl ⟨e, mem, .refl e⟩⟩ ?_
  intro _ middle call answer next _ _ sofar ok asked
  have step := events_of_step ok
  refine ⟨sofar.last_le.trans step.last_le, fun e' mem => ?_, fun e mem => ?_⟩
  · rcases step.known e' mem with ⟨e, before, rewritten⟩ | above
    · rcases sofar.known e before with ⟨first, start, earlier⟩ | above
      · exact .inl ⟨first, start, earlier.trans rewritten⟩
      · exact .inr (rewritten.id ▸ above)
    · exact .inr (sofar.last_le.trans_lt above)
  · rcases sofar.kept e mem with ⟨e', left, rewritten⟩ | swept
    · refine (step.kept e' left).imp ?_ ?_
      · rintro ⟨e'', stays, later⟩
        exact ⟨e'', stays, rewritten.trans later⟩
      · rintro ⟨now, olderThan, sweep, old⟩
        exact ⟨call, asked, now, olderThan, sweep, rewritten.createdAt ▸ old⟩
    · exact .inr swept

end Veritra.Storage
