import Veritra.Model.Storage.PushWakes
import Veritra.Proofs.Storage.Requests

/-! # What one request does to a wake job

A job is queued with the event of its message, and never again: the event has a new id. After that a
request leaves it alone, leases it, gives its lease back or takes it away, each for a reason that the
statement behind it checks.
-/

namespace Veritra.Storage

open Relational Machine PushStore

variable {now : Time} {request : PushRequest} {limit : ℕ} {leaseToken : LeaseToken}
  {limits : Limits} {given : PushAnswer} {p p' q : PushStore} {id : SubscriptionID} {store : Store}
  {call : Call}

/-- The event of a message that is not a retry has a new id. -/
theorem Store.savedEvent_fresh {s s' : Store} {newID : MessageID} {request : MessageEnvelope}
    {saved : SavedMessage} (ok : s.saveMessageEnvelope now newID true request = .ok (saved, s'))
    (new : saved.duplicate = false) : s.events.last < saved.eventID := by
  obtain ⟨_, -, -, cleared, rfl, ⟨_, -, -, rfl, -⟩ | ⟨-, sending⟩⟩ := saveMessageEnvelope_eq_ok.mp ok
  · cases new
  · have clearing := s.deleteExpiredMessageByIdempotency_writes request.senderDeviceID
      request.idempotencyKey now
    unfold saveNewMessage at sending
    split at sending
    · split at sending
      · have sending := of_require sending
        have sending := of_require sending
        obtain ⟨middle, inserting, sending⟩ := bind_eq_ok.mp sending
        obtain ⟨_, _, -, rfl, -⟩ := insertMessage_ok inserting
        cases sending
        exact Nat.lt_succ_of_le clearing.events.last_le
      · cases sending
    · cases sending

theorem find?_enqueueEach (wakes : Table PushWake PushWake.key) {rows : List PushSubscription}
    {make : PushSubscription → PushWake} (k : WakeKey) :
    (rows.foldl (fun wakes ps => wakes.insertOrIgnore (make ps)) wakes).find? k = wakes.find? k ∨
      wakes.find? k = none ∧ ∃ ps ∈ rows,
        (rows.foldl (fun wakes ps => wakes.insertOrIgnore (make ps)) wakes).find? k = some (make ps) ∧
          (make ps).key = k := by
  induction rows generalizing wakes with
  | nil => exact .inl rfl
  | cons ps rest ih =>
    have first := @Table.find?_insertOrIgnore _ _ _ _ wakes (make ps) k
    rcases ih (wakes.insertOrIgnore (make ps)) with same | ⟨missing, other, mem, found⟩
    · cases known : wakes.find? k with
      | some old =>
        rw [known] at first
        refine .inl (same.trans (first.trans ?_))
        split <;> rfl
      | none =>
        rw [known] at first
        by_cases here : (make ps).key = k
        · rw [if_pos here] at first
          exact .inr ⟨rfl, ps, List.mem_cons_self, same.trans first, here⟩
        · rw [if_neg here] at first
          exact .inl (same.trans first)
    · rw [first] at missing
      split at missing
      · cases missing
      · exact .inr ⟨missing, other, List.mem_cons_of_mem _ mem, found⟩

namespace PushStore

variable {provider : PushProvider} {k : WakeKey} {w : PushWake} {select : PushWake → PushSubscription → Prop}

theorem mem_wakePage [∀ w ps, Decidable (select w ps)]
    {time : PushWake → Time} (mem : w ∈ p.wakePage select time limit) :
    w ∈ p.wakes ∧ ∃ ps ∈ p.subscriptions, ps.id = w.subscriptionID ∧ select w ps := by
  have sorted := List.mem_of_mem_take mem
  obtain ⟨stored, selected⟩ := List.mem_filter.mp ((List.mem_insertionSort _).mp sorted)
  exact ⟨stored, of_decide_eq_true selected⟩

theorem drops_page [∀ w ps, Decidable (select w ps)] (time : PushWake → Time) (p : PushStore) :
    Table.Drops (fun w => ∃ ps ∈ p.subscriptions, ps.id = w.subscriptionID ∧ select w ps) p.wakes
      (p.deletePage (p.wakePage select time limit)).wakes :=
  (p.wakes.drops_delete _).mono fun _ mem => (mem_wakePage mem).2

/-- Why a claim deletes a job. -/
def stale (p : PushStore) (provider : PushProvider) (now : Time) (w : PushWake) : Prop :=
  ∃ ps ∈ p.subscriptions, ps.id = w.subscriptionID ∧
    (p.abandonable provider now w ps ∨ p.ineligible provider now w ps ∨ disabled provider w ps)

theorem dropStaleWakes_ok (p : PushStore) (provider : PushProvider) (now : Time) :
    ∃ wakes, (p.dropStaleWakes provider now).2 = { p with wakes } ∧
      Table.Drops (p.stale provider now) p.wakes wakes := by
  refine ⟨_, rfl, ?_⟩
  refine ((p.drops_page _).mono ?_).trans (((drops_page _ _).mono ?_).trans ((drops_page _ _).mono ?_))
  · exact fun w ⟨ps, stored, named, abandonable⟩ => ⟨ps, stored, named, .inl abandonable⟩
  · exact fun w ⟨ps, stored, named, ineligible⟩ => ⟨ps, stored, named, .inr (.inl ineligible)⟩
  · exact fun w ⟨ps, stored, named, disabled⟩ => ⟨ps, stored, named, .inr (.inr disabled)⟩

def leased (w : PushWake) (leaseToken : LeaseToken) (leaseExpiresAt : Time) : PushWake :=
  { w with leaseToken := some leaseToken, leaseExpiresAt := some leaseExpiresAt, attempts := w.attempts + 1 }

/-- What a claim did to a job. -/
inductive ClaimMove (p : PushStore) (provider : PushProvider) (now leaseDuration : Time)
    (leaseToken : LeaseToken) (p' : PushStore) (k : WakeKey) : Prop
  | kept (same : p'.wakes.find? k = p.wakes.find? k)
  | leased {w : PushWake} {ps : PushSubscription} (found : p.wakes.find? k = some w)
      (subscribed : p.subscriptions.find? w.subscriptionID = some ps)
      (claimable : p.claimable provider now w ps)
      (stored : p'.wakes.find? k = some (PushStore.leased w leaseToken (now + leaseLength leaseDuration)))
  | dropped {w : PushWake} (found : p.wakes.find? k = some w) (stale : p.stale provider now w)
      (gone : p'.wakes.find? k = none)

theorem find?_leasePage {page : List PushWake} {leaseExpiresAt : Time}
    (listed : ∀ w ∈ page, w ∈ q.wakes) (k : WakeKey) :
    (q.leasePage page now leaseToken leaseExpiresAt).wakes.find? k = q.wakes.find? k ∨
      ∃ w ∈ page, q.wakes.find? k = some w ∧
        (q.leasePage page now leaseToken leaseExpiresAt).wakes.find? k = some (leased w leaseToken leaseExpiresAt) := by
  rcases (q.leasePage page now leaseToken leaseExpiresAt).wakes.find?_of_update (fun _ => rfl) k with
    same | ⟨w, found, ⟨⟨chosen, mem, same⟩, -⟩, leased⟩
  · exact .inl same
  · obtain ⟨stored, -⟩ := Table.find?_eq_some.mp found
    cases Table.eq_of_key (listed chosen mem) stored same
    exact .inr ⟨w, mem, found, leased⟩

theorem claimPushWakeJobs_ok (p : PushStore) (provider : PushProvider) (limit : ℕ) (now leaseDuration : Time)
    (leaseToken : LeaseToken) :
    ∃ wakes, (p.claimPushWakeJobs provider limit now leaseDuration leaseToken).2 = { p with wakes } ∧
      ∀ k, ClaimMove p provider now leaseDuration leaseToken { p with wakes } k := by
  obtain ⟨wakes, dropped, rows⟩ := p.dropStaleWakes_ok provider now
  unfold claimPushWakeJobs
  generalize p.dropStaleWakes provider now = result at *
  obtain ⟨abandoned, q⟩ := result
  cases dropped
  have unleased (k : WakeKey) : ClaimMove p provider now leaseDuration leaseToken { p with wakes } k := by
    rcases rows k with same | ⟨w, found, stale, missing⟩
    · exact .kept same
    · exact .dropped found stale missing
  dsimp only
  generalize (if limit = 0 ∨ pushWakeBatchLimit < limit then pushWakeBatchLimit else limit) = bound
  have listed : ∀ w ∈ wakePage { p with wakes } (claimable { p with wakes } provider now) (·.nextAttemptAt) bound,
      w ∈ wakes ∧ ∃ ps ∈ p.subscriptions, ps.id = w.subscriptionID ∧ p.claimable provider now w ps :=
    fun w mem => mem_wakePage mem
  split
  · exact ⟨wakes, rfl, unleased⟩
  · refine ⟨_, rfl, fun k => ?_⟩
    rcases find?_leasePage (q := { p with wakes }) (fun w mem => (listed w mem).1) k with same | ⟨w, mem, found, stored⟩
    · rcases rows k with kept | ⟨w, found, stale, missing⟩
      · exact .kept (same.trans kept)
      · exact .dropped found stale (same.trans missing)
    · obtain ⟨-, ps, subscribed, named, claimable⟩ := listed w mem
      rcases rows k with kept | ⟨_, -, -, missing⟩
      · exact .leased (kept.symm.trans found) (Table.find?_eq_some.mpr ⟨subscribed, named⟩) claimable stored
      · cases missing.symm.trans found

end PushStore

/-- The job that the request ends or gives back. -/
def PushRequest.worksOn? : PushRequest → Option PushWakeJob
  | .completePushWakeJob job | .dropPushWakeJob job | .retryPushWakeJob _ job _
  | .retirePushWakeSubscription _ job => some job
  | _ => none

/-- Why a job is gone after a request. -/
inductive WakeEnd (p p' : PushStore) (w : PushWake) : PushRequest → Prop
  | completed {job : PushWakeJob} (holds : leasedTo job w) : WakeEnd p p' w (.completePushWakeJob job)
  | dropped {job : PushWakeJob} (holds : leasedTo job w) : WakeEnd p p' w (.dropPushWakeJob job)
  | retired {now : Time} {job : PushWakeJob} (target : ∃ ps ∈ p.subscriptions, targetOf job ps)
      (same : w.subscriptionID = job.subscriptionID) :
      WakeEnd p p' w (.retirePushWakeSubscription now job)
  | stale {now : Time} {provider : PushProvider} {limit : ℕ} {leaseDuration : Time}
      {leaseToken : LeaseToken} (stale : p.stale provider now w) :
      WakeEnd p p' w (.claimPushWakeJobs now provider limit leaseDuration leaseToken)
  | expired {now : Time} {limit : ℕ} (expired : w.expiresAt ≤ now) :
      WakeEnd p p' w (.pruneExpiredPushWakeJobs now limit)
  | cascaded {request : PushRequest} (gone : p'.subscriptions.find? w.subscriptionID = none ∨
      ¬ ∃ e ∈ p'.store.events, e.id = w.syncEventID) : WakeEnd p p' w request

/-- The request saved the message that the job is for. The job expires a day after that, or with its message when
that is earlier. -/
def PushStore.Queues (p p' : PushStore) (request : PushRequest) (w : PushWake) : Prop :=
  ∃ now sent newID message saved, request = .base now (.saveMessageEnvelope sent newID true message) ∧
    p.store.saveMessageEnvelope sent newID true message = .ok (saved, p'.store) ∧
    saved.eventID = w.syncEventID ∧
    IsLeast ({sent + pushWakeJobTTL} ∪ {time | saved.envelope.expiresAt = some time}) w.expiresAt

theorem isLeast_wakeExpiry (sent : Time) (envelope : MessageEnvelope) :
    IsLeast ({sent + pushWakeJobTTL} ∪ {time | envelope.expiresAt = some time}) (wakeExpiry sent envelope) := by
  unfold wakeExpiry
  cases envelope.expiresAt with
  | none => simp [isLeast_singleton]
  | some expiresAt =>
    have message : IsLeast {time | some expiresAt = some time} expiresAt :=
      ⟨rfl, fun _ same => (Option.some.inj same).le⟩
    dsimp only
    rw [min_comm]
    exact isLeast_singleton.union message

/-- What a committed request does to the job of a key. -/
inductive WakeMove (p p' : PushStore) (k : WakeKey) : PushRequest → Prop
  | kept {request : PushRequest} (same : p'.wakes.find? k = p.wakes.find? k) : WakeMove p p' k request
  | queued {request : PushRequest} {w : PushWake} (missing : p.wakes.find? k = none)
      (new : p.store.events.last < k.1) (stored : p'.wakes.find? k = some w)
      (unleased : w.leaseToken = none ∧ w.leaseExpiresAt = none)
      (subscribed : ∃ ps ∈ p.subscriptions, ps.id = w.subscriptionID ∧
        ps.accountID = w.recipientAccountID ∧ ps.provider.delivered)
      (logged : ∃ e ∈ p'.store.events, e.id = w.syncEventID) (queues : p.Queues p' request w) :
      WakeMove p p' k request
  | leased {now : Time} {provider : PushProvider} {limit : ℕ} {leaseToken : LeaseToken} {w : PushWake}
      (found : p.wakes.find? k = some w)
      (subscribed : p.subscriptions.find? w.subscriptionID = some ps)
      (claimable : p.claimable provider now w ps)
      (stored : p'.wakes.find? k = some (PushStore.leased w leaseToken (now + leaseLength leaseDuration))) :
      WakeMove p p' k (.claimPushWakeJobs now provider limit leaseDuration leaseToken)
  | released {request : PushRequest} {w : PushWake}
      (found : p.wakes.find? k = some w) (asked : request.worksOn? = some job) (holds : leasedTo job w)
      (stored : p'.wakes.find? k =
        some { w with nextAttemptAt, leaseToken := none, leaseExpiresAt := none }) : WakeMove p p' k request
  | ended {request : PushRequest} {w : PushWake} (found : p.wakes.find? k = some w)
      (gone : p'.wakes.find? k = none) (why : WakeEnd p p' w request) : WakeMove p p' k request

namespace PushStore

variable {k : WakeKey}

theorem drops_cascade (p : PushStore) :
    Table.Drops (fun w => p.subscriptions.find? w.subscriptionID = none ∨
      ¬ ∃ e ∈ p.store.events, e.id = w.syncEventID) p.wakes p.cascade.wakes :=
  (p.wakes.drops_delete _).mono fun _ lost => (not_and_or.mp lost).imp_left Option.not_isSome_iff_eq_none.mp

/-- After a cascade the jobs have their subscriptions and their events. -/
theorem anchored_of_cascade {w : PushWake} (stored : w ∈ p.cascade.wakes) :
    (∃ ps, p.cascade.subscriptions.find? w.subscriptionID = some ps) ∧
      ∃ e ∈ p.cascade.store.events, e.id = w.syncEventID := by
  unfold cascade at stored ⊢
  have anchored := not_not.mp (Table.mem_delete.mp stored).2
  exact ⟨Option.isSome_iff_exists.mp anchored.1, anchored.2⟩

/-- A call of the store queues jobs for a new event, or leaves the queue alone. -/
theorem find?_afterCall (now : Time) {given : Answer}
    (ok : step limits p.store call = .ok (given, store)) (k : WakeKey) :
    ({ p with store }.afterCall now call given).wakes.find? k = p.wakes.find? k ∨
      p.wakes.find? k = none ∧ p.store.events.last < k.1 ∧
      ∃ w, ({ p with store }.afterCall now call given).wakes.find? k = some w ∧
        (w.leaseToken = none ∧ w.leaseExpiresAt = none) ∧
        (∃ ps ∈ p.subscriptions, ps.id = w.subscriptionID ∧ ps.accountID = w.recipientAccountID ∧
          ps.provider.delivered) ∧
        p.Queues ({ p with store }.afterCall now call given) (.base now call) w := by
  unfold afterCall
  split
  · obtain ⟨saved, ok, same⟩ := answer_eq_ok ok
    cases same
    have fresh := Store.savedEvent_fresh ok rfl
    rcases find?_enqueueEach p.wakes k with same | ⟨missing, ps, mem, found, named⟩
    · exact .inl same
    · obtain ⟨stored, wakes⟩ := List.mem_filter.mp mem
      refine .inr ⟨missing, ?_, _, found, ⟨rfl, rfl⟩, ⟨ps, stored, rfl, rfl, (of_decide_eq_true wakes).2.2.1⟩,
        _, _, _, _, _, rfl, ok, rfl, isLeast_wakeExpiry _ _⟩
      rw [← named]
      exact fresh
  · exact .inl rfl
  · exact .inl rfl
  · exact .inl rfl

end PushStore

theorem pushStep_claim {provider : PushProvider} {leaseDuration : Time} :
    pushStep limits p (.claimPushWakeJobs now provider limit leaseDuration leaseToken) =
      .ok (.claimed (p.claimPushWakeJobs provider limit now leaseDuration leaseToken).1.1
        (p.claimPushWakeJobs provider limit now leaseDuration leaseToken).1.2,
        (p.claimPushWakeJobs provider limit now leaseDuration leaseToken).2) := rfl

/-- The subscription under an id keeps its account and its provider, or it goes with its jobs. -/
inductive SubscriptionMove (p p' : PushStore) (id : SubscriptionID) : Prop
  | missing (none : p.subscriptions.find? id = none)
  | kept {ps ps' : PushSubscription} (found : p.subscriptions.find? id = some ps)
      (stored : p'.subscriptions.find? id = some ps') (account : ps'.accountID = ps.accountID)
      (provider : ps'.provider = ps.provider)
  | gone (unused : ∀ w ∈ p'.wakes, w.subscriptionID ≠ id)

/-- The columns that a job relies on. -/
def PushSubscription.target (ps : PushSubscription) : AccountID × PushProvider := (ps.accountID, ps.provider)

theorem SubscriptionMove.of_keeps
    (keeps : Table.Keeps PushSubscription.target p.subscriptions p'.subscriptions) :
    SubscriptionMove p p' id := by
  cases found : p.subscriptions.find? id with
  | none => exact .missing found
  | some ps =>
    obtain ⟨ps', stored, same⟩ := keeps id ps found
    exact .kept found stored (congrArg Prod.fst same) (congrArg Prod.snd same)

theorem SubscriptionMove.of_delete {select : PushSubscription → Prop} [DecidablePred select]
    {ps : PushSubscription} (after : p'.subscriptions = p.subscriptions.delete select)
    (stored : p'.subscriptions.find? id = some ps) : SubscriptionMove p p' id := by
  have found := stored
  rw [after, Table.find?_delete] at found
  exact .kept (Option.filter_eq_some_iff.mp found).1 stored rfl rfl

/-- After a cascade only the subscriptions that are there matter. -/
theorem SubscriptionMove.of_cascade
    (kept : ∀ ps, q.subscriptions.find? id = some ps → SubscriptionMove p q.cascade id) :
    SubscriptionMove p q.cascade id := by
  by_cases unused : ∀ w ∈ q.cascade.wakes, w.subscriptionID ≠ id
  · exact .gone unused
  · obtain ⟨w, stored, named⟩ : ∃ w ∈ q.cascade.wakes, w.subscriptionID = id := by
      simpa using unused
    obtain ⟨⟨ps, subscribed⟩, -⟩ := anchored_of_cascade stored
    exact kept ps (named ▸ subscribed)

theorem registerSubscription_keeps {new : PushSubscription}
    {subscriptions : Table PushSubscription PushSubscription.id}
    (ok : p.registerSubscription new = .ok (id, subscriptions)) :
    Table.Keeps PushSubscription.target p.subscriptions subscriptions := by
  unfold registerSubscription at ok
  split at ok
  · cases ok
    exact Table.keeps_of_update (fun _ => rfl) fun _ => rfl
  · split at ok
    · next inserted =>
      cases ok
      exact Table.keeps_of_insert? inserted
    · cases ok

/-- What a request does to the jobs, to their subscriptions and to the store beside them. -/
structure PushMove (limits : Limits) (p p' : PushStore) (request : PushRequest) : Prop where
  wake : ∀ k, WakeMove p p' k request
  subscription : ∀ id, SubscriptionMove p p' id
  store : p'.store = p.store ∨ ∃ call answer, step limits p.store call = .ok (answer, p'.store)

theorem PushMove.of_wakes {wakes : Table PushWake PushWake.key}
    (moves : ∀ k, WakeMove p { p with wakes } k request) : PushMove limits p { p with wakes } request :=
  ⟨moves, fun _ => .of_keeps (.of_eq rfl), .inl rfl⟩

theorem PushMove.of_keeps (wakes : p'.wakes = p.wakes) (store : p'.store = p.store)
    (keeps : Table.Keeps PushSubscription.target p.subscriptions p'.subscriptions) : PushMove limits p p' request :=
  ⟨fun k => .kept (by rw [wakes]), fun _ => .of_keeps keeps, .inl store⟩

/-- A call of the store: the jobs of its message are queued, then those that lost their ground go. -/
theorem pushMove_base {answer : Answer} (ok : step limits p.store call = .ok (answer, store)) :
    PushMove limits p ({ p with store }.afterCall now call answer).cascade (.base now call) := by
  refine ⟨fun k => ?_, fun id => .of_cascade fun ps subscribed => ?_, .inr ⟨call, answer, ok.trans ?_⟩⟩
  · rcases find?_afterCall now ok k with same | ⟨missing, new, w, stored, unleased, subscribed, queues⟩
    all_goals
      rcases drops_cascade ({ p with store }.afterCall now call answer) k with kept | ⟨w', found, why, gone⟩
    · exact .kept (kept.trans same)
    · exact .ended (same.symm.trans found) gone (.cascaded why)
    · have logged := (anchored_of_cascade (Table.find?_eq_some.mp (kept.trans stored)).1).2
      exact .queued missing new (kept.trans stored) unleased subscribed logged queues
    · exact .kept (gone.trans missing.symm)
  · unfold afterCall at subscribed ⊢
    split at subscribed
    · exact .of_keeps (.of_eq rfl)
    · exact .of_delete rfl subscribed
    · exact .of_keeps (Table.keeps_of_update (fun _ => rfl) fun _ => rfl)
    · exact .of_keeps (.of_eq rfl)
  · unfold afterCall
    split <;> rfl

/-- A job goes back to the queue, unless its lease is another's. -/
theorem wakeMove_of_release {job : PushWakeJob} {select : PushWake → Prop} [DecidablePred select]
    {nextAttemptAt : Time} {k : WakeKey} (asked : request.worksOn? = some job)
    (own : ∀ w, select w → leasedTo job w)
    (after : ∀ keeps, p'.wakes = p.wakes.update select (fun w =>
      { w with nextAttemptAt, leaseToken := none, leaseExpiresAt := none }) keeps) : WakeMove p p' k request := by
  rcases p'.wakes.find?_of_update after k with same | ⟨w, found, holds, stored⟩
  · exact .kept same
  · exact .released found asked (own w holds) stored

theorem pushMove_of_step (ok : pushStep limits p request = .ok (given, p')) : PushMove limits p p' request := by
  cases request with
  | base now call =>
    obtain ⟨⟨answer, store⟩, stepped, ok⟩ := bind_eq_ok.mp ok
    cases ok
    exact pushMove_base stepped
  | createPushSubscription =>
    obtain ⟨⟨id, _⟩, ok, same⟩ := map_eq_ok.mp ok
    cases same
    have ok := of_require ok
    obtain ⟨⟨_, subscriptions⟩, registered, ok⟩ := bind_eq_ok.mp ok
    cases ok
    exact .of_keeps rfl rfl ((registerSubscription_keeps registered).trans (Table.keeps_of_update (fun _ => rfl) fun _ => rfl))
  | disablePushTarget =>
    cases ok
    exact .of_keeps rfl rfl (Table.keeps_of_update (fun _ => rfl) fun _ => rfl)
  | disablePushSubscription =>
    obtain ⟨_, ok, same⟩ := map_eq_ok.mp ok
    cases same
    have ok := of_require ok
    cases ok
    exact .of_keeps rfl rfl (Table.keeps_of_update (fun _ => rfl) fun _ => rfl)
  | setConversationNotificationMute =>
    obtain ⟨_, ok, same⟩ := map_eq_ok.mp ok
    cases same
    have ok := of_require ok
    have ok := of_require ok
    cases ok
    exact .of_keeps rfl rfl (.of_eq rfl)
  | claimPushWakeJobs now provider limit leaseDuration leaseToken =>
    obtain ⟨wakes, after, moves⟩ := p.claimPushWakeJobs_ok provider limit now leaseDuration leaseToken
    rw [pushStep_claim, after] at ok
    cases ok
    refine .of_wakes fun k => ?_
    cases moves k with
    | kept same => exact .kept same
    | leased found subscribed claimable stored => exact .leased found subscribed claimable stored
    | dropped found stale gone => exact .ended found gone (.stale stale)
  | refreshPushWakeJob =>
    obtain ⟨_, -, same⟩ := map_eq_ok.mp ok
    cases same
    exact .of_keeps rfl rfl (.of_eq rfl)
  | completePushWakeJob job =>
    cases ok
    refine .of_wakes fun k => ?_
    rcases p.wakes.drops_delete (leasedTo job) k with same | ⟨w, found, holds, gone⟩
    · exact .kept same
    · exact .ended found gone (.completed holds)
  | dropPushWakeJob job =>
    cases ok
    refine .of_wakes fun k => ?_
    rcases p.wakes.drops_delete (leasedTo job) k with same | ⟨w, found, holds, gone⟩
    · exact .kept same
    · exact .ended found gone (.dropped holds)
  | retryPushWakeJob now job nextAttemptAt =>
    cases ok
    exact .of_wakes fun k => wakeMove_of_release rfl (fun _ holds => holds.1) fun _ => rfl
  | retirePushWakeSubscription now job =>
    cases ok
    unfold PushStore.retirePushWakeSubscription
    split
    · next target =>
      refine ⟨fun k => ?_, fun _ => .of_keeps (Table.keeps_of_update (fun _ => rfl) fun _ => rfl), .inl rfl⟩
      rcases p.wakes.drops_delete (·.subscriptionID = job.subscriptionID) k with same | ⟨w, found, same, gone⟩
      · exact .kept same
      · exact .ended found gone (.retired target same)
    · exact .of_wakes fun k => wakeMove_of_release rfl (fun _ holds => holds) fun _ => rfl
  | pruneExpiredPushWakeJobs now limit =>
    cases ok
    have drops : Table.Drops (·.expiresAt ≤ now) p.wakes (p.pruneExpiredPushWakeJobs now limit).wakes := by
      refine (p.wakes.drops_delete _).mono fun w mem => ?_
      have sorted := List.mem_of_mem_take mem
      exact of_decide_eq_true (List.mem_filter.mp ((List.mem_insertionSort _).mp sorted)).2
    refine .of_wakes fun k => ?_
    rcases drops k with same | ⟨w, found, expired, gone⟩
    · exact .kept same
    · exact .ended found gone (.expired expired)
  | pruneSubscriptions now =>
    cases ok
    refine ⟨fun k => ?_, fun id => .of_cascade fun ps subscribed => .of_delete rfl subscribed, .inl rfl⟩
    rcases drops_cascade _ k with kept | ⟨w, found, why, gone⟩
    · exact .kept kept
    · exact .ended found gone (.cascaded why)

end Veritra.Storage
