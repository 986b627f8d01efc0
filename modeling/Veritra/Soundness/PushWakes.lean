import Veritra.Machine.Fresh
import Veritra.Proofs.Storage.WakeMoves
import Veritra.Soundness.SendRetry

/-! # Leases on push wakes

A claim takes only jobs that no lease holds at its clock reading, and writes its own token and deadline on
them. While the token stands on the row, only its worker can end the job or give it back. Once another
claim took the job, the token of the first is on no row, and since tokens are fresh it never returns, so
the statements of the late worker match nothing. A job stays in the queue until a worker ends it, it
expires, or it can no longer be sent, and in between it comes up again whenever its lease and its backoff have
ended. There is no limit on the number of attempts.
-/

namespace Veritra.Storage

open Relational Machine PushStore

variable {provider : PushProvider} {job : PushWakeJob} {limit abandoned : ℕ} {now leaseDuration : Time}
  {jobs : List PushWakeJob} {w : PushWake}

def PushRequest.now? : PushRequest → Option Time
  | .base now _ | .createPushSubscription now .. | .disablePushTarget now _
  | .disablePushSubscription now .. | .setConversationNotificationMute now .. | .claimPushWakeJobs now ..
  | .refreshPushWakeJob now _ | .retryPushWakeJob now .. | .retirePushWakeSubscription now _
  | .pruneExpiredPushWakeJobs now _ | .pruneSubscriptions now => some now
  | .completePushWakeJob _ | .dropPushWakeJob _ => none

def PushRequest.leaseTokens : PushRequest → List LeaseToken
  | .claimPushWakeJobs _ _ _ _ leaseToken => [leaseToken]
  | _ => []

/-- Some job is leased under the token. -/
def PushStore.KnowsLease (p : PushStore) (leaseToken : LeaseToken) : Prop :=
  ∃ w ∈ p.wakes, w.leaseToken = some leaseToken
  deriving Decidable

/-- The tokens are random. -/
abbrev FreshLeases (history : List PushEntry) : Prop :=
  Fresh (fun entry : PushEntry => entry.call.leaseTokens) PushStore.KnowsLease history

/-- The claim handed the job out under the token, until the deadline. -/
structure Hands (entry : PushEntry) (k : WakeKey) (leaseToken : LeaseToken) (ends : Time) : Prop where
  claimed : ∃ now provider limit leaseDuration jobs abandoned,
    entry.call = .claimPushWakeJobs now provider limit leaseDuration leaseToken ∧
    entry.answer = .ok (.claimed jobs abandoned) ∧ (∃ job ∈ jobs, job.key = k) ∧
    ends = now + leaseLength leaseDuration

/-- The worker with the token ends the job or gives it back. -/
def PushRequest.givesUp (request : PushRequest) (k : WakeKey) (leaseToken : LeaseToken) : Prop :=
  ∃ job, request.worksOn? = some job ∧ job.key = k ∧ job.leaseToken = leaseToken

/-- At the end of the history a worker holds the job under the token, by a lease that has not run out. -/
def Holds (history : List PushEntry) (now : Time) (k : WakeKey) (leaseToken : LeaseToken) : Prop :=
  ∃ earlier entry later ends, history = earlier ++ entry :: later ∧ Hands entry k leaseToken ends ∧
    now < ends ∧ ∀ next ∈ later, ¬ next.call.givesUp k leaseToken

/-- The request deletes or changes a job only under its lease. -/
def PushRequest.underLease? : PushRequest → Option PushWakeJob
  | .completePushWakeJob job | .dropPushWakeJob job | .retryPushWakeJob _ job _ => some job
  | _ => none

/-- A queued job may be claimed from the end of its lease and its backoff up to its expiry, and a claim for its
provider deletes it when it has expired or can no longer be sent, whatever the number of attempts. -/
structure PushStore.Due (p : PushStore) (w : PushWake) (ps : PushSubscription) : Prop where
  subscribed : p.subscriptions.find? w.subscriptionID = some ps
  delivered : ps.provider.delivered
  claimable : ∀ now, p.claimable ps.provider now w ps ↔
    max w.nextAttemptAt (w.leaseExpiresAt.getD 0) ≤ now ∧ now < w.expiresAt ∧ ps.disabledAt = none ∧
      p.eligible (unixSeconds now) w ps
  stale : ∀ now, p.stale ps.provider now w ↔
    w.expiresAt ≤ now ∨ ps.disabledAt ≠ none ∨ ¬ p.eligible (unixSeconds now) w ps

/-- What a history of requests does with the leases. -/
structure Leased (history : List PushEntry) (p : PushStore) : Prop where
  exclusive : ∀ now k first second, (∀ entry ∈ history, ∀ reading ∈ entry.call.now?, reading ≤ now) →
    Holds history now k first → Holds history now k second → first = second
  late : ∀ earlier first middle second between third later k token ends other ends' job,
    history = earlier ++ first :: (middle ++ second :: (between ++ third :: later)) →
    Hands first k token ends → Hands second k other ends' → third.call.underLease? = some job →
    job.key = k → job.leaseToken = token → third.after = third.before
  eligible : ∀ entry ∈ history, ∀ now provider limit leaseDuration token jobs abandoned,
    entry.call = .claimPushWakeJobs now provider limit leaseDuration token →
    entry.answer = .ok (.claimed jobs abandoned) → ∀ job ∈ jobs, ∃ w ps,
      entry.before.wakes.find? job.key = some w ∧
      entry.before.subscriptions.find? job.subscriptionID = some ps ∧
      entry.before.claimable provider now w ps
  refreshed : ∀ entry ∈ history, ∀ now job current,
    entry.call = .refreshPushWakeJob now job → entry.answer = .ok (.job current) → ∃ w ps,
      entry.before.wakes.find? job.key = some w ∧
      entry.before.subscriptions.find? w.subscriptionID = some ps ∧
      leasedTo job w ∧ entry.before.eligible (unixSeconds now) w ps
  settled : ∀ earlier entry later k token ends, history = earlier ++ entry :: later →
    Hands entry k token ends →
      (∃ next ∈ later, ∃ w, next.before.wakes.find? k = some w ∧ WakeEnd next.before next.after w next.call) ∨
      ∃ w ps, p.wakes.find? k = some w ∧ p.Due w ps
  queued : ∀ w ∈ p.wakes, ∃ entry ∈ history, entry.before.Queues entry.after entry.call w

section Steps

variable {limits : Limits} {p p' : PushStore} {request : PushRequest} {given : PushAnswer} {k : WakeKey}
  {leaseToken : LeaseToken}

theorem mem_leasedJobs (mem : job ∈ p.leasedJobs provider leaseToken) :
    ∃ w, p.wakes.find? job.key = some w ∧ w.leaseToken = some leaseToken := by
  obtain ⟨w, listed, joined⟩ := List.mem_filterMap.mp ((List.mem_insertionSort _).mp mem)
  obtain ⟨stored, under⟩ := List.mem_filter.mp listed
  obtain ⟨ps, -, handed⟩ := Option.bind_eq_some_iff.mp joined
  split at handed
  · cases handed
    exact ⟨w, Table.find?_eq_some.mpr ⟨stored, rfl⟩, of_decide_eq_true under⟩
  · cases handed

theorem claimed_leasedJobs
    (mem : job ∈ (p.claimPushWakeJobs provider limit now leaseDuration leaseToken).1.1) :
    job ∈ (p.claimPushWakeJobs provider limit now leaseDuration leaseToken).2.leasedJobs provider leaseToken := by
  unfold claimPushWakeJobs at mem ⊢
  dsimp only at mem ⊢
  split at mem
  · cases mem
  · exact mem

/-- A job that is handed out under a new token was free to take, and is leased from then on. -/
theorem claimed_leased
    (ok : pushStep limits p (.claimPushWakeJobs now provider limit leaseDuration leaseToken) =
      .ok (.claimed jobs abandoned, p')) (fresh : ¬ p.KnowsLease leaseToken) (handed : job ∈ jobs) :
    ∃ w ps, p.wakes.find? job.key = some w ∧ p.subscriptions.find? w.subscriptionID = some ps ∧
      p.claimable provider now w ps ∧
      p'.wakes.find? job.key = some (PushStore.leased w leaseToken (now + leaseLength leaseDuration)) := by
  obtain ⟨wakes, after, moves⟩ := p.claimPushWakeJobs_ok provider limit now leaseDuration leaseToken
  rw [pushStep_claim] at ok
  obtain ⟨answered, rfl⟩ := Prod.mk.inj (Except.ok.inj ok)
  obtain ⟨rfl, -⟩ := PushAnswer.claimed.inj answered
  obtain ⟨w, stored, under⟩ := mem_leasedJobs (claimed_leasedJobs handed)
  rw [after] at stored ⊢
  cases moves job.key with
  | kept same =>
    obtain ⟨known, -⟩ := Table.find?_eq_some.mp (same.symm.trans stored)
    exact absurd ⟨w, known, under⟩ fresh
  | leased found subscribed claimable leased => exact ⟨_, _, found, subscribed, claimable, leased⟩
  | dropped found stale gone => cases gone.symm.trans stored

theorem refreshPushWakeJob_ok {current : PushWakeJob} (ok : p.refreshPushWakeJob job now = .ok current) :
    ∃ w ps, p.wakes.find? job.key = some w ∧ p.subscriptions.find? w.subscriptionID = some ps ∧
      leasedTo job w ∧ p.eligible (unixSeconds now) w ps := by
  unfold refreshPushWakeJob at ok
  split at ok
  · cases ok
  · next w found =>
    split at ok
    · cases ok
    · next ps subscribed =>
      split at ok
      · next holds =>
        obtain ⟨under, -, -, -, eligible⟩ := holds
        exact ⟨w, ps, found, subscribed, ⟨(Table.find?_eq_some.mp found).2, under⟩, eligible⟩
      · cases ok

/-- The jobs have their subscriptions and their events. -/
structure QueueSound (p : PushStore) : Prop where
  subscribed : ∀ w ∈ p.wakes, ∃ ps, p.subscriptions.find? w.subscriptionID = some ps ∧
    ps.accountID = w.recipientAccountID ∧ ps.provider.delivered
  numbered : ∀ w ∈ p.wakes, w.syncEventID ≤ p.store.events.last

theorem last_le_of_step (ok : pushStep limits p request = .ok (given, p')) :
    p.store.events.last ≤ p'.store.events.last := by
  rcases (pushMove_of_step ok).store with same | ⟨_, _, stepped⟩
  · rw [same]
  · exact (events_of_step stepped).last_le

/-- A job of the queue after a request was there before, with the same expiry, or it is queued for a new event. -/
theorem wake_of_step (ok : pushStep limits p request = .ok (given, p')) (stored : w ∈ p'.wakes) :
    (∃ old ∈ p.wakes, old.key = w.key ∧ old.expiresAt = w.expiresAt) ∨
      (∃ ps ∈ p.subscriptions, ps.id = w.subscriptionID ∧ ps.accountID = w.recipientAccountID ∧
        ps.provider.delivered) ∧ (∃ e ∈ p'.store.events, e.id = w.syncEventID) ∧ p.Queues p' request w := by
  have present : p'.wakes.find? w.key = some w := Table.find?_eq_some.mpr ⟨stored, rfl⟩
  cases (pushMove_of_step ok).wake w.key with
  | kept same => exact .inl ⟨w, (Table.find?_eq_some.mp (same.symm.trans present)).1, rfl, rfl⟩
  | queued missing new queued unleased subscribed logged queues =>
    cases queued.symm.trans present
    exact .inr ⟨subscribed, logged, queues⟩
  | leased found subscribed claimable stored | released found asked holds stored =>
    cases stored.symm.trans present
    obtain ⟨known, same⟩ := Table.find?_eq_some.mp found
    exact .inl ⟨_, known, same, rfl⟩
  | ended found gone why => cases gone.symm.trans present

theorem queueSound_of_step (sound : QueueSound p) (ok : pushStep limits p request = .ok (given, p')) :
    QueueSound p' := by
  constructor
  · intro w stored
    obtain ⟨ps, found, account, delivered⟩ : ∃ ps, p.subscriptions.find? w.subscriptionID = some ps ∧
        ps.accountID = w.recipientAccountID ∧ ps.provider.delivered := by
      rcases wake_of_step ok stored with ⟨old, kept, same, -⟩ | ⟨⟨ps, listed, named, subscribed⟩, -⟩
      · obtain ⟨-, recipient, subscription⟩ : _ ∧ old.recipientAccountID = w.recipientAccountID ∧
            old.subscriptionID = w.subscriptionID := by
          simpa only [PushWake.key, Prod.mk.injEq] using same
        rw [← recipient, ← subscription]
        exact sound.subscribed old kept
      · exact ⟨ps, Table.find?_eq_some.mpr ⟨listed, named⟩, subscribed⟩
    cases (pushMove_of_step ok).subscription w.subscriptionID with
    | missing none => cases none.symm.trans found
    | kept known stored account' provider =>
      cases known.symm.trans found
      exact ⟨_, stored, account'.trans account, provider ▸ delivered⟩
    | gone unused => exact absurd rfl (unused w stored)
  · intro w stored
    rcases wake_of_step ok stored with ⟨old, kept, same, -⟩ | ⟨-, ⟨e, logged, named⟩, -⟩
    · have event : old.syncEventID = w.syncEventID := congrArg Prod.fst same
      rw [← event]
      exact (sound.numbered old kept).trans (last_le_of_step ok)
    · rw [← named]
      exact p'.store.events.bounded e logged

/-- The lease has run out, or no worker but its own may have the job; the job is not queued again. -/
def Stands (p : PushStore) (k : WakeKey) (leaseToken : LeaseToken) (ends now : Time) : Prop :=
  ends ≤ now ∨ k.1 ≤ p.store.events.last ∧
    ∀ w, p.wakes.find? k = some w → w.leaseToken = some leaseToken ∧ w.leaseExpiresAt = some ends

theorem stands_of_step {ends : Time} (stands : Stands p k leaseToken ends now)
    (ok : pushStep limits p request = .ok (given, p')) (keeps : ¬ request.givesUp k leaseToken)
    (clock : ∀ reading ∈ request.now?, reading ≤ now) : Stands p' k leaseToken ends now := by
  rcases stands with past | ⟨old, held⟩
  · exact .inl past
  have old' := old.trans (last_le_of_step ok)
  cases (pushMove_of_step ok).wake k with
  | kept same => exact .inr ⟨old', fun w stored => held w (same.symm.trans stored)⟩
  | queued missing new => exact absurd old (Nat.not_le_of_lt new)
  | leased found subscribed claimable leased =>
    have free : ends ≤ _ := claimable.2.2.2.2 ends (held _ found).2
    exact .inl (free.trans (clock _ rfl))
  | @released job _ _ w found asked holds released =>
    have key : w.key = k := (Table.find?_eq_some.mp found).2
    have token : job.leaseToken = leaseToken := Option.some.inj (holds.2.symm.trans (held _ found).1)
    exact absurd ⟨job, asked, holds.1.symm.trans key, token⟩ keeps
  | ended found gone why => exact .inr ⟨old', fun w stored => by cases gone.symm.trans stored⟩

def Outdated (p : PushStore) (k : WakeKey) (leaseToken : LeaseToken) : Prop :=
  ∀ w, p.wakes.find? k = some w → w.leaseToken ≠ some leaseToken

theorem outdated_of_step (outdated : Outdated p k leaseToken)
    (ok : pushStep limits p request = .ok (given, p')) (apart : leaseToken ∉ request.leaseTokens) :
    Outdated p' k leaseToken := by
  intro w stored
  cases (pushMove_of_step ok).wake k with
  | kept same => exact outdated w (same.symm.trans stored)
  | queued missing new queued unleased =>
    cases queued.symm.trans stored
    rw [unleased.1]
    nofun
  | leased found subscribed claimable leased =>
    cases leased.symm.trans stored
    intro same
    exact apart (List.mem_singleton.mpr (Option.some.inj same).symm)
  | released found asked holds released =>
    cases released.symm.trans stored
    nofun
  | ended found gone why => cases gone.symm.trans stored

/-- The statements of a worker whose token is not on the job match nothing. -/
theorem unchanged_of_outdated (outdated : Outdated p job.key job.leaseToken)
    (asked : request.underLease? = some job) (ok : pushStep limits p request = .ok (given, p')) :
    p' = p := by
  have unmatched : ∀ w ∈ p.wakes, ¬ leasedTo job w := fun w stored holds =>
    outdated w (Table.find?_eq_some.mpr ⟨stored, holds.1⟩) holds.2
  cases request with
  | completePushWakeJob =>
    cases asked
    cases ok
    unfold completePushWakeJob
    rw [Table.delete_of_unmatched unmatched]
  | dropPushWakeJob =>
    cases asked
    cases ok
    unfold dropPushWakeJob
    rw [Table.delete_of_unmatched unmatched]
  | retryPushWakeJob now =>
    cases asked
    cases ok
    refine congrArg (fun wakes => { p with wakes }) ?_
    apply Table.update_of_unmatched
    exact fun w stored taken => unmatched w stored taken.1
  | _ => cases asked

theorem PushWake.unleased_iff : w.unleased now ↔ w.leaseExpiresAt.getD 0 ≤ now := by
  unfold PushWake.unleased
  cases w.leaseExpiresAt <;> simp

theorem due_of_queueSound (sound : QueueSound p) (stored : w ∈ p.wakes) : ∃ ps, p.Due w ps := by
  obtain ⟨ps, subscribed, account, delivered⟩ := sound.subscribed w stored
  obtain ⟨listed, named⟩ := Table.find?_eq_some.mp subscribed
  refine ⟨ps, subscribed, delivered, fun now => ?_, fun now => ?_⟩
  · simp only [claimable, account, true_and, PushWake.unleased_iff, max_le_iff]
    tauto
  · constructor
    · rintro ⟨ps', known, same, abandonable | ineligible | disabled⟩
      all_goals cases Table.eq_of_key known listed (same.trans named.symm)
      · exact .inl abandonable.2.2.1
      · exact .inr (.inr ineligible.2.2)
      · exact .inr (.inl disabled.1)
    · intro lost
      refine ⟨ps, listed, named, ?_⟩
      by_cases eligible : p.eligible (unixSeconds now) w ps
      · rcases lost with expired | disabled | lost
        · exact .inl ⟨account, rfl, expired, eligible⟩
        · exact .inr (.inr ⟨disabled, rfl⟩)
        · exact absurd eligible lost
      · exact .inr (.inl ⟨account, rfl, eligible⟩)

end Steps

section Runs

variable {middle : List PushEntry} {first second : PushEntry} {token other : LeaseToken} {ends' : Time}
  {limits : Limits} {history earlier later : List PushEntry} {p : PushStore} {k : WakeKey}
  {leaseToken : LeaseToken} {entry : PushEntry} {ends : Time}

theorem queueSound_of_run (run : Run (pushStep limits) unguarded PushStore.init history p) : QueueSound p := by
  refine run.preserves QueueSound ?_ fun _ _ _ _ _ sound ok => queueSound_of_step sound ok
  constructor <;> exact fun w stored => absurd stored (Table.not_mem_empty w)

/-- Every job was queued with a message of the run, and keeps the expiry that it got then. -/
theorem queued_of_run (run : Run (pushStep limits) unguarded PushStore.init history p) {w : PushWake}
    (stored : w ∈ p.wakes) : ∃ entry ∈ history, entry.before.Queues entry.after entry.call w := by
  refine run.exists_entry (∃ old ∈ ·.wakes, old.key = w.key ∧ old.expiresAt = w.expiresAt) ?_ ?_
    ⟨w, stored, rfl, rfl⟩
  · exact fun ⟨old, listed, _⟩ => Table.not_mem_empty old listed
  · rintro history p request given p' - ok ⟨left, stored, same, expiry⟩
    rcases wake_of_step ok stored with ⟨old, kept, same', expiry'⟩ | ⟨-, -, queues⟩
    · exact .inl ⟨old, kept, same'.trans same, expiry'.trans expiry⟩
    · obtain ⟨now, sent, newID, message, saved, call, ran, event, least⟩ := queues
      have sameEvent : left.syncEventID = w.syncEventID := congrArg Prod.fst same
      exact .inr ⟨now, sent, newID, message, saved, call, ran, event.trans sameEvent, expiry ▸ least⟩

/-- What a claim that handed the job out found and left. -/
structure Takes (entry : PushEntry) (k : WakeKey) (leaseToken : LeaseToken) (ends : Time) : Prop where
  brought : entry.call.leaseTokens = [leaseToken]
  free : ∃ w now, entry.before.wakes.find? k = some w ∧ entry.call.now? = some now ∧ w.unleased now
  stored : ∃ w, entry.after.wakes.find? k = some w ∧ w.leaseToken = some leaseToken ∧ w.leaseExpiresAt = some ends

section

variable (run : Run (pushStep limits) unguarded PushStore.init history p) (fresh : FreshLeases history)
  (mem : entry ∈ history)

include run fresh mem

theorem claimed_of_entry
    (asked : entry.call = .claimPushWakeJobs now provider limit leaseDuration leaseToken)
    (answered : entry.answer = .ok (.claimed jobs abandoned)) (handed : job ∈ jobs) :
    ∃ w ps, entry.before.wakes.find? job.key = some w ∧
      entry.before.subscriptions.find? w.subscriptionID = some ps ∧
      entry.before.claimable provider now w ps ∧
      entry.after.wakes.find? job.key = some (PushStore.leased w leaseToken (now + leaseLength leaseDuration)) := by
  have unknown : ¬ entry.before.KnowsLease leaseToken :=
    fresh.own entry mem leaseToken (by rw [asked]; exact List.mem_singleton_self _)
  rcases run.committed_or_refused mem with ⟨given, answer, ok⟩ | ⟨_, refused, -⟩
  · cases answer.symm.trans answered
    rw [asked] at ok
    exact claimed_leased ok unknown handed
  · cases refused.symm.trans answered

theorem takes_of_hands (hands : Hands entry k leaseToken ends) : Takes entry k leaseToken ends := by
  obtain ⟨now, provider, limit, leaseDuration, jobs, abandoned, asked, answered, ⟨job, handed, rfl⟩, rfl⟩ :=
    hands.claimed
  obtain ⟨w, ps, found, -, claimable, stored⟩ := claimed_of_entry run fresh mem asked answered handed
  refine ⟨by rw [asked]; rfl, ⟨w, now, found, by rw [asked]; rfl, claimable.2.2.2.2⟩, _, stored, rfl, rfl⟩

end

/-- Of two leases on a job that have not run out, neither given back, the later is the earlier one. -/
theorem not_taken_again
    (run : Run (pushStep limits) unguarded PushStore.init (earlier ++ first :: (middle ++ second :: later)) p)
    (clock : ∀ entry ∈ earlier ++ first :: (middle ++ second :: later),
      ∀ reading ∈ entry.call.now?, reading ≤ now) (takes : Takes first k token ends)
    (again : Takes second k other ends') (lasts : now < ends)
    (keeps : ∀ next ∈ middle, ¬ next.call.givesUp k token) : False := by
  obtain ⟨w, stored, under, deadline⟩ := takes.stored
  have sound := queueSound_of_run run.through_entry
  have start : Stands first.after k token ends now := by
    obtain ⟨listed, named⟩ := Table.find?_eq_some.mp stored
    refine .inr ⟨named ▸ sound.numbered w listed, fun w' same => ?_⟩
    cases same.symm.trans stored
    exact ⟨under, deadline⟩
  have between : ∀ next ∈ middle, ¬ next.call.givesUp k token ∧ ∀ reading ∈ next.call.now?, reading ≤ now :=
    fun next mem => ⟨keeps next mem, clock next (by simp [mem])⟩
  have stands := run.after_entry.at_entry.1.preserves_where (Stands · k token ends now) between start
    fun _ _ stands ok quiet => stands_of_step stands ok quiet.1 quiet.2
  obtain ⟨w', reading, found, read, unleased⟩ := again.free
  have present : reading ≤ now := clock second (by simp) reading read
  rcases stands with past | ⟨-, held⟩
  · exact Nat.not_le_of_lt lasts past
  · exact Nat.not_le_of_lt lasts ((unleased ends (held w' found).2).trans present)

theorem exclusive_of_run (run : Run (pushStep limits) unguarded PushStore.init history p)
    (fresh : FreshLeases history) {first second : LeaseToken}
    (clock : ∀ entry ∈ history, ∀ reading ∈ entry.call.now?, reading ≤ now)
    (holds : Holds history now k first) (other : Holds history now k second) : first = second := by
  obtain ⟨earlier, entry, later, ends, rfl, hands, lasts, keeps⟩ := holds
  obtain ⟨earlier', entry', later', ends', whole, hands', lasts', keeps'⟩ := other
  have takes := takes_of_hands run fresh (by simp) hands
  have takes' := takes_of_hands run fresh (by rw [whole]; simp) hands'
  rcases List.append_eq_append_iff.mp whole with ⟨_ | ⟨next, middle⟩, -, rest⟩ | ⟨_ | ⟨next, middle⟩, -, rest⟩
  all_goals cases rest
  · exact List.singleton_inj.mp (takes.brought.symm.trans takes'.brought)
  · exact absurd keeps fun keeps => not_taken_again run clock takes takes' lasts fun next mem =>
      keeps next (List.mem_append_left _ mem)
  · exact List.singleton_inj.mp (takes.brought.symm.trans takes'.brought)
  · rw [whole] at run clock
    exact absurd keeps' fun keeps => not_taken_again run clock takes' takes lasts' fun next mem =>
      keeps next (List.mem_append_left _ mem)

theorem late_of_run {between : List PushEntry} {third : PushEntry}
    (run : Run (pushStep limits) unguarded PushStore.init
      (earlier ++ first :: (middle ++ second :: (between ++ third :: later))) p)
    (fresh : FreshLeases (earlier ++ first :: (middle ++ second :: (between ++ third :: later))))
    (takes : Takes first k token ends) (again : Takes second k other ends')
    (asked : third.call.underLease? = some job) (keyed : job.key = k)
    (named : job.leaseToken = token) : third.after = third.before := by
  -- The token is on the job after the first claim, so no later claim brings it.
  have unbrought : ∀ e ∈ middle ++ second :: (between ++ third :: later), token ∉ e.call.leaseTokens := by
    obtain ⟨w, stored, under, -⟩ := takes.stored
    exact fresh.unbrought_after run ⟨w, (Table.find?_eq_some.mp stored).1, under⟩
  obtain ⟨w, stored, under, -⟩ := again.stored
  have start : Outdated second.after k token := by
    intro w' found
    cases found.symm.trans stored
    rw [under]
    rintro ⟨⟩
    exact unbrought second (by simp) (again.brought ▸ List.mem_singleton_self _)
  have rest : Run (pushStep limits) unguarded second.after (between ++ third :: later) p :=
    run.after_entry.after_entry
  have outdated := rest.at_entry.1.preserves_where (Outdated · k token)
    (fun e mem => unbrought e (by simp [mem])) start
    fun _ _ outdated ok apart => outdated_of_step outdated ok apart
  rcases rest.committed_or_refused (List.mem_append_right _ List.mem_cons_self) with
    ⟨given, -, ok⟩ | ⟨_, -, same⟩
  · subst keyed named
    exact unchanged_of_outdated outdated asked ok
  · exact same

/-- A job that was handed out is in the queue until it is ended. -/
theorem kept_or_ended {state : PushStore} (rest : Run (pushStep limits) unguarded state later p)
    (stored : state.wakes.find? k = some w) :
    (∃ next ∈ later, ∃ w, next.before.wakes.find? k = some w ∧ WakeEnd next.before next.after w next.call) ∨
      ∃ w, p.wakes.find? k = some w := by
  refine or_iff_not_imp_left.mpr fun standing => rest.preserves_where (∃ w, ·.wakes.find? k = some w)
    (fun next mem ended => standing ⟨next, mem, ended⟩) ⟨w, stored⟩ ?_
  rintro later state request given state' - - ⟨w, found⟩ ok unended
  cases (pushMove_of_step ok).wake k with
  | kept same => exact ⟨w, same.trans found⟩
  | queued missing => cases missing.symm.trans found
  | leased found subscribed claimable leased => exact ⟨_, leased⟩
  | released found asked holds released => exact ⟨_, released⟩
  | ended found gone why => exact absurd ⟨_, found, why⟩ unended

/-- In every run a job has one worker at a time, a worker that lost its lease changes nothing, only jobs
that may be sent are handed out, and every such job is ended for a reason or comes up again. -/
theorem wakes_leased (run : Run (pushStep limits) unguarded PushStore.init history p)
    (fresh : FreshLeases history) : Leased history p where
  exclusive _ _ _ _ clock holds other := exclusive_of_run run fresh clock holds other
  late earlier first middle second between third later k token ends other ends' job whole hands again asked
      keyed named := by
    subst whole
    exact late_of_run run fresh (takes_of_hands run fresh (by simp) hands)
      (takes_of_hands run fresh (by simp) again) asked keyed named
  eligible entry member now provider limit leaseDuration token jobs abandoned asked answered job handed := by
    obtain ⟨w, ps, found, subscribed, claimable, -⟩ := claimed_of_entry run fresh member asked answered handed
    have same : w.subscriptionID = job.subscriptionID :=
      congrArg (·.2.2) (Table.find?_eq_some.mp found).2
    exact ⟨w, ps, found, same ▸ subscribed, claimable⟩
  refreshed entry member now job current asked answered := by
    rcases run.committed_or_refused member with ⟨given, answer, ok⟩ | ⟨_, refused, -⟩
    · rw [asked] at ok
      obtain ⟨_, refreshed, -⟩ := map_eq_ok.mp ok
      exact refreshPushWakeJob_ok refreshed
    · cases refused.symm.trans answered
  settled earlier entry later k token ends whole hands := by
    subst whole
    obtain ⟨w, stored, -⟩ := (takes_of_hands run fresh (by simp) hands).stored
    refine (kept_or_ended run.after_entry stored).imp_right fun ⟨w, found⟩ => ?_
    obtain ⟨ps, due⟩ := due_of_queueSound (queueSound_of_run run) (Table.find?_eq_some.mp found).1
    exact ⟨w, ps, found, due⟩
  queued _ stored := queued_of_run run stored

end Runs

namespace Example

/-- Bob's phone is subscribed, and Alice has sent a message to the room. -/
def woken : List PushRequest :=
  room.map (.base 1) ++
    [.createPushSubscription 2 "bob-push" bob (some "bob-phone") .fcm "endpoint" "" "" .legacyGeneric,
      .base 3 (.saveMessageEnvelope 3 "message" true (aliceSays [7] "first" none none))]

/-- A worker claims under a lease of five units. -/
def claims (now : Time) (leaseToken : LeaseToken) : PushRequest :=
  .claimPushWakeJobs now .fcm 10 5 leaseToken

/-- The job as the first worker holds it. -/
def bobJob : PushWakeJob :=
  ⟨.legacyGeneric, 2, bob, "bob-push", .fcm, "endpoint", "", "", 1, "lease"⟩

end Example

open Example in
/-- The first worker crashes, a second one takes the job when the lease has run out, and the first one's
completion comes too late. -/
theorem wakes_leased_late :
    Leased (execHistory (pushStep limits) PushStore.init
      (woken ++ [claims 4 "lease", claims 5 "early", claims 9 "second", .completePushWakeJob bobJob]))
      (exec (pushStep limits) PushStore.init
        (woken ++ [claims 4 "lease", claims 5 "early", claims 9 "second", .completePushWakeJob bobJob])) ∧
    (serve (pushStep limits) (exec (pushStep limits) PushStore.init woken) (claims 4 "lease")).answer =
      .ok (.claimed [bobJob] 0) ∧
    ((exec (pushStep limits) PushStore.init
      (woken ++ [claims 4 "lease", claims 5 "early", claims 9 "second", .completePushWakeJob bobJob])).wakes.find?
        bobJob.key).map (·.leaseToken) = some (some "second") :=
  ⟨wakes_leased (run_exec _ _ _) (by decide +kernel), by decide +kernel⟩

open Example in
/-- A job that was handed out once, and neither completed nor dropped, is abandoned when it expires, a day
after its message. -/
theorem abandoned_after_one_attempt :
    (serve (pushStep limits) (exec (pushStep limits) PushStore.init woken) (claims 4 "lease")).answer =
      .ok (.claimed [bobJob] 0) ∧
    bobJob.attempts = 1 ∧
    (serve (pushStep limits) (exec (pushStep limits) PushStore.init (woken ++ [claims 4 "lease"]))
      (claims (3 + pushWakeJobTTL) "later")).answer = .ok (.claimed [] 1) ∧
    (serve (pushStep limits) (exec (pushStep limits) PushStore.init (woken ++ [claims 4 "lease"]))
      (claims (3 + pushWakeJobTTL) "later")).after.wakes.rows = [] := by
  decide +kernel

end Veritra.Storage
