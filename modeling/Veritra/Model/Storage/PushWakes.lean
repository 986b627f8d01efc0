import Veritra.Model.Storage.Housekeeping

/-! # Push wakes

The queue of generic wakes for the push providers, from `push_wake_store.go`, with the subscriptions and
the mutes it reads. Sending a message queues one job for each subscription of the other members. Any
number of delivery workers claim jobs: a claim leases a batch under a new token until a deadline, and the
worker completes, drops or retries a job under its token. A worker that crashes leaves its lease to run
out. A claim first deletes jobs that expired or can no longer be sent. The tables stand around the store,
whose calls are served as before.
-/

namespace Veritra.Storage

open Relational Machine

abbrev SubscriptionID := String
abbrev LeaseToken := String

inductive PushProvider
  | webpush | fcm | apns
  | other (name : String)
  deriving DecidableEq, Repr

/-- The providers that have delivery workers: `pushMetricProviders`. -/
def PushProvider.delivered : PushProvider → Bool
  | webpush | fcm | apns => true
  | other _ => false

inductive NotificationMode
  | legacyGeneric | localDecrypt
  deriving DecidableEq, Repr

/-- A row of `push_subscriptions`. A null key or secret is the empty text. -/
structure PushSubscription where
  id : SubscriptionID
  accountID : AccountID
  deviceID : Option DeviceID
  provider : PushProvider
  endpoint : String
  publicKey : String
  authSecret : String
  createdAt : Time
  disabledAt : Option Time
  notificationMode : NotificationMode
  deriving DecidableEq, Repr

/-- A row of `conversation_notification_preferences`; the end of a mute is in Unix seconds. -/
structure NotificationPreference where
  accountID : AccountID
  conversationID : ConversationID
  muted : Bool
  mutedUntil : Option ℕ
  deriving DecidableEq, Repr

def NotificationPreference.key (preference : NotificationPreference) : AccountID × ConversationID :=
  (preference.accountID, preference.conversationID)

abbrev WakeKey := EventID × AccountID × SubscriptionID

/-- A row of `push_wake_jobs`. -/
structure PushWake where
  syncEventID : EventID
  conversationID : ConversationID
  senderAccountID : AccountID
  recipientAccountID : AccountID
  subscriptionID : SubscriptionID
  createdAt : Time
  nextAttemptAt : Time
  attempts : ℕ
  leaseToken : Option LeaseToken
  leaseExpiresAt : Option Time
  expiresAt : Time
  deriving DecidableEq, Repr

def PushWake.key (wake : PushWake) : WakeKey :=
  (wake.syncEventID, wake.recipientAccountID, wake.subscriptionID)

/-- No lease on the job holds at the time. -/
def PushWake.unleased (w : PushWake) (now : Time) : Prop :=
  ∀ leaseExpiresAt ∈ w.leaseExpiresAt, leaseExpiresAt ≤ now
  deriving Decidable

/-- A job as a worker holds it: `PushWakeJob`. -/
structure PushWakeJob where
  notificationMode : NotificationMode
  eventID : EventID
  recipientAccountID : AccountID
  subscriptionID : SubscriptionID
  provider : PushProvider
  endpoint : String
  publicKey : String
  authSecret : String
  attempts : ℕ
  leaseToken : LeaseToken
  deriving DecidableEq, Repr

def PushWakeJob.key (job : PushWakeJob) : WakeKey := (job.eventID, job.recipientAccountID, job.subscriptionID)

/-- The store with the subscriptions, the mutes and the queue. -/
structure PushStore where
  store : Store
  subscriptions : Table PushSubscription PushSubscription.id
  preferences : Table NotificationPreference NotificationPreference.key
  wakes : Table PushWake PushWake.key

def PushStore.init : PushStore := ⟨.init, .empty, .empty, .empty⟩

def unixSeconds (now : Time) : ℕ := now / second

def NotificationPreference.mutes (preference : NotificationPreference) (seconds : ℕ) : Prop :=
  preference.muted ∧ ∀ ends ∈ preference.mutedUntil, seconds < ends
  deriving Decidable

namespace PushStore

/-- The device of the subscription is not revoked; a subscription without one always passes. -/
def deviceLive (p : PushStore) (ps : PushSubscription) : Prop :=
  ∀ deviceID ∈ ps.deviceID, ∃ d ∈ p.store.devices, d.id = deviceID ∧ d.accountID = ps.accountID ∧ d.revokedAt = none
  deriving Decidable

def mutedFor (p : PushStore) (accountID : AccountID) (conversationID : ConversationID) (seconds : ℕ) : Prop :=
  ∃ preference ∈ p.preferences, preference.accountID = accountID ∧
    preference.conversationID = conversationID ∧ preference.mutes seconds
  deriving Decidable

/-- `pushWakeEligible`: the recipient is a member, has not blocked the sender and has not muted the
conversation, and the subscribed device is live. -/
def eligible (p : PushStore) (seconds : ℕ) (w : PushWake) (ps : PushSubscription) : Prop :=
  p.store.isConversationMember w.conversationID w.recipientAccountID ∧ p.deviceLive ps ∧
  (¬ ∃ b ∈ p.store.blocks, b.blockerAccountID = w.recipientAccountID ∧ b.blockedAccountID = w.senderAccountID) ∧
  (ps.notificationMode = .localDecrypt ∨ ¬ p.mutedFor w.recipientAccountID w.conversationID seconds)
  deriving Decidable

/-- The subscription is to be woken for a message in the conversation. -/
def wakesFor (p : PushStore) (now : Time) (conversationID : ConversationID) (senderAccountID : AccountID)
    (ps : PushSubscription) : Prop :=
  p.store.isConversationMember conversationID ps.accountID ∧ ps.accountID ≠ senderAccountID ∧
  ps.provider.delivered ∧ ps.disabledAt = none ∧ p.deviceLive ps ∧
  (¬ ∃ b ∈ p.store.blocks, b.blockerAccountID = ps.accountID ∧ b.blockedAccountID = senderAccountID) ∧
  (ps.notificationMode = .localDecrypt ∨ ¬ p.mutedFor ps.accountID conversationID (unixSeconds now))
  deriving Decidable

/-- `enqueuePushWakeJobs`. -/
def enqueuePushWakeJobs (p : PushStore) (now : Time) (eventID : EventID) (conversationID : ConversationID)
    (senderAccountID : AccountID) (createdAt expiresAt : Time) : PushStore :=
  let woken := p.subscriptions.rows.filter fun ps => p.wakesFor now conversationID senderAccountID ps
  { p with wakes := woken.foldl (fun wakes ps => wakes.insertOrIgnore
      ⟨eventID, conversationID, senderAccountID, ps.accountID, ps.id, createdAt, createdAt, 0, none, none,
        expiresAt⟩) p.wakes }

/-- `pushWakeJobTTL`. -/
def pushWakeJobTTL : Time := 24 * 60 * 60 * second

/-- A job lives for a day, and no longer than its message. -/
def wakeExpiry (now : Time) (envelope : MessageEnvelope) : Time :=
  match envelope.expiresAt with
  | some expiresAt => min expiresAt (now + pushWakeJobTTL)
  | none => now + pushWakeJobTTL

/-- `pushWakeBatchLimit`. -/
def pushWakeBatchLimit : ℕ := 64

/-- The rows that `select` takes, with the subscription each is joined with, the first `limit` by time,
event and subscription. -/
def wakePage (p : PushStore) (select : PushWake → PushSubscription → Prop)
    [∀ w ps, Decidable (select w ps)] (time : PushWake → Time) (limit : ℕ) : List PushWake :=
  ((p.wakes.rows.filter fun w => ∃ ps ∈ p.subscriptions, ps.id = w.subscriptionID ∧ select w ps).insertionSort
    fun left right => time left < time right ∨ time left = time right ∧
      (left.syncEventID < right.syncEventID ∨ left.syncEventID = right.syncEventID ∧
        left.subscriptionID ≤ right.subscriptionID)).take limit

/-- Expired, though it could have been sent. -/
def abandonable (p : PushStore) (provider : PushProvider) (now : Time) (w : PushWake)
    (ps : PushSubscription) : Prop :=
  ps.accountID = w.recipientAccountID ∧ ps.provider = provider ∧ w.expiresAt ≤ now ∧ p.eligible (unixSeconds now) w ps
  deriving Decidable

/-- It can no longer be sent. -/
def ineligible (p : PushStore) (provider : PushProvider) (now : Time) (w : PushWake)
    (ps : PushSubscription) : Prop :=
  ps.accountID = w.recipientAccountID ∧ ps.provider = provider ∧ ¬ p.eligible (unixSeconds now) w ps
  deriving Decidable

def disabled (provider : PushProvider) (_ : PushWake) (ps : PushSubscription) : Prop :=
  ps.disabledAt ≠ none ∧ ps.provider = provider
  deriving Decidable

/-- The claim may take it: due, not expired and not leased. -/
def claimable (p : PushStore) (provider : PushProvider) (now : Time) (w : PushWake)
    (ps : PushSubscription) : Prop :=
  (ps.accountID = w.recipientAccountID ∧ ps.provider = provider ∧ ps.disabledAt = none) ∧
  p.eligible (unixSeconds now) w ps ∧ now < w.expiresAt ∧ w.nextAttemptAt ≤ now ∧ w.unleased now
  deriving Decidable

def deletePage (p : PushStore) (page : List PushWake) : PushStore :=
  { p with wakes := p.wakes.delete (· ∈ page) }

/-- Delete the expired jobs, those that can no longer be sent and those of disabled subscriptions, a page
of each, and count the first. -/
def dropStaleWakes (p : PushStore) (provider : PushProvider) (now : Time) : ℕ × PushStore :=
  let abandoned := p.wakePage (p.abandonable provider now) (·.expiresAt) pushWakeBatchLimit
  let p := p.deletePage abandoned
  let p := p.deletePage (p.wakePage (p.ineligible provider now) (·.expiresAt) pushWakeBatchLimit)
  let p := p.deletePage (p.wakePage (disabled provider) (·.expiresAt) pushWakeBatchLimit)
  (abandoned.length, p)

/-- Lease the rows of a page, one update for each. -/
def leasePage (p : PushStore) (page : List PushWake) (now : Time) (leaseToken : LeaseToken)
    (leaseExpiresAt : Time) : PushStore :=
  let takes (w : PushWake) : Prop :=
    (∃ chosen ∈ page, chosen.key = w.key) ∧ w.unleased now ∧ w.nextAttemptAt ≤ now ∧ now < w.expiresAt
  let wakes := p.wakes.update takes fun w => { w with
    leaseToken := some leaseToken, leaseExpiresAt := some leaseExpiresAt, attempts := w.attempts + 1 }
  { p with wakes }

def toJob (w : PushWake) (ps : PushSubscription) (leaseToken : LeaseToken) : PushWakeJob :=
  ⟨ps.notificationMode, w.syncEventID, w.recipientAccountID, w.subscriptionID, ps.provider, ps.endpoint,
    ps.publicKey, ps.authSecret, w.attempts, leaseToken⟩

/-- The jobs under the token, by event and subscription. -/
def leasedJobs (p : PushStore) (provider : PushProvider) (leaseToken : LeaseToken) : List PushWakeJob :=
  ((p.wakes.rows.filter (·.leaseToken = some leaseToken)).filterMap fun w =>
    (p.subscriptions.find? w.subscriptionID).bind fun ps =>
      if ps.accountID = w.recipientAccountID ∧ ps.provider = provider ∧ ps.disabledAt = none then
        some (toJob w ps leaseToken) else none).insertionSort fun left right =>
    left.eventID < right.eventID ∨ left.eventID = right.eventID ∧ left.subscriptionID ≤ right.subscriptionID

/-- The length of a lease, half a minute unless the caller gives one. -/
def leaseLength (leaseDuration : Time) : Time := if leaseDuration = 0 then 30 * second else leaseDuration

/-- `ClaimPushWakeJobs`. -/
def claimPushWakeJobs (p : PushStore) (provider : PushProvider) (limit : ℕ) (now leaseDuration : Time)
    (leaseToken : LeaseToken) : (List PushWakeJob × ℕ) × PushStore :=
  let limit := if limit = 0 ∨ pushWakeBatchLimit < limit then pushWakeBatchLimit else limit
  let (abandoned, p) := p.dropStaleWakes provider now
  match p.wakePage (p.claimable provider now) (·.nextAttemptAt) limit with
  | [] => (([], abandoned), p)
  | page =>
    let p := p.leasePage page now leaseToken (now + leaseLength leaseDuration)
    ((p.leasedJobs provider leaseToken, abandoned), p)

/-- `RefreshPushWakeJob`: the job with the current credentials, if it may still be sent. -/
def refreshPushWakeJob (p : PushStore) (job : PushWakeJob) (now : Time) : Except StoreError PushWakeJob :=
  match p.wakes.find? job.key with
  | none => .error .notFound
  | some w =>
    match p.subscriptions.find? w.subscriptionID with
    | none => .error .notFound
    | some ps =>
      if w.leaseToken = some job.leaseToken ∧ now < w.expiresAt ∧ ps.accountID = w.recipientAccountID ∧
          ps.disabledAt = none ∧ p.eligible (unixSeconds now) w ps then .ok (toJob w ps job.leaseToken)
      else .error .notFound

/-- The row is leased to the worker that holds the job. -/
def leasedTo (job : PushWakeJob) (w : PushWake) : Prop :=
  w.key = job.key ∧ w.leaseToken = some job.leaseToken
  deriving Decidable

/-- `DropPushWakeJob`. -/
def dropPushWakeJob (p : PushStore) (job : PushWakeJob) : PushStore :=
  { p with wakes := p.wakes.delete (leasedTo job) }

/-- `CompletePushWakeJob`, the same statement. -/
def completePushWakeJob (p : PushStore) (job : PushWakeJob) : PushStore :=
  { p with wakes := p.wakes.delete (leasedTo job) }

/-- `RetryPushWakeJob`: give the lease back, with a time for the next attempt. -/
def retryPushWakeJob (p : PushStore) (job : PushWakeJob) (nextAttemptAt now : Time) : PushStore :=
  let wakes := p.wakes.update (fun w => leasedTo job w ∧ now < w.expiresAt) fun w =>
    { w with nextAttemptAt, leaseToken := none, leaseExpiresAt := none }
  { p with wakes }

/-- The subscription still has the credentials of the job. -/
def targetOf (job : PushWakeJob) (ps : PushSubscription) : Prop :=
  ps.id = job.subscriptionID ∧ ps.provider = job.provider ∧ ps.endpoint = job.endpoint ∧
    ps.publicKey = job.publicKey ∧ ps.authSecret = job.authSecret
  deriving Decidable

/-- `RetirePushWakeSubscription`: disable the subscription and drop its jobs, or give the lease back when
the subscription has other credentials by now. -/
def retirePushWakeSubscription (p : PushStore) (job : PushWakeJob) (now : Time) : PushStore :=
  if ∃ ps ∈ p.subscriptions, targetOf job ps then
    let subscriptions := p.subscriptions.update (targetOf job) fun ps =>
      { ps with disabledAt := ps.disabledAt.or (some now) }
    { p with subscriptions, wakes := p.wakes.delete (·.subscriptionID = job.subscriptionID) }
  else
    let wakes := p.wakes.update (leasedTo job) fun w =>
      { w with nextAttemptAt := now, leaseToken := none, leaseExpiresAt := none }
    { p with wakes }

/-- `PruneExpiredPushWakeJobs`. -/
def pruneExpiredPushWakeJobs (p : PushStore) (now : Time) (limit : ℕ) : PushStore :=
  let limit := if limit = 0 ∨ 500 < limit then 500 else limit
  p.deletePage (((p.wakes.rows.filter (·.expiresAt ≤ now)).insertionSort fun left right =>
    left.expiresAt < right.expiresAt ∨ left.expiresAt = right.expiresAt ∧
      (left.syncEventID < right.syncEventID ∨ left.syncEventID = right.syncEventID ∧
        left.subscriptionID ≤ right.subscriptionID)).take limit)

/-- `ON DELETE CASCADE`: jobs go with their subscription and their event, mutes with the membership. -/
def cascade (p : PushStore) : PushStore :=
  { p with
    wakes := p.wakes.delete fun w => ¬ ((p.subscriptions.find? w.subscriptionID).isSome ∧
      ∃ e ∈ p.store.events, e.id = w.syncEventID)
    preferences := p.preferences.delete fun preference =>
      ¬ p.store.isConversationMember preference.conversationID preference.accountID }

/-- The subscription is an active one of the account's device. -/
def sameScope (accountID : AccountID) (deviceID : Option DeviceID) (ps : PushSubscription) : Prop :=
  ps.accountID = accountID ∧ ps.deviceID = deviceID ∧ ps.disabledAt = none
  deriving Decidable

/-- The latest active subscription of the device with the provider. -/
def activeSubscription? (p : PushStore) (accountID : AccountID) (deviceID : Option DeviceID)
    (provider : PushProvider) : Option PushSubscription :=
  ((p.subscriptions.rows.filter fun ps => sameScope accountID deviceID ps ∧ ps.provider = provider).insertionSort
    fun left right => right.createdAt ≤ left.createdAt).head?

/-- Renew the device's registration with the provider, or insert one. -/
def registerSubscription (p : PushStore) (new : PushSubscription) :
    Except StoreError (SubscriptionID × Table PushSubscription PushSubscription.id) :=
  match p.activeSubscription? new.accountID new.deviceID new.provider with
  | some active => .ok (active.id, p.subscriptions.update (·.id = active.id) fun ps =>
      { ps with
        endpoint := new.endpoint, publicKey := new.publicKey, authSecret := new.authSecret
        createdAt := new.createdAt, notificationMode := new.notificationMode })
  | none =>
    match p.subscriptions.insert? new with
    | some subscriptions => .ok (new.id, subscriptions)
    | none => .error .uniqueConstraint

/-- `CreatePushSubscriptionWithMode`: register the device, or renew its registration. Registrations with
other providers are disabled. -/
def createPushSubscription (p : PushStore) (now : Time) (newID : SubscriptionID) (accountID : AccountID)
    (deviceID : Option DeviceID) (provider : PushProvider) (endpoint publicKey authSecret : String)
    (mode : NotificationMode) : Except StoreError (SubscriptionID × PushStore) := do
  require (mode = .localDecrypt → (∃ d ∈ p.store.devices, some d.id = deviceID ∧ d.accountID = accountID ∧
    d.revokedAt = none) ∧ ∃ a ∈ p.store.accounts, a.id = accountID ∧ a.status = .active ∧ a.deletedAt = none)
    StoreError.unauthorized
  let (id, subscriptions) ← p.registerSubscription
    ⟨newID, accountID, deviceID, provider, endpoint, publicKey, authSecret, now, none, mode⟩
  let subscriptions := subscriptions.update
    (fun ps => sameScope accountID deviceID ps ∧ ps.provider ≠ provider)
    fun ps => { ps with disabledAt := some now }
  pure (id, { p with subscriptions })

/-- Disable the subscriptions that `select` takes, keeping an earlier date. -/
def disableSubscriptions (p : PushStore) (select : PushSubscription → Prop) [DecidablePred select]
    (now : Time) : PushStore :=
  { p with subscriptions := p.subscriptions.update select fun ps =>
      { ps with disabledAt := ps.disabledAt.or (some now) } }

/-- `DisablePushSubscription`. -/
def disablePushSubscription (p : PushStore) (now : Time) (id : SubscriptionID) (accountID : AccountID) :
    Except StoreError PushStore := do
  require (∃ ps ∈ p.subscriptions, ps.id = id ∧ ps.accountID = accountID ∧ ps.disabledAt = none)
    StoreError.notFound
  pure (p.disableSubscriptions (fun ps => ps.id = id ∧ ps.accountID = accountID ∧ ps.disabledAt = none) now)

/-- The sweep of subscriptions that were disabled a retention period ago. -/
def pruneSubscriptions (p : PushStore) (now : Time) : PushStore :=
  let page := sweepPage p.subscriptions.rows
    (fun ps => ∃ disabledAt ∈ ps.disabledAt, disabledAt + operationalRowRetention < now)
    (fun ps => ps.disabledAt.getD 0) (·.id)
  { p with subscriptions := p.subscriptions.delete (· ∈ page) }.cascade

/-- `MaxMuteDuration`. -/
def maxMuteDuration : Time := 366 * 24 * 60 * 60 * second

/-- `SetConversationNotificationMute`. -/
def setConversationNotificationMute (p : PushStore) (now : Time) (conversationID : ConversationID)
    (accountID : AccountID) (muted : Bool) (ends : Option Time) : Except StoreError PushStore := do
  require (p.store.isConversationMember conversationID accountID) StoreError.notMember
  let ends := if muted then ends else none
  require (∀ endsAt ∈ ends, now < endsAt ∧ endsAt ≤ now + maxMuteDuration) StoreError.invalidInput
  let preference := ⟨accountID, conversationID, muted, ends.map unixSeconds⟩
  pure { p with preferences := p.preferences.upsert preference fun old =>
    { old with muted, mutedUntil := ends.map unixSeconds } }

/-- What a committed call of the store does to the queue and the tables it reads. -/
def afterCall (p : PushStore) (now : Time) : Call → Answer → PushStore
  | .saveMessageEnvelope sent _ true _, .saved ⟨envelope, false, eventID, _⟩ =>
    p.enqueuePushWakeJobs sent eventID envelope.conversationID envelope.senderAccountID sent
      (wakeExpiry sent envelope)
  | .deleteAccountData _ accountID, _ =>
    { p with subscriptions := p.subscriptions.delete (·.accountID = accountID) }
  | .setAccountStatus _ target .suspended, _ => p.disableSubscriptions (·.accountID = target) now
  | _, _ => p

end PushStore

inductive PushRequest
  | base (now : Time) (call : Call)
  | createPushSubscription (now : Time) (newID : SubscriptionID) (accountID : AccountID)
      (deviceID : Option DeviceID) (provider : PushProvider) (endpoint publicKey authSecret : String)
      (mode : NotificationMode)
  | disablePushTarget (now : Time) (job : PushWakeJob)
  | disablePushSubscription (now : Time) (id : SubscriptionID) (accountID : AccountID)
  | setConversationNotificationMute (now : Time) (conversationID : ConversationID) (accountID : AccountID)
      (muted : Bool) (ends : Option Time)
  | claimPushWakeJobs (now : Time) (provider : PushProvider) (limit : ℕ) (leaseDuration : Time)
      (leaseToken : LeaseToken)
  | refreshPushWakeJob (now : Time) (job : PushWakeJob)
  | completePushWakeJob (job : PushWakeJob)
  | dropPushWakeJob (job : PushWakeJob)
  | retryPushWakeJob (now : Time) (job : PushWakeJob) (nextAttemptAt : Time)
  | retirePushWakeSubscription (now : Time) (job : PushWakeJob)
  | pruneExpiredPushWakeJobs (now : Time) (limit : ℕ)
  | pruneSubscriptions (now : Time)

inductive PushAnswer
  | base (answer : Answer)
  | subscription (id : SubscriptionID)
  | claimed (jobs : List PushWakeJob) (abandoned : ℕ)
  | job (job : PushWakeJob)
  | done
  deriving DecidableEq, Repr

def pushStep (limits : Limits) (p : PushStore) : PushRequest → Except StoreError (PushAnswer × PushStore)
  | .base now call => do
    let (answer, store) ← step limits p.store call
    pure (.base answer, ({ p with store }.afterCall now call answer).cascade)
  | .createPushSubscription now newID accountID deviceID provider endpoint publicKey authSecret mode =>
    (p.createPushSubscription now newID accountID deviceID provider endpoint publicKey authSecret mode).map
      fun (id, p) => (.subscription id, p)
  | .disablePushTarget now job => .ok (.done, p.disableSubscriptions (PushStore.targetOf job) now)
  | .disablePushSubscription now id accountID =>
    (p.disablePushSubscription now id accountID).map fun p => (.done, p)
  | .setConversationNotificationMute now conversationID accountID muted ends =>
    (p.setConversationNotificationMute now conversationID accountID muted ends).map fun p => (.done, p)
  | .claimPushWakeJobs now provider limit leaseDuration leaseToken =>
    let ((jobs, abandoned), p) := p.claimPushWakeJobs provider limit now leaseDuration leaseToken
    .ok (.claimed jobs abandoned, p)
  | .refreshPushWakeJob now job => (p.refreshPushWakeJob job now).map fun job => (.job job, p)
  | .completePushWakeJob job => .ok (.done, p.completePushWakeJob job)
  | .dropPushWakeJob job => .ok (.done, p.dropPushWakeJob job)
  | .retryPushWakeJob now job nextAttemptAt => .ok (.done, p.retryPushWakeJob job nextAttemptAt now)
  | .retirePushWakeSubscription now job => .ok (.done, p.retirePushWakeSubscription job now)
  | .pruneExpiredPushWakeJobs now limit => .ok (.done, p.pruneExpiredPushWakeJobs now limit)
  | .pruneSubscriptions now => .ok (.done, p.pruneSubscriptions now)

abbrev PushEntry := Served PushStore PushRequest StoreError PushAnswer

end Veritra.Storage
