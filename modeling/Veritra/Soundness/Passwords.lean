import Veritra.Soundness.Sessions

/-! # Passwords and the sessions that they earned

A login reads the stored hash, verifies the password against it outside of a transaction, and then asks
for a session under the hash that it read. The store grants it only while that hash is still the stored
one. A change of the password deletes the other sessions of the account, so what remains afterwards is the
session that the change keeps and what was granted later under a later hash.
-/

namespace Veritra.Storage

open Relational Machine Database

variable {accountID : AccountID} {hash new : PasswordHash} {tokenHash : TokenHash} {exchange : Exchange}
  {s : Session} {now : Time} {kept : Option TokenHash} {earlier later exchanges : List Exchange}
  {config : Config} {history : List Exchange} {db next : Database} {request : Request} {reply : Reply}

/-- What stores a password hash for an account. -/
inductive Database.HashSet (db : Database) : Request → AccountID → PasswordHash → Prop
  | changed {now : Time} {accountID : AccountID} {keepTokenHash : TokenHash} {hash : PasswordHash} :
      HashSet db (.password now (.change accountID keepTokenHash hash)) accountID hash
  | reset {now : Time} {c : Credentials} {hash : PasswordHash} (named : c ∈ db.accounts.credentials) :
      HashSet db (.password now (.resetOwner c.username hash)) c.accountID hash
  | upgraded {now : Time} {accountID : AccountID} {currentHash : PasswordHash} {salt : String}
      (current : db.hasPasswordHash accountID currentHash) :
      HashSet db (.password now (.upgradeHash accountID currentHash salt)) accountID { currentHash with salt }
  | registered {now : Time} {enroll : EnrollRequest} {accountID : AccountID} {input : RegisterInput}
      (registers : enroll = .createOwner input ∨ enroll = .registerWithInvite input) :
      HashSet db (.enroll now enroll) accountID input.passwordHash

theorem hasPasswordHash_of_eq (same : next.accounts.credentials = db.accounts.credentials)
    (stored : next.hasPasswordHash accountID hash) : db.hasPasswordHash accountID hash := by
  unfold hasPasswordHash
  rwa [← same]

theorem hasPasswordHash_of_set {other : AccountID}
    (stored : (db.setPasswordHash accountID new).hasPasswordHash other hash) :
    db.hasPasswordHash other hash ∨ accountID = other ∧ new = hash := by
  obtain ⟨c, mem, same, has⟩ := stored
  unfold setPasswordHash at mem
  dsimp only at mem
  rcases IndexedTable.mem_update.mp mem with ⟨kept, -⟩ | ⟨old, -, owned, rfl⟩
  · exact .inl ⟨c, kept, same, has⟩
  · exact .inr ⟨owned.symm.trans same, Option.some.inj has⟩

/-- A hash that is stored after a committed request was stored before it, or the request set it. -/
theorem hash_of_step (ok : Database.step config db request = .ok (reply, next))
    (stored : next.hasPasswordHash accountID hash) :
    db.hasPasswordHash accountID hash ∨ db.HashSet request accountID hash := by
  cases outcome_of_step ok with
  | revoked => exact .inl (hasPasswordHash_of_eq (by rw [(dropDevice_retires _ _ _ _).accounts]; rfl) stored)
  | deleted _ _ scrubbed =>
    obtain ⟨c, mem, same, has⟩ := stored
    rcases (IndexedTable.mem_of_insert? scrubbed.credentials c).mp mem with kept | rfl
    · exact .inl ⟨c, (IndexedTable.mem_delete.mp kept).1, same, has⟩
    · cases has
  | reserved served =>
    obtain ⟨_, rfl⟩ := reserveStep_ok served
    exact .inl stored
  | registered registers registered =>
    obtain ⟨c, mem, same, has⟩ := stored
    rcases (IndexedTable.mem_of_insert? registered.login c).mp mem with kept | rfl
    · exact .inl ⟨c, kept, same, has⟩
    · cases has
      exact .inr (.registered registers)
  | approved _ _ _ outcome | completed _ _ _ _ outcome | recoveryAnswered _ _ _ outcome =>
    cases outcome <;> exact .inl stored
  | history served => exact .inl (hasPasswordHash_of_eq (by rw [(historyStep_retires served).accounts]) stored)
  | blob served => exact .inl (hasPasswordHash_of_eq (by rw [(blobStep_frame served).accounts]) stored)
  | passwordChanged =>
    rcases hasPasswordHash_of_set stored with kept | ⟨rfl, rfl⟩
    · exact .inl kept
    · exact .inr .changed
  | passwordReset named =>
    obtain ⟨mem, rfl⟩ := named
    rcases hasPasswordHash_of_set stored with kept | ⟨rfl, rfl⟩
    · exact .inl kept
    · exact .inr (.reset mem)
  | hashUpgraded current =>
    rcases hasPasswordHash_of_set stored with kept | ⟨rfl, rfl⟩
    · exact .inl kept
    · exact .inr (.upgraded current)
  | @pruned now =>
    refine .inl (hasPasswordHash_of_eq ?_ stored)
    change (db.retireStaleHistory now).accounts.credentials = _
    rw [(db.retireStaleHistory_retires now).accounts]
  | _ => exact .inl stored

/-- The password hash that a request brings. -/
def Request.newHash : Request → List PasswordHash
  | password _ (.change _ _ hash) | password _ (.resetOwner _ hash) => [hash]
  | password _ (.upgradeHash _ currentHash salt) => [{ currentHash with salt }]
  | enroll _ (.createOwner input) | enroll _ (.registerWithInvite input) => [input.passwordHash]
  | _ => []

/-- Some account has the hash. -/
def Database.KnowsHash (db : Database) (hash : PasswordHash) : Prop :=
  ∃ c ∈ db.accounts.credentials, c.passwordHash = some hash
  deriving Decidable

/-- Every hash is made with a fresh salt: no account had it up to then. -/
abbrev FreshSalts (history : List Exchange) : Prop :=
  Fresh (fun exchange : Exchange => exchange.call.newHash) Database.KnowsHash history

theorem Database.HashSet.brought (set : db.HashSet request accountID hash) : hash ∈ request.newHash := by
  cases set with
  | registered registers => rcases registers with rfl | rfl <;> exact List.mem_singleton_self _
  | _ => exact List.mem_singleton_self _

/-- The token of a session after an exchange: a rotation gives it a new one. -/
def Exchange.follow (config : Config) (tokenHash : TokenHash) (exchange : Exchange) : TokenHash :=
  match exchange.call, exchange.answer with
  | .session now (.rotateSession presentedTokenHash newTokenHash), .ok _ =>
    if ∃ s ∈ exchange.before.sessions, s.tokenHash = tokenHash ∧ s.answersTo presentedTokenHash now ∧
      s.live config.sessions now then newTokenHash else tokenHash
  | _, _ => tokenHash

/-- The token of a session after a list of exchanges. -/
def followed (config : Config) (exchanges : List Exchange) (tokenHash : TokenHash) : TokenHash :=
  exchanges.foldl (Exchange.follow config) tokenHash

/-- The session was started in one of the exchanges, after verifying a password that meets the
condition if it verified one. -/
def StartedWithin (config : Config) (exchanges : List Exchange) (verified : PasswordHash → Prop)
    (session : Session) : Prop :=
  ∃ earlier start later, exchanges = earlier ++ start :: later ∧
    ∃ hash first, SessionStart config start.before start.call hash first ∧
      first.accountID = session.accountID ∧ followed config later first.tokenHash = session.tokenHash ∧
      ∀ h ∈ hash, verified h

theorem follow_of_unrotated (unrotated : exchange.call.rotatesTo = none) :
    exchange.follow config tokenHash = tokenHash := by
  unfold Exchange.follow
  split
  · next call _ =>
    rw [call] at unrotated
    cases unrotated
  · rfl

/-- A session after a committed request was there before it or was started by it. -/
theorem session_of_step (ok : Database.step config db request = .ok (reply, next))
    (mem : s ∈ next.sessions) :
    (∃ old ∈ db.sessions, old.accountID = s.accountID ∧
      Exchange.follow config old.tokenHash ⟨db, request, .ok reply, next⟩ = s.tokenHash) ∨
    ∃ hash, SessionStart config db request hash s := by
  cases Database.sessionMove_of_step ok with
  | kept unrotated continued =>
    obtain ⟨old, known, continues⟩ := continued s mem
    refine .inl ⟨old, known, continues.account.symm, ?_⟩
    rw [follow_of_unrotated unrotated, continues.token]
  | @rotated now presented new old call known presents live only others =>
    subst call
    rcases (others s).mp mem with ⟨kept, other⟩ | rfl
    · refine .inl ⟨s, kept, rfl, if_neg ?_⟩
      rintro ⟨s', known', same, presents', live'⟩
      rw [only s' known' presents' live'] at same
      exact other same.symm
    · exact .inl ⟨old, known, rfl, if_pos ⟨old, known, rfl, presents, live⟩⟩
  | started start _ continued inserted =>
    rcases (Table.mem_of_insert? inserted s).mp mem with kept | rfl
    · exact .inl ⟨s, continued s kept, rfl, follow_of_unrotated start.unrotated⟩
    · exact .inr ⟨_, start⟩

/-- The exchange set a new password for the account, and may have kept one session. -/
inductive Exchange.ChangesPassword (exchange : Exchange) : AccountID → Option TokenHash → Prop
  | changed {now : Time} {accountID : AccountID} {keepTokenHash : TokenHash} {hash : PasswordHash}
      (call : exchange.call = .password now (.change accountID keepTokenHash hash))
      (ok : exchange.answer.isOk) : ChangesPassword exchange accountID (some keepTokenHash)
  | reset {now : Time} {c : Credentials} {hash : PasswordHash}
      (call : exchange.call = .password now (.resetOwner c.username hash))
      (named : c ∈ exchange.before.accounts.credentials) (ok : exchange.answer.isOk) :
      ChangesPassword exchange c.accountID none

/-- The account had the hash before one of the exchanges. -/
def OlderHash (exchanges : List Exchange) (accountID : AccountID) (hash : PasswordHash) : Prop :=
  ∃ exchange ∈ exchanges, exchange.before.hasPasswordHash accountID hash

theorem hash_eq_of_set (stored : (db.setPasswordHash accountID new).hasPasswordHash accountID hash) : hash = new := by
  obtain ⟨c, mem, same, has⟩ := stored
  unfold setPasswordHash at mem
  dsimp only at mem
  rcases IndexedTable.mem_update.mp mem with ⟨-, other⟩ | ⟨old, -, owned, rfl⟩
  · exact absurd same other
  · exact (Option.some.inj has).symm

theorem keptSessions_token {keepTokenHash : TokenHash}
    (mem : s ∈ db.keptSessions now accountID keepTokenHash) (owned : s.accountID = accountID) :
    s.tokenHash = keepTokenHash := by
  unfold keptSessions at mem
  rcases Table.mem_update.mp mem with ⟨kept, -⟩ | ⟨old, -, same, rfl⟩
  · have spared := (Table.mem_delete.mp kept).2
    exact not_not.mp fun other => spared ⟨owned, other⟩
  · exact same

/-- What a change of the password leaves: the kept session, and the new hash. -/
theorem Exchange.ChangesPassword.left (changes : exchange.ChangesPassword accountID kept)
    (ok : Database.step config exchange.before exchange.call = .ok (reply, exchange.after)) :
    (∀ s ∈ exchange.after.sessions, s.accountID = accountID → kept = some s.tokenHash) ∧
      ∃ new ∈ exchange.call.newHash, ∀ hash, exchange.after.hasPasswordHash accountID hash → hash = new := by
  cases changes with
  | @changed now _ keep hash call =>
    rw [call] at ok ⊢
    obtain ⟨next, ran, same⟩ := map_eq_ok.mp ok
    obtain ⟨-, events, left⟩ := changePassword_ok ran
    rw [← (Prod.mk.inj same).2, left]
    refine ⟨fun s mem owned => congrArg some (keptSessions_token mem owned).symm, hash,
      List.mem_singleton_self _, fun h stored => ?_⟩
    exact hash_eq_of_set stored
  | @reset now c hash call named =>
    rw [call] at ok ⊢
    obtain ⟨next, ran, same⟩ := map_eq_ok.mp ok
    obtain ⟨c', mem, sameName, events, left⟩ := resetOwnerPassword_ok ran
    cases IndexedTable.eq_of_index mem named sameName
    rw [← (Prod.mk.inj same).2, left]
    refine ⟨fun s mem owned => ?_, hash, List.mem_singleton_self _, fun h stored => ?_⟩
    · exact absurd owned (Table.mem_delete.mp mem).2
    · exact hash_eq_of_set stored

/-- No hash from before the change is stored after it. -/
theorem hash_newer_of_rest {change : Exchange}
    (rest : Run (Database.step config) unguarded change.after later db)
    (fresh : FreshSalts (earlier ++ change :: later))
    (changes : change.ChangesPassword accountID kept)
    (ok : Database.step config change.before change.call = .ok (reply, change.after))
    (older : OlderHash (earlier ++ [change]) accountID hash) :
    ¬ db.hasPasswordHash accountID hash := by
  obtain ⟨exchange, mem, c, stored, -, has⟩ := older
  have unbrought := fresh.unbrought_from mem ⟨c, stored, has⟩
  refine rest.preserves_where (fun db => ¬ db.hasPasswordHash accountID hash)
    (fun e after => unbrought e (List.mem_cons_of_mem _ after)) ?_ ?_
  · obtain ⟨-, new, brought, only⟩ := changes.left ok
    intro again
    exact unbrought change List.mem_cons_self (only hash again ▸ brought)
  · intro _ db request reply next _ _ absent ok unbrought stored
    rcases hash_of_step ok stored with old | set
    · exact absent old
    · exact unbrought set.brought

/-- The sessions of the account after the change. -/
def SessionsNewer (config : Config) (earlier later : List Exchange) (accountID : AccountID)
    (kept : Option TokenHash) (db : Database) : Prop :=
  ∀ s ∈ db.sessions, s.accountID = accountID →
    (∃ keepTokenHash ∈ kept, followed config later keepTokenHash = s.tokenHash) ∨
      StartedWithin config later (fun hash => ¬ OlderHash earlier accountID hash) s

theorem followed_append : followed config (exchanges ++ [exchange]) tokenHash =
      exchange.follow config (followed config exchanges tokenHash) := by
  simp only [followed, List.foldl_append, List.foldl_cons, List.foldl_nil]

theorem StartedWithin.append {verified : PasswordHash → Prop} {old session : Session}
    (started : StartedWithin config exchanges verified old)
    (account : old.accountID = session.accountID)
    (token : exchange.follow config old.tokenHash = session.tokenHash) :
    StartedWithin config (exchanges ++ [exchange]) verified session := by
  obtain ⟨earlier, start, later, rfl, hash, first, starts, owner, current, valid⟩ := started
  refine ⟨earlier, start, later ++ [exchange], by simp, hash, first, starts, owner.trans account, ?_, valid⟩
  rw [followed_append, current, token]

section

variable (newer : SessionsNewer config earlier later accountID kept db)

include newer

theorem SessionsNewer.commit
    (current : ∀ hash, db.hasPasswordHash accountID hash → ¬ OlderHash earlier accountID hash)
    (ok : Database.step config db request = .ok (reply, next)) :
    SessionsNewer config earlier (later ++ [⟨db, request, .ok reply, next⟩]) accountID kept next := by
  intro s mem owned
  rcases session_of_step ok mem with ⟨old, known, account, token⟩ | ⟨hash, start⟩
  · rcases newer old known (account.trans owned) with ⟨keep, kept, same⟩ | started
    · refine .inl ⟨keep, kept, ?_⟩
      rw [followed_append, same, token]
    · exact .inr (started.append account token)
  · refine .inr ⟨later, ⟨db, request, .ok reply, next⟩, [], rfl, hash, s, start, rfl, rfl, ?_⟩
    rintro h rfl
    exact current h (owned ▸ start.current)

theorem SessionsNewer.refuse {refusal : StoreError} :
    SessionsNewer config earlier (later ++ [⟨db, request, .error refusal, db⟩]) accountID kept db := by
  have same : ∀ tokenHash, Exchange.follow config tokenHash ⟨db, request, .error refusal, db⟩ = tokenHash := by
    simp [Exchange.follow]
  intro s mem owned
  rcases newer s mem owned with ⟨keep, kept, current⟩ | started
  · refine .inl ⟨keep, kept, ?_⟩
    rw [followed_append, same, current]
  · exact .inr (started.append rfl (same _))

end

theorem sessionsNewer_of_rest {change : Exchange}
    (rest : Run (Database.step config) unguarded change.after later db)
    (fresh : FreshSalts (earlier ++ change :: later))
    (changes : change.ChangesPassword accountID kept)
    (changed : Database.step config change.before change.call = .ok (reply, change.after)) :
    SessionsNewer config (earlier ++ [change]) later accountID kept db := by
  have shorter : ∀ {later : List Exchange} {exchange : Exchange},
      FreshSalts (earlier ++ change :: (later ++ [exchange])) → FreshSalts (earlier ++ change :: later) := by
    intro later exchange fresh
    rw [← List.cons_append, ← List.append_assoc] at fresh
    exact fresh.earlier
  refine rest.preserves_history (fun later db => FreshSalts (earlier ++ change :: later) →
    SessionsNewer config (earlier ++ [change]) later accountID kept db) ?_ ?_ ?_ fresh
  · intro _ s mem owned
    exact .inl ⟨s.tokenHash, (changes.left changed).1 s mem owned, rfl⟩
  · intro later db request reply next rest _ newer ok fresh
    refine (newer (shorter fresh)).commit (fun hash stored older => ?_) ok
    exact hash_newer_of_rest rest (shorter fresh) changes changed older stored
  · exact fun later db request refusal _ _ newer _ fresh => (newer (shorter fresh)).refuse

/-- After a committed change of the password, every session of the account is the one that the change
kept, through all its rotations, or was started later; if a password was verified for it, then not against
a hash from before the change. No such hash is ever stored again, and an upgrade of a hash keeps the
password. -/
theorem password_change_ends_older_sessions {earlier later : List Exchange} {change : Exchange}
    {accountID : AccountID} {kept : Option TokenHash}
    (run : DatabaseRun config (earlier ++ change :: later) db)
    (fresh : FreshSalts (earlier ++ change :: later)) (changes : change.ChangesPassword accountID kept) :
    SessionsNewer config (earlier ++ [change]) later accountID kept db ∧
    (∀ hash, db.hasPasswordHash accountID hash → ¬ OlderHash (earlier ++ [change]) accountID hash) ∧
    ∀ exchange ∈ earlier ++ change :: later, ∀ now account currentHash salt,
      exchange.call = .password now (.upgradeHash account currentHash salt) →
      ∀ accountID hash, exchange.after.hasPasswordHash accountID hash →
        ∃ old, exchange.before.hasPasswordHash accountID old ∧ old.password = hash.password := by
  have accepted : change.answer.isOk := by cases changes <;> assumption
  rcases run.committed_or_refused (show change ∈ _ by simp) with
    ⟨reply, -, ok⟩ | ⟨refusal, answered, -⟩
  · refine ⟨sessionsNewer_of_rest run.after_entry fresh changes ok, ?_, ?_⟩
    · exact fun hash stored older => hash_newer_of_rest run.after_entry fresh changes ok older stored
    · intro exchange member now account currentHash salt call accountID hash stored
      rcases run.committed_or_refused member with ⟨reply, -, ok⟩ | ⟨refusal, -, same⟩
      · rw [call] at ok
        rcases hash_of_step ok stored with same | set
        · exact ⟨hash, same, rfl⟩
        · cases set with
          | upgraded current => exact ⟨currentHash, current, rfl⟩
      · exact ⟨hash, same ▸ stored, rfl⟩
  · rw [answered] at accepted
    cases accepted

namespace Example

/-- Alice's hash from her registration. -/
def firstHash : PasswordHash := (registration "alice" "first").passwordHash

/-- A login that verified the first hash. -/
def logsIn (now : Time) (tokenHash : TokenHash) : Request :=
  .session now (.createLoginSession tokenHash alice "alice-phone" firstHash)

/-- Alice changes her password and keeps the session of her phone. -/
def changesPassword : Request :=
  .password 3 (.change alice "alice's token" ⟨"new password", "second salt"⟩)

/-- What is in flight meanwhile: a login that has read the first hash, and the upgrade that it makes. -/
def inFlight : List Request :=
  [logsIn 4 "late token", .password 5 (.upgradeHash alice firstHash "third salt")]

/-- Alice has logged in once. -/
def loggedIn : List Request := friends ++ [logsIn 2 "early token"]

/-- Her change of the password, as it is served. -/
def change : Exchange := serve (Database.step smallConfig) (reached loggedIn) changesPassword

end Example

open Example in
/-- The session of the early login is gone and the login in flight gets none: the only session of Alice is
the kept one. -/
theorem password_change_ends_older_sessions_alice :
    (∃ s ∈ (reached loggedIn).sessions, s.tokenHash = "early token") ∧
      SessionsNewer smallConfig (served loggedIn ++ [change])
        (execHistory (Database.step smallConfig) change.after inFlight) alice (some "alice's token")
        (reached (loggedIn ++ changesPassword :: inFlight)) ∧
      ((reached (loggedIn ++ changesPassword :: inFlight)).sessions.rows.filter (·.accountID = alice)).map
        (·.tokenHash) = ["alice's token"] := by
  have run := served_run (loggedIn ++ changesPassword :: inFlight)
  have fresh : FreshSalts (served (loggedIn ++ changesPassword :: inFlight)) := by decide +kernel
  unfold served at run fresh
  rw [execHistory_append] at run fresh
  have changes : change.ChangesPassword alice (some "alice's token") :=
    .changed serve_call (by decide +kernel)
  exact ⟨by decide +kernel, (password_change_ends_older_sessions run fresh changes).1, by decide +kernel⟩

end Veritra.Storage
