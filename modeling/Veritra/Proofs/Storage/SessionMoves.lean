import Veritra.Proofs.Storage.Outcome

/-! # Where a session comes from

After a committed request every session was there before, perhaps touched, or was rotated by the
request, or was started by it. Nothing else writes a session, and the ways to start one are a login, a
registration, a device link and a recovery.
-/

namespace Veritra.Storage

open Relational Machine

/-- The session has the token, as its current or as its previous one. -/
def Session.Holds (session : Session) (tokenHash : TokenHash) : Prop :=
  session.tokenHash = tokenHash ∨ session.previousTokenHash = some tokenHash
  deriving Decidable

/-- The row is the same session under the same token: a write may drop the previous token, and moves the
expiry only up to the absolute one. -/
structure Session.Continues (before after : Session) : Prop where
  token : after.tokenHash = before.tokenHash
  account : after.accountID = before.accountID
  previous : after.previousTokenHash = before.previousTokenHash ∧
    after.previousExpiresAt = before.previousExpiresAt ∨
    after.previousTokenHash = none ∧ after.previousExpiresAt = none
  absolute : after.absoluteExpiresAt = before.absoluteExpiresAt
  expiry : after.expiresAt = before.expiresAt ∨ after.expiresAt ≤ after.absoluteExpiresAt

theorem Session.Continues.refl (session : Session) : session.Continues session :=
  ⟨rfl, rfl, .inl ⟨rfl, rfl⟩, rfl, .inl rfl⟩

theorem Session.continues_dropPrevious (session : Session) : session.Continues session.dropPrevious :=
  ⟨rfl, rfl, .inr ⟨rfl, rfl⟩, rfl, .inl rfl⟩

theorem Session.continues_touch (session : Session) (policy : SessionPolicy) (now : Time) :
    session.Continues (session.touch policy now) := by
  refine ⟨rfl, rfl, ?_, rfl, .inr ?_⟩
  · simp only [touch]
    split
    · exact .inl ⟨rfl, rfl⟩
    · exact .inr ⟨rfl, rfl⟩
  · simp only [touch]
    split
    · exact le_rfl
    · next early => exact Nat.not_lt.mp early

/-- The new token of a request that rotates a session. -/
def Request.rotatesTo : Request → Option TokenHash
  | session _ (.rotateSession _ newTokenHash) => some newTokenHash
  | _ => none

namespace Database

variable {config : Config} {db : Database} {request : Request} {session : Session}
  {sessions : Sessions} {now : Time} {reply : Reply}

/-- What starts a session, the password hash that was verified for it, and the session. -/
inductive SessionStart (config : Config) (db : Database) : Request → Option PasswordHash → Session → Prop
  | login {now : Time} (current : db.hasPasswordHash accountID verifiedPasswordHash) :
      SessionStart config db (.session now (.createLoginSession tokenHash accountID deviceID
        verifiedPasswordHash)) (some verifiedPasswordHash)
        (config.newSession now tokenHash accountID (trimSpace deviceID) (some now) none)
  | registered {now : Time} {request : EnrollRequest} {reservation : EnrollmentReservation}
      (registers : request = .createOwner input ∨ request = .registerWithInvite input) :
      SessionStart config db (.enroll now request) none (config.newSession now input.sessionHash
        reservation.accountID reservation.deviceID (some now) input.sessionExpiry)
  | legacyLink {now : Time} :
      SessionStart config db (.consumeLegacyLink now accountID deviceID sessionTokenHash sessionExpiresAt)
        none (config.newSession now sessionTokenHash accountID deviceID (some now) sessionExpiresAt)
  | linked {now : Time} {id : LinkID}
      (checked : ClaimChecked db now id requestHash transcriptHash link reservation claim)
      (state : link.state = .approved) :
      SessionStart config db (.completeLink now id claimTokenHash requestHash
        claim.initialSessionTokenHash transcriptHash) none (initialSession config now link reservation claim)
  | recovered {now : Time} {id : String} {request : RecoveryRequest}
      (stored : request ∈ db.recoveries) (state : request.state = .waiting)
      (current : db.hasPasswordHash request.accountID request.verifiedPasswordHash) :
      SessionStart config db (.recovery now (.complete keyPackageID id claimTokenHash sessionTokenHash))
        (some request.verifiedPasswordHash)
        (config.newSession now sessionTokenHash request.accountID request.deviceID none none)

theorem SessionStart.unrotated {verified : Option PasswordHash}
    (start : SessionStart config db request verified session) : request.rotatesTo = none := by
  cases start <;> rfl

/-- A password that was verified for a session is the account's. -/
theorem SessionStart.current {hash : PasswordHash}
    (start : SessionStart config db request (some hash) session) :
    db.hasPasswordHash session.accountID hash := by
  cases start with
  | login current => exact current
  | recovered _ _ current => exact current

/-- The token that a committed request puts a session under. A completion that is repeated finds its
session there, and puts none. -/
def issuedToken (db : Database) : Request → Reply → Option TokenHash
  | .session _ (.createLoginSession tokenHash ..), _ | .session _ (.rotateSession _ tokenHash), _
  | .consumeLegacyLink _ _ _ tokenHash _, _ => some tokenHash
  | .enroll _ (.createOwner input), _ | .enroll _ (.registerWithInvite input), _ =>
    if input.sessionHash = "" then none else some input.sessionHash
  | .completeLink _ _ _ _ tokenHash _, _ =>
    if ∃ s ∈ db.sessions, s.tokenHash = tokenHash then none else some tokenHash
  | .recovery _ (.complete _ _ _ tokenHash), .recovery (.completed _ _ true _) => some tokenHash
  | _, _ => none

/-- Every session of the next table was there before. -/
def SessionsContinue (sessions sessions' : Sessions) : Prop :=
  ∀ session ∈ sessions', ∃ old ∈ sessions, old.Continues session

/-- What a committed request did to the sessions. -/
inductive SessionMove (config : Config) (db : Database) (request : Request) (reply : Reply)
    (next : Database) : Prop
  | kept (unrotated : request.rotatesTo = none) (continued : SessionsContinue db.sessions next.sessions)
  | rotated {now : Time} {presentedTokenHash newTokenHash : TokenHash} {old : Session}
      (call : request = .session now (.rotateSession presentedTokenHash newTokenHash))
      (mem : old ∈ db.sessions) (presented : old.answersTo presentedTokenHash now)
      (live : old.live config.sessions now)
      (only : ∀ other ∈ db.sessions, other.answersTo presentedTokenHash now →
        other.live config.sessions now → other = old)
      (others : ∀ session, session ∈ next.sessions ↔
        session ∈ db.sessions ∧ session.tokenHash ≠ old.tokenHash ∨
          session = old.rotate config now presentedTokenHash newTokenHash)
  | started {verified : Option PasswordHash} {session : Session} {remaining : Sessions}
      (start : SessionStart config db request verified session)
      (issued : db.issuedToken request reply = some session.tokenHash)
      (continued : ∀ other ∈ remaining, other ∈ db.sessions)
      (inserted : remaining.insert? session = some next.sessions)

variable {next : Database} {p : Session → Prop}

theorem SessionsContinue.of_subset {sessions' : Sessions}
    (subset : ∀ session ∈ sessions', session ∈ sessions) : SessionsContinue sessions sessions' :=
  fun session mem => ⟨session, subset session mem, .refl session⟩

theorem SessionsContinue.of_delete (sessions : Sessions) (p : Session → Prop) [DecidablePred p] :
    SessionsContinue sessions (sessions.delete p) :=
  .of_subset fun _ mem => (Table.mem_delete.mp mem).1

section

variable (change : Session → Session) (keeps : ∀ s, (change s).tokenHash = s.tokenHash)

include change keeps

theorem SessionsContinue.of_update [DecidablePred p]
    (continues : ∀ session : Session, session.Continues (change session)) :
    SessionsContinue sessions (sessions.update p change keeps) := by
  intro session mem
  rcases Table.mem_update.mp mem with ⟨kept, -⟩ | ⟨old, kept, -, rfl⟩
  · exact ⟨session, kept, .refl session⟩
  · exact ⟨old, kept, continues old⟩

theorem SessionsContinue.of_delete_update {q : Session → Prop} [DecidablePred p] [DecidablePred q]
    (continues : ∀ session : Session, session.Continues (change session)) :
    SessionsContinue sessions ((sessions.delete q).update p change keeps) := by
  intro session mem
  obtain ⟨old, kept, continued⟩ := SessionsContinue.of_update change keeps continues session mem
  exact ⟨old, (Table.mem_delete.mp kept).1, continued⟩

end

theorem rotateSession_ok {presentedTokenHash newTokenHash : TokenHash}
    (ok : rotateSession config db now presentedTokenHash newTokenHash = .ok sessions) :
    ∃ old ∈ db.sessions, old.answersTo presentedTokenHash now ∧ old.live config.sessions now ∧
      (∀ other ∈ db.sessions, other.answersTo presentedTokenHash now → other.live config.sessions now → other = old) ∧
      ∀ session, session ∈ sessions ↔ session ∈ db.sessions ∧ session.tokenHash ≠ old.tokenHash ∨
          session = old.rotate config now presentedTokenHash newTokenHash := by
  have ok := of_require ok
  split at ok
  · cases ok
  · next old found =>
    have selected : ∀ s, s ∈ db.sessions ∧ s.answersTo presentedTokenHash now ∧
        s.live config.sessions now ↔ s = old := by
      intro s
      rw [← List.mem_singleton, ← found, List.mem_filter, decide_eq_true_eq]
      rfl
    obtain ⟨mem, presented, live⟩ := (selected old).mpr rfl
    split at ok
    · cases ok
    · next after inserted =>
      cases ok
      refine ⟨old, mem, presented, live, ?_, fun session => ?_⟩
      · exact fun other known presented live => (selected other).mp ⟨known, presented, live⟩
      rw [Table.mem_of_insert? inserted, Table.mem_delete]
  · cases ok

theorem sessionMove {request : SessionRequest} (served : sessionStep config db now request = .ok sessions) :
    SessionMove config db (.session now request) .done { db with sessions } := by
  cases request with
  | createLoginSession tokenHash accountID deviceID hash =>
    have ran := of_require served
    obtain ⟨⟨current, -⟩, ran⟩ := require_ok.mp ran
    exact .started (.login current) rfl (fun _ => id) (insertSession_ok ran)
  | deleteSession tokenHash =>
    cases served
    exact .kept rfl (.of_delete _ _)
  | deleteAccountSessionsExcept accountID keepTokenHash =>
    cases served
    exact .kept rfl (.of_delete_update Session.dropPrevious (fun _ => rfl) Session.continues_dropPrevious)
  | touchSession tokenHash =>
    have ran := of_require served
    cases ran
    exact .kept rfl (.of_update (·.touch config.sessions now) (fun _ => rfl)
      (·.continues_touch config.sessions now))
  | markSessionRecentlyAuthenticated tokenHash =>
    have ran := of_require served
    cases ran
    exact .kept rfl (.of_update ({ · with recentAuthAt := some now, lastUsedAt := now }) (fun _ => rfl)
      fun _ => ⟨rfl, rfl, .inl ⟨rfl, rfl⟩, rfl, .inl rfl⟩)
  | rotateSession presentedTokenHash newTokenHash =>
    obtain ⟨old, mem, presented, live, only, others⟩ := rotateSession_ok served
    exact .rotated rfl mem presented live only others

theorem keptSessions_continue (db : Database) (now : Time) (accountID : AccountID)
    (keepTokenHash : TokenHash) :
    SessionsContinue db.sessions (db.keptSessions now accountID keepTokenHash) :=
  .of_delete_update ({ ·.dropPrevious with recentAuthAt := some now }) (fun _ => rfl)
    fun _ => ⟨rfl, rfl, .inr ⟨rfl, rfl⟩, rfl, .inl rfl⟩

theorem Retires.sessionMove (retires : Retires db next) (unrotated : request.rotatesTo = none) :
    SessionMove config db request reply next :=
  .kept unrotated (.of_subset fun _ mem => retires.sessions ▸ mem)

/-- What a committed request did to the sessions. -/
theorem sessionMove_of_step (ok : step config db request = .ok (reply, next)) :
    SessionMove config db request reply next := by
  cases outcome_of_step ok with
  | session served => exact sessionMove served
  | revoked _ _ =>
    refine .kept rfl ?_
    exact .of_delete _ _
  | statusSet _ _ left =>
    subst left
    refine .kept rfl ?_
    split
    · exact .of_delete _ _
    · exact .of_subset fun _ => id
  | deleted | passwordReset => exact .kept rfl (.of_delete _ _)
  | registered registers registered =>
    have session := registered.session
    split at session
    · exact .kept rfl (.of_subset fun _ mem => session ▸ mem)
    · next given =>
      refine .started (.registered registers) ?_ (fun _ => id) session
      rcases registers with rfl | rfl <;> exact if_neg given
  | legacyConsumed started => exact .started .legacyLink rfl (fun _ => id) started
  | approved _ _ _ outcome => cases outcome <;> exact .kept rfl (.of_subset fun _ => id)
  | completed checked _ session _ outcome =>
    cases outcome with
    | completed state _ started =>
      subst session
      refine .started (.linked checked state) (if_neg ?_) (fun _ => id) started
      rintro ⟨other, mem, same⟩
      exact Table.free_of_insert? started other mem same
    | repeated => exact .kept rfl (.of_subset fun _ => id)
  | history served => exact (historyStep_retires served).sessionMove rfl
  | blob served => exact .kept rfl (.of_subset fun _ mem => (blobStep_frame served).sessions ▸ mem)
  | passwordChanged => exact .kept rfl (db.keptSessions_continue _ _ _)
  | recoveryAnswered stored _ _ outcome =>
    cases outcome with
    | completed state _ _ _ password _ recovered =>
      refine .started (.recovered stored state password) rfl (fun _ mem => ?_) recovered.session
      exact (Table.mem_delete.mp mem).1
    | _ => exact .kept rfl (.of_subset fun _ => id)
  | pruned =>
    refine .kept rfl (.of_subset fun _ mem => ?_)
    have kept := (Table.mem_delete.mp mem).1
    rwa [((db.retireStaleHistory_retires _).trans (deleteDeviceLinks_retires _ _)).sessions] at kept
  | _ => exact .kept rfl (.of_subset fun _ => id)

end Database
end Veritra.Storage
