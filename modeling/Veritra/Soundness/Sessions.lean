import Veritra.Machine.Fresh
import Veritra.Proofs.Storage.SessionMoves
import Veritra.Soundness.KeyPackages

/-! # Session tokens over whole runs

A rotation replaces the current token of a session and keeps the replaced one for a short grace. Over a
run with fresh tokens no token belongs to two sessions, a replaced token never becomes current again and
keeps the end of its grace, and a token that left the table never comes back.
-/

namespace Veritra.Storage

open Relational Machine Database

variable {tokenHash : TokenHash} {now : Time} {exchange : Exchange}

/-- Some session has the token, as its current or as its previous one. -/
def Database.Knows (db : Database) (tokenHash : TokenHash) : Prop :=
  ∃ s ∈ db.sessions, s.Holds tokenHash
  deriving Decidable

/-- The token that the request put a session under. -/
def Exchange.issued (exchange : Exchange) : List TokenHash :=
  match exchange.answer with
  | .ok reply => (exchange.before.issuedToken exchange.call reply).toList
  | .error _ => []

/-- Every issued token is new: no session had it up to then. -/
abbrev FreshTokens (history : List Exchange) : Prop := Fresh Exchange.issued Database.Knows history

variable {config : Config} {history : List Exchange} {db next : Database} {request : Request}
  {reply : Reply} {ends : Option Time → Prop}

theorem sessionLifetime_le (config : Config) (now : Time) (requested : Option Time) :
    (config.sessionLifetime now requested).1 ≤ (config.sessionLifetime now requested).2 := by
  have bound := Nat.add_le_add_left config.sessions.idle_le_absolute now
  cases requested with
  | none => exact bound
  | some time => exact (Nat.min_le_right _ _).trans bound

theorem Database.SessionStart.no_previous {verified : Option PasswordHash} {session : Session}
    (start : SessionStart config db request verified session) :
    session.previousTokenHash = none ∧ session.expiresAt ≤ session.absoluteExpiresAt := by
  cases start <;> refine ⟨rfl, ?_⟩
  all_goals first | exact sessionLifetime_le config _ none | exact sessionLifetime_le config _ _

/-- No session outlives its absolute expiry. -/
def ExpiryBounded (db : Database) : Prop := ∀ s ∈ db.sessions, s.expiresAt ≤ s.absoluteExpiresAt

theorem ExpiryBounded.step (bounded : ExpiryBounded db)
    (move : Database.SessionMove config db request reply next) : ExpiryBounded next := by
  intro s mem
  cases move with
  | kept _ continued =>
    obtain ⟨old, known, continues⟩ := continued s mem
    rcases continues.expiry with same | clamped
    · rw [same, continues.absolute]
      exact bounded old known
    · exact clamped
  | rotated _ _ _ _ _ others =>
    rcases (others s).mp mem with ⟨known, -⟩ | rfl
    · exact bounded s known
    · exact sessionLifetime_le config _ none
  | started start _ continued inserted =>
    rcases (Table.mem_of_insert? inserted s).mp mem with known | rfl
    · exact bounded s (continued s known)
    · exact start.no_previous.2

/-- The token is not a current one, and the sessions that have it as their previous one keep it up to an
end that meets the condition. -/
def Retired (tokenHash : TokenHash) (ends : Option Time → Prop) (db : Database) : Prop :=
  ∀ s ∈ db.sessions, s.tokenHash ≠ tokenHash ∧ (s.previousTokenHash = some tokenHash → ends s.previousExpiresAt)

theorem Retired.step (retired : Retired tokenHash ends db)
    (unissued : db.issuedToken request reply ≠ some tokenHash)
    (move : Database.SessionMove config db request reply next) : Retired tokenHash ends next := by
  intro s mem
  cases move with
  | kept _ continued =>
    obtain ⟨old, known, continues⟩ := continued s mem
    refine ⟨continues.token ▸ (retired old known).1, fun previous => ?_⟩
    rcases continues.previous with ⟨same, sameEnd⟩ | ⟨dropped, -⟩
    · rw [sameEnd]
      exact (retired old known).2 (same ▸ previous)
    · rw [dropped] at previous
      cases previous
  | @rotated now presented new old call known _ _ _ others =>
    rcases (others s).mp mem with ⟨kept, -⟩ | rfl
    · exact retired s kept
    · subst call
      refine ⟨fun same => unissued (congrArg some same), fun previous => ?_⟩
      simp only [Session.rotate] at previous ⊢
      split at previous
      · exact absurd (Option.some.inj previous) (retired old known).1
      · next notCurrent =>
        rw [if_neg notCurrent]
        exact (retired old known).2 previous
  | started start issued continued inserted =>
    rcases (Table.mem_of_insert? inserted s).mp mem with known | rfl
    · exact retired s (continued s known)
    · refine ⟨fun same => unissued (same ▸ issued), fun previous => ?_⟩
      rw [start.no_previous.1] at previous
      cases previous

/-- No token belongs to two sessions, and the previous token of a session is not its current one. -/
structure TokensDistinct (db : Database) : Prop where
  apart : ∀ s ∈ db.sessions, ∀ s' ∈ db.sessions, ∀ tokenHash, s.Holds tokenHash → s'.Holds tokenHash → s = s'
  replaced : ∀ s ∈ db.sessions, s.previousTokenHash ≠ some s.tokenHash

theorem Session.Continues.holds {before after : Session} (continues : before.Continues after)
    (holds : after.Holds tokenHash) : before.Holds tokenHash := by
  rcases holds with current | previous
  · exact .inl (continues.token ▸ current)
  · rcases continues.previous with ⟨same, -⟩ | ⟨dropped, -⟩
    · exact .inr (same ▸ previous)
    · rw [dropped] at previous
      cases previous

/-- The previous token of a rotated session is one that the session had. -/
theorem Session.holds_of_rotate {session : Session} {presentedTokenHash newTokenHash : TokenHash}
    (previous : (session.rotate config now presentedTokenHash newTokenHash).previousTokenHash =
      some tokenHash) : session.Holds tokenHash := by
  simp only [Session.rotate] at previous
  split at previous
  · exact .inl (Option.some.inj previous)
  · exact .inr previous

/-- One session under tokens that the others do not have. -/
theorem TokensDistinct.of_one (distinct : TokensDistinct db) {session : Session}
    (members : ∀ s ∈ next.sessions, s = session ∨
      s ∈ db.sessions ∧ ∀ tokenHash, s.Holds tokenHash → ¬ session.Holds tokenHash)
    (own : session.previousTokenHash ≠ some session.tokenHash) : TokensDistinct next := by
  constructor
  · intro s mem s' member' tokenHash holds holds'
    rcases members s mem with rfl | ⟨known, others⟩ <;>
      rcases members s' member' with rfl | ⟨known', others'⟩
    · rfl
    · exact absurd holds (others' tokenHash holds')
    · exact absurd holds' (others tokenHash holds)
    · exact distinct.apart s known s' known' tokenHash holds holds'
  · intro s mem
    rcases members s mem with rfl | ⟨known, -⟩
    · exact own
    · exact distinct.replaced s known

theorem TokensDistinct.step (distinct : TokensDistinct db)
    (unknown : ∀ tokenHash ∈ db.issuedToken request reply, ¬ db.Knows tokenHash)
    (move : Database.SessionMove config db request reply next) : TokensDistinct next := by
  cases move with
  | kept _ continued =>
    constructor
    · intro s mem s' member' tokenHash holds holds'
      obtain ⟨old, known, continues⟩ := continued s mem
      obtain ⟨old', known', continues'⟩ := continued s' member'
      have same := distinct.apart old known old' known' tokenHash (continues.holds holds)
        (continues'.holds holds')
      refine Table.eq_of_key mem member' ?_
      rw [continues.token, continues'.token, same]
    · intro s mem
      obtain ⟨old, known, continues⟩ := continued s mem
      rw [continues.token]
      rcases continues.previous with ⟨same, -⟩ | ⟨dropped, -⟩
      · rw [same]
        exact distinct.replaced old known
      · rw [dropped]
        nofun
  | @rotated now presented new old call known _ _ _ others =>
    subst call
    have fresh : ¬ db.Knows new := unknown new rfl
    have members : ∀ s ∈ next.sessions, s = old.rotate config now presented new ∨ s ∈ db.sessions ∧
        ∀ tokenHash, s.Holds tokenHash → ¬ (old.rotate config now presented new).Holds tokenHash := by
      intro s mem
      rcases (others s).mp mem with ⟨kept, other⟩ | rfl
      · refine .inr ⟨kept, fun tokenHash holds rotated => ?_⟩
        rcases rotated with rfl | previous
        · exact fresh ⟨s, kept, holds⟩
        · have same := distinct.apart s kept old known tokenHash holds (Session.holds_of_rotate previous)
          exact other (congrArg _ same)
      · exact .inl rfl
    apply distinct.of_one members
    exact fun previous => fresh ⟨old, known, Session.holds_of_rotate previous⟩
  | started start issued continued inserted =>
    have fresh := unknown _ issued
    apply distinct.of_one
    · intro s mem
      rcases (Table.mem_of_insert? inserted s).mp mem with kept | rfl
      · refine .inr ⟨continued s kept, fun tokenHash holds new => ?_⟩
        rcases new with rfl | previous
        · exact fresh ⟨s, continued s kept, holds⟩
        · rw [start.no_previous.1] at previous
          cases previous
      · exact .inl rfl
    · rw [start.no_previous.1]
      nofun

variable (run : DatabaseRun config history db)

include run in
theorem expiryBounded_of_run : ExpiryBounded db :=
  run.preserves ExpiryBounded nofun fun _ _ _ _ _ bounded ok =>
    bounded.step (Database.sessionMove_of_step ok)

include run in
theorem tokensDistinct_of_run (fresh : FreshTokens history) : TokensDistinct db := by
  refine run.preserves_history (fun history db => FreshTokens history → TokensDistinct db) ?_ ?_ ?_ fresh
  · exact fun _ => ⟨nofun, nofun⟩
  · intro history db request reply next _ _ distinct ok fresh
    refine (distinct fresh.earlier).step (fun tokenHash issued => ?_) (Database.sessionMove_of_step ok)
    exact fresh.last tokenHash (Option.mem_toList.mpr issued)
  · exact fun history db request refusal _ _ distinct _ fresh => distinct fresh.earlier

/-- The token that a committed exchange issued is unknown before it. -/
theorem unknown_of_issued (fresh : FreshTokens history) (mem : exchange ∈ history)
    (answered : exchange.answer = .ok reply) :
    ∀ tokenHash ∈ exchange.before.issuedToken exchange.call reply, ¬ exchange.before.Knows tokenHash := by
  intro tokenHash issued
  apply fresh.own exchange mem
  simp only [Exchange.issued, answered]
  exact Option.mem_toList.mpr issued

section

variable (run : DatabaseRun config history db) (fresh : FreshTokens history) (mem : exchange ∈ history)

include run fresh mem

theorem distinct_before : TokensDistinct exchange.before := by
  obtain ⟨earlier, later, rfl⟩ := List.append_of_mem mem
  exact tokensDistinct_of_run run.at_entry.1 fresh.earlier

/-- A known token that is retired after an exchange stays so to the end. -/
theorem retired_of_run
    (known : exchange.before.Knows tokenHash) (retired : Retired tokenHash ends exchange.after) :
    Retired tokenHash ends db := by
  obtain ⟨earlier, later, rfl⟩ := List.append_of_mem mem
  refine run.after_entry.preserves_where (Retired tokenHash ends) (fresh.unbrought known) retired
    fun _ _ retired ok unbrought => ?_
  refine retired.step (fun issued => unbrought ?_) (Database.sessionMove_of_step ok)
  exact Option.mem_toList.mpr issued

end

theorem sessionPrincipal_ok {principal : Principal}
    (resolved : sessionPrincipal config db tokenHash now = .ok principal) :
    ∃ s ∈ db.sessions, db.sessionValidity config s now ∧
      (s.tokenHash = tokenHash ∧ principal = db.principal s false ∨
        s.previousTokenHash = some tokenHash ∧ s.inGrace now ∧ principal = db.principal s true) := by
  unfold sessionPrincipal at resolved
  split at resolved
  · next s found =>
    cases resolved
    have selected := List.find?_some found
    rw [decide_eq_true_eq] at selected
    exact ⟨s, List.mem_of_find?_eq_some found, selected.2, .inl ⟨selected.1, rfl⟩⟩
  · split at resolved
    · next s found =>
      cases resolved
      have selected := List.find?_some found
      rw [decide_eq_true_eq] at selected
      exact ⟨s, List.mem_of_find?_eq_some found, selected.2.2, .inr ⟨selected.1, selected.2.1, rfl⟩⟩
    · cases resolved

theorem Retired.unauthorized (gone : Retired tokenHash (fun _ => False) db) (now : Time) :
    sessionPrincipal config db tokenHash now = .error .unauthorized := by
  cases outcome : sessionPrincipal config db tokenHash now with
  | ok principal =>
    obtain ⟨s, mem, -, ⟨current, -⟩ | ⟨previous, -⟩⟩ := sessionPrincipal_ok outcome
    · exact absurd current (gone s mem).1
    · exact ((gone s mem).2 previous).elim
  | error refusal =>
    unfold sessionPrincipal at outcome
    split at outcome
    · cases outcome
    · split at outcome <;> cases outcome
      rfl

/-- The bearer token that a request presents. -/
def Request.presents : Request → Option TokenHash
  | session _ (.deleteSession tokenHash) | session _ (.deleteAccountSessionsExcept _ tokenHash)
  | session _ (.touchSession tokenHash) | session _ (.markSessionRecentlyAuthenticated tokenHash)
  | session _ (.rotateSession tokenHash _) | password _ (.change _ tokenHash _) => some tokenHash
  | _ => none

/-- The tokens of a run: what they resolve to, and what became of replaced and removed ones. -/
structure TokensSound (config : Config) (history : List Exchange) (db : Database) : Prop where
  /-- A token that resolves belongs to one session, as its current token or, inside the grace, as the one
  that was rotated out. -/
  resolved : ∀ tokenHash now principal, sessionPrincipal config db tokenHash now = .ok principal →
    ∃ s ∈ db.sessions, s.answersTo tokenHash now ∧ ∀ s' ∈ db.sessions, s'.Holds tokenHash → s' = s
  bounded : ∀ s ∈ db.sessions, s.expiresAt ≤ s.absoluteExpiresAt
  /-- The token that a rotation replaced resolves only before the end of the grace, and then neither
  counts as recently authenticated nor makes a touch due. -/
  replaced : ∀ exchange ∈ history, ∀ now presented new,
    exchange.call = .session now (.rotateSession presented new) → exchange.answer.isOk →
    ∀ s ∈ exchange.before.sessions, s.answersTo presented now →
    ∀ later principal, sessionPrincipal config db s.tokenHash later = .ok principal →
      later < now + sessionRotationGrace ∧ principal.expiresAt ≤ now + sessionRotationGrace ∧
        ¬ principal.recentlyAuthenticated later ∧ ¬ principal.sessionTouchDue later
  /-- Every rotation, also a retried one that presents the rotated-out token, restarts the idle and the absolute
  lifetime of its session. -/
  restarted : ∀ exchange ∈ history, ∀ now presented new,
    exchange.call = .session now (.rotateSession presented new) → exchange.answer.isOk →
    ∃ s ∈ exchange.before.sessions, s.answersTo presented now ∧
      ∃ s' ∈ exchange.after.sessions, s'.tokenHash = new ∧
        s'.accountID = s.accountID ∧ s'.deviceID = s.deviceID ∧
        s'.expiresAt = now + config.sessions.idle ∧ s'.absoluteExpiresAt = now + config.sessions.absolute
  /-- A request that presents a rotated-out token changes no session, unless it rotates again. -/
  used : ∀ exchange ∈ history, ∀ s ∈ exchange.before.sessions, ∀ tokenHash,
    s.previousTokenHash = some tokenHash → exchange.call.presents = some tokenHash →
    exchange.call.rotatesTo = none → ∀ s' ∈ exchange.after.sessions, s' ∈ exchange.before.sessions
  /-- The grace of a rotated-out token is never extended, also not by a rotation that presents it. -/
  grace : ∀ exchange ∈ history, ∀ s ∈ exchange.before.sessions, ∀ tokenHash,
    s.previousTokenHash = some tokenHash → ∀ s' ∈ db.sessions, s'.previousTokenHash = some tokenHash →
      s'.previousExpiresAt = s.previousExpiresAt
  /-- Once a session is logged out, neither of its tokens resolves. -/
  loggedOut : ∀ exchange ∈ history, ∀ now tokenHash,
    exchange.call = .session now (.deleteSession tokenHash) →
    ∀ s ∈ exchange.before.sessions, s.answersTo tokenHash now →
    ∀ held, s.Holds held → ∀ later, sessionPrincipal config db held later = .error .unauthorized
  /-- Once a session is removed in another way, neither of its tokens resolves. -/
  removed : ∀ exchange ∈ history, exchange.call.rotatesTo = none →
    ∀ s ∈ exchange.before.sessions, (∀ s' ∈ exchange.after.sessions, s'.tokenHash ≠ s.tokenHash) →
    ∀ held, s.Holds held → ∀ later, sessionPrincipal config db held later = .error .unauthorized

section Fields

variable {s : Session} {held presented new : TokenHash} {exchange : Exchange}

include run in
theorem resolved_of_run (fresh : FreshTokens history)
    {principal : Principal} (resolved : sessionPrincipal config db tokenHash now = .ok principal) :
    ∃ s ∈ db.sessions, s.answersTo tokenHash now ∧ ∀ s' ∈ db.sessions, s'.Holds tokenHash → s' = s := by
  have distinct := tokensDistinct_of_run run fresh
  obtain ⟨s, mem, -, ⟨current, -⟩ | ⟨previous, grace, -⟩⟩ := sessionPrincipal_ok resolved
  · exact ⟨s, mem, .inl current, fun s' known holds =>
      distinct.apart s' known s mem tokenHash holds (.inl current)⟩
  · exact ⟨s, mem, .inr ⟨previous, grace⟩, fun s' known holds =>
      distinct.apart s' known s mem tokenHash holds (.inr previous)⟩

/-- A session that is gone after a request that rotates none takes both its tokens with it. -/
theorem retired_of_removed (distinct : TokensDistinct db)
    (unknown : ∀ tokenHash ∈ db.issuedToken request reply, ¬ db.Knows tokenHash)
    (move : Database.SessionMove config db request reply next) (unrotated : request.rotatesTo = none)
    (mem : s ∈ db.sessions) (gone : ∀ s' ∈ next.sessions, s'.tokenHash ≠ s.tokenHash)
    (holds : s.Holds held) : Retired held (fun _ => False) next := by
  suffices ∀ s' ∈ next.sessions, ¬ s'.Holds held from
    fun s' left => ⟨fun current => this s' left (.inl current), fun previous => this s' left (.inr previous)⟩
  intro s' left holds'
  cases move with
  | kept _ continued =>
    obtain ⟨old, known, continues⟩ := continued s' left
    have same := distinct.apart old known s mem held (continues.holds holds') holds
    exact gone s' left (same ▸ continues.token)
  | rotated call =>
    subst call
    cases unrotated
  | started start issued continued inserted =>
    rcases (Table.mem_of_insert? inserted s').mp left with known | rfl
    · have same := distinct.apart s' (continued s' known) s mem held holds' holds
      exact gone s' left (same ▸ rfl)
    · rcases holds' with current | previous
      · exact unknown _ issued ⟨s, mem, current ▸ holds⟩
      · rw [start.no_previous.1] at previous
        cases previous

section

variable (run : DatabaseRun config history db) (fresh : FreshTokens history) (mem : exchange ∈ history)

include run fresh mem

theorem removed_of_run (unrotated : exchange.call.rotatesTo = none) (known : s ∈ exchange.before.sessions)
    (gone : ∀ s' ∈ exchange.after.sessions, s'.tokenHash ≠ s.tokenHash) (holds : s.Holds held)
    (later : Time) : sessionPrincipal config db held later = .error .unauthorized := by
  rcases run.committed_or_refused mem with ⟨reply, answered, ok⟩ | ⟨refusal, -, same⟩
  · have retired := retired_of_removed (distinct_before run fresh mem)
      (unknown_of_issued fresh mem answered) (Database.sessionMove_of_step ok) unrotated known gone holds
    exact (retired_of_run run fresh mem ⟨s, known, holds⟩ retired).unauthorized later
  · exact absurd rfl (gone s (same ▸ known))

theorem loggedOut_of_run (call : exchange.call = .session now (.deleteSession tokenHash))
    (known : s ∈ exchange.before.sessions) (answers : s.answersTo tokenHash now)
    (holds : s.Holds held) (later : Time) :
    sessionPrincipal config db held later = .error .unauthorized := by
  refine removed_of_run run fresh mem (by rw [call]; rfl) known (fun s' left same => ?_) holds later
  obtain ⟨_, -, -, served⟩ := run.reaches_before mem
  rw [call] at served
  rw [served] at left
  obtain ⟨kept, spared⟩ := Table.mem_delete.mp left
  exact spared (Table.eq_of_key kept known same ▸ answers)

end

theorem Session.answersTo.holds (answers : s.answersTo tokenHash now) : s.Holds tokenHash :=
  answers.imp id And.left

/-- A committed rotation retires the current token of the session that it rotates, up to the end of the
grace. -/
theorem retired_of_rotation (distinct : TokensDistinct db) {sessions : Sessions}
    (ok : rotateSession config db now presented new = .ok sessions) (unknown : ¬ db.Knows new)
    (known : s ∈ db.sessions) (answers : s.answersTo presented now) :
    Retired s.tokenHash (· = some (now + sessionRotationGrace)) { db with sessions } := by
  obtain ⟨old, mem, presents, -, -, others⟩ := rotateSession_ok ok
  cases distinct.apart s known old mem presented answers.holds presents.holds
  intro s' left
  rcases (others s').mp left with ⟨kept, other⟩ | rfl
  · refine ⟨other, fun previous => ?_⟩
    exact absurd (congrArg _ (distinct.apart s' kept s known _ (.inr previous) (.inl rfl))) other
  · refine ⟨fun same => unknown ⟨s, known, .inl same.symm⟩, fun previous => ?_⟩
    simp only [Session.rotate] at previous ⊢
    split at previous
    · next current => rw [if_pos current]
    · exact absurd previous (distinct.replaced s known)

/-- What a token resolves to that is retired up to a given end. -/
theorem Retired.principal {graceEnd : Time} (retired : Retired tokenHash (· = some graceEnd) db)
    {later : Time} {principal : Principal}
    (resolved : sessionPrincipal config db tokenHash later = .ok principal) :
    later < graceEnd ∧ principal.expiresAt ≤ graceEnd ∧ ¬ principal.recentlyAuthenticated later ∧
      ¬ principal.sessionTouchDue later := by
  obtain ⟨s, mem, -, ⟨current, -⟩ | ⟨previous, ⟨time, kept, early⟩, rfl⟩⟩ := sessionPrincipal_ok resolved
  · exact absurd current (retired s mem).1
  · have ending : s.previousExpiresAt = some graceEnd := (retired s mem).2 previous
    rw [ending] at kept
    cases kept
    refine ⟨early, ?_, ?_, ?_⟩
    · simp only [Database.principal, ending]
      exact Nat.min_le_left _ _
    · rintro ⟨-, recentAuthAt, recent, -⟩
      cases recent
    · rintro ⟨current, -⟩
      cases current

include run in
/-- An accepted rotation as the store serves it. -/
theorem rotation_of_run (mem : exchange ∈ history)
    (call : exchange.call = .session now (.rotateSession presented new)) (accepted : exchange.answer.isOk) :
    ∃ reply sessions, exchange.answer = .ok reply ∧
      rotateSession config exchange.before now presented new = .ok sessions ∧
      { exchange.before with sessions } = exchange.after := by
  rcases run.committed_or_refused mem with ⟨reply, answered, ok⟩ | ⟨refusal, answered, -⟩
  · rw [call] at ok
    obtain ⟨sessions, rotated, same⟩ := map_eq_ok.mp ok
    exact ⟨reply, sessions, answered, rotated, (Prod.mk.inj same).2⟩
  · rw [answered] at accepted
    cases accepted

include run in
theorem restarted_of_run (mem : exchange ∈ history)
    (call : exchange.call = .session now (.rotateSession presented new)) (accepted : exchange.answer.isOk) :
    ∃ s ∈ exchange.before.sessions, s.answersTo presented now ∧
      s.rotate config now presented new ∈ exchange.after.sessions := by
  obtain ⟨_, sessions, -, rotated, after⟩ := rotation_of_run run mem call accepted
  obtain ⟨old, known, answers, -, -, others⟩ := rotateSession_ok rotated
  refine ⟨old, known, answers, ?_⟩
  rw [← after]
  exact (others _).mpr (.inr rfl)

include run in
theorem replaced_of_run (fresh : FreshTokens history) (mem : exchange ∈ history)
    (call : exchange.call = .session now (.rotateSession presented new))
    (accepted : exchange.answer.isOk) (known : s ∈ exchange.before.sessions)
    (answers : s.answersTo presented now) :
    Retired s.tokenHash (· = some (now + sessionRotationGrace)) db := by
  obtain ⟨reply, sessions, answered, rotated, after⟩ := rotation_of_run run mem call accepted
  have unknown := unknown_of_issued fresh mem answered
  rw [call] at unknown
  refine retired_of_run run fresh mem ⟨s, known, .inl rfl⟩ ?_
  rw [← after]
  exact retired_of_rotation (distinct_before run fresh mem) rotated (unknown new rfl) known answers

/-- A rotated-out token is not a current one, and one session has it. -/
theorem TokensDistinct.retired (distinct : TokensDistinct db) (known : s ∈ db.sessions)
    (previous : s.previousTokenHash = some tokenHash) :
    Retired tokenHash (· = s.previousExpiresAt) db := by
  intro s' mem
  refine ⟨fun current => ?_, fun previous' => ?_⟩
  · cases distinct.apart s' mem s known tokenHash (.inl current) (.inr previous)
    exact distinct.replaced s known (current ▸ previous)
  · rw [distinct.apart s' mem s known tokenHash (.inr previous') (.inr previous)]

include run in
theorem grace_of_run (fresh : FreshTokens history)
    (mem : exchange ∈ history) (known : s ∈ exchange.before.sessions)
    (previous : s.previousTokenHash = some tokenHash) :
    Retired tokenHash (· = s.previousExpiresAt) db := by
  have retired := (distinct_before run fresh mem).retired known previous
  refine retired_of_run run fresh mem ⟨s, known, .inr previous⟩ ?_
  rcases run.committed_or_refused mem with ⟨reply, answered, ok⟩ | ⟨refusal, -, same⟩
  · refine retired.step (fun issued => ?_) (Database.sessionMove_of_step ok)
    exact unknown_of_issued fresh mem answered tokenHash issued ⟨s, known, .inr previous⟩
  · rwa [same]

/-- A request that presents a token which is not current, and does not rotate, changes no session. -/
theorem mem_of_presents (absent : ∀ s ∈ db.sessions, s.tokenHash ≠ tokenHash)
    (presents : request.presents = some tokenHash) (unrotated : request.rotatesTo = none)
    (ok : Database.step config db request = .ok (reply, next)) (left : s ∈ next.sessions) :
    s ∈ db.sessions := by
  unfold Request.presents at presents
  split at presents
  all_goals cases presents
  · cases ok
    exact (Table.mem_delete.mp left).1
  · cases ok
    change s ∈ db.deleteAccountSessionsExcept _ _ at left
    rcases Table.mem_update.mp left with ⟨kept, -⟩ | ⟨old, kept, selected, -⟩
    · exact (Table.mem_delete.mp kept).1
    · exact absurd selected.2 (absent old (Table.mem_delete.mp kept).1)
  · obtain ⟨_, ran, -⟩ := map_eq_ok.mp ok
    obtain ⟨⟨s, known, current, -⟩, -⟩ := require_ok.mp ran
    exact absurd current (absent s known)
  · obtain ⟨_, ran, -⟩ := map_eq_ok.mp ok
    obtain ⟨⟨s, known, current, -⟩, -⟩ := require_ok.mp ran
    exact absurd current (absent s known)
  · cases unrotated
  · obtain ⟨_, ran, same⟩ := map_eq_ok.mp ok
    cases same
    obtain ⟨-, events, rfl⟩ := changePassword_ok ran
    change s ∈ db.keptSessions _ _ _ at left
    rcases Table.mem_update.mp left with ⟨kept, -⟩ | ⟨old, kept, selected, -⟩
    · exact (Table.mem_delete.mp kept).1
    · exact absurd selected (absent old (Table.mem_delete.mp kept).1)

include run in
theorem used_of_run (fresh : FreshTokens history)
    (mem : exchange ∈ history) {s' : Session} (known : s ∈ exchange.before.sessions)
    (previous : s.previousTokenHash = some tokenHash)
    (presents : exchange.call.presents = some tokenHash)
    (unrotated : exchange.call.rotatesTo = none) (left : s' ∈ exchange.after.sessions) :
    s' ∈ exchange.before.sessions := by
  have retired := (distinct_before run fresh mem).retired known previous
  rcases run.committed_or_refused mem with ⟨reply, answered, ok⟩ | ⟨refusal, -, same⟩
  · exact mem_of_presents (fun s mem => (retired s mem).1) presents unrotated ok left
  · rwa [same] at left

end Fields

/-- In every run with fresh tokens, the tokens are sound. -/
theorem session_tokens_sound (run : DatabaseRun config history db) (fresh : FreshTokens history) :
    TokensSound config history db where
  resolved := fun _ _ _ resolved => resolved_of_run run fresh resolved
  bounded := expiryBounded_of_run run
  replaced := fun _ member _ _ _ call accepted _ known answers _ _ resolved =>
    (replaced_of_run run fresh member call accepted known answers).principal resolved
  restarted := fun _ member _ _ _ call accepted =>
    have ⟨s, known, answers, left⟩ := restarted_of_run run member call accepted
    ⟨s, known, answers, _, left, rfl, rfl, rfl, rfl, rfl⟩
  used := fun _ member _ known _ previous presents unrotated _ left =>
    used_of_run run fresh member known previous presents unrotated left
  grace := fun _ member _ known _ previous s' left kept =>
    (grace_of_run run fresh member known previous s' left).2 kept
  loggedOut := fun _ member _ _ call _ known answers _ holds later =>
    loggedOut_of_run run fresh member call known answers holds later
  removed := fun _ member unrotated _ known gone _ holds later =>
    removed_of_run run fresh member unrotated known gone holds later

namespace Example

/-- Alice rotates her session on the second day, loses the answer and retries a minute later with the
token that was rotated out. -/
def aliceRotates : List Request :=
  friends ++ [.session day (.rotateSession "alice's token" "second token"),
    .session (day + minute) (.rotateSession "alice's token" "third token")]

end Example

open Example in
/-- The token that Alice's first rotation replaced works up to the end of the grace and not longer. -/
theorem session_tokens_sound_alice :
    (sessionPrincipal smallConfig (reached aliceRotates) "alice's token" (day + minute)).isOk ∧
      ∀ later principal,
        sessionPrincipal smallConfig (reached aliceRotates) "alice's token" later = .ok principal →
          later < day + sessionRotationGrace := by
  have member : serve (Database.step smallConfig) (reached friends)
      (.session day (.rotateSession "alice's token" "second token")) ∈ served aliceRotates :=
    serve_mem_execHistory _ _ friends _ _
  have sound := session_tokens_sound (served_run aliceRotates) (by decide +kernel)
  obtain ⟨s, known, current⟩ : ∃ s ∈ (reached friends).sessions, s.tokenHash = "alice's token" := by
    decide +kernel
  refine ⟨by decide +kernel, fun later principal resolved => ?_⟩
  have replaced := sound.replaced _ member day _ _ serve_call (by decide +kernel) s
    (by rwa [serve_before]) (.inl current) later principal
  rw [current] at replaced
  exact (replaced resolved).1

open Example in
/-- The retry presents the rotated-out token, and extends the session beyond both of its expiries. -/
theorem session_extended_by_retried_rotation :
    FreshTokens (served aliceRotates) ∧ ClockAdvances (served aliceRotates) ∧
      ∃ exchange ∈ served aliceRotates, exchange.call.presents = some "alice's token" ∧
        ∃ s ∈ exchange.before.sessions, s.previousTokenHash = some "alice's token" ∧
          ∃ s' ∈ exchange.after.sessions, s'.previousTokenHash = some "alice's token" ∧
            s.expiresAt < s'.expiresAt ∧ s.absoluteExpiresAt < s'.absoluteExpiresAt := by
  decide +kernel

end Veritra.Storage
