import Veritra.Proofs.Storage.BackupMoves
import Veritra.Soundness.KeyPackages

/-! # Recovery of a backup

A transfer leases the backup, hands bytes off from an offset up to the recorded one, and reports how far
it came. So the recorded offset only grows, and the bytes below it are covered by what was completed. The
capability is consumed by a transfer that reports all the bytes it was to hand off and ends with the blob.
If no transfer of the backup is to hand off more than the blob has, these are the transfers after which every
byte of it has been completed.
-/

namespace Veritra.Storage

open Relational Machine Database

variable {leaseID : String} {now : Time} {expected : ℤ}

def Exchange.Completes (exchange : Exchange) (id : String) (range : ℤ × ℤ) : Prop :=
  exchange.answer.isOk ∧ exchange.call.range? exchange.before id = some range
  deriving Decidable

def Exchange.MakesBackup (exchange : Exchange) (id : String) : Prop :=
  exchange.answer.isOk ∧ exchange.call.createdBackup? = some id

/-- The bytes were completed since the backup was made. -/
def Completed (history : List Exchange) (id : String) (range : ℤ × ℤ) : Prop :=
  ∃ earlier exchange later, history = earlier ++ exchange :: later ∧ exchange.Completes id range ∧
    ∀ next ∈ later, ¬ next.MakesBackup id

/-- Every byte of the backup before the offset was completed. -/
def Covered (history : List Exchange) (id : String) (offset : ℤ) : Prop :=
  ∀ byte, 0 ≤ byte → byte < offset → ∃ range, Completed history id range ∧ range.1 ≤ byte ∧ byte < range.2

/-- Where the transfer of the backup was to end, and the size of the blob. -/
def Request.aim? (db : Database) (id : String) : Request → Option (ℤ × ℤ)
  | .blob now (.completeRecoveryTransfer leaseID startOffset _ expected) =>
    ((db.leasedBackup? now leaseID startOffset).filter (·.id = id)).map fun b =>
      (startOffset + expected, b.sizeBytes)
  | _ => none

/-- A transfer of the backup was not to hand off more bytes than the blob has from its start on. -/
def Request.fits (db : Database) (id : String) (request : Request) : Prop :=
  ∀ aim ∈ request.aim? db id, aim.1 ≤ aim.2
  deriving Decidable

def Database.lease? (db : Database) (id : String) : Option (Option String × Option Time) :=
  (db.capability? id).map fun c => (c.leaseID, c.leaseExpiresAt)

/-- The accepted request gave the lease on the backup, or a new deadline to it. -/
structure Exchange.Grants (exchange : Exchange) (id leaseID : String) (ends : Time) : Prop where
  accepted : exchange.answer.isOk
  asked : ∃ now, (exchange.call = .blob now (.renewRecoveryTransfer leaseID) ∨
    ∃ tokenHash start, exchange.call = .blob now (.beginRecoveryTransfer leaseID tokenHash start)) ∧
    ends = now + recoveryLeaseLifetime
  given : exchange.after.lease? id = some (some leaseID, some ends)

/-- The accepted request began a transfer of the backup. -/
structure Exchange.Begins (exchange : Exchange) (id leaseID : String) (now : Time) : Prop where
  accepted : exchange.answer.isOk
  asked : ∃ tokenHash start, exchange.call = .blob now (.beginRecoveryTransfer leaseID tokenHash start)
  given : exchange.after.lease? id = some (some leaseID, some (now + recoveryLeaseLifetime))

/-- What a history of requests does to the recovery capabilities. -/
structure RecoversOnce (history : List Exchange) : Prop where
  exclusive : ∀ earlier first middle second later id leaseID other ends now,
    history = earlier ++ first :: (middle ++ second :: later) → first.Grants id leaseID ends →
    second.Begins id other now → other ≠ leaseID →
    (∀ exchange ∈ middle, exchange.after.lease? id = exchange.before.lease? id) → ends ≤ now
  forward : ∀ exchange ∈ history, exchange.call.transfers → ∀ id c, exchange.before.capability? id = some c →
    ∃ c', exchange.after.capability? id = some c' ∧ c.nextOffset ≤ c'.nextOffset ∧
      (c.nextOffset < c'.nextOffset → ∃ start, start ≤ c.nextOffset ∧ exchange.Completes id (start, c'.nextOffset))
  consumed : ∀ earlier exchange later id c c', history = earlier ++ exchange :: later →
    exchange.before.capability? id = some c → c.tokenHash ≠ none →
    exchange.after.capability? id = some c' → c'.tokenHash = none → exchange.call.createdBackup? = none →
    (∃ range, exchange.Completes id range) ∧ Covered (earlier ++ [exchange]) id c.sizeBytes
  /-- A completion decides by its own report whether it consumes the capability. -/
  decided : ∀ exchange ∈ history, ∀ now leaseID start written expected id range,
    exchange.call = .blob now (.completeRecoveryTransfer leaseID start written expected) →
    exchange.Completes id range →
    ∃ c c', exchange.before.capability? id = some c ∧ c.tokenHash ≠ none ∧
      exchange.after.capability? id = some c' ∧
      (c'.tokenHash = none ↔ written = expected ∧ start + written = c.sizeBytes)
  /-- If the transfers of the backup fit, it is consumed once every byte was completed. -/
  exact : ∀ earlier exchange later id range c, history = earlier ++ exchange :: later →
    (∀ transfer ∈ earlier ++ [exchange], transfer.call.fits transfer.before id) →
    exchange.Completes id range → exchange.before.capability? id = some c →
    Covered (earlier ++ [exchange]) id c.sizeBytes →
    ∃ c', exchange.after.capability? id = some c' ∧ c'.tokenHash = none
  spent : ∀ exchange ∈ history, exchange.call.transfers → ∀ id c, exchange.before.capability? id = some c →
    c.tokenHash = none → exchange.after.capability? id = some c

section Ranges

variable {start reached : ℤ} {history : List Exchange} {exchange : Exchange} {id : String} {range : ℤ × ℤ}
  {c : Capability}

theorem completed_concat : Completed (history ++ [exchange]) id range ↔
    exchange.Completes id range ∨ Completed history id range ∧ ¬ exchange.MakesBackup id := by
  constructor
  · rintro ⟨earlier, other, later, whole, completes, unmade⟩
    rcases List.eq_nil_or_concat later with rfl | ⟨rest, last, rfl⟩
    · cases List.singleton_inj.mp (List.append_inj' whole rfl).2
      exact .inl completes
    · rw [List.concat_eq_append, ← List.cons_append, ← List.append_assoc] at whole
      obtain ⟨rfl, same⟩ := List.append_inj' whole rfl
      cases List.singleton_inj.mp same
      rw [List.concat_eq_append] at unmade
      refine .inr ⟨⟨earlier, other, rest, rfl, completes, ?_⟩, unmade _ List.mem_concat_self⟩
      exact fun next mem => unmade next (List.mem_append_left _ mem)
  · rintro (completes | ⟨⟨earlier, other, rest, rfl, completes, unmade⟩, last⟩)
    · exact ⟨history, exchange, [], rfl, completes, fun next mem => absurd mem List.not_mem_nil⟩
    · refine ⟨earlier, other, rest ++ [exchange], by simp, completes, fun next mem => ?_⟩
      rcases List.mem_append.mp mem with kept | same
      · exact unmade next kept
      · cases List.mem_singleton.mp same
        exact last

/-- A request that neither makes the backup nor completes bytes of it. -/
theorem completed_of_leaves (leaves : exchange.call.leavesBackup exchange.before id) :
    Completed (history ++ [exchange]) id range ↔ Completed history id range := by
  rw [completed_concat]
  constructor
  · rintro (⟨-, completes⟩ | ⟨completed, -⟩)
    · cases leaves.1.symm.trans completes
    · exact completed
  · exact fun completed => .inr ⟨completed, fun made => leaves.2 made.2⟩

theorem completed_of_refused (refused : ¬ exchange.answer.isOk) :
    Completed (history ++ [exchange]) id range ↔ Completed history id range := by
  rw [completed_concat]
  constructor
  · rintro (⟨accepted, -⟩ | ⟨completed, -⟩)
    · exact absurd accepted refused
    · exact completed
  · exact fun completed => .inr ⟨completed, fun made => refused made.1⟩

/-- The columns of the capability fit the bytes that were completed. -/
structure Tracked (history : List Exchange) (id : String) (c : Capability) : Prop where
  offset : 0 ≤ c.nextOffset
  unleased : c.tokenHash = none → c.leaseID = none
  covered : c.tokenHash ≠ none → Covered history id c.nextOffset
  bounded : c.tokenHash ≠ none → ∀ range, Completed history id range → range.2 ≤ c.nextOffset

section

variable (tracked : Tracked history id c)
include tracked

theorem Tracked.of_same {history' : List Exchange}
    (same : ∀ range, Completed history' id range ↔ Completed history id range) : Tracked history' id c where
  offset := tracked.offset
  unleased := tracked.unleased
  covered token byte nonneg below := by
    obtain ⟨range, completed, inside⟩ := tracked.covered token byte nonneg below
    exact ⟨range, (same range).mpr completed, inside⟩
  bounded token range completed := tracked.bounded token range ((same range).mp completed)

/-- A lease changes neither the token nor the offset. -/
theorem Tracked.leasedAt (token : c.tokenHash ≠ none) : Tracked history id (c.leasedAt leaseID now) where
  offset := tracked.offset
  unleased none := absurd none token
  covered := tracked.covered
  bounded := tracked.bounded

theorem Tracked.token_of_leased (held : c.leaseID = some leaseID) : c.tokenHash ≠ none := by
  intro none
  cases (tracked.unleased none).symm.trans held

section

variable (token : c.tokenHash ≠ none) (completes : exchange.Completes id (start, reached))
  (within : start ≤ c.nextOffset) (unmade : ¬ exchange.MakesBackup id)

include token completes within unmade

/-- The completed bytes join what was covered. -/
theorem Tracked.covered_after : Covered (history ++ [exchange]) id (max c.nextOffset reached) := by
  intro byte nonneg below
  by_cases old : byte < c.nextOffset
  · obtain ⟨range, completed, inside⟩ := tracked.covered token byte nonneg old
    exact ⟨range, completed_concat.mpr (.inr ⟨completed, unmade⟩), inside⟩
  · have inside : byte < reached := (lt_max_iff.mp below).resolve_left old
    exact ⟨(start, reached), completed_concat.mpr (.inl completes), by omega, inside⟩

theorem Tracked.advanceTo {whole : Bool} :
    Tracked (history ++ [exchange]) id (c.advanceTo reached whole) := by
  refine ⟨tracked.offset.trans (le_max_left _ _), fun _ => rfl, fun _ => ?_, fun _ range completed => ?_⟩
  · exact tracked.covered_after token completes within unmade
  · rcases completed_concat.mp completed with ⟨-, here⟩ | ⟨old, -⟩
    · cases completes.2.symm.trans here
      exact le_max_right _ _
    · exact (tracked.bounded token range old).trans (le_max_left _ _)

end

end

/-- The capability stands, and bytes are left; an empty blob has none from the start. -/
def Capability.short (c : Capability) : Prop :=
  c.tokenHash ≠ none → c.nextOffset < c.sizeBytes ∨ c.sizeBytes = 0

/-- A transfer that fits and does not consume the capability stops before the end. -/
theorem Capability.short.advanceTo (short : c.short) (token : c.tokenHash ≠ none) {written : ℤ}
    (within : start + written ≤ c.sizeBytes) (fits : start + expected ≤ c.sizeBytes)
    (whole : written ≤ expected) : (c.advanceTo (start + written) (written = expected)).short := by
  intro kept
  have unfinished : ¬ (written = expected ∧ start + written = c.sizeBytes) := by
    intro finished
    exact kept (if_pos (by simpa using finished))
  rcases short token with below | empty
  · have stops : start + written < c.sizeBytes := by omega
    exact .inl (max_lt below stops)
  · exact .inr empty

end Ranges

section Runs

variable {range : ℤ × ℤ} {config : Config} {history earlier later : List Exchange} {db next : Database}
  {exchange : Exchange} {id : String} {request : Request} {reply : Reply} {c c' : Capability}

theorem range?_of_created (named : request.createdBackup? = some id) : request.range? db id = none := by
  unfold Request.createdBackup? at named
  split at named
  · rfl
  · cases named

theorem fits_of_range {startOffset bytesWritten : ℤ}
    (completes : Request.range? db id (.blob now (.completeRecoveryTransfer leaseID startOffset
      bytesWritten expected)) = some range) (found : db.capability? id = some c)
    (fits : Request.fits db id (.blob now (.completeRecoveryTransfer leaseID startOffset bytesWritten expected))) :
    startOffset + expected ≤ c.sizeBytes := by
  obtain ⟨b, leased, here⟩ := Option.bind_eq_some_iff.mp completes
  split at here
  · next named =>
    have stored : db.blobs.backups.find? id = some b :=
      Table.find?_eq_some.mpr ⟨List.mem_of_find?_eq_some leased, named⟩
    rw [capability?, stored, Option.map_some] at found
    cases found
    exact fits _ (Option.map_eq_some_iff.mpr ⟨b, Option.filter_eq_some_iff.mpr ⟨leased, decide_eq_true named⟩, rfl⟩)
  · cases here

theorem tracked_of_step (tracked : ∀ c, db.capability? id = some c → Tracked history id c)
    (ok : Database.step config db request = .ok (reply, next))
    (stored : next.capability? id = some c') :
    Tracked (history ++ [⟨db, request, .ok reply, next⟩]) id c' := by
  cases capabilityMove_of_step ok id with
  | kept same leaves =>
    exact (tracked c' (same.symm.trans stored)).of_same fun range => completed_of_leaves leaves
  | created named missing made nonneg =>
    cases made.symm.trans stored
    refine ⟨le_rfl, nofun, fun _ byte nonneg below => absurd nonneg (not_le_of_gt below), fun _ range completed => ?_⟩
    rcases completed_concat.mp completed with ⟨-, completes⟩ | ⟨-, unmade⟩
    · cases (range?_of_created named).symm.trans completes
    · exact absurd ⟨rfl, named⟩ unmade
  | withdrawn found after creates leaves =>
    cases after.symm.trans stored
    exact ⟨le_rfl, fun _ => rfl, fun token => absurd rfl token, fun token => absurd rfl token⟩
  | gone gone other leaves => cases gone.symm.trans stored
  | began found token free within after =>
    cases after.symm.trans stored
    refine ((tracked _ found).leasedAt ?_).of_same fun range => completed_of_leaves ⟨rfl, nofun⟩
    rw [token]
    nofun
  | renewed found held runs after =>
    cases after.symm.trans stored
    have before := tracked _ found
    exact (before.leasedAt (before.token_of_leased held)).of_same fun range => completed_of_leaves ⟨rfl, nofun⟩
  | completed found held runs nonneg within range after =>
    cases after.symm.trans stored
    have before := tracked _ found
    exact before.advanceTo (before.token_of_leased held) ⟨rfl, range⟩ within.1 (by rintro ⟨-, ⟨⟩⟩)

theorem tracked_of_run (run : DatabaseRun config history db) (found : db.capability? id = some c) :
    Tracked history id c := by
  refine run.preserves_history (fun history db => ∀ c, db.capability? id = some c → Tracked history id c)
    ?_ ?_ ?_ c found
  · exact fun c found => nomatch found
  · intro history db request reply next _ _ tracked ok c' stored
    exact tracked_of_step tracked ok stored
  · intro history db request refusal _ _ tracked _ c found
    exact (tracked c found).of_same fun range => completed_of_refused nofun

theorem short_of_step (tracked : ∀ c, db.capability? id = some c → Tracked history id c)
    (short : ∀ c, db.capability? id = some c → c.short) (fits : request.fits db id)
    (ok : Database.step config db request = .ok (reply, next))
    (stored : next.capability? id = some c') : c'.short := by
  cases capabilityMove_of_step ok id with
  | kept same => exact short c' (same.symm.trans stored)
  | created _ _ made nonneg =>
    cases made.symm.trans stored
    exact fun _ => nonneg.lt_or_eq.imp_right Eq.symm
  | withdrawn _ after =>
    cases after.symm.trans stored
    exact fun token => absurd rfl token
  | gone gone => cases gone.symm.trans stored
  | began found _ _ _ after | renewed found _ _ after =>
    cases after.symm.trans stored
    have before := short _ found
    exact before
  | completed found held runs nonneg within range after =>
    cases after.symm.trans stored
    exact (short _ found).advanceTo ((tracked _ found).token_of_leased held) within.2
      (fits_of_range range found fits) nonneg.2.2

theorem short_of_run (run : DatabaseRun config history db)
    (fits : ∀ exchange ∈ history, exchange.call.fits exchange.before id) (found : db.capability? id = some c) :
    c.short := by
  refine run.preserves_where (fun db => ∀ c, db.capability? id = some c → c.short) fits
    (fun c found => nomatch found) ?_ c found
  intro _ db request reply next reached _ short ok fits c' stored
  exact short_of_step (fun _ => tracked_of_run reached) short fits ok stored

/-- Every accepted exchange moved the capability, and a refused one kept it. -/
theorem capability_of_entry (run : DatabaseRun config history db) (mem : exchange ∈ history) (id : String) :
    exchange.answer.isOk ∧ CapabilityMove exchange.before exchange.after id exchange.call ∨
      ¬ exchange.answer.isOk ∧ exchange.after = exchange.before := by
  rcases run.committed_or_refused mem with ⟨reply, answered, ok⟩ | ⟨_, refused, same⟩
  · exact .inl ⟨by rw [answered]; rfl, capabilityMove_of_step ok id⟩
  · exact .inr ⟨by rw [refused]; nofun, same⟩

theorem exclusive_lease {middle : List Exchange} {first second : Exchange} {other : String}
    {ends : Time} (run : DatabaseRun config (earlier ++ first :: (middle ++ second :: later)) db)
    (grants : first.Grants id leaseID ends) (begins : second.Begins id other now)
    (apart : other ≠ leaseID)
    (quiet : ∀ exchange ∈ middle, exchange.after.lease? id = exchange.before.lease? id) :
    ends ≤ now := by
  have before : second.before.lease? id = some (some leaseID, some ends) :=
    (run.reading_between (·.lease? id) quiet).trans grants.given
  obtain ⟨c, found, lease⟩ := Option.map_eq_some_iff.mp before
  obtain ⟨held, deadline⟩ := Prod.mk.inj lease
  obtain ⟨c', stored, given⟩ := Option.map_eq_some_iff.mp begins.given
  obtain ⟨held', -⟩ := Prod.mk.inj given
  have moved : c' ≠ c := by
    rintro rfl
    exact apart (Option.some.inj (held'.symm.trans held))
  obtain ⟨tokenHash, start, asked⟩ := begins.asked
  have mem : second ∈ earlier ++ first :: (middle ++ second :: later) := by simp
  rcases capability_of_entry run mem id with ⟨-, move⟩ | ⟨-, same⟩
  · rw [asked] at move
    cases move with
    | kept same leaves => cases moved (Option.some.inj (stored.symm.trans (same.trans found)))
    | created named => cases named
    | withdrawn found after creates => cases creates
    | gone gone => cases gone.symm.trans stored
    | began found' token free =>
      cases found'.symm.trans found
      rcases free with none | ⟨expiresAt, stands, past⟩
      · cases none.symm.trans held
      · cases deadline.symm.trans stands
        exact past
  · cases moved (Option.some.inj (stored.symm.trans (same ▸ found)))

theorem transfers_of_created (creates : request.createdBackup?.isSome) : ¬ request.transfers := by
  unfold Request.createdBackup? at creates
  split at creates
  · nofun
  · cases creates

theorem forward_of_move (accepted : exchange.answer.isOk)
    (move : CapabilityMove exchange.before exchange.after id exchange.call) (transfers : exchange.call.transfers)
    (found : exchange.before.capability? id = some c) :
    ∃ c', exchange.after.capability? id = some c' ∧ c.nextOffset ≤ c'.nextOffset ∧
      (c.nextOffset < c'.nextOffset → ∃ start, start ≤ c.nextOffset ∧
        exchange.Completes id (start, c'.nextOffset)) := by
  obtain ⟨before, call, answer, after⟩ := exchange
  cases move with
  | kept same => exact ⟨c, same.trans found, le_rfl, fun more => absurd more (lt_irrefl _)⟩
  | created named missing => cases missing.symm.trans found
  | withdrawn _ _ creates => exact absurd transfers (transfers_of_created creates)
  | gone _ other => exact absurd transfers other
  | began found' _ _ _ stored | renewed found' _ _ stored =>
    cases found'.symm.trans found
    exact ⟨_, stored, le_rfl, fun more => absurd more (lt_irrefl _)⟩
  | completed found' held runs nonneg within range stored =>
    cases found'.symm.trans found
    refine ⟨_, stored, le_max_left _ _, fun more => ?_⟩
    have reached : max c.nextOffset _ = _ := max_eq_right (le_of_lt ((lt_max_iff.mp more).resolve_left (lt_irrefl _)))
    exact ⟨_, within.1, accepted, range.trans (by rw [Capability.advanceTo, reached])⟩

theorem Covered.mono {offset less : ℤ} (covered : Covered history id offset) (below : less ≤ offset) :
    Covered history id less :=
  fun byte nonneg inside => covered byte nonneg (inside.trans_le below)

section

variable (move : CapabilityMove exchange.before exchange.after id exchange.call)
  (found : exchange.before.capability? id = some c)
include move found

theorem consumed_of_move (tracked : Tracked history id c) (accepted : exchange.answer.isOk)
    (token : c.tokenHash ≠ none) (stored : exchange.after.capability? id = some c') (spent : c'.tokenHash = none)
    (uncreated : exchange.call.createdBackup? = none) :
    (∃ range, exchange.Completes id range) ∧ Covered (history ++ [exchange]) id c.sizeBytes := by
  obtain ⟨before, call, answer, after⟩ := exchange
  cases move with
  | kept same =>
    cases stored.symm.trans (same.trans found)
    exact absurd spent token
  | created named => cases named.symm.trans uncreated
  | withdrawn _ _ creates =>
    rw [uncreated] at creates
    cases creates
  | gone gone => cases gone.symm.trans stored
  | began found' _ _ _ stored' | renewed found' _ _ stored' =>
    cases found'.symm.trans found
    cases stored'.symm.trans stored
    exact absurd spent token
  | @completed _ _ _ startOffset bytesWritten _ found' held runs nonneg within range stored' =>
    cases found'.symm.trans found
    cases stored'.symm.trans stored
    have completes : Exchange.Completes ⟨before, _, answer, after⟩ id (startOffset, startOffset + bytesWritten) :=
      ⟨accepted, range⟩
    have covered := tracked.covered_after token completes within.1 (fun made => nomatch made.2)
    refine ⟨⟨_, completes⟩, covered.mono ?_⟩
    have finished := Classical.not_not.mp fun unfinished => token ((if_neg unfinished).symm.trans spent)
    exact finished.2.symm.le.trans (le_max_right _ _)

omit found in
/-- A request that completed bytes is a completion under the lease. -/
theorem completion_of_move (ranged : exchange.call.range? exchange.before id = some range) :
    ∃ now leaseID start written expected c,
      exchange.call = .blob now (.completeRecoveryTransfer leaseID start written expected) ∧
      exchange.before.capability? id = some c ∧ c.leaseID = some leaseID ∧
      (0 ≤ start ∧ 0 ≤ written ∧ written ≤ expected) ∧
      exchange.after.capability? id = some (c.advanceTo (start + written) (written = expected)) := by
  obtain ⟨before, call, answer, after⟩ := exchange
  cases move with
  | kept _ leaves | withdrawn _ _ _ leaves | gone _ _ leaves => cases leaves.1.symm.trans ranged
  | created named => cases (range?_of_created named).symm.trans ranged
  | began | renewed => cases ranged
  | completed found held runs nonneg within range stored =>
    exact ⟨_, _, _, _, _, _, rfl, found, held, nonneg, stored⟩

omit found in
theorem decided_of_move {start written : ℤ} (tracked : ∀ c, exchange.before.capability? id = some c →
      Tracked history id c) (completes : exchange.Completes id range)
    (call : exchange.call = .blob now (.completeRecoveryTransfer leaseID start written expected)) :
    ∃ c c', exchange.before.capability? id = some c ∧ c.tokenHash ≠ none ∧
      exchange.after.capability? id = some c' ∧
      (c'.tokenHash = none ↔ written = expected ∧ start + written = c.sizeBytes) := by
  obtain ⟨_, _, _, _, _, c, asked, found, held, -, stored⟩ := completion_of_move move completes.2
  cases call.symm.trans asked
  have token := (tracked c found).token_of_leased held
  refine ⟨c, _, found, token, stored, ?_⟩
  simp [Capability.advanceTo, token]

theorem exact_of_move (tracked : ∀ c', exchange.after.capability? id = some c' →
      Tracked (history ++ [exchange]) id c' ∧ c'.short) (fits : exchange.call.fits exchange.before id)
    (completes : exchange.Completes id range)
    (covered : Covered (history ++ [exchange]) id c.sizeBytes) :
    ∃ c', exchange.after.capability? id = some c' ∧ c'.tokenHash = none := by
  have ranged := completes.2
  obtain ⟨_, _, start, written, expected, _, asked, found', -, nonneg, stored⟩ := completion_of_move move ranged
  cases found'.symm.trans found
  refine ⟨_, stored, Classical.byContradiction fun token => ?_⟩
  obtain ⟨after, short⟩ := tracked _ stored
  rcases short token with below | empty
  · -- The byte at the offset would lie in a completed range, and these end before it.
    obtain ⟨range, completed, -, inside⟩ := covered _ after.offset below
    exact absurd (after.bounded token range completed) (not_le_of_gt inside)
  · rw [asked] at ranged fits
    have bound := fits_of_range ranged found fits
    have none : c.sizeBytes = 0 := empty
    have finished : written = expected ∧ start + written = c.sizeBytes := by omega
    exact token (if_pos (by simpa using finished))

theorem spent_of_move (tracked : Tracked history id c) (transfers : exchange.call.transfers)
    (spent : c.tokenHash = none) : exchange.after.capability? id = some c := by
  obtain ⟨before, call, answer, after⟩ := exchange
  cases move with
  | kept same => exact same.trans found
  | created named missing => cases missing.symm.trans found
  | withdrawn _ _ creates => exact absurd transfers (transfers_of_created creates)
  | gone _ other => exact absurd transfers other
  | began found' token =>
    cases found'.symm.trans found
    cases spent.symm.trans token
  | renewed found' held | completed found' held =>
    cases found'.symm.trans found
    exact absurd spent (tracked.token_of_leased held)

end

/-- In every run a backup has one transfer at a time, its offset grows by completed bytes that join the
earlier ones, and its capability is consumed only when all bytes are completed. If the transfers of the backup
fit, it is consumed then. -/
theorem backups_recover_once (run : DatabaseRun config history db) : RecoversOnce history where
  exclusive earlier first middle second later id leaseID other ends now whole grants begins apart quiet := by
    subst whole
    exact exclusive_lease run grants begins apart quiet
  forward exchange member transfers id c found := by
    rcases capability_of_entry run member id with ⟨accepted, move⟩ | ⟨-, same⟩
    · exact forward_of_move accepted move transfers found
    · exact ⟨c, same ▸ found, le_rfl, fun more => absurd more (lt_irrefl _)⟩
  consumed earlier exchange later id c c' whole found token stored spent uncreated := by
    subst whole
    have tracked := tracked_of_run run.at_entry.1 found
    rcases capability_of_entry run (List.mem_append_right _ List.mem_cons_self) id with ⟨accepted, move⟩ | ⟨-, same⟩
    · exact consumed_of_move move found tracked accepted token stored spent uncreated
    · cases found.symm.trans (same ▸ stored)
      exact absurd spent token
  decided exchange member now leaseID start written expected id range call completes := by
    obtain ⟨earlier, later, rfl⟩ := List.append_of_mem member
    rcases capability_of_entry run member id with ⟨-, move⟩ | ⟨refused, -⟩
    · exact decided_of_move move (fun c found => tracked_of_run run.at_entry.1 found) completes call
    · exact absurd completes.1 refused
  exact earlier exchange later id range c whole fits completes found covered := by
    subst whole
    rcases capability_of_entry run (List.mem_append_right _ List.mem_cons_self) id with ⟨-, move⟩ | ⟨refused, -⟩
    · refine exact_of_move move found (fun c' stored => ?_) (fits exchange List.mem_concat_self) completes covered
      exact ⟨tracked_of_run run.through_entry stored, short_of_run run.through_entry fits stored⟩
    · exact absurd completes.1 refused
  spent exchange member transfers id c found spent := by
    obtain ⟨earlier, later, rfl⟩ := List.append_of_mem member
    have tracked := tracked_of_run run.at_entry.1 found
    rcases capability_of_entry run member id with ⟨-, move⟩ | ⟨-, same⟩
    · exact spent_of_move move found tracked transfers spent
    · exact same ▸ found

end Runs

namespace Example

/-- Alice's backup has ten bytes, and her new phone begins to recover it. -/
def recovering : List Request :=
  [.reserve 0 (.owner "first" alice "alice-phone"),
    .enroll 0 (.createOwner (registration "alice" "first")),
    .blob 1 (.createBackupBlob "backup" alice "alice-phone" "backup-key" "sha" 10 none ⟨"state", some 1⟩
      (List.replicate 32 1)),
    .blob 2 (.beginRecoveryTransfer "lease" (List.replicate 32 1) 0)]

/-- The transfer stops after four bytes. A second one takes the rest, with a renewed lease. -/
def resumes : List Request :=
  [.blob 3 (.completeRecoveryTransfer "lease" 0 4 10),
    .blob 4 (.beginRecoveryTransfer "second" (List.replicate 32 1) 4),
    .blob 5 (.renewRecoveryTransfer "second"),
    .blob 6 (.completeRecoveryTransfer "second" 4 6 6)]

/-- A report of ten bytes out of eleven. -/
def overruns : Request := .blob 3 (.completeRecoveryTransfer "lease" 0 10 11)

end Example

open Example in
/-- The capability is kept at the first report and consumed at the second one. -/
theorem backups_recover_once_alice :
    RecoversOnce (served (recovering ++ resumes)) ∧
    (∀ exchange ∈ served (recovering ++ resumes), exchange.call.fits exchange.before "backup") ∧
    (reached (recovering ++ resumes.take 1)).capability? "backup" =
      some ⟨10, some (List.replicate 32 1), 4, none, none⟩ ∧
    (reached (recovering ++ resumes)).capability? "backup" = some ⟨10, none, 10, none, none⟩ :=
  ⟨backups_recover_once (served_run _), by decide +kernel⟩

open Example in
/-- A transfer that was to hand off eleven bytes of ten, and reports ten, leaves the capability although it
completed every byte. -/
theorem capability_kept_after_overrun :
    Exchange.Completes (serve (Database.step smallConfig) (reached recovering) overruns) "backup" (0, 10) ∧
    (serve (Database.step smallConfig) (reached recovering) overruns).after.capability? "backup" =
      some ⟨10, some (List.replicate 32 1), 10, none, none⟩ := by
  decide +kernel

end Veritra.Storage
