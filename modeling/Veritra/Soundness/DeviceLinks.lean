import Veritra.Soundness.LinkRepeats
import Veritra.Soundness.KeyPackages

/-! # Device links over whole runs

At most one device and one session come out of a link. They have the key material and the ids of the claim
that the approver named, and once the approving device is revoked no unfinished link of it completes.
-/

namespace Veritra.Storage

open Relational Machine Database

variable {now : Time} {accountID : AccountID} {id : LinkID} {hash : ClaimProof} {transcriptHash : Bytes}
  {state : LinkState} {link : DeviceLink} {first second : Exchange} {between : List Exchange}
  {config : Config} {history : List Exchange} {db next : Database} {request : Request} {reply : Reply}

namespace Exchange

/-- The request is a step on the link, whichever. -/
def StepsOn (exchange : Exchange) (id : LinkID) : Prop :=
  ∃ key step, exchange.call.linkStep = some (key, step) ∧ ∃ link ∈ exchange.after.links, link.HasKey key ∧ link.id = id

/-- A step on the link changed the devices. -/
def Enrolls (exchange : Exchange) (id : LinkID) : Prop :=
  exchange.StepsOn id ∧ exchange.after.store.devices ≠ exchange.before.store.devices

/-- A step on the link changed the sessions. -/
def Starts (exchange : Exchange) (id : LinkID) : Prop :=
  exchange.StepsOn id ∧ exchange.after.sessions ≠ exchange.before.sessions

/-- The request is an approval of the claim that the hash names. -/
def Approves (exchange : Exchange) (id : LinkID) (hash : ClaimProof) : Prop :=
  ∃ now keyPackageID accountID sourceDeviceID transcriptHash approvalTag, exchange.call = .approveLink now
    keyPackageID id accountID sourceDeviceID hash transcriptHash approvalTag

/-- A new device signed the claim that the hash names. -/
def SignsClaim (config : Config) (exchange : Exchange) (hash : ClaimProof) : Prop :=
  ∃ now input, exchange.call = .link now (.claim input) ∧ exchange.answer.isOk ∧
    input.unsigned = hash.input ∧ config.verifySignature input.signingKey hash input.challengeSignature

end Exchange

/-- The device row and the key columns that the claim describes. -/
structure DeviceEnrolled (db : Database) (now : Time) (hash : ClaimProof) (next : Database) : Prop where
  devices : ∀ d, d ∈ next.store.devices ↔ d ∈ db.store.devices ∨ d = ⟨hash.deviceID, hash.accountID, now, none⟩
  keys : ∀ k, k ∈ next.accounts.deviceKeys ↔ k ∈ db.accounts.deviceKeys ∨
    k = ⟨hash.deviceID, hash.deviceName, hash.keyPackage, some hash.signingKey, some hash.deviceSecretHash, none⟩
  new : ∀ d ∈ db.store.devices, d.id ≠ hash.deviceID

theorem enrollDevice_devices {s s' : Store} {deviceID : DeviceID} {u : Unit}
    (enrolled : s.enrollDevice now accountID deviceID = .ok (u, s')) :
    s.devices.insert? ⟨deviceID, accountID, now, none⟩ = some s'.devices := by
  have enrolled := of_require enrolled
  split at enrolled
  · next inserted =>
    cases enrolled
    exact inserted
  · cases enrolled

/-- An approval of a claimed link adds exactly the device of the claim. -/
theorem enrolled_of_step (sound : ∀ link ∈ db.links, LinkSound config db link)
    {keyPackageID : String} {sourceDeviceID : DeviceID} {approvalTag : Bytes}
    (ok : Database.step config db (.approveLink now keyPackageID id accountID sourceDeviceID hash
      transcriptHash approvalTag) = .ok (reply, next)) :
    ∃ link ∈ db.links, link.id = id ∧ link.claim.map (·.claimRequestHash) = some hash ∧ hash.linkID = id ∧
      ((link.state = .approved ∨ link.state = .consumed) ∧ next = db ∨
        link.state = .claimed ∧ DeviceEnrolled db now hash next) := by
  cases outcome_of_step ok with
  | @approved _ _ _ link reservation claim _ _ _ _ _ _ _ _ _ checked account source outcome =>
    obtain ⟨reservation', reserved, bound⟩ := sound link checked.member |>.bound claim checked.claimed
    cases checked.reserved.symm.trans reserved
    cases account
    cases checked.hash
    obtain ⟨linkID, accountID, deviceID, deviceName, keyPackage, signingKey, secret, -⟩ := bound.fields
    refine ⟨link, checked.member, checked.id, by rw [checked.claimed]; rfl, linkID.trans checked.id, ?_⟩
    cases outcome with
    | repeated state => exact .inl ⟨state, rfl⟩
    | approved state _ enrolled device =>
      have inserted := enrollDevice_devices enrolled
      refine .inr ⟨state, fun d => ?_, fun k => ?_, fun d mem => ?_⟩
      · rw [deviceID, accountID]
        exact Table.mem_of_insert? inserted d
      · rw [deviceID, deviceName, keyPackage, signingKey, secret]
        exact Table.mem_of_insert? device.keys k
      · rw [deviceID]
        exact Table.free_of_insert? inserted d mem

/-- The session that the claim fixed. -/
structure SessionStarted (config : Config) (db : Database) (now : Time) (hash : ClaimProof)
    (next : Database) : Prop where
  sessions : ∀ s, s ∈ next.sessions ↔ s ∈ db.sessions ∨
    s = config.newSession now hash.initialSessionTokenHash hash.accountID hash.deviceID (some now) none
  new : ∀ s ∈ db.sessions, s.tokenHash ≠ hash.initialSessionTokenHash

/-- What a committed completion found: a consumed link, and then it changed nothing, or an approved one,
whose session it started. -/
theorem started_of_step (sound : ∀ link ∈ db.links, LinkSound config db link)
    {claimTokenHash initialSessionHash : TokenHash}
    (ok : Database.step config db (.completeLink now id claimTokenHash hash initialSessionHash
      transcriptHash) = .ok (reply, next)) :
    ∃ link ∈ db.links, link.id = id ∧ db.store.unrevokedOf link.sourceDeviceID link.accountID ∧
      (∃ claim, link.claim = some claim ∧ claim.claimRequestHash = hash) ∧ link.approval.isSome ∧
      hash.claimTokenHash = claimTokenHash ∧ hash.initialSessionTokenHash = initialSessionHash ∧
      hash.transcriptHash = transcriptHash ∧
      (link.state = .consumed ∧ next = db ∨ link.state = .approved ∧ SessionStarted config db now hash next) := by
  cases outcome_of_step ok with
  | @completed _ _ _ link reservation claim _ _ approval _ _ _ _ checked token session approved outcome =>
    obtain ⟨reservation', reserved, bound⟩ := sound link checked.member |>.bound claim checked.claimed
    cases checked.reserved.symm.trans reserved
    cases checked.hash
    cases checked.transcript
    cases token
    cases session
    obtain ⟨-, accountID, deviceID, -, -, -, -, token, transcript, session⟩ := bound.fields
    refine ⟨link, checked.member, checked.id, checked.visible.2.1, ⟨claim, checked.claimed, rfl⟩,
      by rw [approved]; rfl, token, session, transcript, ?_⟩
    cases outcome with
    | completed state _ started =>
      refine .inr ⟨state, fun s => ?_, fun s mem => ?_⟩
      · rw [session, accountID, deviceID]
        exact Table.mem_of_insert? started s
      · rw [session]
        exact Table.free_of_insert? started s mem
    | repeated state => exact .inl ⟨state, rfl⟩

/-- No device comes out of a link under the id any more. -/
def EnrolledAlready (id : LinkID) (db : Database) : Prop :=
  ∀ link ∈ db.links, link.id = id → link.state ≠ .pending ∧ link.state ≠ .claimed

/-- No session comes out of a link under the id any more. -/
def StartedAlready (id : LinkID) (db : Database) : Prop :=
  ∀ link ∈ db.links, link.id = id → link.state = .consumed ∨ link.state = .revoked

theorem LinkState.Next.unapproved {next : LinkState} (moves : state.Next next)
    (pending : state ≠ .pending) (claimed : state ≠ .claimed) :
    next ≠ .pending ∧ next ≠ .claimed := by
  cases moves with
  | stays => exact ⟨pending, claimed⟩
  | claimed => exact absurd rfl pending
  | approved => exact absurd rfl claimed
  | consumed => exact ⟨nofun, nofun⟩
  | revoked => exact ⟨nofun, nofun⟩

theorem LinkState.Next.final {next : LinkState} (moves : state.Next next)
    (final : state = .consumed ∨ state = .revoked) : next = .consumed ∨ next = .revoked := by
  cases moves with
  | stays => exact final
  | revoked => exact .inr rfl
  | consumed => exact .inl rfl
  | claimed | approved => rcases final with other | other <;> cases other

/-- What every link under the id satisfies stays so while the links move on, or another link appears. -/
theorem created_or_kept {P : LinkState → Prop}
    (stable : ∀ state state', LinkState.Next state state' → P state → P state')
    (ok : Database.step config db request = .ok (reply, next))
    (holds : ∀ link ∈ db.links, link.id = id → P link.state) :
    Exchange.CreatesLink ⟨db, request, .ok reply, next⟩ id ∨ ∀ link ∈ next.links, link.id = id → P link.state := by
  by_cases created : Exchange.CreatesLink ⟨db, request, .ok reply, next⟩ id
  · exact .inl created
  · refine .inr fun link mem same => ?_
    rcases moved_of_row (linkRow_of_step ok mem) with new | ⟨old, known, sameID, moves, -⟩
    · exact absurd ⟨fun old known => same ▸ new.free old known, link, mem, same⟩ created
    · exact stable _ _ moves (holds old known (sameID.trans same))

/-- Only an approval changes the devices. -/
theorem approves_of_enrolls (ok : Database.step config db request = .ok (reply, next))
    (enrolls : Exchange.Enrolls ⟨db, request, .ok reply, next⟩ id) :
    ∃ hash, Exchange.Approves ⟨db, request, .ok reply, next⟩ id hash := by
  obtain ⟨⟨key, step, steps, link, -, keyed, rfl⟩, changed⟩ := enrolls
  cases outcome_of_step ok with
  | link => exact absurd rfl changed
  | approved =>
    cases steps
    exact ⟨_, _, _, _, _, _, _, by rw [show link.id = _ from keyed]⟩
  | completed _ _ _ _ outcome => cases outcome <;> exact absurd rfl changed
  | _ => cases steps

/-- Only a completion changes the sessions. -/
theorem completes_of_starts (ok : Database.step config db request = .ok (reply, next))
    (starts : Exchange.Starts ⟨db, request, .ok reply, next⟩ id) :
    ∃ now claimTokenHash requestHash initialSessionHash transcriptHash,
      request = .completeLink now id claimTokenHash requestHash initialSessionHash transcriptHash := by
  obtain ⟨⟨key, step, steps, link, -, keyed, rfl⟩, changed⟩ := starts
  cases outcome_of_step ok with
  | link => exact absurd rfl changed
  | approved _ _ _ outcome => cases outcome <;> exact absurd rfl changed
  | completed =>
    cases steps
    exact ⟨_, _, _, _, _, by rw [show link.id = _ from keyed]⟩
  | _ => cases steps

theorem devices_spending :
    Spending (Database.step config) Exchange.Enrolls Exchange.CreatesLink EnrolledAlready where
  use := by
    intro db request reply next id ok enrolls
    obtain ⟨hash, _, _, _, _, _, _, rfl⟩ := approves_of_enrolls ok enrolls
    have changed := enrolls.2
    cases outcome_of_step ok with
    | approved checked _ _ outcome =>
      cases outcome with
      | repeated => exact absurd rfl changed
      | approved state =>
        refine ⟨fun already => (already _ checked.member checked.id).2 state, fun link mem named => ?_⟩
        simp only [approvedDatabase, approvedLinks, Table.mem_update] at mem
        rcases mem with ⟨kept, spared⟩ | ⟨old, -, -, rfl⟩
        · cases Table.eq_of_key kept checked.member (named.trans checked.id.symm)
          exact absurd ⟨named, state⟩ spared
        · constructor <;> rintro ⟨⟩
  keep ok already := created_or_kept (P := fun state => state ≠ .pending ∧ state ≠ .claimed)
    (fun _ _ moves unclaimed => moves.unapproved unclaimed.1 unclaimed.2) ok already
  refused := by
    rintro db request refusal id ⟨-, changed⟩
    exact changed rfl

theorem sessions_spending :
    Spending (Database.step config) Exchange.Starts Exchange.CreatesLink StartedAlready where
  use := by
    intro db request reply next id ok starts
    obtain ⟨_, _, _, _, _, rfl⟩ := completes_of_starts ok starts
    have changed := starts.2
    cases outcome_of_step ok with
    | completed checked _ _ _ outcome =>
      cases outcome with
      | repeated => exact absurd rfl changed
      | completed state =>
        refine ⟨fun already => ?_, fun link mem named => ?_⟩
        · rcases already _ checked.member checked.id with other | other <;> cases state.symm.trans other
        · simp only [completedLinks, Table.mem_update] at mem
          rcases mem with ⟨kept, spared⟩ | ⟨old, -, -, rfl⟩
          · cases Table.eq_of_key kept checked.member (named.trans checked.id.symm)
            exact absurd ⟨rfl, state⟩ spared
          · exact .inl rfl
  keep ok already := created_or_kept (P := fun state => state = .consumed ∨ state = .revoked)
    (fun _ _ moves => moves.final) ok already
  refused := by
    rintro db request refusal id ⟨-, changed⟩
    exact changed rfl

theorem signed_of_run (run : DatabaseRun config history db) {claim : LinkClaim} (mem : link ∈ db.links)
    (claimed : link.claim = some claim) :
    ∃ exchange ∈ history, Exchange.SignsClaim config exchange claim.claimRequestHash := by
  refine run.exists_entry (fun db => ∃ link ∈ db.links, ∃ claimed ∈ link.claim,
    claimed.claimRequestHash = claim.claimRequestHash) (fun ⟨link, listed, _⟩ => no_links link listed) ?_
    ⟨link, mem, claim, claimed, rfl⟩
  rintro history db request reply next - ok ⟨link, mem, other, claimed, same⟩
  rw [← same]
  obtain new | ⟨old, known, -, -, -, claims⟩ := moved_of_row (linkRow_of_step ok mem)
  · cases new.blank.2.1.symm.trans claimed
  rcases claims other claimed with claimed | ⟨now, input, reservation, call, -, -, checked⟩
  · exact .inl ⟨old, known, other, claimed, rfl⟩
  · refine .inr ⟨now, input, call, rfl, ?_, checked.signed.2⟩
    exact (proofMessage_ok checked.proof checked.named).1.symm

/-- The approval of a link is one from before the request, or the request approved the claimed link. -/
theorem approval_of_row (row : LinkRow config db request link)
    (shaped : ∀ old ∈ db.links, old.Shaped) (approved : link.approval.isSome) {claim : LinkClaim}
    (claimed : link.claim = some claim) :
    (∃ old ∈ db.links, old.id = link.id ∧ old.approval.isSome ∧ old.claim = some claim) ∨
      ∃ now keyPackageID approvalTag, ∃ old ∈ db.links, old.id = link.id ∧ old.state = .claimed ∧
        request = .approveLink now keyPackageID old.id old.accountID old.sourceDeviceID
          claim.claimRequestHash claim.transcriptHash approvalTag := by
  cases row with
  | kept mem | reserved mem | cancelled mem => exact .inl ⟨_, mem, rfl, approved, claimed⟩
  | created => cases approved
  | claimed signed state =>
    rw [(shaped _ signed.member).unapproved (by simp [state]) (by simp [state])] at approved
    cases approved
  | approved checked state =>
    cases checked.claimed.symm.trans claimed
    exact .inr ⟨_, _, _, _, checked.member, rfl, state, rfl⟩
  | completed checked => exact .inl ⟨_, checked.member, rfl, approved, claimed⟩

theorem approved_of_run (run : DatabaseRun config history db) {claim : LinkClaim} (mem : link ∈ db.links)
    (approved : link.approval.isSome) (claimed : link.claim = some claim) : ∃ exchange ∈ history,
      Exchange.Enrolls exchange link.id ∧ Exchange.Approves exchange link.id claim.claimRequestHash := by
  refine run.exists_entry (fun db => ∃ other ∈ db.links, other.id = link.id ∧ other.approval.isSome ∧
    other.claim = some claim) (fun ⟨link, listed, _⟩ => no_links link listed) ?_ ⟨link, mem, rfl, approved, claimed⟩
  rintro history db request reply next before ok ⟨other, mem, named, approved, claimed⟩
  rcases approval_of_row (linkRow_of_step ok mem) (shaped_of_run before) approved claimed with
    ⟨old, known, same, approved, claimed⟩ | ⟨now, keyPackageID, tag, old, known, same, state, rfl⟩
  · exact .inl ⟨old, known, same.trans named, approved, claimed⟩
  · obtain ⟨other', known', same', -, -, ⟨state', -⟩ | ⟨-, device⟩⟩ :=
      enrolled_of_step (linkSound_of_run before) ok
    · cases Table.eq_of_key known' known same'
      rcases state' with other | other <;> cases state.symm.trans other
    · rw [← named]
      refine .inr ⟨⟨⟨_, _, rfl, other, mem, same.symm, rfl⟩, fun unchanged => ?_⟩, now, keyPackageID,
        old.accountID, old.sourceDeviceID, claim.transcriptHash, tag, by rw [← same]⟩
      have added := (device.devices _).mpr (.inr rfl)
      rw [show next.store.devices = db.store.devices from unchanged] at added
      exact device.new _ added rfl

/-- What the device link protocol guarantees over a run. -/
structure DeviceLinksSound (config : Config) (history : List Exchange) : Prop where
  /-- A link is new and pending, or it moved at most one state on and kept what it had recorded. -/
  moves : ∀ exchange ∈ history, ∀ link ∈ exchange.after.links,
    (∃ old ∈ exchange.before.links, old.Keeps link ∧ old.state.Next link.state) ∨
      LinkCreated config exchange.before exchange.call link
  /-- At most one device comes out of a link. -/
  oneDevice : ∀ first between second id, first :: between ++ [second] <:+: history →
    first.Enrolls id → second.Enrolls id → ∃ exchange ∈ between, exchange.CreatesLink id
  /-- At most one session comes out of a link. -/
  oneSession : ∀ first between second id, first :: between ++ [second] <:+: history → first.Starts id →
    second.Starts id → ∃ exchange ∈ between, exchange.CreatesLink id
  /-- The device is the one of the signed claim that the approver named. -/
  enrolled : ∀ earlier done later id, history = earlier ++ done :: later → done.Enrolls id →
    ∃ hash, done.Approves id hash ∧ hash.linkID = id ∧
      (∃ now, done.call.now = some now ∧ DeviceEnrolled done.before now hash done.after) ∧
      ∃ exchange ∈ earlier, exchange.SignsClaim config hash
  /-- The session is the one of the same claim. -/
  started : ∀ earlier done later id, history = earlier ++ done :: later → done.Starts id →
    ∃ now hash, done.call = .completeLink now id hash.claimTokenHash hash hash.initialSessionTokenHash
        hash.transcriptHash ∧ SessionStarted config done.before now hash done.after ∧
      ∃ exchange ∈ earlier, exchange.Enrolls id ∧ exchange.Approves id hash
  /-- A step on a link that has recorded one of its kind is committed only with the same input. Then it
  changes nothing and has the same result, and it is committed while the link answers. -/
  again : ∀ first between second key key' step step', first :: between ++ [second] <:+: history →
    first.answer.isOk → first.call.linkStep = some (key, step) → second.call.linkStep = some (key', step') →
    step'.kind = step.kind → ∀ link ∈ first.after.links, link.HasKey key →
    ∀ link' ∈ second.before.links, link'.HasKey key' → link'.id = link.id →
    (∀ exchange ∈ between, ¬ exchange.CreatesLink link.id) →
      (∀ later, second.answer = .ok later → step' = step ∧ second.after = second.before ∧
        ∃ reply, first.answer = .ok reply ∧ reply.SameResult later) ∧
      (step' = step → second.before.answersAgain config link' second.call → second.answer.isOk)
  /-- Once the approving device is revoked, no link of it completes. -/
  revoked : ∀ first between second, first :: between ++ [second] <:+: history →
    ∀ d ∈ first.after.store.devices, d.revokedAt ≠ none → ∀ link ∈ second.before.links,
    link.sourceDeviceID = d.id → ∀ now claimTokenHash requestHash initialSessionHash transcriptHash,
    second.call = .completeLink now link.id claimTokenHash requestHash initialSessionHash transcriptHash →
      ¬ second.answer.isOk

section

variable (run : DatabaseRun config history db) (part : first :: between ++ [second] <:+: history)

include run part

/-- A part of a history is a run from the state after its first exchange to the one before its last. -/
theorem run_of_part :
    ∃ earlier, DatabaseRun config earlier first.before ∧ DatabaseRun config (earlier ++ [first]) first.after ∧
      Run (Database.step config) unguarded first.after between second.before ∧
      first ∈ history ∧ second ∈ history := by
  obtain ⟨earlier, later, rfl⟩ := part
  have whole : earlier ++ (first :: between ++ [second]) ++ later =
      (earlier ++ first :: between) ++ second :: later := by simp
  rw [whole] at run
  obtain ⟨before, -, -⟩ := run.at_entry
  exact ⟨earlier, before.at_entry.1, before.through_entry, before.after_entry, by simp, by simp⟩

theorem again_of_run (accepted : first.answer.isOk)
    {key key' : LinkKey} {step step' : LinkStep} (steps : first.call.linkStep = some (key, step))
    (steps' : second.call.linkStep = some (key', step')) (kinds : step'.kind = step.kind)
    {link' : DeviceLink} (mem : link ∈ first.after.links) (keyed : link.HasKey key)
    (member' : link' ∈ second.before.links) (keyed' : link'.HasKey key') (same : link'.id = link.id)
    (uncreated : ∀ exchange ∈ between, ¬ Exchange.CreatesLink exchange link.id) :
    (∀ later, second.answer = .ok later → step' = step ∧ second.after = second.before ∧
      ∃ reply, first.answer = .ok reply ∧ reply.SameResult later) ∧
    (step' = step → second.before.answersAgain config link' second.call → second.answer.isOk) := by
  obtain ⟨earlier, before, after, rest, known, known'⟩ := run_of_part run part
  obtain ⟨reply, answered⟩ := first.exists_answer accepted
  obtain ⟨reply', answered', ok⟩ | ⟨_, refused, -⟩ := run.committed_or_refused known
  swap
  · cases answered.symm.trans refused
  cases answered.symm.trans answered'
  -- the first step is recorded, and the link has kept the record
  obtain ⟨wellFormed, ⟨other, known'', keyed'', recorded, answer⟩, -⟩ :=
    recorded_of_step (codesUnique_of_run before) (shaped_of_run before) ok steps
  cases eq_of_hasKey (codesUnique_of_run after) mem known'' keyed keyed''
  obtain ⟨keeps, signingKey⟩ := keeps_of_rest after rest mem member' same uncreated
  have recorded' : link'.recorded step'.kind = some step := by
    rw [kinds]
    exact recorded_kept keeps recorded
  have reached := after.trans rest
  have unique := codesUnique_of_run reached
  have shaped := shaped_of_run reached
  refine ⟨fun later answered' => ?_, fun input answers => ?_⟩
  · obtain ⟨later', answered'', committed'⟩ | ⟨_, refused, -⟩ := run.committed_or_refused known'
    swap
    · cases answered'.symm.trans refused
    cases answered'.symm.trans answered''
    obtain ⟨input, unchanged, answer'⟩ :=
      same_of_recorded unique shaped member' keyed' recorded' committed' steps'
    rw [kinds] at answer'
    exact ⟨input, unchanged, reply, answered,
      sameResult_withoutEvent (sameResult_of_keeps keeps signingKey answer answer')⟩
  · subst input
    obtain ⟨later, commits⟩ := commits_again (linkSound_of_run reached link' member') member'
      (shaped link' member') unique keyed' steps' recorded' wellFormed answers
    obtain ⟨_, answered', -⟩ | ⟨refusal, refused, -⟩ := run.committed_or_refused known'
    · rw [answered']
      rfl
    · obtain ⟨_, -, -, served⟩ := run.reaches_before known'
      rw [serve_of_ok commits] at served
      rw [served] at refused
      cases refused

end

/-- In every run of requests, the device link protocol is sound. -/
theorem device_links_sound (run : DatabaseRun config history db) : DeviceLinksSound config history where
  moves := by
    intro exchange member link known
    obtain ⟨earlier, before, -⟩ := run.reaches_before member
    obtain ⟨_, -, committed⟩ | ⟨_, -, same⟩ := run.committed_or_refused member
    · exact keeps_of_row (linkRow_of_step committed known) (shaped_of_run before)
    · exact .inl ⟨link, same ▸ known, .refl link, .stays _⟩
  oneDevice := fun _ _ _ _ part first second => devices_spending.restored_between run part first second
  oneSession := fun _ _ _ _ part first second => sessions_spending.restored_between run part first second
  enrolled := by
    rintro earlier ⟨start, call, answer, after⟩ later id rfl enrolls
    have before := run.at_entry.1
    obtain ⟨reply, answered, committed⟩ | ⟨_, -, same⟩ :=
      run.committed_or_refused (List.mem_append_right _ List.mem_cons_self)
    swap
    · exact absurd (congrArg (·.store.devices) same) enrolls.2
    cases answered
    obtain ⟨hash, approves⟩ := approves_of_enrolls committed enrolls
    have ⟨now, _, _, _, _, _, approval⟩ := approves
    cases approval
    obtain ⟨link, member, -, claimed, linkID, ⟨-, same⟩ | ⟨-, device⟩⟩ :=
      enrolled_of_step (linkSound_of_run before) committed
    · exact absurd (congrArg (·.store.devices) same) enrolls.2
    · obtain ⟨claim, stored, rfl⟩ := Option.map_eq_some_iff.mp claimed
      exact ⟨_, approves, linkID, ⟨now, rfl, device⟩, signed_of_run before member stored⟩
  started := by
    rintro earlier ⟨start, call, answer, after⟩ later id rfl starts
    have before := run.at_entry.1
    obtain ⟨reply, answered, committed⟩ | ⟨_, -, same⟩ :=
      run.committed_or_refused (List.mem_append_right _ List.mem_cons_self)
    swap
    · exact absurd (congrArg (·.sessions) same) starts.2
    cases answered
    obtain ⟨now, _, _, _, _, rfl⟩ := completes_of_starts committed starts
    obtain ⟨link, member, rfl, -, ⟨claim, claimed, rfl⟩, approved, rfl, rfl, rfl, ⟨-, same⟩ | ⟨-, session⟩⟩ :=
      started_of_step (linkSound_of_run before) committed
    · exact absurd (congrArg (·.sessions) same) starts.2
    · exact ⟨now, claim.claimRequestHash, rfl, session, approved_of_run before member approved claimed⟩
  again := fun _ _ _ _ _ _ _ part accepted steps steps' kinds _ member keyed _ member' keyed' =>
    again_of_run run part accepted steps steps' kinds member keyed member' keyed'
  revoked := by
    intro first between second part d stored revoked link member source now _ _ _ _ call accepted
    obtain ⟨earlier, -, after, rest, -, known⟩ := run_of_part run part
    obtain ⟨d', stays, sameID, -, kept⟩ := devicesKept_of_rest rest d stored
    obtain ⟨_, -, committed⟩ | ⟨_, refused, -⟩ := run.committed_or_refused known
    · rw [call] at committed
      obtain ⟨other, member', named, ⟨device, unrevoked, same, -, none⟩, -⟩ :=
        started_of_step (linkSound_of_run (after.trans rest)) committed
      cases Table.eq_of_key member' member named
      cases Table.eq_of_key unrevoked stays (same.trans (source.trans sameID.symm))
      exact revoked (kept none)
    · rw [refused] at accepted
      cases accepted

namespace Example

def hexHash (digit : Char) : String := String.ofList (List.replicate 64 digit)

/-- The claim of Alice's tablet. -/
def tabletClaim : DeviceLinkClaimInput where
  code := hexHash 'a'
  protocolVersion := deviceLinkProtocol
  serverOrigin := "https://chat.example"
  reservationRequestID := hexHash 'b'
  enrollmentReservationID := "link"
  deviceName := "tablet"
  deviceKeyPackage := List.replicate 64 1
  signingKey := List.replicate 32 2
  transferPublicKey := List.replicate 32 3
  transcriptHash := List.replicate 32 4
  claimTag := List.replicate 32 5
  claimTokenHash := hexHash 'c'
  deviceSecretHash := hexHash 'd'
  initialSessionTokenHash := hexHash 'e'
  challengeSignature := List.replicate 64 6

/-- What the tablet signs. -/
def tabletProof : ClaimProof where
  serverOrigin := tabletClaim.serverOrigin
  code := tabletClaim.code
  reservationRequestID := tabletClaim.reservationRequestID
  linkID := "link"
  accountID := alice
  deviceID := "alice-tablet"
  deviceName := tabletClaim.deviceName
  challenge := ⟨"link", alice, "alice-tablet", [9]⟩
  signingKey := tabletClaim.signingKey
  keyPackage := tabletClaim.deviceKeyPackage
  transferPublicKey := tabletClaim.transferPublicKey
  transcriptHash := tabletClaim.transcriptHash
  claimTag := tabletClaim.claimTag
  claimTokenHash := tabletClaim.claimTokenHash
  deviceSecretHash := tabletClaim.deviceSecretHash
  initialSessionTokenHash := tabletClaim.initialSessionTokenHash

def tabletCompletes (now : Time) : Request :=
  .completeLink now "link" (hexHash 'c') tabletProof (hexHash 'e') (List.replicate 32 4)

/-- Alice links a tablet with her phone. -/
def linksTablet : List Request :=
  [.reserve 0 (.owner "first" alice "alice-phone"),
    .enroll 0 (.createOwner { registration "alice" "first" with signingKey := List.replicate 32 7 }),
    .link 1 (.create 0 "link" [8] alice "alice-phone" (hexHash 'a') "https://chat.example" 0),
    .link 2 (.reserve "alice-tablet" [9] (hexHash 'a') (hexHash 'b')),
    .link 3 (.claim tabletClaim),
    .approveLink 4 "tablet-package" "link" alice "alice-phone" tabletProof (List.replicate 32 4)
      (List.replicate 32 10),
    tabletCompletes 5]

/-- The tablet's answer is lost and it completes again; later it rotates its session and completes once
more. -/
def completesAgain : List Request :=
  linksTablet ++ [tabletCompletes 6, .session 7 (.rotateSession (hexHash 'e') (hexHash 'f')), tabletCompletes 8]

end Example

open Example in
/-- The tablet has the key of its claim and one session. -/
theorem device_links_sound_tablet :
    DeviceLinksSound smallConfig (served completesAgain) ∧
      ((reached completesAgain).links.rows.map fun link => (link.id, link.state)) = [("link", .consumed)] ∧
      (reached completesAgain).signingKey "alice-tablet" = some tabletClaim.signingKey ∧
      ((reached completesAgain).sessions.rows.filter (·.deviceID = some "alice-tablet")).length = 1 :=
  ⟨device_links_sound (served_run completesAgain), by decide +kernel⟩

open Example in
/-- The repeated completion is answered while the first session is there, and refused once it was rotated,
although the link is still in its window. -/
theorem completion_refused_after_rotation :
    (serve (Database.step smallConfig) (reached linksTablet) (tabletCompletes 6)).answer.isOk ∧
    ((serve (Database.step smallConfig) (reached linksTablet) (tabletCompletes 6)).answer =
      (serve (Database.step smallConfig) (reached (linksTablet.take 6)) (tabletCompletes 5)).answer) ∧
    ((serve (Database.step smallConfig) (reached (completesAgain.take 9)) (tabletCompletes 8)).answer =
      .error .deviceLinkSessionUnavailable) ∧
    (∀ link ∈ (reached (completesAgain.take 9)).links,
      (reached (completesAgain.take 9)).linkVisible link ∧ link.validWindow 8 ∧ link.state = .consumed) := by
  decide +kernel

/-- Every stored link has its own code, the columns of its state, and a source device with a key. -/
theorem links_well_formed (config : Config) (requests : List Request) :
    let db := exec (Database.step config) Database.init requests
    CodesUnique db ∧ ∀ link ∈ db.links, link.Shaped ∧ LinkSound config db link := by
  intro db
  have run : DatabaseRun config _ db := run_exec _ _ requests
  exact ⟨codesUnique_of_run run, fun link mem => ⟨shaped_of_run run link mem, linkSound_of_run run link mem⟩⟩

/-- No request takes a device from its account or undoes a revocation. -/
theorem revocations_stay (config : Config) (db : Database) (requests : List Request) :
    db.store.DevicesKept (exec (Database.step config) db requests).store :=
  Database.devicesKept_of_rest (run_exec _ _ _)

end Veritra.Storage
