import Veritra.Proofs.Storage.LinkRows

/-! # Repeated steps of a device link

A link records the input of each step. A committed step is recorded, the record is kept while the link
moves on, and a later step of the same kind is answered from the record: it is committed only with the
recorded input, and then it changes nothing.
-/

namespace Veritra.Storage

open Relational Machine Database

variable {link' : DeviceLink} {later : Reply} {db' : Database}

variable {config : Config} {history : List Exchange} {db next : Database} {request : Request}
  {reply : Reply}

inductive LinkStepKind
  | create | reserve | claim | approve | complete | cancel
  deriving DecidableEq, Repr

/-- A step of the protocol, with the input that a repetition has to match. -/
inductive LinkStep
  | create (accountID : AccountID) (deviceID : DeviceID) (origin : String) (ttl : Time)
  | reserve (requestID : String)
  | claim (input : DeviceLinkClaimInput)
  | approve (accountID : AccountID) (sourceDeviceID : DeviceID) (requestHash : ClaimProof)
      (transcriptHash approvalTag : Bytes)
  | complete (claimTokenHash : TokenHash) (requestHash : ClaimProof) (initialSessionHash : TokenHash)
      (transcriptHash : Bytes)
  | cancel (accountID : AccountID) (deviceID : DeviceID)
  deriving DecidableEq, Repr

def LinkStep.kind : LinkStep → LinkStepKind
  | create .. => .create
  | reserve .. => .reserve
  | claim .. => .claim
  | approve .. => .approve
  | complete .. => .complete
  | cancel .. => .cancel

/-- A step names its link by the code or by the id. -/
inductive LinkKey
  | code (code : String)
  | id (id : LinkID)
  deriving DecidableEq, Repr

def DeviceLink.HasKey (link : DeviceLink) : LinkKey → Prop
  | .code code => link.code = code
  | .id id => link.id = id

/-- The step that a request makes. The signature of a claim is no part of what its hash covers. -/
def Request.linkStep : Request → Option (LinkKey × LinkStep)
  | link _ (.create _ _ _ accountID deviceID code origin ttl) =>
    (createTTL ttl).toOption.map fun time => (.code code, .create accountID deviceID origin time)
  | link _ (.reserve _ _ code requestID) => some (.code code, .reserve requestID)
  | link _ (.claim input) => some (.id input.enrollmentReservationID, .claim input.unsigned)
  | link _ (.cancel id accountID deviceID) => some (.id id, .cancel accountID deviceID)
  | approveLink _ _ id accountID sourceDeviceID requestHash transcriptHash approvalTag =>
    some (.id id, .approve accountID sourceDeviceID requestHash transcriptHash approvalTag)
  | completeLink _ id claimTokenHash requestHash initialSessionHash transcriptHash =>
    some (.id id, .complete claimTokenHash requestHash initialSessionHash transcriptHash)
  | _ => none

/-- The step of the kind that the link has recorded. -/
def DeviceLink.recorded (link : DeviceLink) : LinkStepKind → Option LinkStep
  | .create => some (.create link.accountID link.sourceDeviceID link.serverOrigin link.ttl)
  | .reserve => link.reservation.map fun reservation => .reserve reservation.requestID
  | .claim => link.claim.map fun claim => .claim claim.claimRequestHash.input
  | .approve => do
    let claim ← link.claim
    let approval ← link.approval
    some (.approve link.accountID link.sourceDeviceID claim.claimRequestHash claim.transcriptHash
      approval.approvalTag)
  | .complete => if link.state = .consumed then
      link.claim.map fun claim => .complete claim.claimTokenHash claim.claimRequestHash
        claim.initialSessionTokenHash claim.transcriptHash
    else none
  | .cancel => if link.state = .revoked then some (.cancel link.accountID link.sourceDeviceID) else none

/-- The answer to a step of the kind, read off the link. -/
def Database.linkAnswer (db : Database) (link : DeviceLink) : LinkStepKind → Option Reply
  | .create => some (.link (.link { db.publicLink link with code := link.code }))
  | .reserve => link.reservation.map fun reservation =>
      .link (.reservation (db.linkReservation link reservation))
  | .claim => some (.link (.link (db.publicLink link)))
  | .approve => do
    let reservation ← link.reservation
    let claim ← link.claim
    let approval ← link.approval
    some (.approved (db.publicLink link) (claimedDevice link reservation claim approval.approvedAt) 0)
  | .complete => do
    let reservation ← link.reservation
    let claim ← link.claim
    let approval ← link.approval
    let completedAt ← link.completedAt
    some (.completed (completionReceipt link reservation claim completedAt) approval.approvalTag)
  | .cancel => some (.link .cancelled)

/-- The answer without the id of the event that only the first approval has. -/
def Reply.withoutEvent : Reply → Reply
  | approved view device _ => approved view device 0
  | reply => reply

/-- The lengths that a step is checked for before its link is looked up. -/
def LinkStep.WellFormed : LinkStep → Prop
  | approve _ _ _ transcriptHash approvalTag => transcriptHash.length = 32 ∧ approvalTag.length = 32
  | complete claimTokenHash _ initialSessionHash transcriptHash =>
    validV3Hash claimTokenHash ∧ validV3Hash initialSessionHash ∧ transcriptHash.length = 32
  | _ => True

variable {step : LinkStep} {kind : LinkStepKind}

/-- A link keeps what it has recorded. -/
theorem recorded_kept {link : DeviceLink} (keeps : link.Keeps link')
    (recorded : link.recorded kind = some step) : link'.recorded kind = some step := by
  cases kind with
  | create =>
    rw [← recorded, keeps.fixed]
    rfl
  | reserve =>
    obtain ⟨reservation, reserved, rfl⟩ := Option.map_eq_some_iff.mp recorded
    simp only [DeviceLink.recorded, keeps.reservation reservation reserved, Option.map_some]
  | claim =>
    obtain ⟨claim, claimed, rfl⟩ := Option.map_eq_some_iff.mp recorded
    simp only [DeviceLink.recorded, keeps.claim claim claimed, Option.map_some]
  | approve =>
    obtain ⟨claim, claimed, rest⟩ := Option.bind_eq_some_iff.mp recorded
    obtain ⟨approval, approved, same⟩ := Option.bind_eq_some_iff.mp rest
    cases same
    simp only [DeviceLink.recorded, keeps.claim claim claimed, keeps.approval approval approved,
      keeps.accountID, keeps.sourceDeviceID]
    rfl
  | complete =>
    obtain ⟨state, same⟩ := Option.ite_none_right_eq_some.mp recorded
    obtain ⟨claim, claimed, rfl⟩ := Option.map_eq_some_iff.mp same
    simp only [DeviceLink.recorded, if_pos (keeps.consumed state), keeps.claim claim claimed, Option.map_some]
  | cancel =>
    obtain ⟨state, same⟩ := Option.ite_none_right_eq_some.mp recorded
    cases same
    simp only [DeviceLink.recorded, if_pos (keeps.revoked state), keeps.accountID, keeps.sourceDeviceID]

/-- The step is recorded in its link, and the answer is read off there. -/
def Recorded (db : Database) (key : LinkKey) (step : LinkStep) (reply : Reply) : Prop :=
  ∃ link ∈ db.links, link.HasKey key ∧ link.recorded step.kind = some step ∧
    db.linkAnswer link step.kind = some reply.withoutEvent

variable {key : LinkKey}

section Records

variable (unique : CodesUnique db)
include unique

theorem eq_of_hasKey {link other : DeviceLink} (mem : link ∈ db.links)
    (member' : other ∈ db.links) (keyed : link.HasKey key) (keyed' : other.HasKey key) :
    link = other := by
  cases key with
  | code code => exact unique link mem other member' (Eq.trans keyed (Eq.symm keyed'))
  | id id => exact Table.eq_of_key mem member' (Eq.trans keyed (Eq.symm keyed'))

theorem unrecorded_of_link {link : DeviceLink} (mem : link ∈ db.links) (keyed : link.HasKey key)
    (unrecorded : link.recorded kind = none) :
    ∀ other ∈ db.links, other.HasKey key → other.recorded kind = none := by
  intro other known keyed'
  rwa [eq_of_hasKey unique known mem keyed' keyed]

variable (shaped : ∀ link ∈ db.links, link.Shaped)
include shaped

theorem recorded_of_link {now : Time} {request : LinkRequest} {reply : LinkReply}
    {links : DeviceLinks} (served : linkStep config db now request = .ok (reply, links))
    (steps : (Request.link now request).linkStep = some (key, step)) :
    step.WellFormed ∧ Recorded { db with links } key step (.link reply) ∧
      (links = db.links ∨ ∀ link ∈ db.links, link.HasKey key → link.recorded step.kind = none) := by
  cases request <;> simp only [linkStep] at served <;> obtain ⟨inner, ran, same⟩ := map_eq_ok.mp served <;>
    cases same
  case create openLegacyLinks id linkNonce accountID deviceID code origin ttl =>
    obtain ⟨-, time, chosen, outcome⟩ := createDeviceLink_ok ran
    simp only [Request.linkStep, chosen, Except.toOption, Option.map_some] at steps
    cases steps
    refine ⟨trivial, ?_⟩
    cases outcome with
    | repeated mem _ coded same =>
      obtain ⟨rfl, rfl, rfl, rfl⟩ := same
      cases coded
      exact ⟨⟨_, mem, rfl, rfl, rfl⟩, .inl rfl⟩
    | created unused inserted =>
      exact ⟨⟨_, (Table.mem_of_insert? inserted _).mpr (.inr rfl), rfl, rfl, rfl⟩,
        .inr fun link mem coded => absurd coded (unused link mem)⟩
  case reserve newDeviceID nonce code requestID =>
    cases steps
    obtain ⟨-, link, mem, -, rfl, -, -, outcome⟩ := reserveDeviceLink_ok ran
    refine ⟨trivial, ?_⟩
    cases outcome with
    | repeated reserved same =>
      cases same
      refine ⟨⟨link, mem, rfl, ?_, ?_⟩, .inl rfl⟩
      · simp only [LinkStep.kind, DeviceLink.recorded, reserved, Option.map_some]
      · simp only [LinkStep.kind, linkAnswer, reserved, Option.map_some]
        rfl
    | reserved unreserved =>
      refine ⟨⟨{ link with reservation := some _ }, ?_, rfl, rfl, rfl⟩, .inr ?_⟩
      · simp only [reservedLinks, Table.mem_update]
        exact .inr ⟨link, mem, ⟨rfl, unreserved⟩, rfl⟩
      · exact unrecorded_of_link unique mem (by rfl) (by simp [LinkStep.kind, DeviceLink.recorded, unreserved])
  case claim input =>
    cases steps
    obtain ⟨link, reservation, hash, signed, outcome⟩ := claimDeviceLink_ok ran
    have unsigned := (proofMessage_ok signed.proof signed.named).1
    refine ⟨trivial, ?_⟩
    cases outcome with
    | repeated _ same =>
      obtain ⟨claim, claimed, rfl⟩ := Option.map_eq_some_iff.mp same
      refine ⟨⟨link, signed.member, signed.named, ?_, rfl⟩, .inl rfl⟩
      simp only [LinkStep.kind, DeviceLink.recorded, claimed, Option.map_some, unsigned]
    | claimed state =>
      have unclaimed := (shaped link signed.member).pending state
      refine ⟨⟨{ link with state := .claimed, claim := some _ }, ?_, signed.named, ?_, rfl⟩, .inr ?_⟩
      · simp only [claimedLinks, Table.mem_update]
        exact .inr ⟨link, signed.member, ⟨rfl, state⟩, rfl⟩
      · simp only [LinkStep.kind, DeviceLink.recorded, Option.map_some, DeviceLinkClaimInput.claim, unsigned]
      · exact unrecorded_of_link unique signed.member (by exact signed.named)
          (by simp [LinkStep.kind, DeviceLink.recorded, unclaimed])
  case cancel id accountID deviceID =>
    cases steps
    obtain ⟨link, mem, rfl, rfl, rfl, outcome⟩ := cancelDeviceLink_ok ran
    refine ⟨trivial, ?_⟩
    cases outcome with
    | repeated state =>
      refine ⟨⟨link, mem, rfl, ?_, rfl⟩, .inl rfl⟩
      simp only [LinkStep.kind, DeviceLink.recorded, if_pos state]
    | cancelled unapproved =>
      refine ⟨⟨{ link with state := .revoked, revokedAt := some now }, ?_, rfl, rfl, rfl⟩, .inr ?_⟩
      · simp only [cancelledLinks, Table.mem_update]
        exact .inr ⟨link, mem, ⟨rfl, unapproved⟩, rfl⟩
      · refine unrecorded_of_link unique mem (by rfl) (if_neg fun state => ?_)
        rcases unapproved with other | other <;> cases state.symm.trans other

/-- A committed step is recorded in its link, and its answer is read off there. It changes nothing if a
link under its key had recorded a step of its kind. -/
theorem recorded_of_step (ok : Database.step config db request = .ok (reply, next))
    (steps : request.linkStep = some (key, step)) :
    step.WellFormed ∧ Recorded next key step reply ∧
      (next = db ∨ ∀ link ∈ db.links, link.HasKey key → link.recorded step.kind = none) := by
  cases outcome_of_step ok with
  | link served =>
    obtain ⟨wellFormed, recorded, rfl | unrecorded⟩ := recorded_of_link unique shaped served steps
    · exact ⟨wellFormed, recorded, .inl rfl⟩
    · exact ⟨wellFormed, recorded, .inr unrecorded⟩
  | @approved now _ _ link _ claim _ _ keyPackageID approvalTag _ _ _ _ _ checked account source outcome =>
    cases steps
    obtain ⟨_, ran, -⟩ := map_eq_ok.mp ok
    refine ⟨(require_ok.mp ran).1, ?_⟩
    cases checked.id
    cases account
    cases source
    cases checked.hash
    cases checked.transcript
    cases outcome with
    | @repeated approval state approved tag =>
      cases tag
      refine ⟨⟨link, checked.member, rfl, ?_, ?_⟩, .inl rfl⟩
      · simp only [LinkStep.kind, DeviceLink.recorded, checked.claimed, approved]
        rfl
      · simp only [LinkStep.kind, linkAnswer, checked.claimed, checked.reserved, approved]
        rfl
    | approved state =>
      have unapproved := (shaped link checked.member).unapproved (by simp [state]) (by simp [state])
      refine ⟨⟨{ link with
        state := .approved, approval := some ⟨approvalTag, now, now + deviceLinkTransferLifetime⟩ },
        ?_, rfl, ?_, ?_⟩, .inr ?_⟩
      · simp only [approvedDatabase, approvedLinks, Table.mem_update]
        exact .inr ⟨link, checked.member, ⟨rfl, state⟩, rfl⟩
      · simp only [LinkStep.kind, DeviceLink.recorded, checked.claimed]
        rfl
      · simp only [LinkStep.kind, linkAnswer, checked.claimed, checked.reserved]
        rfl
      · exact unrecorded_of_link unique checked.member (by rfl)
          (by simp [LinkStep.kind, DeviceLink.recorded, unapproved])
  | @completed now _ _ link _ claim _ _ approval _ _ _ _ checked token session approved outcome =>
    cases steps
    obtain ⟨_, ran, -⟩ := map_eq_ok.mp ok
    refine ⟨(require_ok.mp ran).1, ?_⟩
    cases checked.id
    cases token
    cases session
    cases checked.hash
    cases checked.transcript
    cases outcome with
    | completed state =>
      refine ⟨⟨{ link with state := .consumed, completedAt := some now }, ?_, rfl, ?_, ?_⟩, .inr ?_⟩
      · simp only [completedLinks, Table.mem_update]
        exact .inr ⟨link, checked.member, ⟨rfl, state⟩, rfl⟩
      · simp only [LinkStep.kind, DeviceLink.recorded, checked.claimed]
        rfl
      · simp only [LinkStep.kind, linkAnswer, checked.claimed, checked.reserved, approved]
        rfl
      · exact unrecorded_of_link unique checked.member (by rfl)
          (by simp [LinkStep.kind, DeviceLink.recorded, state])
    | repeated state _ completed =>
      refine ⟨⟨link, checked.member, rfl, ?_, ?_⟩, .inl rfl⟩
      · simp only [LinkStep.kind, DeviceLink.recorded, checked.claimed, if_pos state]
        rfl
      · simp only [LinkStep.kind, linkAnswer, checked.claimed, checked.reserved, approved, completed]
        rfl
  | _ => cases steps

/-- A step is refused if its link has recorded another input, and its answer is read off the link if it
is committed again. -/
theorem same_of_recorded {first : LinkStep} {link : DeviceLink} (mem : link ∈ db.links)
    (keyed : link.HasKey key) (recorded : link.recorded step.kind = some first)
    (ok : Database.step config db request = .ok (reply, next))
    (steps : request.linkStep = some (key, step)) :
    step = first ∧ next = db ∧ db.linkAnswer link step.kind = some reply.withoutEvent := by
  obtain ⟨-, ⟨other, known, keyed', recorded', answer⟩, rfl | unrecorded⟩ :=
    recorded_of_step unique shaped ok steps
  · cases eq_of_hasKey unique mem known keyed keyed'
    exact ⟨Option.some.inj (recorded'.symm.trans recorded), rfl, answer⟩
  · cases (unrecorded link mem keyed).symm.trans recorded

end Records

/-- The link still answers a repeated step: it is visible and in its window, and its initial session is
still there after a completion. -/
def Database.answersAgain (config : Config) (db : Database) (link : DeviceLink) : Request → Prop
  | .link now (.reserve ..) => db.linkVisible link ∧ link.unapproved ∧ now < link.expiresAt
  | .link now (.claim input) => db.linkVisible link ∧ link.validWindow now ∧
    input.challengeSignature.length = 64 ∧ ∃ claim ∈ link.claim,
      config.verifySignature input.signingKey claim.claimRequestHash input.challengeSignature
  | .link _ (.cancel ..) =>
    db.store.activeAccount link.accountID ∧ db.store.unrevokedOf link.sourceDeviceID link.accountID
  | .link now (.create ..) | .approveLink now .. => db.linkVisible link ∧ link.validWindow now
  | .completeLink now .. => db.linkVisible link ∧ link.validWindow now ∧
    ∃ claim ∈ link.claim, ∃ deviceID ∈ link.recipientDeviceID,
      db.initialSessionValid config claim.initialSessionTokenHash link.accountID deviceID now
  | _ => False

theorem loadDeviceLink_eq {p : DeviceLink → Prop} [DecidablePred p] {link : DeviceLink}
    (mem : link ∈ db.links) (visible : db.linkVisible link) (holds : p link)
    (only : ∀ other ∈ db.links, p other → other = link) : db.loadDeviceLink p = .ok link := by
  unfold loadDeviceLink
  cases found : db.links.rows.find? fun link => db.linkVisible link ∧ p link with
  | none =>
    have missed := List.find?_eq_none.mp found link mem
    simp [visible, holds] at missed
  | some other =>
    have selected := List.find?_some found
    rw [decide_eq_true_eq] at selected
    rw [only other (List.mem_of_find?_eq_some found) selected.2]

section Again

variable {claim : LinkClaim}

variable {link : DeviceLink} {now : Time}

section

variable (sound : LinkSound config db link) (mem : link ∈ db.links)
include sound mem

theorem createDeviceLink_again (unique : CodesUnique db) (visible : db.linkVisible link)
    (window : link.validWindow now) {openLegacyLinks : ℕ} {id : LinkID} {linkNonce : Bytes} {ttl : ℤ}
    (chosen : createTTL ttl = .ok link.ttl) :
    createDeviceLink config db now openLegacyLinks id linkNonce link.accountID link.sourceDeviceID link.code
      link.serverOrigin ttl = .ok ({ db.publicLink link with code := link.code }, db.links) := by
  have loaded : db.loadDeviceLink (·.code = link.code) = .ok link :=
    loadDeviceLink_eq mem visible rfl fun other known coded => unique other known link mem coded
  refine require_ok.mpr ⟨⟨sound.code, sound.origin⟩, ?_⟩
  refine bind_eq_ok.mpr ⟨link.ttl, chosen, ?_⟩
  refine require_ok.mpr ⟨⟨visible.2.1, visible.1, sound.key⟩, ?_⟩
  simp only [loaded]
  refine require_ok.mpr ⟨⟨trivial, trivial, trivial, trivial⟩, ?_⟩
  exact require_ok.mpr ⟨window, rfl⟩

theorem reserveDeviceLink_again (unique : CodesUnique db) (visible : db.linkVisible link)
    (unapproved : link.unapproved) (early : now < link.expiresAt) {reservation : LinkReservation}
    (reserved : link.reservation = some reservation) {newDeviceID : DeviceID} {nonce : Bytes} :
    db.reserveDeviceLink now newDeviceID nonce link.code reservation.requestID =
      .ok (db.linkReservation link reservation, db.links) := by
  have loaded : db.loadDeviceLink (·.code = link.code) = .ok link :=
    loadDeviceLink_eq mem visible rfl fun other known coded => unique other known link mem coded
  refine require_ok.mpr ⟨⟨sound.code, sound.requestID reservation reserved⟩, ?_⟩
  refine bind_eq_ok.mpr ⟨link, loaded, ?_⟩
  refine require_ok.mpr ⟨⟨early, unapproved⟩, ?_⟩
  simp only [reserved]
  exact require_ok.mpr ⟨trivial, rfl⟩

theorem claimDeviceLink_again (shaped : link.Shaped) (visible : db.linkVisible link) (window : link.validWindow now)
    (claimed : link.claim = some claim) {input : DeviceLinkClaimInput}
    (same : input.unsigned = claim.claimRequestHash.input)
    (signed : input.challengeSignature.length = 64 ∧
      config.verifySignature input.signingKey claim.claimRequestHash input.challengeSignature) :
    claimDeviceLink config db now input = .ok (db.publicLink link, db.links) := by
  obtain ⟨reservation, reserved, first, at_, -, proof, named, coded, requested, origin⟩ :=
    sound.bound claim claimed
  rw [(proofMessage_ok proof named.symm).1] at same
  rw [← proofMessage_of_unsigned same] at proof
  have fields := congrArg (fun i : DeviceLinkClaimInput =>
    (i.enrollmentReservationID, i.code, i.reservationRequestID, i.serverOrigin)) same
  simp only [DeviceLinkClaimInput.unsigned, Prod.mk.injEq] at fields
  obtain ⟨sameID, sameCode, sameRequest, sameOrigin⟩ := fields
  have loaded : db.loadDeviceLink (fun link => link.id = input.enrollmentReservationID ∧
      link.code = input.code) = .ok link := by
    refine loadDeviceLink_eq mem visible ⟨?_, ?_⟩ fun other known keys => ?_
    · rw [sameID, named]
    · rw [sameCode, coded]
    · exact Table.eq_of_key known mem (keys.1.trans (sameID.trans named))
  have started : link.state ≠ .pending := fun state => by simp [shaped.pending state] at claimed
  refine bind_eq_ok.mpr ⟨link, loaded, ?_⟩
  simp only [reserved]
  refine require_ok.mpr ⟨⟨window, sameRequest.trans requested, sameOrigin.trans origin⟩, ?_⟩
  refine bind_eq_ok.mpr ⟨claim.claimRequestHash, proof, ?_⟩
  refine require_ok.mpr ⟨signed, ?_⟩
  rw [if_neg started]
  refine require_ok.mpr ⟨?_, rfl⟩
  rw [claimed]
  rfl

theorem approveDeviceLink_again (visible : db.linkVisible link) (window : link.validWindow now)
    (claimed : link.claim = some claim) {approval : LinkApproval}
    (approved : link.approval = some approval)
    (state : link.state = .approved ∨ link.state = .consumed)
    (lengths : claim.transcriptHash.length = 32 ∧ approval.approvalTag.length = 32)
    {keyPackageID : String} :
    ∃ device, approveDeviceLink config db now keyPackageID link.id link.accountID link.sourceDeviceID
      claim.claimRequestHash claim.transcriptHash approval.approvalTag = .ok ((db.publicLink link, device, 0), db) := by
  obtain ⟨reservation, reserved, -⟩ := sound.bound claim claimed
  have loaded : db.loadDeviceLink (fun other => other.id = link.id ∧ other.accountID = link.accountID ∧
      other.sourceDeviceID = link.sourceDeviceID) = .ok link :=
    loadDeviceLink_eq mem visible ⟨rfl, rfl, rfl⟩ fun other known keys =>
      Table.eq_of_key known mem keys.1
  refine ⟨claimedDevice link reservation claim approval.approvedAt, ?_⟩
  refine require_ok.mpr ⟨lengths, ?_⟩
  refine bind_eq_ok.mpr ⟨link, loaded, ?_⟩
  refine require_ok.mpr ⟨window, ?_⟩
  refine require_ok.mpr ⟨(matchesClaim_iff claimed).mpr ⟨rfl, rfl⟩, ?_⟩
  simp only [claimed, reserved, approved]
  rw [if_pos state]
  exact require_ok.mpr ⟨trivial, rfl⟩

theorem completeDeviceLink_again (shaped : link.Shaped) (visible : db.linkVisible link)
    (window : link.validWindow now) (claimed : link.claim = some claim) (state : link.state = .consumed)
    (lengths : validV3Hash claim.claimTokenHash ∧ validV3Hash claim.initialSessionTokenHash ∧
      claim.transcriptHash.length = 32) {deviceID : DeviceID}
    (recipient : link.recipientDeviceID = some deviceID)
    (valid : db.initialSessionValid config claim.initialSessionTokenHash link.accountID deviceID now) :
    ∃ answer, completeDeviceLink config db now link.id claim.claimTokenHash claim.claimRequestHash
      claim.initialSessionTokenHash claim.transcriptHash = .ok (answer, db) := by
  obtain ⟨reservation, reserved, -⟩ := sound.bound claim claimed
  obtain ⟨completedAt, completed⟩ := Option.isSome_iff_exists.mp (shaped.completed state)
  have approved : ∃ approval, link.approval = some approval := by
    rcases window with ⟨unapproved, -⟩ | ⟨-, approval, approved, -⟩
    · rcases unapproved with other | other <;> cases state.symm.trans other
    · exact ⟨approval, approved⟩
  obtain ⟨approval, approved⟩ := approved
  have loaded : db.loadDeviceLink (fun other => other.id = link.id ∧
      ∃ other' ∈ other.claim, other'.claimTokenHash = claim.claimTokenHash) = .ok link :=
    loadDeviceLink_eq mem visible ⟨rfl, claim, claimed, rfl⟩ fun other known keys =>
      Table.eq_of_key known mem keys.1
  have same : reservation.recipientDeviceID = deviceID := by
    simp only [DeviceLink.recipientDeviceID, reserved, Option.map_some] at recipient
    exact Option.some.inj recipient
  refine ⟨(completionReceipt link reservation claim completedAt, approval.approvalTag), ?_⟩
  refine require_ok.mpr ⟨lengths, ?_⟩
  refine bind_eq_ok.mpr ⟨link, loaded, ?_⟩
  refine require_ok.mpr ⟨window, ?_⟩
  refine require_ok.mpr ⟨⟨(matchesClaim_iff claimed).mpr ⟨rfl, rfl⟩, by rw [claimed]; rfl⟩, ?_⟩
  refine require_ok.mpr ⟨by simp [state], ?_⟩
  simp only [reserved, approved, state]
  refine require_ok.mpr ⟨same ▸ valid, ?_⟩
  simp only [completed]
  rfl

/-- A link that still answers commits the step that it has recorded, and nothing changes. -/
theorem commits_again (shaped : link.Shaped) (unique : CodesUnique db)
    (keyed : link.HasKey key) (steps : request.linkStep = some (key, step))
    (recorded : link.recorded step.kind = some step)
    (wellFormed : step.WellFormed) (answers : db.answersAgain config link request) :
    ∃ reply, Database.step config db request = .ok (reply, db) := by
  have links : ∀ {now reply request}, linkStep config db now request = .ok (reply, db.links) →
      ∃ reply, Database.step config db (.link now request) = .ok (reply, db) := fun served =>
    ⟨_, map_eq_ok.mpr ⟨_, served, rfl⟩⟩
  cases request <;> try cases steps
  case link now request =>
    cases request <;> simp only [Request.linkStep] at steps
    case create openLegacyLinks id linkNonce accountID deviceID code origin ttl =>
      obtain ⟨time, chosen, same⟩ := Option.map_eq_some_iff.mp steps
      cases same
      cases recorded
      cases keyed
      have chosen : createTTL ttl = .ok link.ttl := by
        cases outcome : createTTL ttl with
        | ok time =>
          rw [outcome] at chosen
          rw [← Option.some.inj chosen]
        | error => simp [outcome, Except.toOption] at chosen
      exact links (map_eq_ok.mpr
        ⟨_, createDeviceLink_again sound mem unique answers.1 answers.2 chosen, rfl⟩)
    case reserve newDeviceID nonce code requestID =>
      cases steps
      cases keyed
      obtain ⟨reservation, reserved, same⟩ := Option.map_eq_some_iff.mp recorded
      cases same
      exact links (map_eq_ok.mpr
        ⟨_, reserveDeviceLink_again sound mem unique answers.1 answers.2.1 answers.2.2 reserved, rfl⟩)
    case claim input =>
      cases steps
      obtain ⟨claim, claimed, same⟩ := Option.map_eq_some_iff.mp recorded
      obtain ⟨visible, window, length, claim', claimed', verified⟩ := answers
      cases claimed.symm.trans claimed'
      exact links (map_eq_ok.mpr ⟨_, claimDeviceLink_again sound mem shaped visible window claimed
        (LinkStep.claim.inj same).symm ⟨length, verified⟩, rfl⟩)
    case cancel id accountID deviceID =>
      cases steps
      cases keyed
      obtain ⟨state, same⟩ := Option.ite_none_right_eq_some.mp recorded
      cases same
      refine links (map_eq_ok.mpr ⟨db.links, ?_, rfl⟩)
      unfold cancelDeviceLink
      simp only [Table.find?_eq_some.mpr ⟨mem, rfl⟩]
      refine require_ok.mpr ⟨⟨trivial, trivial, answers⟩, ?_⟩
      rw [if_pos state]
      rfl
  case approveLink.refl now keyPackageID id accountID sourceDeviceID requestHash transcriptHash approvalTag =>
    cases keyed
    obtain ⟨claim, claimed, rest⟩ := Option.bind_eq_some_iff.mp recorded
    obtain ⟨approval, approved, same⟩ := Option.bind_eq_some_iff.mp rest
    cases same
    have state : link.state = .approved ∨ link.state = .consumed := by
      by_contra neither
      rw [not_or] at neither
      cases approved.symm.trans (shaped.unapproved neither.1 neither.2)
    obtain ⟨device, again⟩ := approveDeviceLink_again sound mem answers.1 answers.2 claimed approved state
      wellFormed
    exact ⟨_, map_eq_ok.mpr ⟨_, again, rfl⟩⟩
  case completeLink.refl now id claimTokenHash requestHash initialSessionHash transcriptHash =>
    cases keyed
    obtain ⟨state, same⟩ := Option.ite_none_right_eq_some.mp recorded
    obtain ⟨claim, claimed, same⟩ := Option.map_eq_some_iff.mp same
    cases same
    obtain ⟨visible, window, claim', claimed', deviceID, recipient, valid⟩ := answers
    cases claimed.symm.trans claimed'
    obtain ⟨answer, again⟩ := completeDeviceLink_again sound mem shaped visible window claimed state
      wellFormed recipient valid
    exact ⟨_, map_eq_ok.mpr ⟨_, again, rfl⟩⟩

end

end Again

/-- The view shows the same link, as far as it has moved on since. -/
structure DeviceLinkView.Later (view later : DeviceLinkView) : Prop where
  fixed : later = { view with
    state := later.state, recipientDeviceID := later.recipientDeviceID, deviceName := later.deviceName,
    signingKey := later.signingKey, transferPublicKey := later.transferPublicKey,
    transcriptHash := later.transcriptHash, claimTag := later.claimTag, approvalTag := later.approvalTag,
    claimRequestHash := later.claimRequestHash, claimedAt := later.claimedAt,
    approvedAt := later.approvedAt, transferExpiresAt := later.transferExpiresAt,
    completedAt := later.completedAt }
  recipient : view.recipientDeviceID.isSome → later.recipientDeviceID = view.recipientDeviceID
  claim : view.claimRequestHash.isSome → later.claimRequestHash = view.claimRequestHash ∧
    later.deviceName = view.deviceName ∧ later.signingKey = view.signingKey ∧
    later.transferPublicKey = view.transferPublicKey ∧ later.transcriptHash = view.transcriptHash ∧
    later.claimTag = view.claimTag ∧ later.claimedAt = view.claimedAt
  approval : view.approvalTag.isSome → later.approvalTag = view.approvalTag ∧
    later.approvedAt = view.approvedAt ∧ later.transferExpiresAt = view.transferExpiresAt
  completedAt : view.completedAt.isSome → later.completedAt = view.completedAt

/-- The answers are the same: reservations, devices and receipts are equal, and views show the same link. -/
def Reply.SameResult : Reply → Reply → Prop
  | link (.link view), link (.link later) => view.Later later
  | approved view device _, approved later device' _ => view.Later later ∧ device' = device
  | reply, later => later = reply

theorem sameResult_withoutEvent (same : reply.withoutEvent.SameResult later.withoutEvent) :
    reply.SameResult later := by
  cases reply with
  | link given => cases given <;> cases later <;> first | exact same | cases same
  | _ => cases later <;> first | exact same | cases same

theorem publicLink_later {link : DeviceLink} (keeps : link.Keeps link')
    (key : db'.signingKey link.sourceDeviceID = db.signingKey link.sourceDeviceID) :
    (db.publicLink link).Later (db'.publicLink link') where
  fixed := by
    rw [keeps.fixed]
    simp only [publicLink, key]
  recipient filled := by
    simp only [publicLink, DeviceLink.recipientDeviceID, Option.isSome_map] at filled ⊢
    obtain ⟨reservation, reserved⟩ := Option.isSome_iff_exists.mp filled
    rw [keeps.reservation reservation reserved, reserved]
  claim filled := by
    simp only [publicLink, Option.isSome_map] at filled ⊢
    obtain ⟨claim, claimed⟩ := Option.isSome_iff_exists.mp filled
    rw [keeps.claim claim claimed, claimed]
    exact ⟨rfl, rfl, rfl, rfl, rfl, rfl, rfl⟩
  approval filled := by
    simp only [publicLink, Option.isSome_map] at filled ⊢
    obtain ⟨approval, approved⟩ := Option.isSome_iff_exists.mp filled
    rw [keeps.approval approval approved, approved]
    exact ⟨rfl, rfl, rfl⟩
  completedAt filled := by
    simp only [publicLink] at filled ⊢
    obtain ⟨time, completed⟩ := Option.isSome_iff_exists.mp filled
    rw [keeps.completedAt time completed, completed]

/-- The answers that are read off a link before and after it has moved on are the same. -/
theorem sameResult_of_keeps {link : DeviceLink} (keeps : link.Keeps link')
    (key : db'.signingKey link.sourceDeviceID = db.signingKey link.sourceDeviceID)
    (answer : db.linkAnswer link kind = some reply)
    (answer' : db'.linkAnswer link' kind = some later) : reply.SameResult later := by
  have view := publicLink_later keeps key
  cases kind with
  | create =>
    cases answer
    cases answer'
    refine ⟨?_, view.recipient, view.claim, view.approval, view.completedAt⟩
    rw [keeps.fixed]
    simp only [publicLink, key]
  | reserve =>
    obtain ⟨reservation, reserved, rfl⟩ := Option.map_eq_some_iff.mp answer
    simp only [linkAnswer, keeps.reservation reservation reserved, Option.map_some] at answer'
    cases answer'
    rw [keeps.fixed]
    simp only [Reply.SameResult, linkReservation, key]
  | claim =>
    cases answer
    cases answer'
    exact view
  | approve =>
    obtain ⟨reservation, reserved, rest⟩ := Option.bind_eq_some_iff.mp answer
    obtain ⟨claim, claimed, rest⟩ := Option.bind_eq_some_iff.mp rest
    obtain ⟨approval, approved, same⟩ := Option.bind_eq_some_iff.mp rest
    cases same
    simp only [linkAnswer, keeps.reservation reservation reserved, keeps.claim claim claimed,
      keeps.approval approval approved] at answer'
    cases answer'
    refine ⟨view, ?_⟩
    simp only [claimedDevice, keeps.accountID]
  | complete =>
    obtain ⟨reservation, reserved, rest⟩ := Option.bind_eq_some_iff.mp answer
    obtain ⟨claim, claimed, rest⟩ := Option.bind_eq_some_iff.mp rest
    obtain ⟨approval, approved, rest⟩ := Option.bind_eq_some_iff.mp rest
    obtain ⟨time, completed, same⟩ := Option.bind_eq_some_iff.mp rest
    cases same
    simp only [linkAnswer, keeps.reservation reservation reserved, keeps.claim claim claimed,
      keeps.approval approval approved, keeps.completedAt time completed] at answer'
    cases answer'
    simp only [Reply.SameResult, completionReceipt, keeps.id, keeps.accountID, keeps.serverOrigin]
  | cancel =>
    cases answer
    cases answer'
    rfl

/-- A link appears under the id. -/
def Exchange.CreatesLink (exchange : Exchange) (id : LinkID) : Prop :=
  (∀ link ∈ exchange.before.links, link.id ≠ id) ∧ ∃ link ∈ exchange.after.links, link.id = id

/-- As long as no other link appears under its id, a link that is still there has kept what it was, and its
source device has kept its key. -/
theorem keeps_of_rest {start : Database} {between : List Exchange} (run : DatabaseRun config history start)
    (rest : Run (Database.step config) unguarded start between db) {link : DeviceLink}
    (mem : link ∈ start.links) (member' : link' ∈ db.links) (same : link'.id = link.id)
    (uncreated : ∀ exchange ∈ between, ¬ Exchange.CreatesLink exchange link.id) :
    link.Keeps link' ∧ db.signingKey link.sourceDeviceID = start.signingKey link.sourceDeviceID := by
  refine rest.preserves_where (fun db => ∀ link' ∈ db.links, link'.id = link.id → link.Keeps link' ∧
    db.signingKey link.sourceDeviceID = start.signingKey link.sourceDeviceID) uncreated ?_ ?_
    link' member' same
  · intro link' member' same
    cases Table.eq_of_key member' mem same
    exact ⟨.refl _, rfl⟩
  · intro _ db request reply next before _ earlier ok uncreated link' member' same
    have reached := run.trans before
    rcases keeps_of_row (linkRow_of_step ok member') (shaped_of_run reached) with
      ⟨old, known, keeps, -⟩ | new
    · obtain ⟨keeps', key⟩ := earlier old known (keeps.id.symm.trans same)
      refine ⟨keeps'.trans keeps, ?_⟩
      have sound := linkSound_of_run reached old known
      obtain ⟨k, stored, -⟩ := sound.key
      have source : ∃ d ∈ db.store.devices, d.id = old.sourceDeviceID ∧ d.accountID = link'.accountID := by
        rw [keeps.accountID]
        exact sound.source
      have stays := signingKey_of_step ok member' source stored
      rw [← key, ← keeps'.sourceDeviceID, stays]
      exact stored.symm
    · exact absurd ⟨fun old known => same ▸ new.free old known, link', member', same⟩ uncreated

end Veritra.Storage
