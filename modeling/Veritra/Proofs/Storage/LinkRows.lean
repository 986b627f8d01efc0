import Veritra.Proofs.Storage.LinkMoves

/-! # What a link keeps

A link only moves on: from pending over claimed and approved to consumed, or to revoked while it is
unapproved. It keeps what its steps have filled in, and its claim is what the new device signed for this
link and its reservation.
-/

namespace Veritra.Storage

open Relational Machine Database

variable {link : DeviceLink} {reservation : LinkReservation} {claim : LinkClaim} {config : Config}
  {history : List Exchange} {db next : Database} {request : Request} {reply : Reply}

/-- One request moves a link at most one state on. -/
inductive LinkState.Next : LinkState → LinkState → Prop
  | stays (state : LinkState) : Next state state
  | claimed : Next .pending .claimed
  | approved : Next .claimed .approved
  | consumed : Next .approved .consumed
  | revoked {state : LinkState} (unapproved : state = .pending ∨ state = .claimed) : Next state .revoked

/-- What a link keeps while it moves on: what created it, every column once it is filled, and the two
final states. -/
structure DeviceLink.Keeps (before after : DeviceLink) : Prop where
  fixed : after = { before with
    state := after.state, reservation := after.reservation, claim := after.claim,
    approval := after.approval, completedAt := after.completedAt, revokedAt := after.revokedAt,
    historyCancelledAt := after.historyCancelledAt }
  reservation : ∀ reservation ∈ before.reservation, after.reservation = some reservation
  claim : ∀ claim ∈ before.claim, after.claim = some claim
  approval : ∀ approval ∈ before.approval, after.approval = some approval
  completedAt : ∀ time ∈ before.completedAt, after.completedAt = some time
  consumed : before.state = .consumed → after.state = .consumed
  revoked : before.state = .revoked → after.state = .revoked

namespace DeviceLink.Keeps

variable {before middle after : DeviceLink}

theorem refl (link : DeviceLink) : link.Keeps link :=
  ⟨rfl, fun _ filled => filled, fun _ filled => filled, fun _ filled => filled, fun _ filled => filled,
    fun state => state, fun state => state⟩

theorem trans (first : before.Keeps middle) (second : middle.Keeps after) : before.Keeps after where
  fixed := by
    rw [second.fixed, first.fixed]
  reservation r filled := second.reservation r (first.reservation r filled)
  claim c filled := second.claim c (first.claim c filled)
  approval a filled := second.approval a (first.approval a filled)
  completedAt t filled := second.completedAt t (first.completedAt t filled)
  consumed state := second.consumed (first.consumed state)
  revoked state := second.revoked (first.revoked state)

section

variable (keeps : before.Keeps after)

include keeps

theorem id : after.id = before.id := by rw [keeps.fixed]

theorem code : after.code = before.code := by rw [keeps.fixed]

theorem accountID : after.accountID = before.accountID := by
  rw [keeps.fixed]

theorem sourceDeviceID : after.sourceDeviceID = before.sourceDeviceID := by
  rw [keeps.fixed]

theorem serverOrigin : after.serverOrigin = before.serverOrigin := by
  rw [keeps.fixed]

end

end DeviceLink.Keeps

/-- What a claim names the new device by: its input without the signature. -/
def ClaimProof.input (proof : ClaimProof) : DeviceLinkClaimInput where
  code := proof.code
  protocolVersion := deviceLinkProtocol
  serverOrigin := proof.serverOrigin
  reservationRequestID := proof.reservationRequestID
  enrollmentReservationID := proof.linkID
  deviceName := proof.deviceName
  deviceKeyPackage := proof.keyPackage
  signingKey := proof.signingKey
  transferPublicKey := proof.transferPublicKey
  transcriptHash := proof.transcriptHash
  claimTag := proof.claimTag
  claimTokenHash := proof.claimTokenHash
  deviceSecretHash := proof.deviceSecretHash
  initialSessionTokenHash := proof.initialSessionTokenHash
  challengeSignature := []

def DeviceLinkClaimInput.unsigned (input : DeviceLinkClaimInput) : DeviceLinkClaimInput :=
  { input with challengeSignature := [] }

theorem proofMessage_ok {input : DeviceLinkClaimInput} {hash : ClaimProof}
    (proof : input.proofMessage config link reservation = .ok hash)
    (named : link.id = input.enrollmentReservationID) :
    hash.input = input.unsigned ∧ hash.linkID = link.id ∧ hash.accountID = link.accountID ∧
      hash.deviceID = reservation.recipientDeviceID := by
  obtain ⟨checked, proof⟩ := require_ok.mp proof
  have proof := of_require proof
  cases proof
  refine ⟨?_, rfl, rfl, rfl⟩
  simp only [ClaimProof.input, DeviceLinkClaimInput.unsigned, named, ← checked.1]

/-- The signature is no part of what is signed. -/
theorem proofMessage_of_unsigned {input input' : DeviceLinkClaimInput}
    (same : input.unsigned = input'.unsigned) :
    input.proofMessage config link reservation = input'.proofMessage config link reservation := by
  have equal : input = { input' with challengeSignature := input.challengeSignature } := by
    cases input
    simp only [DeviceLinkClaimInput.unsigned, DeviceLinkClaimInput.mk.injEq] at same ⊢
    simp only [same, and_self]
  rw [equal]
  rfl

/-- The claim is what its signed input says, for this link and its reservation. -/
def LinkClaim.Bound (config : Config) (link : DeviceLink) (reservation : LinkReservation)
    (claim : LinkClaim) : Prop :=
  ∃ (input : DeviceLinkClaimInput) (now : Time), claim = input.claim claim.claimRequestHash now ∧
    input.proofMessage config link reservation = .ok claim.claimRequestHash ∧
    input.enrollmentReservationID = link.id ∧ input.code = link.code ∧
    input.reservationRequestID = reservation.requestID ∧ input.serverOrigin = link.serverOrigin

theorem LinkClaim.Bound.kept {link' : DeviceLink}
    (bound : claim.Bound config link reservation) (keeps : link.Keeps link') :
    claim.Bound config link' reservation := by
  obtain ⟨input, now, stored, proof, named, coded, requested, origin⟩ := bound
  refine ⟨input, now, stored, ?_, named.trans keeps.id.symm, coded.trans keeps.code.symm, requested,
    origin.trans keeps.serverOrigin.symm⟩
  unfold DeviceLinkClaimInput.proofMessage at proof ⊢
  rw [keeps.id, keeps.accountID]
  exact proof

/-- What a claim's hash says about the rows that come out of the link. -/
theorem LinkClaim.Bound.fields (bound : claim.Bound config link reservation) :
    claim.claimRequestHash.linkID = link.id ∧ claim.claimRequestHash.accountID = link.accountID ∧
      claim.claimRequestHash.deviceID = reservation.recipientDeviceID ∧
      claim.claimRequestHash.deviceName = claim.deviceName ∧
      claim.claimRequestHash.keyPackage = claim.keyPackage ∧
      claim.claimRequestHash.signingKey = claim.signingKey ∧
      claim.claimRequestHash.deviceSecretHash = claim.deviceSecretHash ∧
      claim.claimRequestHash.claimTokenHash = claim.claimTokenHash ∧
      claim.claimRequestHash.transcriptHash = claim.transcriptHash ∧
      claim.claimRequestHash.initialSessionTokenHash = claim.initialSessionTokenHash := by
  obtain ⟨input, now, stored, proof, named, -⟩ := bound
  obtain ⟨same, linkID, accountID, deviceID⟩ := proofMessage_ok proof named.symm
  have fields := congrArg (fun i : DeviceLinkClaimInput => (i.deviceName, i.deviceKeyPackage, i.signingKey,
    i.deviceSecretHash, i.claimTokenHash, i.transcriptHash, i.initialSessionTokenHash)) same
  simp only [ClaimProof.input, DeviceLinkClaimInput.unsigned, Prod.mk.injEq] at fields
  rw [stored] at *
  exact ⟨linkID, accountID, deviceID, fields.1, fields.2.1, fields.2.2.1, fields.2.2.2.1,
    fields.2.2.2.2.1, fields.2.2.2.2.2.1, fields.2.2.2.2.2.2⟩

/-- The columns that are filled in each state. -/
structure DeviceLink.Shaped (link : DeviceLink) : Prop where
  pending : link.state = .pending → link.claim = none
  claimed : link.state = .claimed ∨ link.state = .approved ∨ link.state = .consumed → link.claim.isSome
  unapproved : link.state ≠ .approved → link.state ≠ .consumed → link.approval = none
  incomplete : link.state ≠ .consumed → link.completedAt = none
  completed : link.state = .consumed → link.completedAt.isSome

/-- The request created the link, under a code and an id that no link has. -/
structure LinkCreated (config : Config) (db : Database) (request : Request) (link : DeviceLink) : Prop where
  created : ∃ now openLegacyLinks ttl, request = .link now (.create openLegacyLinks link.id link.linkNonce
    link.accountID link.sourceDeviceID link.code link.serverOrigin ttl) ∧ createTTL ttl = .ok link.ttl
  checked : CreateChecked config db link.accountID link.sourceDeviceID link.code link.serverOrigin
  unused : ∀ old ∈ db.links, old.code ≠ link.code
  free : ∀ old ∈ db.links, old.id ≠ link.id
  pending : link.state = .pending
  blank : link.reservation = none ∧ link.claim = none ∧ link.approval = none

section

variable (row : LinkRow config db request link)

include row

/-- A link after a request is at most one state after one that was there before, or the request created it.
The request made its reservation and its claim unless the old link had them. -/
theorem moved_of_row :
    LinkCreated config db request link ∨ ∃ old ∈ db.links, old.id = link.id ∧ old.state.Next link.state ∧
      (∀ reservation ∈ link.reservation, old.reservation = some reservation ∨ validV3Hash reservation.requestID) ∧
      ∀ claim ∈ link.claim, old.claim = some claim ∨ ∃ now input reservation,
        request = .link now (.claim input) ∧ claim = input.claim claim.claimRequestHash now ∧
          link.reservation = some reservation ∧
          ClaimSigned config db input old reservation claim.claimRequestHash := by
  cases row with
  | kept mem => exact .inr ⟨_, mem, rfl, .stays _, fun _ => .inl, fun _ => .inl⟩
  | created checked chosen unused free =>
    exact .inl ⟨⟨_, _, _, rfl, chosen⟩, checked, unused, free, rfl, rfl, rfl, rfl⟩
  | reserved mem valid =>
    refine .inr ⟨_, mem, rfl, .stays _, fun reservation reserved => ?_, fun _ => .inl⟩
    cases reserved
    exact .inr valid
  | claimed signed state =>
    refine .inr ⟨_, signed.member, rfl, state ▸ .claimed, fun _ => .inl, fun claim claimed => ?_⟩
    cases claimed
    exact .inr ⟨_, _, _, rfl, rfl, signed.reserved, signed⟩
  | cancelled mem unapproved => exact .inr ⟨_, mem, rfl, .revoked unapproved, fun _ => .inl, fun _ => .inl⟩
  | approved checked state =>
    exact .inr ⟨_, checked.member, rfl, state ▸ .approved, fun _ => .inl, fun _ => .inl⟩
  | completed checked _ state =>
    exact .inr ⟨_, checked.member, rfl, state ▸ .consumed, fun _ => .inl, fun _ => .inl⟩

/-- A link after a request moved on from one that was there before, or the request created it. -/
theorem keeps_of_row (shaped : ∀ old ∈ db.links, old.Shaped) :
    (∃ old ∈ db.links, old.Keeps link ∧ old.state.Next link.state) ∨ LinkCreated config db request link := by
  cases row with
  | kept mem => exact .inl ⟨_, mem, { DeviceLink.Keeps.refl _ with fixed := rfl }, .stays _⟩
  | created checked chosen unused free =>
    exact .inr ⟨⟨_, _, _, rfl, chosen⟩, checked, unused, free, rfl, rfl, rfl, rfl⟩
  | reserved mem _ unreserved =>
    refine .inl ⟨_, mem, { DeviceLink.Keeps.refl _ with fixed := rfl, reservation := ?_ }, .stays _⟩
    simp [unreserved]
  | claimed signed state =>
    have unclaimed := (shaped _ signed.member).pending state
    refine .inl ⟨_, signed.member, { DeviceLink.Keeps.refl _ with
      fixed := rfl, claim := ?_, consumed := ?_, revoked := ?_ }, state ▸ .claimed⟩ <;>
        simp [unclaimed, state]
  | cancelled mem unapproved =>
    refine .inl ⟨_, mem, { DeviceLink.Keeps.refl _ with fixed := rfl, consumed := ?_, revoked := fun _ => rfl },
      .revoked unapproved⟩
    rcases unapproved with state | state <;> simp [state]
  | approved checked state =>
    have unapproved := (shaped _ checked.member).unapproved (by simp [state]) (by simp [state])
    refine .inl ⟨_, checked.member, { DeviceLink.Keeps.refl _ with
      fixed := rfl, approval := ?_, consumed := ?_, revoked := ?_ }, state ▸ .approved⟩ <;>
        simp [unapproved, state]
  | completed checked _ state =>
    have incomplete := (shaped _ checked.member).incomplete (by simp [state])
    refine .inl ⟨_, checked.member, { DeviceLink.Keeps.refl _ with
      fixed := rfl, completedAt := ?_, consumed := fun _ => rfl, revoked := ?_ }, state ▸ .consumed⟩ <;>
        simp [incomplete, state]

theorem shaped_of_row (shaped : ∀ old ∈ db.links, old.Shaped) : link.Shaped := by
  cases row with
  | kept mem | reserved mem =>
    have old := shaped _ mem
    exact ⟨old.pending, old.claimed, old.unapproved, old.incomplete, old.completed⟩
  | created => exact ⟨fun _ => rfl, nofun, fun _ _ => rfl, fun _ => rfl, nofun⟩
  | claimed signed state =>
    have old := shaped _ signed.member
    refine ⟨nofun, fun _ => rfl, fun _ _ => old.unapproved ?_ ?_, fun _ => old.incomplete ?_, nofun⟩ <;>
      simp [state]
  | cancelled mem unapproved =>
    have old := shaped _ mem
    refine ⟨nofun, nofun, fun _ _ => old.unapproved ?_ ?_, fun _ => old.incomplete ?_, nofun⟩ <;>
      rcases unapproved with state | state <;> simp [state]
  | approved checked state =>
    have old := shaped _ checked.member
    exact ⟨nofun, fun _ => old.claimed (.inl state), fun other => absurd rfl other,
      fun _ => old.incomplete (by simp [state]), nofun⟩
  | completed checked _ state =>
    have old := shaped _ checked.member
    exact ⟨nofun, fun _ => old.claimed (.inr (.inl state)), fun _ other => absurd rfl other,
      fun other => absurd rfl other, fun _ => rfl⟩

end

theorem no_links (link : DeviceLink) : link ∉ Database.init.links := Table.not_mem_empty link

theorem shaped_of_run (run : DatabaseRun config history db) : ∀ link ∈ db.links, link.Shaped :=
  run.preserves (fun db => ∀ link ∈ db.links, link.Shaped) (fun link none => absurd none (no_links link))
    fun _ _ _ _ _ shaped ok _ mem => shaped_of_row (linkRow_of_step ok mem) shaped

def CodesUnique (db : Database) : Prop :=
  ∀ link ∈ db.links, ∀ other ∈ db.links, link.code = other.code → link = other

theorem codesUnique_of_run (run : DatabaseRun config history db) : CodesUnique db := by
  refine run.preserves_history (fun _ db => CodesUnique db) (fun link none => absurd none (no_links link)) ?_
    fun _ _ _ _ _ _ unique _ => unique
  intro history db request reply next before _ unique ok link mem other member' coded
  have shaped := shaped_of_run before
  rcases keeps_of_row (linkRow_of_step ok mem) shaped with ⟨old, known, keeps, -⟩ | new
  · rcases keeps_of_row (linkRow_of_step ok member') shaped with ⟨old', known', keeps', -⟩ | new'
    · have same := unique old known old' known' (keeps.code.symm.trans (coded.trans keeps'.code))
      exact Table.eq_of_key mem member' (keeps.id.trans (same ▸ keeps'.id.symm))
    · exact absurd (keeps.code.symm.trans coded) (new'.unused old known)
  · rcases keeps_of_row (linkRow_of_step ok member') shaped with ⟨old', known', keeps', -⟩ | new'
    · exact absurd (keeps'.code.symm.trans coded.symm) (new.unused old' known')
    · obtain ⟨_, _, _, call, -⟩ := new.created
      obtain ⟨_, _, _, call', -⟩ := new'.created
      have calls := call.symm.trans call'
      simp only [Request.link.injEq, LinkRequest.create.injEq] at calls
      exact Table.eq_of_key mem member' calls.2.2.1

variable (ok : Database.step config db request = .ok (reply, next))

include ok in
/-- The signing key of a device stays, unless its account and with it every link of the account goes. -/
theorem deviceKeys_of_step {k : DeviceKeys} (mem : k ∈ db.accounts.deviceKeys) :
    (∃ k' ∈ next.accounts.deviceKeys, k'.deviceID = k.deviceID ∧ k'.signingKey = k.signingKey) ∨
      ∃ d ∈ next.store.devices, d.id = k.deviceID ∧ ∀ link ∈ next.links, link.accountID ≠ d.accountID := by
  have kept : ∀ {deviceKeys : Table DeviceKeys DeviceKeys.deviceID}, k ∈ deviceKeys →
      ∃ k' ∈ deviceKeys, k'.deviceID = k.deviceID ∧ k'.signingKey = k.signingKey :=
    fun stays => ⟨k, stays, rfl, rfl⟩
  cases outcome_of_step ok with
  | revoked =>
    exact .inl (kept mem)
  | deleted _ deletes scrubbed =>
    rcases scrubbed.deviceKeys k mem with ⟨d, known, same, owner⟩ | stays
    · refine .inr ⟨d, ?_, same, ?_⟩
      · rw [scrubbed_devices]
        exact known
      · rintro link left account
        exact (Table.mem_delete.mp left).2 (account.trans owner)
    · exact .inl (kept stays)
  | reserved served =>
    obtain ⟨_, rfl⟩ := reserveStep_ok served
    exact .inl (kept mem)
  | registered _ registered =>
    exact .inl (kept ((Table.mem_of_insert? registered.device.keys k).mpr (.inl mem)))
  | legacyApproved _ inserted => exact .inl (kept ((Table.mem_of_insert? inserted.keys k).mpr (.inl mem)))
  | approved _ _ _ outcome =>
    cases outcome with
    | repeated => exact .inl (kept mem)
    | approved _ _ _ device => exact .inl (kept ((Table.mem_of_insert? device.keys k).mpr (.inl mem)))
  | completed _ _ _ _ outcome => cases outcome <;> exact .inl (kept mem)
  | history served => exact .inl (kept ((historyStep_retires served).accounts ▸ mem))
  | blob served => exact .inl (kept ((blobStep_frame served).accounts ▸ mem))
  | recoveryAnswered _ _ _ outcome =>
    cases outcome with
    | completed _ _ _ _ _ _ recovered =>
      exact .inl (kept ((Table.mem_of_insert? recovered.device.keys k).mpr (.inl mem)))
    | _ => exact .inl (kept mem)
  | @seen now deviceID =>
    obtain ⟨k', stays, changed⟩ : ∃ k' ∈ (db.markDeviceSeen now deviceID).deviceKeys,
        k' = k ∨ k' = { k with lastSeenAt := some now } :=
      Table.exists_mem_update mem _ (fun k => { k with lastSeenAt := some now }) fun _ => rfl
    exact .inl ⟨k', stays, by rcases changed with rfl | rfl <;> exact ⟨rfl, rfl⟩⟩
  | pruned | _ => exact .inl (kept mem)

include ok in
/-- While a link of its account is there, a device keeps its signing key. -/
theorem signingKey_of_step (mem : link ∈ next.links) {deviceID : DeviceID} {key : Bytes}
    (owner : ∃ d ∈ db.store.devices, d.id = deviceID ∧ d.accountID = link.accountID)
    (known : db.signingKey deviceID = some key) : next.signingKey deviceID = some key := by
  obtain ⟨k, found, same⟩ := Option.bind_eq_some_iff.mp known
  obtain ⟨stored, rfl⟩ := Table.find?_eq_some.mp found
  rcases deviceKeys_of_step ok stored with ⟨k', stays, sameID, sameKey⟩ | ⟨d, remains, sameID, gone⟩
  · refine Option.bind_eq_some_iff.mpr ⟨k', Table.find?_eq_some.mpr ⟨stays, sameID⟩, sameKey.trans same⟩
  · obtain ⟨d', known', sameID', account⟩ := owner
    obtain ⟨d'', remains', sameID'', account', -⟩ := devicesKept_of_step ok d' known'
    have equal := Table.eq_of_key remains' remains (sameID''.trans (sameID'.trans sameID.symm))
    rw [equal, account] at account'
    exact absurd account'.symm (gone link mem)

/-- What the link's columns say of each other and of the tables around it. -/
structure LinkSound (config : Config) (db : Database) (link : DeviceLink) : Prop where
  code : validV3Hash link.code
  origin : config.validOrigin link.serverOrigin
  source : ∃ d ∈ db.store.devices, d.id = link.sourceDeviceID ∧ d.accountID = link.accountID
  key : ∃ key ∈ db.signingKey link.sourceDeviceID, key.length = 32
  requestID : ∀ reservation ∈ link.reservation, validV3Hash reservation.requestID
  bound : ∀ claim ∈ link.claim, ∃ reservation, link.reservation = some reservation ∧ claim.Bound config link reservation

include ok in
theorem linkSound_of_step
    (shaped : ∀ old ∈ db.links, old.Shaped) (sound : ∀ old ∈ db.links, LinkSound config db old) :
    ∀ link ∈ next.links, LinkSound config next link := by
  intro link mem
  have row := linkRow_of_step ok mem
  rcases keeps_of_row row shaped with ⟨old, known, keeps, -⟩ | new
  · have before := sound old known
    have source : ∃ d ∈ db.store.devices, d.id = link.sourceDeviceID ∧ d.accountID = link.accountID := by
      rw [keeps.sourceDeviceID, keeps.accountID]
      exact before.source
    obtain new | ⟨old', known', same, -, reservations, claims⟩ := moved_of_row row
    · exact absurd keeps.id.symm (new.free old known)
    cases Table.eq_of_key known' known (same.trans keeps.id)
    refine ⟨keeps.code ▸ before.code, keeps.serverOrigin ▸ before.origin, ?_, ?_, ?_, ?_⟩
    · obtain ⟨d, stored, sameID, account⟩ := source
      obtain ⟨d', stays, sameID', account', -⟩ := devicesKept_of_step ok d stored
      exact ⟨d', stays, sameID'.trans sameID, account'.trans account⟩
    · obtain ⟨key, stored, length⟩ := before.key
      exact ⟨key, signingKey_of_step ok mem source (keeps.sourceDeviceID ▸ stored), length⟩
    · exact fun reservation reserved => (reservations reservation reserved).elim (before.requestID reservation) id
    · intro claim claimed
      rcases claims claim claimed with claimed | ⟨now, input, reservation, -, stored, reserved, signed⟩
      · obtain ⟨reservation, reserved, bound⟩ := before.bound claim claimed
        exact ⟨reservation, keeps.reservation reservation reserved, bound.kept keeps⟩
      · refine ⟨reservation, reserved, LinkClaim.Bound.kept ?_ keeps⟩
        exact ⟨input, now, stored, signed.proof, signed.named.symm, signed.coded.symm, signed.requested, signed.origin⟩
  · obtain ⟨d, stored, sameID, account, -⟩ := new.checked.device
    have source : ∃ d ∈ db.store.devices, d.id = link.sourceDeviceID ∧ d.accountID = link.accountID :=
      ⟨d, stored, sameID, account⟩
    refine ⟨new.checked.code, new.checked.origin, ?_, ?_, ?_, ?_⟩
    · obtain ⟨d', stays, sameID', account', -⟩ := devicesKept_of_step ok d stored
      exact ⟨d', stays, sameID'.trans sameID, account'.trans account⟩
    · obtain ⟨key, stored, length⟩ := new.checked.key
      exact ⟨key, signingKey_of_step ok mem source stored, length⟩
    · simp [new.blank.1]
    · simp [new.blank.2.1]

theorem linkSound_of_run (run : DatabaseRun config history db) :
    ∀ link ∈ db.links, LinkSound config db link := by
  refine run.preserves_history (fun _ db => ∀ link ∈ db.links, LinkSound config db link)
    (fun link none => absurd none (no_links link)) ?_ ?_
  · intro history db request reply next before _ sound ok
    exact linkSound_of_step ok (shaped_of_run before) sound
  · exact fun _ _ _ _ _ _ sound _ => sound

end Veritra.Storage
