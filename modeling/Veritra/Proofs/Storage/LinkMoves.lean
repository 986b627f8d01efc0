import Veritra.Proofs.Storage.Outcome

/-! # Where a link comes from

After a committed request every link was there before as it is, or the request created, reserved,
claimed, cancelled, approved or completed it. Links also go: with a device or an account, and when they
are stale. Nothing else writes a link.
-/

namespace Veritra.Storage

open Relational Machine

namespace Database

variable {ttl : ℤ} {id : LinkID} {accountID : AccountID} {deviceID : DeviceID} {code : String}
  {answer : DeviceLinkView × DeviceLinks} {link : DeviceLink} {links : DeviceLinks} {request : Request}
  {config : Config} {db next : Database} {now : Time}

/-- The creator of a link: an unrevoked device with a key, of an active account. -/
structure CreateChecked (config : Config) (db : Database) (accountID : AccountID) (deviceID : DeviceID)
    (code origin : String) : Prop where
  code : validV3Hash code
  origin : config.validOrigin origin
  device : db.store.unrevokedOf deviceID accountID
  account : db.store.activeAccount accountID
  key : ∃ key ∈ db.signingKey deviceID, key.length = 32

/-- What creating a link did: it was a repetition, or it inserted a pending link under an unused code. -/
inductive CreateOutcome (db : Database) (now : Time) (id : LinkID) (linkNonce : Bytes)
    (accountID : AccountID) (deviceID : DeviceID) (code origin : String) (ttl : Time) :
    DeviceLinkView × DeviceLinks → Prop
  | repeated {link : DeviceLink} (mem : link ∈ db.links) (visible : db.linkVisible link)
      (coded : link.code = code) (same : link.accountID = accountID ∧ link.sourceDeviceID = deviceID ∧
        link.serverOrigin = origin ∧ link.ttl = ttl) (window : link.validWindow now) :
      CreateOutcome db now id linkNonce accountID deviceID code origin ttl
        ({ db.publicLink link with code }, db.links)
  | created {links : DeviceLinks} (unused : ∀ link ∈ db.links, link.code ≠ code)
      (inserted : db.links.insert? (newLink id linkNonce accountID deviceID code origin ttl now) = some links) :
      CreateOutcome db now id linkNonce accountID deviceID code origin ttl
        ({ db.publicLink (newLink id linkNonce accountID deviceID code origin ttl now) with code }, links)

theorem createDeviceLink_ok {openLegacyLinks : ℕ} {linkNonce : Bytes} {origin : String}
    (ok : createDeviceLink config db now openLegacyLinks id linkNonce accountID deviceID code origin
      ttl = .ok answer) :
    CreateChecked config db accountID deviceID code origin ∧ ∃ time, createTTL ttl = .ok time ∧
      CreateOutcome db now id linkNonce accountID deviceID code origin time answer := by
  obtain ⟨⟨codeValid, originValid⟩, ok⟩ := require_ok.mp ok
  obtain ⟨time, chosen, ok⟩ := bind_eq_ok.mp ok
  obtain ⟨⟨device, account, key⟩, ok⟩ := require_ok.mp ok
  refine ⟨⟨codeValid, originValid, device, account, key⟩, time, chosen, ?_⟩
  split at ok
  · next link loaded =>
    obtain ⟨mem, visible, coded⟩ := loadDeviceLink_ok loaded
    obtain ⟨same, ok⟩ := require_ok.mp ok
    obtain ⟨window, ok⟩ := require_ok.mp ok
    cases ok
    exact .repeated mem visible coded same window
  · obtain ⟨unused, ok⟩ := require_ok.mp ok
    obtain ⟨-, -, ok⟩ := bind_eq_ok.mp ok
    have ok := of_require ok
    dsimp only at ok
    split at ok
    · cases ok
    · next links inserted =>
      cases ok
      exact .created unused inserted

/-- The columns that a reservation of the link fills. -/
def newReservation (link : DeviceLink) (newDeviceID : DeviceID) (nonce : Bytes) (requestID : String) :
    LinkReservation :=
  ⟨requestID, newDeviceID, ⟨link.id, link.accountID, newDeviceID, nonce⟩⟩

def reservedLinks (db : Database) (id : LinkID) (reservation : LinkReservation) : DeviceLinks :=
  db.links.update (fun other => other.id = id ∧ other.reservation = none)
    fun other => { other with reservation := some reservation }

/-- What reserving a link did: it was a repetition, or it fixed the id of the new device. -/
inductive ReserveOutcome (db : Database) (newDeviceID : DeviceID) (nonce : Bytes) (requestID : String)
    (link : DeviceLink) : DeviceLinkReservation × DeviceLinks → Prop
  | repeated {reservation : LinkReservation} (reserved : link.reservation = some reservation)
      (same : reservation.requestID = requestID) :
      ReserveOutcome db newDeviceID nonce requestID link (db.linkReservation link reservation, db.links)
  | reserved (unreserved : link.reservation = none)
      (unused : ∀ other ∈ db.links, other.recipientDeviceID ≠ some newDeviceID) :
      ReserveOutcome db newDeviceID nonce requestID link
        (db.linkReservation link (newReservation link newDeviceID nonce requestID),
          db.reservedLinks link.id (newReservation link newDeviceID nonce requestID))

theorem reserveDeviceLink_ok {newDeviceID : DeviceID} {nonce : Bytes} {requestID : String}
    {answer : DeviceLinkReservation × DeviceLinks}
    (ok : db.reserveDeviceLink now newDeviceID nonce code requestID = .ok answer) :
    validV3Hash requestID ∧ ∃ link ∈ db.links, db.linkVisible link ∧ link.code = code ∧
      now < link.expiresAt ∧ link.unapproved ∧
      ReserveOutcome db newDeviceID nonce requestID link answer := by
  obtain ⟨⟨-, requestValid⟩, ok⟩ := require_ok.mp ok
  obtain ⟨link, loaded, ok⟩ := bind_eq_ok.mp ok
  obtain ⟨⟨early, unapproved⟩, ok⟩ := require_ok.mp ok
  obtain ⟨mem, visible, coded⟩ := loadDeviceLink_ok loaded
  refine ⟨requestValid, link, mem, visible, coded, early, unapproved, ?_⟩
  split at ok
  · next reservation reserved =>
    obtain ⟨same, ok⟩ := require_ok.mp ok
    cases ok
    exact .repeated reserved same
  · next unreserved =>
    obtain ⟨unused, ok⟩ := require_ok.mp ok
    cases ok
    exact .reserved unreserved unused

/-- A signed claim that fits its link. -/
structure ClaimSigned (config : Config) (db : Database) (input : DeviceLinkClaimInput) (link : DeviceLink)
    (reservation : LinkReservation) (hash : ClaimProof) : Prop where
  member : link ∈ db.links
  named : link.id = input.enrollmentReservationID
  coded : link.code = input.code
  reserved : link.reservation = some reservation
  requested : input.reservationRequestID = reservation.requestID
  origin : input.serverOrigin = link.serverOrigin
  proof : input.proofMessage config link reservation = .ok hash
  signed : input.challengeSignature.length = 64 ∧ config.verifySignature input.signingKey hash input.challengeSignature

def claimedLinks (db : Database) (id : LinkID) (claim : LinkClaim) : DeviceLinks :=
  db.links.update (fun other => other.id = id ∧ other.state = .pending)
    fun other => { other with state := .claimed, claim := some claim }

/-- What claiming a link did: it was a repetition, or it stored the claim. -/
inductive ClaimOutcome (db : Database) (now : Time) (input : DeviceLinkClaimInput) (link : DeviceLink)
    (hash : ClaimProof) : DeviceLinkView × DeviceLinks → Prop
  | repeated (state : link.state ≠ .pending)
      (same : link.claim.map (·.claimRequestHash) = some hash) :
      ClaimOutcome db now input link hash (db.publicLink link, db.links)
  | claimed (state : link.state = .pending) :
      ClaimOutcome db now input link hash
        (db.publicLink { link with state := .claimed, claim := some (input.claim hash now) },
          db.claimedLinks link.id (input.claim hash now))

theorem claimDeviceLink_ok {input : DeviceLinkClaimInput}
    (ok : claimDeviceLink config db now input = .ok answer) :
    ∃ link reservation hash, ClaimSigned config db input link reservation hash ∧
      ClaimOutcome db now input link hash answer := by
  obtain ⟨link, loaded, ok⟩ := bind_eq_ok.mp ok
  obtain ⟨mem, -, named, coded⟩ := loadDeviceLink_ok loaded
  split at ok
  swap
  · cases ok
  next reservation reserved =>
  obtain ⟨⟨-, requested, origin⟩, ok⟩ := require_ok.mp ok
  obtain ⟨hash, proof, ok⟩ := bind_eq_ok.mp ok
  obtain ⟨signed, ok⟩ := require_ok.mp ok
  refine ⟨link, reservation, hash, ⟨mem, named, coded, reserved, requested, origin, proof, signed⟩, ?_⟩
  split at ok
  · next state =>
    have ok := of_require ok
    have ok := of_require ok
    cases ok
    exact .claimed state
  · next state =>
    obtain ⟨same, ok⟩ := require_ok.mp ok
    cases ok
    exact .repeated state same

def cancelledLinks (db : Database) (id : LinkID) (now : Time) : DeviceLinks :=
  db.links.update (fun other => other.id = id ∧ other.unapproved)
    (fun other => { other with state := .revoked, revokedAt := some now }) (kept DeviceLink.id)

/-- What cancelling a link did: it was a repetition, or it revoked the unapproved link. -/
inductive CancelOutcome (db : Database) (now : Time) (link : DeviceLink) : DeviceLinks → Prop
  | repeated (state : link.state = .revoked) : CancelOutcome db now link db.links
  | cancelled (unapproved : link.unapproved) : CancelOutcome db now link (db.cancelledLinks link.id now)

theorem cancelDeviceLink_ok (ok : db.cancelDeviceLink now id accountID deviceID = .ok links) :
    ∃ link ∈ db.links, link.id = id ∧ link.accountID = accountID ∧ link.sourceDeviceID = deviceID ∧
      CancelOutcome db now link links := by
  unfold cancelDeviceLink at ok
  split at ok
  swap
  · cases ok
  next link found =>
  obtain ⟨mem, rfl⟩ := Table.find?_eq_some.mp found
  obtain ⟨⟨account, source, -⟩, ok⟩ := require_ok.mp ok
  refine ⟨link, mem, rfl, account, source, ?_⟩
  split at ok
  · next state =>
    cases ok
    exact .repeated state
  · obtain ⟨unapproved, ok⟩ := require_ok.mp ok
    cases ok
    exact .cancelled unapproved

theorem mem_withoutLinks (mem : link ∈ (db.withoutLinks now accountID).links) : link ∈ db.links := by
  have kept : ∀ link ∈ (db.withoutLinks now accountID).links, link ∈ db.links :=
    retireEachDevice (R := fun middle => ∀ link ∈ middle.links, link ∈ db.links) accountID now _
      (fun _ mem => mem) fun _ _ _ kept link mem => kept link (Table.mem_delete.mp mem).1
  exact kept link mem

/-- How a link that is there after a request came about. -/
inductive LinkRow (config : Config) (db : Database) : Request → DeviceLink → Prop
  | kept {request : Request} (mem : old ∈ db.links)
      (historyCancelledAt : Option Time) (uncancelled : ∀ time ∈ old.historyCancelledAt,
        historyCancelledAt = some time) : LinkRow config db request { old with historyCancelledAt }
  | created {now : Time} {id : LinkID} {accountID : AccountID} {deviceID : DeviceID} {code : String} {ttl : ℤ}
      (checked : CreateChecked config db accountID deviceID code origin) (chosen : createTTL ttl = .ok time)
      (unused : ∀ link ∈ db.links, link.code ≠ code) (free : ∀ link ∈ db.links, link.id ≠ id) :
      LinkRow config db (.link now (.create openLegacyLinks id linkNonce accountID deviceID code origin ttl))
        (newLink id linkNonce accountID deviceID code origin time now)
  | reserved {now : Time}
      (mem : old ∈ db.links) (valid : validV3Hash requestID) (unreserved : old.reservation = none) :
      LinkRow config db (.link now (.reserve newDeviceID nonce old.code requestID))
        { old with reservation := some (newReservation old newDeviceID nonce requestID) }
  | claimed {now : Time} {hash : ClaimProof} (signed : ClaimSigned config db input old reservation hash)
      (state : old.state = .pending) :
      LinkRow config db (.link now (.claim input))
        { old with state := .claimed, claim := some (input.claim hash now) }
  | cancelled {now : Time} {accountID : AccountID} {deviceID : DeviceID}
      (mem : old ∈ db.links) (unapproved : old.unapproved) :
      LinkRow config db (.link now (.cancel old.id accountID deviceID))
        { old with state := .revoked, revokedAt := some now }
  | approved {now : Time}
      (checked : ClaimChecked db now old.id claim.claimRequestHash claim.transcriptHash old reservation claim)
      (state : old.state = .claimed) :
      LinkRow config db (.approveLink now keyPackageID old.id old.accountID old.sourceDeviceID
        claim.claimRequestHash claim.transcriptHash approvalTag)
        { old with
          state := .approved, approval := some ⟨approvalTag, now, now + deviceLinkTransferLifetime⟩ }
  | completed {now : Time}
      (checked : ClaimChecked db now old.id claim.claimRequestHash claim.transcriptHash old reservation claim)
      (approved : old.approval = some approval) (state : old.state = .approved) :
      LinkRow config db (.completeLink now old.id claim.claimTokenHash claim.claimRequestHash
        claim.initialSessionTokenHash claim.transcriptHash)
        { old with state := .consumed, completedAt := some now }

theorem LinkRow.same (mem : link ∈ db.links) : LinkRow config db request link :=
  .kept mem link.historyCancelledAt fun _ cancelled => cancelled

theorem linkRow_of_link {request : LinkRequest} {reply : LinkReply}
    (served : linkStep config db now request = .ok (reply, links)) (mem : link ∈ links) :
    LinkRow config db (.link now request) link := by
  cases request <;> simp only [linkStep] at served <;> obtain ⟨inner, ran, same⟩ := map_eq_ok.mp served <;>
    cases same
  case create openLegacyLinks id linkNonce accountID deviceID code origin ttl =>
    obtain ⟨checked, time, chosen, outcome⟩ := createDeviceLink_ok ran
    cases outcome with
    | repeated => exact .same mem
    | created unused inserted =>
      rcases (Table.mem_of_insert? inserted link).mp mem with old | rfl
      · exact .same old
      · exact .created checked chosen unused (Table.free_of_insert? inserted)
  case reserve newDeviceID nonce code requestID =>
    obtain ⟨valid, old, known, -, rfl, -, -, outcome⟩ := reserveDeviceLink_ok ran
    cases outcome with
    | repeated => exact .same mem
    | reserved unreserved =>
      simp only [reservedLinks, Table.mem_update] at mem
      rcases mem with ⟨kept, -⟩ | ⟨other, known', ⟨sameID, -⟩, rfl⟩
      · exact .same kept
      · cases Table.eq_of_key known' known sameID
        exact .reserved known valid unreserved
  case claim input =>
    obtain ⟨old, reservation, hash, signed, outcome⟩ := claimDeviceLink_ok ran
    cases outcome with
    | repeated => exact .same mem
    | claimed state =>
      simp only [claimedLinks, Table.mem_update] at mem
      rcases mem with ⟨kept, -⟩ | ⟨other, known, ⟨sameID, -⟩, rfl⟩
      · exact .same kept
      · cases Table.eq_of_key known signed.member sameID
        exact .claimed signed state
  case cancel id accountID deviceID =>
    obtain ⟨old, known, rfl, -, -, outcome⟩ := cancelDeviceLink_ok ran
    cases outcome with
    | repeated => exact .same mem
    | cancelled unapproved =>
      simp only [cancelledLinks, Table.mem_update] at mem
      rcases mem with ⟨kept, -⟩ | ⟨other, known', ⟨sameID, -⟩, rfl⟩
      · exact .same kept
      · cases Table.eq_of_key known' known sameID
        exact .cancelled known unapproved

theorem linkRow_of_history {request : HistoryRequest} {reply : HistoryReply}
    (served : historyStep config db now request = .ok (reply, next)) (mem : link ∈ next.links) :
    LinkRow config db (.history now request) link := by
  cases historyOutcome_of_step served with
  | unchanged => exact .same mem
  | registered registered =>
    obtain ⟨intents, -, rfl⟩ := registered.inserted
    exact .same mem
  | finalized finalized =>
    obtain ⟨transfers, -, rfl⟩ := finalized.inserted
    exact .same mem
  | aborted => exact .same mem
  | acknowledged => exact .same mem
  | cancelled =>
    dsimp only at mem
    rcases Table.mem_update.mp mem with ⟨kept, -⟩ | ⟨old, known, -, rfl⟩
    · exact .same kept
    · refine .kept known _ fun time cancelled => ?_
      rw [Option.mem_def.mp cancelled]
      rfl

/-- Every link after a committed request came about in one of the ways. -/
theorem linkRow_of_step {reply : Reply} (ok : Database.step config db request = .ok (reply, next))
    (mem : link ∈ next.links) : LinkRow config db request link := by
  cases outcome_of_step ok with
  | revoked | deleted | pruned => exact .same (Table.mem_delete.mp mem).1
  | link served => exact linkRow_of_link served mem
  | approved checked account source outcome =>
    cases outcome with
    | repeated => exact .same mem
    | approved state =>
      simp only [approvedDatabase, approvedLinks, Table.mem_update] at mem
      rcases mem with ⟨kept, -⟩ | ⟨old, known, ⟨sameID, -⟩, rfl⟩
      · exact .same kept
      · cases Table.eq_of_key known checked.member (sameID.trans checked.id.symm)
        cases checked.id
        cases account
        cases source
        cases checked.hash
        cases checked.transcript
        exact .approved checked state
  | completed checked token session approved outcome =>
    cases outcome with
    | repeated => exact .same mem
    | completed state =>
      simp only [completedLinks, Table.mem_update] at mem
      rcases mem with ⟨kept, -⟩ | ⟨old, known, ⟨sameID, -⟩, rfl⟩
      · exact .same kept
      · cases Table.eq_of_key known checked.member sameID
        cases checked.id
        cases token
        cases session
        cases checked.hash
        cases checked.transcript
        exact .completed checked approved state
  | history served => exact linkRow_of_history served mem
  | blob served => exact .same ((blobStep_frame served).links ▸ mem)
  | recoveryAnswered _ _ _ outcome =>
    cases outcome with
    | completed => exact .same (mem_withoutLinks mem)
    | _ => exact .same mem
  | _ => exact .same mem

end Database
end Veritra.Storage
