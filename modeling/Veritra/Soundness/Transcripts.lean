import Veritra.Model.Signing.Transcripts
import Veritra.Soundness.SignedMessages

/-! # A transcript names what it covers

Every field of a transcript stands behind its length, so there is one way to read it. The members of a
conversation are sorted first, so their order does not matter.
-/

namespace Veritra.Signing

open Machine BigEndian
open Uploads (Bytes)

variable {transcript groupID groupID' : Bytes} {fields fields' : List Bytes} {members members' : List GroupMember}

theorem transcriptFields_inj (count : fields.length = fields'.length)
    (fits : ∀ field ∈ fields, field.length < 256 ^ 2) (fits' : ∀ field ∈ fields', field.length < 256 ^ 2)
    (same : fields.flatMap (prefixed 2) = fields'.flatMap (prefixed 2)) : fields = fields' := by
  have ends : fields.flatMap (prefixed 2) ++ [] = fields'.flatMap (prefixed 2) ++ [] := congrArg (· ++ []) same
  exact (fields_inj count fits fits' ends).1

theorem DeviceLinkInput.transcript_ok {input : DeviceLinkInput} {linkSecret : Bytes}
    (ok : input.transcript linkSecret = .ok transcript) :
    input.protocolVersion = deviceLinkProtocolVersion ∧
      appendTranscriptFields [] [deviceLinkTranscriptDomain, input.protocolVersion, input.serverOrigin, input.linkID,
        input.accountID, input.linkNonce, input.existingDeviceID, input.existingSigningPublicKey, input.newDeviceID,
        input.newSigningPublicKey] = .ok transcript := by
  obtain ⟨⟨-, -, -, -, version, -⟩, ok⟩ := require_ok.mp ok
  exact ⟨version, ok⟩

/-- Two transcripts that are equal have the same fields. -/
theorem fields_of_transcript (ok : appendTranscriptFields [] fields = .ok transcript)
    (ok' : appendTranscriptFields [] fields' = .ok transcript) (count : fields.length = fields'.length) :
    fields = fields' := by
  obtain ⟨rfl, fits⟩ := appendTranscriptFields_ok ok
  obtain ⟨same, fits'⟩ := appendTranscriptFields_ok ok'
  exact transcriptFields_inj count fits fits' same

/-- The first two fields are the same however many follow. -/
theorem start_of_transcript {first second first' second' : Bytes}
    (ok : appendTranscriptFields [] (first :: second :: fields) = .ok transcript)
    (ok' : appendTranscriptFields [] (first' :: second' :: fields') = .ok transcript) : second = second' := by
  obtain ⟨rfl, fits⟩ := appendTranscriptFields_ok ok
  obtain ⟨same, fits'⟩ := appendTranscriptFields_ok ok'
  simp only [List.forall_mem_cons] at fits fits'
  obtain ⟨-, later⟩ := prefixed_inj fits.1 fits'.1 same
  exact (prefixed_inj fits.2.1 fits'.2.1 later).1

/-- The order of the entries is total, and entries that are as small as each other are the same. -/
theorem sortEntries_eq {entries entries' : List Bytes} (same : entries.Perm entries') :
    sortEntries entries = sortEntries entries' := by
  refine List.Perm.eq_of_pairwise ?_ (List.pairwise_insertionSort _ entries)
    (List.pairwise_insertionSort _ entries') ?_
  · intro first second _ _ below above
    exact List.map_injective_iff.mpr (fun _ _ => UInt8.toNat_inj.mp) (le_antisymm below above)
  · exact (List.perm_insertionSort ..).trans (same.trans (List.perm_insertionSort ..).symm)

def GroupMember.Fits (member : GroupMember) : Prop := ∀ field ∈ [member.1, member.2], field.length < 256 ^ 2
  deriving Decidable

def GroupMember.entry (member : GroupMember) : Bytes := [member.1, member.2].flatMap (prefixed 2)

/-- A field that is too long is refused in one way. -/
theorem appendTranscriptFields_eq (start : Bytes) (fields : List Bytes) :
    appendTranscriptFields start fields =
      if ∀ field ∈ fields, field.length < 256 ^ 2 then .ok (start ++ fields.flatMap (prefixed 2))
      else .error .invalidIdentity := by
  induction fields generalizing start with
  | nil =>
    rw [List.flatMap_nil, List.append_nil, if_pos (List.forall_mem_nil _)]
    rfl
  | cons field fields ih =>
    have next := ih (start ++ prefixed 2 field)
    simp only [appendTranscriptFields] at next ⊢
    rw [List.foldlM_cons, appendTranscriptField]
    by_cases fits : field.length < 65536
    · simp [require, fits, next, bind, Except.bind, pure, Except.pure]
    · simp [require, fits, bind, Except.bind]

theorem memberEntries_eq (members : List GroupMember) : memberEntries members =
      if ∀ member ∈ members, member.Fits then .ok (members.map GroupMember.entry) else .error .invalidIdentity := by
  induction members with
  | nil => rfl
  | cons member members ih =>
    have first : appendTranscriptFields [] [member.1, member.2] =
      if member.Fits then .ok member.entry else .error .invalidIdentity := appendTranscriptFields_eq ..
    rw [memberEntries] at ih ⊢
    rw [List.mapM_cons, ih, first]
    simp only [List.forall_mem_cons]
    by_cases fits : member.Fits
    · rw [if_pos fits]
      by_cases later : ∀ member ∈ members, member.Fits
      · rw [if_pos later, if_pos ⟨fits, later⟩]
        rfl
      · rw [if_neg later, if_neg (not_and_of_not_right _ later)]
        rfl
    · rw [if_neg fits, if_neg (not_and_of_not_left _ fits)]
      rfl

theorem conversationSafetyTranscript_perm (same : members.Perm members') :
    conversationSafetyTranscript groupID members = conversationSafetyTranscript groupID members' := by
  simp only [conversationSafetyTranscript, memberEntries_eq, same.mem_iff]
  split
  · simp only [bind, Except.bind, sortEntries_eq (same.map GroupMember.entry)]
  · rfl

theorem conversationSafetyTranscript_ok (ok : conversationSafetyTranscript groupID members = .ok transcript) :
    (∀ member ∈ members, member.Fits) ∧
      ∃ entries : List Bytes, entries.Perm (members.map GroupMember.entry) ∧ entries.length < 256 ^ 4 ∧
        (∀ field ∈ [ascii "veritra-conversation-safety-v2", groupID], field.length < 256 ^ 2) ∧
        (∀ entry ∈ entries, entry.length < 256 ^ 2) ∧
        transcript = [ascii "veritra-conversation-safety-v2", groupID].flatMap (prefixed 2) ++
          (put 4 entries.length ++ entries.flatMap (prefixed 2)) := by
  rw [conversationSafetyTranscript, memberEntries_eq] at ok
  split at ok
  next fit =>
    have ok := of_require ok
    obtain ⟨few, ok⟩ := require_ok.mp ok
    obtain ⟨start, header, ok⟩ := bind_eq_ok.mp ok
    obtain ⟨rfl, fits⟩ := appendTranscriptFields_ok header
    obtain ⟨rfl, fits'⟩ := appendTranscriptFields_ok ok
    exact ⟨fit, _, List.perm_insertionSort .., few, fits, fits', List.append_assoc ..⟩
  next => cases ok

theorem GroupMember.entry_inj {member member' : GroupMember} (fits : member.Fits) (fits' : member'.Fits)
    (same : member.entry = member'.entry) : member = member' := by
  have fields : [member.1, member.2] = [member'.1, member'.2] := transcriptFields_inj rfl fits fits' same
  simpa [Prod.ext_iff] using fields

theorem mem_of_entries (fits : ∀ member ∈ members, member.Fits) (fits' : ∀ member ∈ members', member.Fits)
    (same : (members.map GroupMember.entry).Perm (members'.map GroupMember.entry)) {member : GroupMember}
    (mem : member ∈ members) : member ∈ members' := by
  obtain ⟨other, mem', entry⟩ := List.mem_map.mp (same.mem_iff.mp (List.mem_map_of_mem mem))
  rwa [GroupMember.entry_inj (fits _ mem) (fits' _ mem') entry.symm]

theorem members_of_transcript (ok : conversationSafetyTranscript groupID members = .ok transcript)
    (ok' : conversationSafetyTranscript groupID' members' = .ok transcript) :
    groupID = groupID' ∧ ∀ member, member ∈ members ↔ member ∈ members' := by
  obtain ⟨fits, entries, sorted, few, header, fit, rfl⟩ := conversationSafetyTranscript_ok ok
  obtain ⟨fits', entries', sorted', few', header', fit', same⟩ := conversationSafetyTranscript_ok ok'
  obtain ⟨groups, same⟩ := fields_inj (by rfl) header header' same
  obtain ⟨counts, same⟩ := List.append_inj same (by rw [length_put, length_put])
  obtain rfl := transcriptFields_inj (put_inj few few' counts) fit fit' same
  have entries := sorted.symm.trans sorted'
  simp only [List.cons.injEq, and_true, true_and] at groups
  exact ⟨groups, fun member => ⟨mem_of_entries fits fits' entries, mem_of_entries fits' fits entries.symm⟩⟩

theorem put_get_two (high low : UInt8) : put 2 (BigEndian.get [high, low]) = [high, low] := by
  have bound := low.toNat_lt
  have length : BigEndian.get [high, low] = high.toNat * 256 + low.toNat := by simp [BigEndian.get]
  have above : (high.toNat * 256 + low.toNat) / 256 = high.toNat := by omega
  simp [put, length, above, UInt8.ofNat_add, UInt8.ofNat_mul]

theorem identityField_ok {input : Bytes} {stop : ℕ} (ok : identityField input = .ok stop) :
    validID ((input.take stop).drop 2) ∧ input.take stop = prefixed 2 ((input.take stop).drop 2) := by
  obtain ⟨enough, ok⟩ := require_ok.mp ok
  obtain ⟨⟨some, short, inside⟩, ok⟩ := require_ok.mp ok
  cases ok
  obtain _ | ⟨high, _ | ⟨low, rest⟩⟩ := input
  · contradiction
  · contradiction
  · have spelled := put_get_two high low
    simp only [List.take_succ_cons, List.take_zero, List.length_cons] at some short inside ⊢
    generalize BigEndian.get [high, low] = n at *
    have length : (rest.take n).length = n := List.length_take_of_le (by omega)
    rw [Nat.add_comm, List.take_succ_cons, List.take_succ_cons, List.drop_succ_cons, List.drop_succ_cons,
      List.drop_zero, prefixed, length, spelled]
    exact ⟨⟨List.ne_nil_of_length_pos (by omega), by omega⟩, rfl⟩

theorem encode_of_decodeDeviceIdentity {identity accountID deviceID : Bytes}
    (ok : decodeDeviceIdentity identity = .ok (accountID, deviceID)) :
    encodeDeviceIdentity accountID deviceID = .ok identity := by
  cases identity with
  | nil => cases ok
  | cons version rest =>
    obtain ⟨rfl, checked⟩ := require_ok.mp ok
    obtain ⟨stop, account, checked⟩ := bind_eq_ok.mp checked
    obtain ⟨stop', device, checked⟩ := bind_eq_ok.mp checked
    obtain ⟨whole, checked⟩ := require_ok.mp checked
    cases checked
    obtain ⟨valid, laid⟩ := identityField_ok account
    obtain ⟨valid', laid'⟩ := identityField_ok device
    refine require_ok.mpr ⟨⟨valid, valid'⟩, congrArg Except.ok ?_⟩
    rw [← laid, ← laid', whole, List.take_length, List.take_append_drop]

/-- A safety number does not depend on the order of the members and names the group and them, the transcripts of
device links name all their fields and their version, and an identity is read only from its encoding. -/
structure TranscriptsIdentify : Prop where
  order : ∀ groupID members members', members.Perm members' →
    conversationSafetyTranscript groupID members = conversationSafetyTranscript groupID members'
  members : ∀ groupID groupID' members members' transcript,
    conversationSafetyTranscript groupID members = .ok transcript →
      conversationSafetyTranscript groupID' members' = .ok transcript →
      groupID = groupID' ∧ ∀ member, member ∈ members ↔ member ∈ members'
  linkV2 : ∀ (input input' : DeviceLinkInput) linkSecret linkSecret' transcript,
    input.transcript linkSecret = .ok transcript → input'.transcript linkSecret' = .ok transcript → input = input'
  linkV3 : ∀ (context context' : LinkContext) transcript,
    context.transcript = .ok transcript → context'.transcript = .ok transcript → context = context'
  versions : ∀ (input : DeviceLinkInput) linkSecret (context : LinkContext) transcript,
    input.transcript linkSecret = .ok transcript → context.transcript ≠ .ok transcript
  identity : ∀ identity accountID deviceID, decodeDeviceIdentity identity = .ok (accountID, deviceID) →
    encodeDeviceIdentity accountID deviceID = .ok identity

theorem transcripts_identify : TranscriptsIdentify where
  order _ _ _ := conversationSafetyTranscript_perm
  members _ _ _ _ _ := members_of_transcript
  linkV2 input input' _ _ _ ok ok' := by
    have same := fields_of_transcript (input.transcript_ok ok).2 (input'.transcript_ok ok').2 rfl
    cases input
    cases input'
    simpa using same
  linkV3 context context' _ ok ok' := by
    obtain ⟨-, ok⟩ := require_ok.mp ok
    obtain ⟨-, ok'⟩ := require_ok.mp ok'
    have same := fields_of_transcript ok ok' rfl
    cases context
    cases context'
    simpa [Subtype.ext_iff] using same
  versions input _ context _ ok ok' := by
    obtain ⟨version, ok⟩ := input.transcript_ok ok
    obtain ⟨-, ok'⟩ := require_ok.mp ok'
    exact absurd (version.symm.trans (start_of_transcript ok ok')) (by decide)
  identity _ _ _ := encode_of_decodeDeviceIdentity

section

open Example

/-- The safety number of two members, listed in either order. -/
example : (conversationSafetyTranscript (ascii "group") [(ascii "bob", [2]), (ascii "alice", [1])]).isOk ∧
    conversationSafetyTranscript (ascii "group") [(ascii "bob", [2]), (ascii "alice", [1])] =
      conversationSafetyTranscript (ascii "group") [(ascii "alice", [1]), (ascii "bob", [2])] := by
  decide +kernel

/-- The link of Alice's tablet, in either version. -/
example : (DeviceLinkInput.transcript ⟨deviceLinkProtocolVersion, proof.origin, proof.linkID, proof.accountID,
      (filled 1).1, ascii "phone", (filled 2).1, proof.deviceID, (filled 9).1⟩ (List.replicate 16 0)).isOk ∧
    (LinkContext.transcript ⟨proof.origin, proof.linkID, proof.accountID, filled 1, ascii "phone", filled 2,
      proof.deviceID, filled 9, proof.transferPublicKey⟩).isOk := by
  decide +kernel

example : encodeDeviceIdentity (ascii "a") (ascii "b") = .ok [1, 0, 1, 97, 0, 1, 98] ∧
    decodeDeviceIdentity [1, 0, 1, 97, 0, 1, 98] = .ok (ascii "a", ascii "b") := by
  decide +kernel

end

end Veritra.Signing
