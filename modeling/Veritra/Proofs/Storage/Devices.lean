import Veritra.Proofs.Storage.Requests

/-! # Devices stay

No operation deletes a device, moves it to another account or takes a revocation back. What an
account's device did is therefore told from the devices of any later state.
-/

namespace Veritra.Storage

open Relational Machine

variable {now : Time} {accountID : AccountID} {s s' retired : Store}

/-- Every device is still there for its account, and a revoked one still is revoked. -/
def Store.DevicesKept (s s' : Store) : Prop :=
  ∀ d ∈ s.devices, ∃ d' ∈ s'.devices, d'.id = d.id ∧ d'.accountID = d.accountID ∧
    (d'.revokedAt = none → d.revokedAt = none)

namespace Store.DevicesKept

variable {s'' : Store}

theorem of_keeps (keeps : KeepsDevices s s') : DevicesKept s s' :=
  fun d mem => ⟨d, keeps d mem, rfl, rfl, id⟩

theorem of_eq (same : s'.devices = s.devices) : DevicesKept s s' :=
  of_keeps fun _ mem => same ▸ mem

theorem refl (s : Store) : DevicesKept s s := of_eq rfl

theorem trans (first : DevicesKept s s') (second : DevicesKept s' s'') : DevicesKept s s'' := by
  intro d mem
  obtain ⟨d', member', sameID, sameAccount, unrevoked⟩ := first d mem
  obtain ⟨d'', member'', sameID', sameAccount', unrevoked'⟩ := second d' member'
  exact ⟨d'', member'', sameID'.trans sameID, sameAccount'.trans sameAccount, unrevoked ∘ unrevoked'⟩

theorem markRevoked (s : Store) (p : Device → Prop) [DecidablePred p] (now : Time) :
    DevicesKept s (s.markRevoked p now) := by
  intro d mem
  simp only [Store.markRevoked, Table.mem_update]
  by_cases hit : p d
  · refine ⟨_, .inr ⟨d, mem, hit, rfl⟩, rfl, rfl, ?_⟩
    intro unrevoked
    exact (Option.or_eq_none_iff.mp unrevoked).1
  · exact ⟨d, .inl ⟨mem, hit⟩, rfl, rfl, id⟩

theorem revoked (s : Store) (accountID : AccountID) (deviceID : DeviceID) (now : Time) :
    DevicesKept s (s.revoked accountID deviceID now) := by
  have marked := markRevoked s (fun d => d.id = deviceID ∧ d.accountID = accountID) now
  refine marked.trans (.of_eq ?_)
  rw [Store.revoked, (retireMLSDevice_writes _ accountID deviceID now).devices]
  rfl

theorem recovered {middle : Store} (recovered : s.Recovered now accountID middle s') :
    DevicesKept s s' := by
  have revoking : DevicesKept s middle := by
    refine revokeEach_preserves ?_ recovered.revoked (markRevoked s _ now)
    intro middle deviceID kept
    exact kept.trans (revoked middle accountID deviceID now)
  exact revoking.trans (.of_keeps recovered.added.devices)

theorem deleted (deleted : s.AccountDeleted now accountID retired s') : DevicesKept s s' := by
  obtain ⟨_, retiring⟩ := deleted.retiring
  refine DevicesKept.trans ?_ (.of_eq deleted.devices)
  rw [retiring]
  refine retireEach_preserves ?_ (markRevoked _ _ now)
  intro middle deviceID kept
  exact kept.trans (.of_eq (retireMLSDevice_writes middle accountID deviceID now).devices)

end Store.DevicesKept

namespace Store

def AllRevoked (accountID : AccountID) (s : Store) : Prop :=
  ∀ d ∈ s.devices, d.accountID = accountID → d.revokedAt ≠ none

theorem AllRevoked.kept (revoked : AllRevoked accountID s)
    (only : ∀ d ∈ s'.devices, ∃ old ∈ s.devices, d.accountID = old.accountID ∧
      (d.revokedAt = none → old.revokedAt = none)) : AllRevoked accountID s' := by
  intro d mem owned unrevoked
  obtain ⟨old, known, account, before⟩ := only d mem
  exact revoked old known (account ▸ owned) (before unrevoked)

theorem mem_markRevoked {p : Device → Prop} [DecidablePred p] {d : Device}
    (mem : d ∈ (s.markRevoked p now).devices) :
    d ∈ s.devices ∧ ¬ p d ∨ ∃ old ∈ s.devices, p old ∧ d.accountID = old.accountID ∧ d.revokedAt ≠ none := by
  simp only [markRevoked, Table.mem_update] at mem
  rcases mem with kept | ⟨old, known, hit, rfl⟩
  · exact .inl kept
  · exact .inr ⟨old, known, hit, rfl, by simp⟩

theorem AllRevoked.revoked {account : AccountID} {deviceID : DeviceID}
    (all : AllRevoked accountID s) : AllRevoked accountID (s.revoked account deviceID now) := by
  apply all.kept
  intro d mem
  rw [Store.revoked, (retireMLSDevice_writes _ account deviceID now).devices] at mem
  rcases mem_markRevoked mem with ⟨kept, -⟩ | ⟨old, known, -, account, revoked⟩
  · exact ⟨d, kept, rfl, id⟩
  · exact ⟨old, known, account, fun unrevoked => absurd unrevoked revoked⟩

theorem allRevoked_of_deleted
    (deleted : s.AccountDeleted now accountID retired s') : AllRevoked accountID s' := by
  obtain ⟨_, retiring⟩ := deleted.retiring
  suffices AllRevoked accountID retired by
    unfold AllRevoked
    rwa [deleted.devices]
  rw [retiring]
  refine retireEach_preserves ?_ ?_
  · intro middle deviceID revoked
    unfold AllRevoked
    rwa [(retireMLSDevice_writes middle accountID deviceID now).devices]
  · intro d mem owned
    rcases mem_markRevoked mem with ⟨-, other⟩ | ⟨_, -, -, -, revoked⟩
    · exact absurd owned other
    · exact revoked

/-- A completed recovery leaves the new device as the account's only unrevoked one. -/
theorem completeRecovery_devices {newDeviceID : DeviceID} {eventID : EventID}
    (ok : s.completeRecovery now accountID newDeviceID = .ok (eventID, s')) :
    (∃ d ∈ s'.devices, d.id = newDeviceID ∧ d.accountID = accountID ∧ d.revokedAt = none) ∧
      (∀ d ∈ s'.devices, d.accountID = accountID → d.revokedAt = none → d.id = newDeviceID) ∧
      ∀ d ∈ s.devices, d.id ≠ newDeviceID := by
  have ok := of_require ok
  obtain ⟨middle, revoking, ok⟩ := bind_eq_ok.mp ok
  have all : AllRevoked accountID middle := by
    refine revokeEach_preserves ?_ revoking ?_
    · exact fun middle deviceID all => all.revoked
    · intro d mem owned unrevoked
      rcases mem_markRevoked mem with ⟨-, other⟩ | ⟨_, -, -, -, revoked⟩
      · exact other ⟨owned, unrevoked⟩
      · exact revoked unrevoked
  have kept : DevicesKept s middle := by
    refine revokeEach_preserves ?_ revoking (.markRevoked s _ now)
    intro middle deviceID kept
    exact kept.trans (.revoked middle accountID deviceID now)
  split at ok
  · cases ok
  · next devices inserted =>
    cases ok
    refine ⟨⟨_, (Table.mem_of_insert? inserted _).mpr (.inr rfl), rfl, rfl, rfl⟩,
      fun d mem owned unrevoked => ?_, fun d mem => ?_⟩
    · rcases (Table.mem_of_insert? inserted d).mp mem with old | rfl
      · exact absurd unrevoked (all d old owned)
      · rfl
    · obtain ⟨d', stays, same, -⟩ := kept d mem
      exact same ▸ Table.free_of_insert? inserted d' stays

end Store

theorem devicesKept_of_call {limits : Limits} {call : Call} {given : Answer}
    (ok : step limits s call = .ok (given, s')) : s.DevicesKept s' := by
  cases effect_of_step ok with
  | harmless _ harmless => exact .of_keeps harmless.devices
  | removed _ devices => exact .of_eq devices
  | marked => exact .markRevoked s _ _
  | revoked => exact .revoked s _ _ _
  | recovered recovered => exact .recovered recovered
  | deleted deleted => exact .deleted deleted
  | bundle _ _ outcome | single _ outcome => exact .of_eq outcome.mlsWrites.only.devices
  | confirmed confirmed => exact .of_eq (Store.confirmMLSRevocation_writes confirmed).devices
  | message _ writes => exact .of_eq writes.devices
  | pruned pruned =>
    have pruned := of_require pruned
    cases pruned
    exact .refl _

end Veritra.Storage
