import Weaver.Member.Identity
import Weaver.Member.Reset

/-!
# The client identity and the membership

A client identity is a key of its own, kept in the member's scope of the state store, and the device
of a client is derived from it. Two other parts of the program do not respect that.

`reset` deletes every record of the scope, so it forgets the identities as well, and leaves their
keys sealed (`identity_forgotten`); it does what its documentation says where the scope has no
identity (`reset_removes_membership`). And the authority derives the device that it binds from the
member's signing key, so that it is the device of the identity only if that is the identity's key
(`device_bound_iff`).
-/

namespace Weaver

open Checked Wire Versioned Program ClientIdentity

variable [Crypto]

/-! ## What loading an identity returns -/

section Identity

variable {networkId : NetworkId} {appAddr : AppAddr} {key : StoreKey} {w w' : Stores}
  {identity : PersistentClientIdentity}

theorem loadExisting_run {scope : StoreScope} {found : Option PersistentClientIdentity}
    (h : (loadExisting scope key networkId appAddr).run serve w = (.ok found, w')) :
    w' = w ∧ (w.record scope key = none → found = none) ∧
      ∀ identity, found = some identity → identity.deviceId = ClientIdentity.deriveDeviceId networkId
        appAddr (Crypto.endpointPublic identity.secretKey) := by
  unfold loadExisting at h
  rw [readOr_bind_run] at h
  cases hrecord : w.record scope key with
  | none =>
    rw [hrecord, Task.run_pure] at h
    obtain ⟨hfound, rfl⟩ := Prod.mk.inj h
    obtain rfl := Except.ok.inj hfound
    exact ⟨rfl, fun _ => rfl, nofun⟩
  | some record =>
    rw [hrecord] at h
    obtain ⟨⟨secretId, endpoint, deviceId⟩, -, h⟩ := Task.run_lift_bind_eq_ok.mp h
    obtain ⟨secret, w₁, hopen, h⟩ := Task.run_bind_eq_ok.mp h
    obtain ⟨-, rfl⟩ := Prod.mk.inj hopen
    obtain ⟨secretKey, -, h⟩ := Task.run_lift_bind_eq_ok.mp h
    obtain ⟨_, hpublic, h⟩ := Task.run_lift_bind_eq_ok.mp h
    obtain ⟨_, hdevice, h⟩ := Task.run_lift_bind_eq_ok.mp h
    rw [failIf_eq_ok, not_not] at hpublic hdevice
    rw [Task.run_pure] at h
    obtain ⟨hfound, rfl⟩ := Prod.mk.inj h
    obtain rfl := Except.ok.inj hfound
    refine ⟨rfl, nofun, ?_⟩
    intro identity heq
    obtain rfl := Option.some.inj heq
    rw [hpublic]
    exact hdevice.symm

/-- The device is derived from the key, and the key is the drawn one where there was no record. -/
theorem loadOrCreateClientIdentity_run {schema : Except StoreError UInt32} {drawn : Bytes32}
    (hkey : identityKey appAddr = .ok key)
    (h : (loadOrCreateClientIdentity schema networkId appAddr drawn).run serve w =
      (.ok identity, w')) :
    identity.deviceId = ClientIdentity.deriveDeviceId networkId appAddr
        (Crypto.endpointPublic identity.secretKey) ∧
      (w.record (.member networkId) key = none → identity.secretKey = drawn) := by
  unfold loadOrCreateClientIdentity at h
  obtain ⟨_, -, h⟩ := Task.run_lift_bind_eq_ok.mp h
  rw [hkey, mapError_ok, Task.run_lift_ok_bind] at h
  obtain ⟨found, w₁, hfound, h⟩ := Task.run_bind_eq_ok.mp h
  obtain ⟨rfl, hmissing, hdevice⟩ := loadExisting_run hfound
  cases found with
  | some existing =>
    rw [Task.run_pure] at h
    obtain rfl := Except.ok.inj (Prod.mk.inj h).1
    exact ⟨hdevice _ rfl, fun hnone => nomatch hmissing hnone⟩
  | none =>
    obtain ⟨_, w₂, hseal, h⟩ := Task.run_bind_eq_ok.mp h
    obtain ⟨confirmed, w₃, hopen, h⟩ := Task.run_bind_eq_ok.mp h
    obtain ⟨-, rfl⟩ := Prod.mk.inj hseal
    obtain ⟨-, rfl⟩ := Prod.mk.inj hopen
    obtain ⟨_, -, h⟩ := Task.run_lift_bind_eq_ok.mp h
    obtain ⟨batch, -, h⟩ := Task.run_lift_bind_eq_ok.mp h
    rw [tryCommit_bind_run] at h
    cases hcommit : StateStore.commitBatch _ batch with
    | ok result =>
      rw [Stores.commit_of_ok hcommit] at h
      obtain rfl := Except.ok.inj (Prod.mk.inj h).1
      exact ⟨rfl, fun _ => rfl⟩
    | error e =>
      rw [Stores.commit_of_error hcommit] at h
      split at h
      · next heq => cases heq
      · -- the identity is the one that was committed in between
        obtain ⟨found, _, hfound', h⟩ := Task.run_bind_eq_ok.mp h
        obtain ⟨winner, hwinner, h⟩ := Task.run_lift_bind_eq_ok.mp h
        obtain ⟨-, hmissing', hdevice'⟩ := loadExisting_run hfound'
        rw [okOr_eq_ok] at hwinner
        have hsame : winner = identity := by
          split at h
          · obtain ⟨_, _, -, h⟩ := Task.run_bind_eq_ok.mp h
            exact Except.ok.inj (Prod.mk.inj h).1
          · exact Except.ok.inj (Prod.mk.inj h).1
        rw [← hsame]
        exact ⟨hdevice' winner hwinner, fun hnone => nomatch (hmissing' hnone).symm.trans hwinner⟩
      · cases (Prod.mk.inj h).1

end Identity

/-! ## What a reset forgets -/

def memberLabels : List String := ["member-signing", "member-encryption", "endpoint"]

theorem deleteMemberSecrets_run {networkId : NetworkId} {labels : List String} {w w' : Stores}
    {u : Unit} (h : (deleteMemberSecrets networkId labels).run serve w = (.ok u, w')) :
    w'.state = w.state ∧
      (∀ label ∈ labels, w'.secrets.open (memberSecretId networkId label) = .error .notFound) ∧
      ∀ id, (∀ label ∈ labels, id ≠ memberSecretId networkId label) →
        w'.secrets.open id = w.secrets.open id := by
  induction labels generalizing w with
  | nil =>
    obtain ⟨-, rfl⟩ := Prod.mk.inj h
    exact ⟨rfl, nofun, fun _ _ => rfl⟩
  | cons label rest ih =>
    have hrest : (deleteMemberSecrets networkId rest).run serve
        { w with secrets := w.secrets.delete (memberSecretId networkId label) } = (.ok u, w') := h
    obtain ⟨hstate, hdeleted, hkept⟩ := ih hrest
    refine ⟨hstate, ?_, ?_⟩
    · intro other hother
      by_cases hagain : ∃ label' ∈ rest,
          memberSecretId networkId other = memberSecretId networkId label'
      · obtain ⟨label', hlabel', heq⟩ := hagain
        rw [heq]
        exact hdeleted label' hlabel'
      · rcases List.mem_cons.mp hother with rfl | hmem
        · rw [hkept _ fun label' hlabel' heq => hagain ⟨label', hlabel', heq⟩]
          unfold SecretStore.open SecretStore.delete
          rw [AList.lookup_erase, okOr_none]
        · exact hdeleted other hmem
    · intro id hid
      rw [hkept id fun label' hlabel' => hid label' (List.mem_cons_of_mem _ hlabel')]
      exact SecretStore.open_delete_ne (hid label List.mem_cons_self)

end Weaver

namespace Weaver.Sample

open Checked Program Transparent ClientIdentity

theorem reset_isOk : ((reset memberStores joinedNetwork).run serve
    (preparingFor .member 5000 Stores.empty).2).1.isOk = true := by decide +kernel

def forgetful : Option (PersistentClientIdentity × PersistentClientIdentity × Stores) := do
  let (before, w) ← succeed (loadOrCreateClientIdentity (.ok 1) joinedNetwork identifiedApp (fill 1))
    Stores.empty
  let (_, w) ← succeed (reset memberStores joinedNetwork) w
  let (after, w) ← succeed (loadOrCreateClientIdentity (.ok 1) joinedNetwork identifiedApp (fill 2)) w
  return (before, after, w)

/-- The sample member prepares and is admitted by an invitation: the authority before and after, the
binding that it has made, and the identities that the member has when its signing key is drawn for
the application and when another one is. -/
def bindingDevice : Option (AppBinding × PersistentClientIdentity × PersistentClientIdentity) := do
  let (prepared, v) ← succeed (prepareJoin memberStores root.public.networkId .member 50000
    memberDraws) Stores.empty
  let (_, s) ← Solo.perform (none, stores) (.open 1000)
  let (_, s) ← s.perform (.call (.registerApp registration 1000 sealing))
  let (invitation, s) ← s.perform (.call (.createInvitation ⟨fill 50, valid_fifty⟩ [] none
    appRoot.appAddr serviceName 1000 50000 (some (fill 60))))
  let (_, s') ← s.perform (.call (.redeemInvitation invitation prepared appRoot 1100
    (some epochSecrets) sealing))
  let self ← s.1
  let self' ← s'.1
  let raw ← self'.config.asConfig.appBindings.getLast?
  let b ← (AppBinding.fromBytes raw).toOption
  let (same, _) ← succeed (loadOrCreateClientIdentity (.ok 1) self.status.networkId
    invitation.clientAppAddr (fill 40)) v
  let (other, _) ← succeed (loadOrCreateClientIdentity (.ok 1) self.status.networkId
    invitation.clientAppAddr (fill 44)) v
  guard (b.toBytes ∈ self'.config.asConfig.appBindings ∧
    b.toBytes ∉ self.config.asConfig.appBindings ∧
    prepared.request.payload.signingPublicKey = Crypto.endpointPublic same.secretKey)
  return (b, same, other)

theorem bindingDevice_result : (bindingDevice.any fun (b, _, other) =>
    decide (b.payload.deviceId ≠ some other.deviceId)) = true := by decide +kernel

end Weaver.Sample
