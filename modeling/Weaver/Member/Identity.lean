import Weaver.Crypto.Transparent
import Weaver.Store.Rules

/-!
# The identity of a client

`load_or_create_client_identity` of `weaver-net` keeps an endpoint key for an application: the key
in the secret store, and a record in the state store that names it. A new key is sealed and read
back before the record is committed, and a process that comes too late deletes the key that it has
sealed in vain.

`clientIdentity_converges` is about any number of processes that do so at once. Deleting a key is
safe because every deletion comes after the commit.
-/

namespace Weaver

open Checked Wire Wire.Decoder Versioned Program

variable [Crypto]

/-! ## The record -/

structure PersistentClientIdentity where
  secretKey : Bytes32
  deviceId : DeviceId
  secretId : SecretId
deriving DecidableEq

inductive IdentityError where
  | state (error : StoreError)
  | secret (error : SecretStoreError)
  | corruptRecord
  | secretPublicKeyMismatch
  | deviceIdMismatch
  | missingAfterConcurrentCreate
deriving DecidableEq

namespace ClientIdentity

omit [Crypto] in
def recordMagic : Bytes := utf8 "WVRID\x00\x00\x01"

omit [Crypto] in
def identityKey (appAddr : AppAddr) : Except StoreError StoreKey :=
  StoreKey.new (utf8 "identity/client/v1/" ++ appAddr.asBytes.val)

/-- `derive_device_id`, of the endpoint. -/
def deriveDeviceId (networkId : NetworkId) (appAddr : AppAddr) (endpointId : Bytes32) : DeviceId :=
  ⟨deriveKey "weaver.device.v1"
    (networkId.asBytes.val ++ appAddr.asBytes.val ++ endpointId.val)⟩

def deriveSecretId (networkId : NetworkId) (appAddr : AppAddr) (endpointId : Bytes32) : SecretId :=
  deriveKey "weaver.secret.endpoint.v1"
    (networkId.asBytes.val ++ appAddr.asBytes.val ++ endpointId.val)

omit [Crypto] in
def encodeRecord (secretId : SecretId) (endpointId : Bytes32) (deviceId : DeviceId) : Bytes :=
  recordMagic ++ secretId.val ++ endpointId.val ++ deviceId.asBytes.val

/-- `EndpointId::from_bytes`, of an endpoint in a record. -/
def endpointFromBytes (bytes : Bytes32) : Except IdentityError EndpointId :=
  if h : Crypto.validEndpoint bytes = true then .ok ⟨bytes, h⟩ else .error .corruptRecord

def decodeRecord : Bytes → Except IdentityError (SecretId × EndpointId × DeviceId) :=
  Decoder.decode do
    magic .corruptRecord recordMagic
    let secretId ← array .corruptRecord 32
    let endpointId ← array .corruptRecord 32
    let deviceId ← array .corruptRecord 32
    finish .corruptRecord
    let endpointId ← lift (endpointFromBytes endpointId)
    return (secretId, endpointId, ⟨deviceId⟩)

theorem decodeRecord_encodeRecord (secretId : SecretId) (endpointId : EndpointId)
    (deviceId : DeviceId) :
    decodeRecord (encodeRecord secretId endpointId.asBytes deviceId) =
      .ok (secretId, endpointId, deviceId) := by
  have hendpoint : endpointFromBytes endpointId.asBytes = .ok endpointId := by
    unfold endpointFromBytes
    rw [dif_pos endpointId.valid]
  unfold decodeRecord encodeRecord Decoder.decode
  simp only [List.append_assoc, bind_run, magic_run, array_run, array_run_end, finish_run,
    lift_run_ok hendpoint, pure_run, ok_bind]
  rfl

/-! ## Loading and creating -/

def loadExisting (scope : StoreScope) (key : StoreKey) (networkId : NetworkId)
    (appAddr : AppAddr) : StoreTask IdentityError (Option PersistentClientIdentity) := do
  match ← readOr .state scope key with
  | none => return none
  | some record => do
    let (secretId, committedEndpoint, deviceId) ← Task.lift (decodeRecord record.bytes)
    let secret ← Task.request (.openSecret secretId) fun answer => answer.mapError .secret
    let secretKey ← Task.lift
      (if h : secret.length = 32 then .ok (⟨secret, h⟩ : Bytes32) else .error .corruptRecord)
    Task.lift (failIf (Crypto.endpointPublic secretKey ≠ committedEndpoint.asBytes)
      .secretPublicKeyMismatch)
    Task.lift (failIf (deriveDeviceId networkId appAddr committedEndpoint.asBytes ≠ deviceId)
      .deviceIdMismatch)
    return some { secretKey, deviceId, secretId }

end ClientIdentity

open ClientIdentity

/-- `load_or_create_client_identity`, with what the state store says of its schema and the key that
is generated when there is none. -/
def loadOrCreateClientIdentity (schemaVersion : Except StoreError UInt32) (networkId : NetworkId)
    (appAddr : AppAddr) (secretKey : Bytes32) :
    StoreTask IdentityError PersistentClientIdentity := do
  Task.lift ((ensureSupportedSchema schemaVersion).mapError .state)
  let scope := StoreScope.member networkId
  let key ← Task.lift ((identityKey appAddr).mapError .state)
  match ← loadExisting scope key networkId appAddr with
  | some identity => return identity
  | none => do
    let endpointId := Crypto.endpointPublic secretKey
    let deviceId := deriveDeviceId networkId appAddr endpointId
    let secretId := deriveSecretId networkId appAddr endpointId
    Task.request (.sealSecret secretId secretKey.val) fun answer => answer.mapError .secret
    let confirmed ← Task.request (.openSecret secretId) fun answer => answer.mapError .secret
    Task.lift (failIf (confirmed ≠ secretKey.val) .secretPublicKeyMismatch)
    let record := encodeRecord secretId endpointId deviceId
    let batch ← Task.lift (((AtomicBatch.new scope).put key record .missing).mapError .state)
    match ← tryCommit batch with
    | .ok _ => return { secretKey, deviceId, secretId }
    | .error (.versionConflict _ _ _) => do
      let winner ← loadExisting scope key networkId appAddr
      let winner ← Task.lift (okOr winner .missingAfterConcurrentCreate)
      -- the secret is known not to be referenced by the winning record
      if winner.secretId ≠ secretId then
        Task.request (.deleteSecret secretId) fun answer => answer.mapError .secret
      return winner
    -- the backend may have committed and lost the acknowledgement: the secret stays
    | .error e => Task.lift (.error (.state e))

/-! ## What is stored -/

omit [Crypto] in
theorem ClientIdentity.exists_identityKey (appAddr : AppAddr) :
    ∃ key, identityKey appAddr = .ok key := by
  have hlength : (utf8 "identity/client/v1/" ++ appAddr.asBytes.val).length = 51 := by
    rw [List.length_append, appAddr.asBytes.property]
    decide
  unfold identityKey StoreKey.new
  rw [dif_pos ⟨by omega, by rw [hlength]; decide⟩]
  exact ⟨_, rfl⟩

section Contract

variable (networkId : NetworkId) (appAddr : AppAddr) (key : StoreKey)

def PersistentClientIdentity.record (identity : PersistentClientIdentity) : Bytes :=
  encodeRecord identity.secretId (Crypto.endpointPublic identity.secretKey) identity.deviceId

/-- The record is the identity's, the key that it names is sealed, and the device is derived from
the key. -/
structure PersistentClientIdentity.StoredIn (identity : PersistentClientIdentity) (w : Stores) :
    Prop where
  record : ∃ version, w.record (.member networkId) key = some ⟨version, identity.record⟩
  sealed : w.secrets.open identity.secretId = .ok identity.secretKey.val
  device : identity.deviceId =
    deriveDeviceId networkId appAddr (Crypto.endpointPublic identity.secretKey)

def Identified (w : Stores) : Prop :=
  w.record (.member networkId) key = none ∨
    ∃ identity : PersistentClientIdentity, identity.StoredIn networkId appAddr key w

/-- How the stores change while identities are created: an identity stays as it is, and until there
is one, secrets are only added. -/
structure IdentifiedLe (w w' : Stores) : Prop where
  record : ∀ record, w.record (.member networkId) key = some record →
    w'.record (.member networkId) key = some record
  identity : ∀ identity : PersistentClientIdentity, identity.StoredIn networkId appAddr key w →
    identity.StoredIn networkId appAddr key w'
  secrets : w'.record (.member networkId) key = none → ∀ id secret, w.secrets.open id = .ok secret →
    w'.secrets.open id = .ok secret

def identityContract : Contract Stores where
  Inv := Identified networkId appAddr key
  Le := IdentifiedLe networkId appAddr key
  refl _ := ⟨fun _ h => h, fun _ h => h, fun _ _ _ h => h⟩
  trans {w₁ w₂ w₃} h h' := by
    refine ⟨fun record hr => h'.record record (h.record record hr),
      fun identity hi => h'.identity identity (h.identity identity hi), ?_⟩
    intro hnone id secret hopen
    have hnone₂ : w₂.record (.member networkId) key = none := by
      cases hr : w₂.record (.member networkId) key with
      | none => rfl
      | some record =>
        rw [h'.record record hr] at hnone
        cases hnone
    exact h'.secrets hnone id secret (h.secrets hnone₂ id secret hopen)

/-- What a process may do in one step: it seals a secret, it commits the record of a sealed key
where there is none, or it deletes a secret that the identity does not name. -/
inductive IdentityStep (w w' : Stores) : Prop
  | stays : w' = w → IdentityStep w w'
  | seals (id : SecretId) (plaintext : Bytes) :
      w' = { w with secrets := (w.secrets.seal id plaintext).2 } → IdentityStep w w'
  | commits (identity : PersistentClientIdentity) :
      w.record (.member networkId) key = none → w'.secrets = w.secrets →
      identity.StoredIn networkId appAddr key w' → IdentityStep w w'
  | deletes (identity : PersistentClientIdentity) (id : SecretId) :
      identity.StoredIn networkId appAddr key w → id ≠ identity.secretId →
      w' = { w with secrets := w.secrets.delete id } → IdentityStep w w'

variable {networkId appAddr key}

theorem PersistentClientIdentity.StoredIn.unique {identity identity' : PersistentClientIdentity}
    {w : Stores} (h : identity.StoredIn networkId appAddr key w)
    (h' : identity'.StoredIn networkId appAddr key w) : identity = identity' := by
  obtain ⟨⟨version, hrecord⟩, hsealed, -⟩ := h
  obtain ⟨⟨version', hrecord'⟩, hsealed', -⟩ := h'
  have hbytes : identity.record = identity'.record := by
    have heq := Option.some.inj (hrecord.symm.trans hrecord')
    exact congrArg Entry.value heq
  -- the bytes give back the identifiers, and the secret store gives back the key
  let endpoint : EndpointId := ⟨_, Crypto.validEndpoint_endpointPublic identity.secretKey⟩
  let endpoint' : EndpointId := ⟨_, Crypto.validEndpoint_endpointPublic identity'.secretKey⟩
  have hdecode : (Except.ok (identity.secretId, endpoint, identity.deviceId) :
      Except IdentityError _) = .ok (identity'.secretId, endpoint', identity'.deviceId) := by
    calc _ = decodeRecord identity.record := (decodeRecord_encodeRecord _ endpoint _).symm
      _ = decodeRecord identity'.record := by rw [hbytes]
      _ = _ := decodeRecord_encodeRecord _ endpoint' _
  simp only [Except.ok.injEq, Prod.mk.injEq] at hdecode
  obtain ⟨hid, -, hdevice⟩ := hdecode
  rw [hid] at hsealed
  have hkey : identity.secretKey = identity'.secretKey :=
    Subtype.ext (Except.ok.inj (hsealed.symm.trans hsealed'))
  obtain ⟨k, d, i⟩ := identity
  obtain ⟨k', d', i'⟩ := identity'
  obtain rfl : k = k' := hkey
  obtain rfl : d = d' := hdevice
  obtain rfl : i = i' := hid
  rfl

theorem identity_allows :
    (identityContract networkId appAddr key).Allows (IdentityStep networkId appAddr key) := by
  intro w w' hinv hstep
  cases hstep with
  | stays h =>
    rw [h]
    exact ⟨hinv, (identityContract networkId appAddr key).refl w⟩
  | seals id plaintext h =>
    rw [h]
    have hkeep : ∀ identity : PersistentClientIdentity,
        identity.StoredIn networkId appAddr key w → identity.StoredIn networkId appAddr key
          { w with secrets := (w.secrets.seal id plaintext).2 } := fun identity hi =>
      ⟨hi.record, SecretStore.open_seal_of_ok hi.sealed, hi.device⟩
    refine ⟨?_, fun _ hr => hr, hkeep, fun _ _ _ hopen => SecretStore.open_seal_of_ok hopen⟩
    rcases hinv with hnone | ⟨identity, hi⟩
    · exact .inl hnone
    · exact .inr ⟨identity, hkeep identity hi⟩
  | commits identity hnone hsecrets hstored =>
    refine ⟨.inr ⟨identity, hstored⟩, ?_, ?_, ?_⟩
    · intro record hrecord
      rw [hnone] at hrecord
      cases hrecord
    · intro identity' hi
      obtain ⟨version, hrecord⟩ := hi.record
      rw [hnone] at hrecord
      cases hrecord
    · intro _ id secret hopen
      rw [hsecrets]
      exact hopen
  | deletes identity id hstored hne h =>
    rw [h]
    have hkept : identity.StoredIn networkId appAddr key
        { w with secrets := w.secrets.delete id } := by
      refine ⟨hstored.record, ?_, hstored.device⟩
      rw [SecretStore.open_delete_ne hne.symm]
      exact hstored.sealed
    refine ⟨.inr ⟨identity, hkept⟩, fun _ hr => hr, ?_, ?_⟩
    · intro identity' hi
      rw [← hstored.unique hi]
      exact hkept
    · intro hnone
      obtain ⟨version, hrecord⟩ := hstored.record
      rw [show w.record (.member networkId) key = none from hnone] at hrecord
      cases hrecord

theorem identity_stable (identity : PersistentClientIdentity) :
    (identityContract networkId appAddr key).Stable
      (identity.StoredIn networkId appAddr key) := by
  intro w w' hle _ h
  exact hle.identity identity h

end Contract

/-! ## One process -/

section Safe

variable {networkId : NetworkId} {appAddr : AppAddr} {key : StoreKey} {w : Stores}

theorem Identified.identity (hinv : Identified networkId appAddr key w) {record : VersionedBytes}
    (hrecord : w.record (.member networkId) key = some record) :
    ∃ identity : PersistentClientIdentity, identity.StoredIn networkId appAddr key w ∧
      record.bytes = identity.record := by
  rcases hinv with hnone | ⟨identity, hstored⟩
  · rw [hnone] at hrecord
    cases hrecord
  · obtain ⟨version, hstoredRecord⟩ := hstored.record
    rw [hrecord] at hstoredRecord
    exact ⟨identity, hstored, congrArg Entry.value (Option.some.inj hstoredRecord)⟩

theorem loadExisting_safe :
    Safe storeMachine (identityContract networkId appAddr key)
      (IdentityStep networkId appAddr key)
      (loadExisting (.member networkId) key networkId appAddr)
      (OnOk fun found w => ∀ identity, found = some identity →
        identity.StoredIn networkId appAddr key w) w := by
  unfold loadExisting
  refine Safe.read_andThen (fun _ => .stays rfl) (by simp) ?_
  intro w₁ _ hinv₁ found hfound
  obtain rfl := Except.ok.inj hfound
  split
  · exact Safe.pure nofun
  next record hrecord =>
  obtain ⟨identity, hstored, hbytes⟩ := hinv₁.identity hrecord
  refine Safe.lift_andThen fun decoded hdecoded => ?_
  have hdecode := decodeRecord_encodeRecord identity.secretId
    ⟨_, Crypto.validEndpoint_endpointPublic identity.secretKey⟩ identity.deviceId
  rw [hbytes, PersistentClientIdentity.record, hdecode] at hdecoded
  obtain rfl := Except.ok.inj hdecoded
  refine Safe.openSecret_andThen (fun _ => .stays rfl) (by simp) ?_
  intro w₂ hle₂ _ secret hsecret
  -- the identity is still there, so its secret is the one that is opened
  have hstored₂ := hle₂.identity identity hstored
  rw [hstored₂.sealed] at hsecret
  obtain rfl := Except.ok.inj hsecret
  refine Safe.lift_andThen fun secretKey hkey => ?_
  rw [dif_pos identity.secretKey.property] at hkey
  obtain rfl := Except.ok.inj hkey
  refine Safe.lift_andThen fun _ _ => Safe.lift_andThen fun _ _ => Safe.pure ?_
  intro identity' heq
  obtain rfl := Option.some.inj heq
  exact hstored₂

theorem IdentityStep.commit {w w' : Stores} {batch : AtomicBatch} {version : UInt64}
    (identity : PersistentClientIdentity)
    (hbatch : (AtomicBatch.new (.member networkId)).put key identity.record .missing = .ok batch)
    (hcommit : w.state.commitBatch batch = .ok (version, w'.state))
    (hsecrets : w'.secrets = w.secrets)
    (hsealed : w.record (.member networkId) key = none →
      w.secrets.open identity.secretId = .ok identity.secretKey.val)
    (hdevice : identity.deviceId =
      deriveDeviceId networkId appAddr (Crypto.endpointPublic identity.secretKey)) :
    IdentityStep networkId appAddr key w w' ∧ identity.StoredIn networkId appAddr key w' := by
  obtain ⟨hnone, hput, -⟩ := Stores.create_spec hbatch hcommit
  have hstored : identity.StoredIn networkId appAddr key w' := by
    refine ⟨hput, ?_, hdevice⟩
    rw [hsecrets]
    exact hsealed hnone
  exact ⟨.commits identity hnone hsecrets hstored, hstored⟩

theorem winner_safe (hinv : Identified networkId appAddr key w) (secretId : SecretId) :
    Safe storeMachine (identityContract networkId appAddr key)
      (IdentityStep networkId appAddr key)
      (do
        let winner ← loadExisting (.member networkId) key networkId appAddr
        let winner ← Task.lift (okOr winner .missingAfterConcurrentCreate)
        if winner.secretId ≠ secretId then
          Task.request (.deleteSecret secretId) fun answer => answer.mapError .secret
        return winner : StoreTask IdentityError PersistentClientIdentity)
      (OnOk fun identity w => identity.StoredIn networkId appAddr key w) w := by
  refine Safe.andThen identity_allows hinv loadExisting_safe ?_
  intro found w₁ _ hinv₁ hfound
  refine Safe.lift_andThen fun winner hwinner => ?_
  have hstored := hfound winner (okOr_eq_ok.mp hwinner)
  split
  · next hne =>
    refine Safe.request_andThen ?_
    intro w₂ hle₂ hinv₂ answer w₃ hstep
    have hstored₂ := hle₂.identity winner hstored
    have hdeletes : IdentityStep networkId appAddr key w₂
        { w₂ with secrets := w₂.secrets.delete secretId } :=
      .deletes winner secretId hstored₂ (Ne.symm hne) rfl
    have hG : IdentityStep networkId appAddr key w₂ w₃ := by
      rcases hstep with hserve | ⟨message, -, hw | hw⟩
      · rw [(Prod.mk.inj hserve).2]
        exact hdeletes
      · exact .stays hw
      · rw [hw]
        exact hdeletes
    refine ⟨hG, ?_⟩
    intro _ _
    exact Safe.pure ((identity_allows w₂ w₃ hinv₂ hG).2.identity winner hstored₂)
  · exact Safe.pure hstored

theorem loadOrCreateClientIdentity_safe (hinv : Identified networkId appAddr key w)
    (hkey : identityKey appAddr = .ok key) (schemaVersion : Except StoreError UInt32)
    (secretKey : Bytes32) :
    Safe storeMachine (identityContract networkId appAddr key)
      (IdentityStep networkId appAddr key)
      (loadOrCreateClientIdentity schemaVersion networkId appAddr secretKey)
      (OnOk fun identity w => identity.StoredIn networkId appAddr key w) w := by
  unfold loadOrCreateClientIdentity
  refine Safe.lift_andThen fun _ _ => ?_
  refine Safe.lift_andThen fun key' hkey' => ?_
  rw [hkey, mapError_ok] at hkey'
  obtain rfl := Except.ok.inj hkey'
  refine Safe.andThen identity_allows hinv loadExisting_safe ?_
  intro found w₁ _ hinv₁ hfound
  split
  · next identity => exact Safe.pure (hfound identity rfl)
  refine Safe.request_andThen ?_
  intro w₂ _ _ answer w₃ hseal
  have hG₃ : IdentityStep networkId appAddr key w₂ w₃ := by
    rcases (storeMachine_seal hseal).1 with hw | hw
    · exact .stays hw
    · exact .seals _ _ hw
  refine ⟨hG₃, ?_⟩
  intro _ _
  refine Safe.openSecret_andThen (fun _ => .stays rfl) (by simp) ?_
  intro w₄ _ hinv₄ confirmed hconfirmed
  refine Safe.lift_andThen fun _ heq => ?_
  rw [failIf_eq_ok, Decidable.not_not] at heq
  rw [mapError_eq_ok, heq] at hconfirmed
  refine Safe.lift_andThen fun batch hbatch => ?_
  rw [mapError_eq_ok] at hbatch
  let identity : PersistentClientIdentity :=
    ⟨secretKey, deriveDeviceId networkId appAddr (Crypto.endpointPublic secretKey),
      deriveSecretId networkId appAddr (Crypto.endpointPublic secretKey)⟩
  refine Safe.tryCommit_andThen (fun _ => .stays rfl) ?_ ?_
  · intro w₅ hle₅ hinv₅ version w₆ hcommit hsecrets
    -- the record is missing until the commit, so the secret has not been deleted
    obtain ⟨hstep, hstored⟩ := IdentityStep.commit identity hbatch hcommit hsecrets
      (fun hnone => hle₅.secrets hnone _ _ hconfirmed) rfl
    refine ⟨hstep, ?_⟩
    intro answer
    split
    · exact Safe.pure hstored
    · exact winner_safe (identity_allows w₅ w₆ hinv₅ hstep).1 _
    · exact Safe.lift nofun
  · intro w₅ _ hinv₅ e
    split
    · next heq => cases heq
    · exact winner_safe hinv₅ _
    · exact Safe.lift nofun

end Safe

/-! ## All processes -/

/-- A call of `load_or_create_client_identity`: what the state store says of its schema, and the key
that is generated when there is none. -/
structure IdentityCall where
  schemaVersion : Except StoreError UInt32
  secretKey : Bytes32

def identityApi (networkId : NetworkId) (appAddr : AppAddr) : Api storeInterface Stores where
  Handle := Unit
  Call := IdentityCall
  Reply _ := Except IdentityError PersistentClientIdentity
  body c _ := Prog.bind
    (loadOrCreateClientIdentity c.schemaVersion networkId appAddr c.secretKey)
    fun reply => .ret (reply, ())
  machine _ := storeMachine

def identityProcesses (networkId : NetworkId) (appAddr : AppAddr) :
    Rules (identityApi networkId appAddr) where
  Spawn _ _ := True
  Start _ _ _ := True

def identityVerified {networkId : NetworkId} {appAddr : AppAddr} {key : StoreKey}
    (hkey : identityKey appAddr = .ok key) : Verified (identityProcesses networkId appAddr) where
  contract := identityContract networkId appAddr key
  Guarantee _ := IdentityStep networkId appAddr key
  Holds _ _ := True
  Records e w := ∀ identity, e.reply = .ok identity → identity.StoredIn networkId appAddr key w
  allows _ := identity_allows
  holds_stable _ _ _ _ _ _ := trivial
  records_stable _ w w' hle hinv h identity hi :=
    identity_stable identity w w' hle hinv (h identity hi)
  spawn _ _ _ _ := trivial
  start _ _ c hinv _ _ _ :=
    Safe.bind identity_allows hinv
      (loadOrCreateClientIdentity_safe hinv hkey c.schemaVersion c.secretKey)
      fun _ _ _ _ hreply => ⟨trivial, hreply⟩

/-- Whatever the processes do that load or create the identity of an application, a committed record
names a sealed key, and the key's public part and device are those of the record; the record does
not change any more; and all calls that return an identity return the same key and device. -/
theorem clientIdentity_converges {networkId : NetworkId} {appAddr : AppAddr} {key : StoreKey}
    (hkey : identityKey appAddr = .ok key) {w : Stores} (hw : Identified networkId appAddr key w)
    {P : Pool (identityApi networkId appAddr)}
    (h : Reachable (identityProcesses networkId appAddr) w P) :
    (∀ record, P.world.record (.member networkId) key = some record →
      ∃ (secretId : SecretId) (secretKey : Bytes32),
        record.bytes = encodeRecord secretId (Crypto.endpointPublic secretKey)
          (deriveDeviceId networkId appAddr (Crypto.endpointPublic secretKey)) ∧
        P.world.secrets.open secretId = .ok secretKey.val) ∧
    (∀ P', Steps (identityProcesses networkId appAddr) P P' → ∀ record,
      P.world.record (.member networkId) key = some record →
      P'.world.record (.member networkId) key = some record) ∧
    ∀ e ∈ P.log, ∀ e' ∈ P.log, ∀ identity identity', e.reply = .ok identity →
      e'.reply = .ok identity' →
      identity.secretKey = identity'.secretKey ∧ identity.deviceId = identity'.deviceId := by
  have hgood : Verified.Good (identityVerified hkey) P := Verified.good hw h
  refine ⟨?_, ?_, ?_⟩
  · intro record hrecord
    obtain ⟨identity, hstored, hbytes⟩ := hgood.inv.identity hrecord
    refine ⟨identity.secretId, identity.secretKey, ?_, hstored.sealed⟩
    rw [hbytes, PersistentClientIdentity.record, hstored.device]
  · intro P' hsteps record hrecord
    exact (hgood.steps hsteps).2.record record hrecord
  · intro e he e' he' identity identity' hi hi'
    have heq := (hgood.log e he identity hi).unique (hgood.log e' he' identity' hi')
    rw [heq]
    exact ⟨rfl, rfl⟩

end Weaver

namespace Weaver.Sample

open Program Transparent

def identifiedApp : AppAddr := ⟨fill 7⟩

def created : Pool (identityApi ⟨fill 9⟩ identifiedApp) :=
  (Pool.alone _ Stores.empty () []).perform serve 0 () ⟨.ok 1, fill 1⟩

def identified : Pool (identityApi ⟨fill 9⟩ identifiedApp) :=
  created.perform serve 0 () ⟨.ok 1, fill 2⟩

theorem identified_isOk : identified.log.map (fun e => e.reply.isOk) = [true, true] := by
  decide +kernel

/-- The two calls return the same key. -/
theorem clientIdentity_converges_sample :
    identified.log.map (fun e => e.reply.isOk) = [true, true] ∧
      ∀ e ∈ identified.log, ∀ e' ∈ identified.log, ∀ identity identity', e.reply = .ok identity →
        e'.reply = .ok identity' →
        identity.secretKey = identity'.secretKey ∧ identity.deviceId = identity'.deviceId := by
  obtain ⟨key, hkey⟩ := ClientIdentity.exists_identityKey identifiedApp
  have hserve : ∀ (c : IdentityCall) (w : Stores) (r : StoreRequest),
      (identityApi ⟨fill 9⟩ identifiedApp).machine c w r (serve w r).1 (serve w r).2 :=
    fun _ w r => storeMachine_serve w r
  have hcreated : Reachable (identityProcesses ⟨fill 9⟩ identifiedApp) Stores.empty created :=
    .trans (Reachable.alone trivial) (Steps.perform (hserve _) rfl trivial)
  obtain ⟨u, hidle⟩ : ∃ u, created.processes[0]? = some (.idle u) := ⟨_, Pool.perform_idle _ rfl⟩
  have hreachable : Reachable (identityProcesses ⟨fill 9⟩ identifiedApp) Stores.empty identified :=
    .trans hcreated (Steps.perform (hserve _) hidle trivial)
  exact ⟨identified_isOk,
    (clientIdentity_converges hkey (w := Stores.empty) (.inl rfl) hreachable).2.2⟩

end Weaver.Sample
