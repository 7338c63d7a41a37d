import Weaver.Authority.Ticket
import Weaver.Config.SealOpen
import Weaver.Config.UpdateBatch

/-!
# The authority's handle

`Authority` of `weaver-relay-core`: a handle on the authority's stores that caches the current
configuration, its head and the versions of the two records that hold them. `open` builds a handle
from the manifest and the stores, `commit_config` moves the network to its next revision, and
`config_updates_after` reads the revisions after a head.

A method that takes `&mut self` in the source returns the new handle here. The draws that the source
takes from the system's randomness are arguments.
-/

namespace Weaver

open Checked Wire Program

/-! ## Keys and records -/

def keyEnvelope : StoreKey := ⟨utf8 "authority/config/envelope/v1", by decide⟩

def keyHead : StoreKey := ⟨utf8 "authority/config/head/v1", by decide⟩

def keyHistoryPrefix : Bytes := utf8 "authority/config/history/v1/"

theorem keyHistoryPrefix_length : keyHistoryPrefix.length = 28 := by decide

def historyKey (revision : UInt64) : StoreKey where
  asBytes := keyHistoryPrefix ++ be64 revision
  valid := by
    rw [List.length_append, keyHistoryPrefix_length, be64_length]
    decide

def headLen : ℕ := 8 + 8 + 32

/-- `encode_head`, of the authority and of the member. -/
def encodeHead (head : ConfigHead) : Bytes :=
  be64 head.epoch ++ be64 head.revision ++ head.hash.val

/-- `decode_head`; the error is the caller's. -/
def decodeHeadOr {ε : Type} (e : ε) (bytes : Bytes) : Except ε ConfigHead :=
  if h : bytes.length = headLen then
    .ok
      { epoch := UInt64.ofNat (ofBe (bytes.take 8))
        revision := UInt64.ofNat (ofBe ((bytes.drop 8).take 8))
        hash := ⟨bytes.drop 16, by rw [List.length_drop, h]; rfl⟩ }
  else .error e

/-- The authority's `decode_head`. -/
def decodeHead (bytes : Bytes) : Except AuthorityError ConfigHead :=
  decodeHeadOr .corruptState bytes

theorem encodeHead_length (head : ConfigHead) : (encodeHead head).length = headLen := by
  unfold encodeHead headLen
  rw [List.length_append, List.length_append, be64_length, be64_length, head.hash.property]

@[simp]
theorem decodeHeadOr_encodeHead {ε : Type} (e : ε) (head : ConfigHead) :
    decodeHeadOr e (encodeHead head) = .ok head := by
  have hepoch : (encodeHead head).take 8 = be64 head.epoch := by
    unfold encodeHead
    rw [List.append_assoc, List.take_left' (be64_length _)]
  have hrest : (encodeHead head).drop 8 = be64 head.revision ++ head.hash.val := by
    unfold encodeHead
    rw [List.append_assoc, List.drop_left' (be64_length _)]
  have hhash : (encodeHead head).drop 16 = head.hash.val := by
    have hdrop : (encodeHead head).drop 16 = ((encodeHead head).drop 8).drop 8 := by
      rw [List.drop_drop]
    rw [hdrop, hrest, List.drop_left' (be64_length _)]
  unfold decodeHeadOr
  rw [dif_pos (encodeHead_length head)]
  simp only [hepoch, hrest, hhash, List.take_left' (be64_length _), ofBe_be64]

theorem decodeHeadOr_eq_ok {ε : Type} {e : ε} {bytes : Bytes} {head : ConfigHead} :
    decodeHeadOr e bytes = .ok head ↔ bytes = encodeHead head := by
  constructor
  · intro h
    unfold decodeHeadOr at h
    split at h
    · next hlen =>
      obtain rfl := Except.ok.inj h
      have hlen' : bytes.length = 48 := hlen
      have hfirst : (bytes.take 8).length = 8 := by
        rw [List.length_take]
        omega
      have hsecond : ((bytes.drop 8).take 8).length = 8 := by
        rw [List.length_take, List.length_drop]
        omega
      have hdrop : bytes.drop 16 = (bytes.drop 8).drop 8 := by
        rw [List.drop_drop]
      unfold encodeHead
      simp only
      rw [be64_ofBe hfirst, be64_ofBe hsecond, hdrop, List.append_assoc, List.take_append_drop,
        List.take_append_drop]
    · cases h
  · intro h
    rw [h, decodeHeadOr_encodeHead]

theorem encodeHead_injective {h h' : ConfigHead} (heq : encodeHead h = encodeHead h') : h = h' := by
  have hdecoded := decodeHeadOr_encodeHead () h
  rw [heq, decodeHeadOr_encodeHead] at hdecoded
  exact (Except.ok.inj hdecoded).symm

/-! ## The manifest -/

def manifestMagic : Bytes := utf8 "WVRATH\x00\x01"

structure Manifest where
  networkId : NetworkId
  rootPublicKey : Bytes32
  genesisHash : Bytes32
  adminCertificate : Bytes
deriving DecidableEq

/-- The bytes that `write_manifest` writes. -/
def Manifest.toBytes (m : Manifest) : Except AuthorityError Bytes := do
  failIf (2^16 ≤ m.adminCertificate.length) .corruptState
  return manifestMagic ++ m.networkId.asBytes.val ++ m.rootPublicKey.val ++ m.genesisHash.val ++
    be16 (UInt16.ofNat m.adminCertificate.length) ++ m.adminCertificate

/-- `read_manifest`, of the file's bytes; every failure is the same error, so the order in which the
source compares lengths does not show. -/
def readManifest : Bytes → Except AuthorityError Manifest :=
  Decoder.decode do
    Decoder.magic .corruptState manifestMagic
    let networkId ← Decoder.array .corruptState 32
    let rootPublicKey ← Decoder.array .corruptState 32
    let genesisHash ← Decoder.array .corruptState 32
    let certificateLen ← Decoder.u16 .corruptState
    Decoder.lift (failIf (certificateLen.toNat = 0) .corruptState)
    let adminCertificate ← Decoder.take .corruptState certificateLen.toNat
    Decoder.finish .corruptState
    return { networkId := ⟨networkId⟩, rootPublicKey, genesisHash, adminCertificate }

theorem readManifest_toBytes {m : Manifest} {bytes : Bytes} (h : m.toBytes = .ok bytes)
    (hcert : m.adminCertificate ≠ []) : readManifest bytes = .ok m := by
  unfold Manifest.toBytes at h
  simp only [bind_eq_ok, failIf_eq_ok, not_le, exists_and_left, exists_const, pure_eq_ok_iff] at h
  obtain ⟨hlt, rfl⟩ := h
  have hnat : (UInt16.ofNat m.adminCertificate.length).toNat = m.adminCertificate.length :=
    UInt16.toNat_ofNat_of_lt' hlt
  have hguard : failIf (m.adminCertificate.length = 0) AuthorityError.corruptState = .ok () := by
    rw [failIf_eq_ok, List.length_eq_zero_iff]
    exact hcert
  have htake : (Decoder.take AuthorityError.corruptState m.adminCertificate.length).run
      m.adminCertificate = .ok (m.adminCertificate, []) := Decoder.take_run_end rfl
  unfold readManifest
  refine Decoder.decode_eq_ok_of_run (show _ = Except.ok (m, []) from ?_)
  simp only [List.append_assoc, Decoder.bind_run, Decoder.magic_run, ok_bind, Decoder.array_run,
    Decoder.u16_run, hnat, Decoder.lift_run_ok hguard, htake, Decoder.finish_run,
    Decoder.pure_run]

variable [Crypto]

/-! ## The handle -/

structure AuthorityStatus where
  networkId : NetworkId
  rootPublicKey : Bytes32
  head : ConfigHead
  relayUrl : String
deriving DecidableEq

/-- `Authority`, without its data directory and its stores. -/
structure Authority where
  rootPublic : NetworkRootPublic
  onlineAdmin : OnlineAdminKey
  verifiedAdmin : VerifiedAdmin
  adminCertificate : Bytes
  memberEncryption : MemberEncryptionKeypair
  endpointSecret : Bytes32
  config : ValidatedNetworkConfig
  envelopeRecordVersion : UInt64
  headRecordVersion : UInt64
  status : AuthorityStatus

def Authority.scope (self : Authority) : StoreScope := .authority self.status.networkId

/-! ## Requests -/

omit [Crypto] in
/-- `StateStore::read`. -/
def readRecord (scope : StoreScope) (key : StoreKey) :
    StoreTask AuthorityError (Option VersionedBytes) :=
  Task.request (.read scope key) fun answer => answer.mapError .store

omit [Crypto] in
/-- `StateStore::read`, of a record that has to be there. -/
def readExisting (scope : StoreScope) (key : StoreKey) (missing : AuthorityError) :
    StoreTask AuthorityError VersionedBytes :=
  Task.request (.read scope key) fun answer => do okOr (← answer.mapError .store) missing

omit [Crypto] in
/-- `StateStore::commit`. -/
def commitRecords (batch : AtomicBatch) : StoreTask AuthorityError UInt64 :=
  Task.request (.commit batch) fun answer => answer.mapError .store

omit [Crypto] in
/-- `SecretStore::open`, of a secret of 32 bytes. -/
def openSecret32 (id : SecretId) : StoreTask AuthorityError Bytes32 :=
  Task.request (.openSecret id) fun answer => do
    let bytes ← answer.mapError .secret
    if h : bytes.length = 32 then .ok ⟨bytes, h⟩ else .error .corruptState

section Run

variable {w : Stores}

omit [Crypto] in
@[simp]
theorem readRecord_run (scope : StoreScope) (key : StoreKey) :
    (readRecord scope key).run serve w = (.ok (w.record scope key), w) := rfl

omit [Crypto] in
@[simp]
theorem readExisting_run (scope : StoreScope) (key : StoreKey) (missing : AuthorityError) :
    (readExisting scope key missing).run serve w = (okOr (w.record scope key) missing, w) := rfl

omit [Crypto] in
theorem commitRecords_run {batch : AtomicBatch} {w' : Stores} {version : UInt64} :
    (commitRecords batch).run serve w = (.ok version, w') ↔
      w.state.commitBatch batch = .ok (version, w'.state) ∧ w'.secrets = w.secrets := by
  have hserve : serve w (.commit batch) = w.commit batch := rfl
  unfold commitRecords
  rw [Task.run_request, hserve, ← Stores.commit_eq_ok]
  rcases w.commit batch with ⟨answer, w₁⟩
  simp only [Prod.mk.injEq, mapError_eq_ok]

omit [Crypto] in
theorem commitRecords_run_cases {batch : AtomicBatch} {w' : Stores}
    {r : Except AuthorityError UInt64} (h : (commitRecords batch).run serve w = (r, w')) :
    (∃ e, r = .error e ∧ w' = w) ∨
      ∃ version, r = .ok version ∧ w.state.commitBatch batch = .ok (version, w'.state) ∧
        w'.secrets = w.secrets := by
  cases hr : r with
  | ok version =>
    rw [hr] at h
    exact .inr ⟨version, rfl, commitRecords_run.mp h⟩
  | error e =>
    refine .inl ⟨e, rfl, ?_⟩
    have hserve : serve w (.commit batch) = w.commit batch := rfl
    unfold commitRecords at h
    rw [Task.run_request, hserve] at h
    cases hc : w.state.commitBatch batch with
    | error e' =>
      rw [Stores.commit_of_error hc] at h
      exact (Prod.mk.inj h).2.symm
    | ok result =>
      rw [Stores.commit_of_ok hc, hr] at h
      cases (Prod.mk.inj h).1

omit [Crypto] in
theorem openSecret32_run {id : SecretId} {b : Bytes32} {w' : Stores} :
    (openSecret32 id).run serve w = (.ok b, w') ↔ w.secrets.open id = .ok b.val ∧ w' = w := by
  have hserve : serve w (.openSecret id) = (w.secrets.open id, w) := rfl
  unfold openSecret32
  rw [Task.run_request, hserve, Prod.mk.injEq, bind_eq_ok]
  simp only [mapError_eq_ok]
  constructor
  · rintro ⟨⟨bytes, hopen, hbytes⟩, rfl⟩
    split at hbytes
    · obtain rfl := Except.ok.inj hbytes
      exact ⟨hopen, rfl⟩
    · cases hbytes
  · rintro ⟨hopen, rfl⟩
    exact ⟨⟨b.val, hopen, dif_pos b.property⟩, rfl⟩

section Bind

variable {α : Type} {b : α} {w' : Stores}

omit [Crypto] in
theorem readExisting_bind_eq_ok {scope : StoreScope} {key : StoreKey} {missing : AuthorityError}
    {f : VersionedBytes → StoreTask AuthorityError α} :
    (readExisting scope key missing >>= f).run serve w = (.ok b, w') ↔
      ∃ record, w.record scope key = some record ∧ (f record).run serve w = (.ok b, w') := by
  rw [Task.run_bind, readExisting_run]
  cases w.record scope key <;> simp

omit [Crypto] in
theorem openSecret32_bind_eq_ok {id : SecretId} {f : Bytes32 → StoreTask AuthorityError α} :
    (openSecret32 id >>= f).run serve w = (.ok b, w') ↔
      ∃ secret : Bytes32, w.secrets.open id = .ok secret.val ∧
        (f secret).run serve w = (.ok b, w') := by
  rw [Task.run_bind_eq_ok]
  constructor
  · rintro ⟨secret, w₁, hsecret, h⟩
    obtain ⟨hopen, rfl⟩ := openSecret32_run.mp hsecret
    exact ⟨secret, hopen, h⟩
  · rintro ⟨secret, hopen, h⟩
    exact ⟨secret, w, openSecret32_run.mpr ⟨hopen, rfl⟩, h⟩

end Bind

end Run

def secretId (networkId : NetworkId) (label : String) : SecretId :=
  deriveKey "weaver.authority.secret-id.v1" (networkId.asBytes.val ++ utf8 label)

omit [Crypto] in
def firstRelayUrl (config : NetworkConfigV1) : String :=
  (config.relays.head?.map RelayDescriptor.url).getD ""

/-! ## Opening -/

omit [Crypto] in
def hasAuthorityRole (config : NetworkConfigV1) (endpointId : Bytes32) : Bool :=
  match (config.endpointBindings.filterMap fun raw =>
      (EndpointBinding.fromBytes raw).toOption).find? fun binding =>
        binding.payload.endpointId = endpointId with
  | none => false
  | some binding =>
    config.members.any fun raw =>
      match MemberCertificate.fromBytes raw with
      | .ok member => member.payload.memberId = binding.payload.memberId &&
          member.payload.roles.contains MemberRoles.authority
      | .error _ => false

/-- The opening of the current envelope in `Authority::open`: the genesis envelope is the root's,
and a later one is the administrator's. -/
def openCurrent (manifest : Manifest) (rootPublic : NetworkRootPublic) (admin : VerifiedAdmin)
    (encryption : MemberEncryptionKeypair) (envelope : EncryptedConfigEnvelope)
    (storedHead : ConfigHead) (nowMs : UInt64) : Except AuthorityError OpenedNetworkConfig :=
  if envelope.revision = 0 then do
    failIf (envelope.envelopeHash ≠ manifest.genesisHash) .corruptState
    (envelope.openConfig rootPublic manifest.networkId encryption .genesis nowMs).mapError .config
  else
    (envelope.openConfigWithVerifiedAdmin rootPublic admin encryption (.checkpoint storedHead)
      nowMs).mapError .config

omit [Crypto] in
/-- The record of a revision has to be the current envelope; where it is missing, it is written. -/
def seedHistory (scope : StoreScope) (revision : UInt64) (envelope : Bytes) :
    StoreTask AuthorityError Unit := do
  match ← readRecord scope (historyKey revision) with
  | some record => Task.lift (failIf (record.bytes ≠ envelope) .corruptState)
  | none => do
    let migration ← Task.lift
      (((AtomicBatch.new scope).put (historyKey revision) envelope .missing).mapError .store)
    let _ ← commitRecords migration
    return ()

/-- `Authority::open`, of the manifest's bytes. -/
def Authority.open (manifestBytes : Bytes) (nowMs : UInt64) :
    StoreTask AuthorityError Authority := do
  let manifest ← Task.lift (readManifest manifestBytes)
  let rootPublic ← Task.lift
    ((NetworkRootPublic.fromBytes manifest.rootPublicKey).mapError .crypto)
  Task.lift (failIf (rootPublic.networkId ≠ manifest.networkId) .corruptState)
  let encryptionBytes ← openSecret32 (secretId manifest.networkId "member-encryption")
  let encryption ← Task.lift
    ((MemberEncryptionKeypair.fromSecretBytes encryptionBytes).mapError .config)
  let endpointSecret ← openSecret32 (secretId manifest.networkId "endpoint")
  let adminBytes ← openSecret32 (secretId manifest.networkId "online-admin")
  let onlineAdmin : OnlineAdminKey := ⟨⟨adminBytes⟩⟩
  let scope := StoreScope.authority manifest.networkId
  let envelopeRecord ← readExisting scope keyEnvelope .corruptState
  let envelope ← Task.lift
    ((EncryptedConfigEnvelope.fromBytes envelopeRecord.bytes).mapError .config)
  let storedHead ← readExisting scope keyHead .corruptState
  let storedHeadValue ← Task.lift (decodeHead storedHead.bytes)
  Task.lift (failIf (envelope.envelopeHash ≠ storedHeadValue.hash) .corruptState)
  let adminCertificate ← Task.lift
    ((AdminCertificate.fromBytes manifest.adminCertificate).mapError .crypto)
  let manifestAdmin ← Task.lift
    ((adminCertificate.verify rootPublic manifest.networkId nowMs []).mapError .crypto)
  Task.lift (failIf (manifestAdmin.payload.publicKey ≠ onlineAdmin.publicBytes) .corruptState)
  let opened ← Task.lift
    (openCurrent manifest rootPublic manifestAdmin encryption envelope storedHeadValue nowMs)
  Task.lift (failIf (storedHeadValue ≠ opened.head) .corruptState)
  Task.lift (failIf (hasAuthorityRole opened.config.asConfig (Crypto.endpointPublic endpointSecret)
    = false) .corruptState)
  seedHistory scope opened.head.revision envelopeRecord.bytes
  let verifiedAdmin ← Task.lift
    ((opened.config.verifiedAdmin rootPublic onlineAdmin.keyId nowMs).mapError .snapshot)
  Task.lift (failIf (verifiedAdmin.payload.publicKey ≠ onlineAdmin.publicBytes) .corruptState)
  return { rootPublic, onlineAdmin, verifiedAdmin := manifestAdmin,
           adminCertificate := manifest.adminCertificate, memberEncryption := encryption,
           endpointSecret, config := opened.config,
           envelopeRecordVersion := envelopeRecord.version,
           headRecordVersion := storedHead.version,
           status :=
             { networkId := manifest.networkId, rootPublicKey := manifest.rootPublicKey,
               head := opened.head, relayUrl := firstRelayUrl opened.config.asConfig } }

/-! ## Committing a revision -/

omit [Crypto] in
def activeRecipientKeys (config : NetworkConfigV1) : Except AuthorityError (List Bytes32) :=
  config.members.mapM fun raw =>
    ((MemberCertificate.fromBytes raw).map fun certificate =>
      certificate.payload.encryptionPublicKey).mapError .crypto

/-- What `commit_config` computes before it commits: the next envelope, and what it opens to. -/
def Authority.sealNext (self : Authority) (nextConfig : NetworkConfigV1) (nowMs : UInt64)
    (random : SealRandomness) :
    Except AuthorityError (EncryptedConfigEnvelope × OpenedNetworkConfig) := do
  let recipients ← activeRecipientKeys nextConfig
  let envelope ← (EncryptedConfigEnvelope.sealNextConfig self.rootPublic self.onlineAdmin
    self.config self.status.head nextConfig recipients nowMs random).mapError .config
  let opened ← (envelope.openNextConfig self.rootPublic self.config self.memberEncryption
    self.status.head nowMs).mapError .config
  return (envelope, opened)

/-- The batch of the next revision: the envelope and the head replace the records whose versions
the handle has cached, and the history has no record of the revision. -/
def Authority.revisionBatch (self : Authority) (envelope : Bytes) (head : ConfigHead) :
    Except StoreError AtomicBatch := do
  let batch ← (AtomicBatch.new self.scope).put keyEnvelope envelope
    (.exact self.envelopeRecordVersion)
  let batch ← batch.put keyHead (encodeHead head) (.exact self.headRecordVersion)
  batch.put (historyKey head.revision) envelope .missing

def Authority.commitConfig (self : Authority) (nextConfig : NetworkConfigV1) (nowMs : UInt64)
    (random : SealRandomness) : StoreTask AuthorityError (AuthorityStatus × Authority) := do
  let (envelope, opened) ← Task.lift (self.sealNext nextConfig nowMs random)
  let batch ← Task.lift ((self.revisionBatch envelope.toBytes opened.head).mapError .store)
  let _ ← commitRecords batch
  let envelopeRecord ← readExisting self.scope keyEnvelope .corruptState
  let headRecord ← readExisting self.scope keyHead .corruptState
  Task.lift (failIf (envelopeRecord.bytes ≠ envelope.toBytes) .corruptState)
  let head ← Task.lift (decodeHead headRecord.bytes)
  Task.lift (failIf (head ≠ opened.head) .corruptState)
  let status : AuthorityStatus :=
    { self.status with head := opened.head, relayUrl := firstRelayUrl opened.config.asConfig }
  return (status,
    { self with
      envelopeRecordVersion := envelopeRecord.version
      headRecordVersion := headRecord.version
      config := opened.config
      status })

/-! ## Updates after a head -/

omit [Crypto] in
def readHistory (scope : StoreScope) : List UInt64 → StoreTask AuthorityError (List Bytes)
  | [] => return []
  | revision :: rest => do
    let record ← readExisting scope (historyKey revision) .historyUnavailable
    let envelopes ← readHistory scope rest
    return record.bytes :: envelopes

omit [Crypto] in
/-- The revisions after `base`, to `last`. -/
def revisionsAfter (base last : UInt64) : List UInt64 :=
  (List.range (last.toNat - base.toNat)).map fun i => UInt64.ofNat (base.toNat + 1 + i)

def Authority.configUpdatesAfter (self : Authority) (baseHead : ConfigHead) :
    StoreTask AuthorityError ConfigUpdateBatch := do
  Task.lift (failIf (self.status.head.revision < baseHead.revision ∨
    self.status.head.epoch < baseHead.epoch) .unknownConfigHead)
  let base ← readExisting self.scope (historyKey baseHead.revision) .unknownConfigHead
  let baseEnvelope ← Task.lift ((EncryptedConfigEnvelope.fromBytes base.bytes).mapError .config)
  Task.lift (failIf (baseEnvelope.epoch ≠ baseHead.epoch ∨
    baseEnvelope.revision ≠ baseHead.revision ∨
    baseEnvelope.envelopeHash ≠ baseHead.hash) .unknownConfigHead)
  let envelopes ← readHistory self.scope
    (revisionsAfter baseHead.revision self.status.head.revision)
  Task.lift ((ConfigUpdateBatch.new self.status.networkId baseHead envelopes).mapError .config)

end Weaver
