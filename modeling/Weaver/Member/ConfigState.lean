import Weaver.Authority.Handle
import Weaver.Store.Requests

/-!
# A member's configuration

`PersistedConfigState` of `weaver-net`: a member's handle on the configuration that its store holds,
with the versions of the three records that it was built from. `open` builds a handle from the
records, `apply` moves the member along the chain by a batch of updates, and `updates_after` serves
the revisions after a head to others.

`apply` takes `&mut self` in the source; here it returns the new handle, and `applyUpdates` is the
call with the handle that it leaves.
-/

namespace Weaver

open Checked Wire Versioned Program

/-! ## Keys and errors -/

def configEnvelopeKey : StoreKey := ⟨utf8 "config/envelope/v1", by decide⟩

def configHeadKey : StoreKey := ⟨utf8 "config/head/v1", by decide⟩

def configSignerCertificateKey : StoreKey := ⟨utf8 "config/signer-certificate/v1", by decide⟩

def configHistoryKeyPrefix : Bytes := utf8 "config/history/v1/"

theorem configHistoryKeyPrefix_length : configHistoryKeyPrefix.length = 18 := by decide

/-- The member's `history_key`. -/
def configHistoryKey (revision : UInt64) : StoreKey where
  asBytes := configHistoryKeyPrefix ++ be64 revision
  valid := by
    rw [List.length_append, configHistoryKeyPrefix_length, be64_length]
    decide

inductive ConfigStateError where
  | notJoined
  | baseHeadMismatch
  | missingSignerCertificate
  | commitLost
  | malformedHead
  | unknownHead
  | historyUnavailable
  | store (error : StoreError)
  | config (error : ConfigError)
  | crypto (error : CertificateError)
deriving DecidableEq

/-- The member's `decode_head`. -/
def decodeConfigHead (bytes : Bytes) : Except ConfigStateError ConfigHead :=
  decodeHeadOr .malformedHead bytes

variable [Crypto]

/-- `PersistedConfigState`, without its store. -/
structure PersistedConfigState where
  root : NetworkRootPublic
  encryption : MemberEncryptionKeypair
  config : ValidatedNetworkConfig
  head : ConfigHead
  envelopeVersion : UInt64
  headVersion : UInt64
  signerVersion : UInt64

def PersistedConfigState.networkId (self : PersistedConfigState) : NetworkId := self.root.networkId

/-! ## Opening -/

omit [Crypto] in
/-- `seed_history`: the record of the revision has to be the envelope; where it is missing it is
written, and a writer that comes in between has to have written the same. -/
def seedConfigHistory (scope : StoreScope) (revision : UInt64) (envelope : Bytes) :
    StoreTask ConfigStateError Unit := do
  match ← readOr .store scope (configHistoryKey revision) with
  | some existing => Task.lift (failIf (existing.bytes ≠ envelope) .historyUnavailable)
  | none => do
    let batch ← Task.lift
      (((AtomicBatch.new scope).put (configHistoryKey revision) envelope .missing).mapError .store)
    match ← tryCommit batch with
    | .ok _ => return ()
    | .error (.versionConflict _ _ _) => do
      match ← readOr .store scope (configHistoryKey revision) with
      | some existing => Task.lift (failIf (existing.bytes ≠ envelope) .historyUnavailable)
      | none => Task.lift (.error .historyUnavailable)
    | .error e => Task.lift (.error (.store e))

def PersistedConfigState.open (root : NetworkRootPublic) (encryption : MemberEncryptionKeypair)
    (nowMs : UInt64) : StoreTask ConfigStateError PersistedConfigState := do
  let scope := StoreScope.member root.networkId
  let envelopeRecord ← readExistingOr .store .notJoined scope configEnvelopeKey
  let headRecord ← readExistingOr .store .notJoined scope configHeadKey
  let signerRecord ← readExistingOr .store .notJoined scope configSignerCertificateKey
  let envelope ← Task.lift
    ((EncryptedConfigEnvelope.fromBytes envelopeRecord.bytes).mapError .config)
  let head ← Task.lift (decodeConfigHead headRecord.bytes)
  let signer ← Task.lift ((AdminCertificate.fromBytes signerRecord.bytes).mapError .crypto)
  let verifiedSigner ← Task.lift ((signer.verify root root.networkId nowMs []).mapError .crypto)
  let opened ← Task.lift ((envelope.openConfigWithVerifiedAdmin root verifiedSigner encryption
    (.checkpoint head) nowMs).mapError .config)
  seedConfigHistory scope opened.head.revision envelopeRecord.bytes
  return { root, encryption, config := opened.config, head := opened.head,
           envelopeVersion := envelopeRecord.version, headVersion := headRecord.version,
           signerVersion := signerRecord.version }

/-! ## Applying updates -/

/-- The certificate of the signer in the configuration, as bytes; a certificate that does not parse
is passed over. -/
def signerCertificate (config : ValidatedNetworkConfig) (signerKeyId : KeyId) : Option Bytes :=
  config.asConfig.adminKeys.findSome? fun admin =>
    match AdminCertificate.fromBytes admin.certificate with
    | .ok certificate =>
      if certificate.payload.keyId = signerKeyId then some admin.certificate else none
    | .error _ => none

/-- The variables of the loop of `apply`. The envelope and the certificate are those of the last
round, and are read only after one. -/
structure UpdateProgress where
  currentConfig : ValidatedNetworkConfig
  currentHead : ConfigHead
  finalEnvelope : Bytes
  finalSigner : Bytes

/-- The loop of `apply`, over the raw envelopes. -/
def applyEnvelopes (root : NetworkRootPublic) (encryption : MemberEncryptionKeypair)
    (nowMs : UInt64) : UpdateProgress → List Bytes → Except ConfigStateError UpdateProgress
  | progress, [] => .ok progress
  | progress, raw :: rest => do
    let envelope ← (EncryptedConfigEnvelope.fromBytes raw).mapError .config
    let signer ← okOr (signerCertificate progress.currentConfig envelope.signerKeyId)
      .missingSignerCertificate
    let opened ← (envelope.openNextConfig root progress.currentConfig encryption
      progress.currentHead nowMs).mapError .config
    applyEnvelopes root encryption nowMs
      { currentConfig := opened.config, currentHead := opened.head, finalEnvelope := raw
        finalSigner := signer } rest

omit [Crypto] in
def putHistory : AtomicBatch → List Bytes → Except ConfigStateError AtomicBatch
  | batch, [] => .ok batch
  | batch, raw :: rest => do
    let envelope ← (EncryptedConfigEnvelope.fromBytes raw).mapError .config
    let batch ← (batch.put (configHistoryKey envelope.revision) raw .missing).mapError .store
    putHistory batch rest

/-- The batch that `apply` commits: the three records that the handle was built from are replaced,
and the history has none of the new revisions. -/
def PersistedConfigState.updateBatch (self : PersistedConfigState) (progress : UpdateProgress)
    (envelopes : List Bytes) : Except ConfigStateError AtomicBatch := do
  let batch ← ((AtomicBatch.new (.member self.networkId)).put configEnvelopeKey
    progress.finalEnvelope (.exact self.envelopeVersion)).mapError .store
  let batch ← (batch.put configHeadKey (encodeHead progress.currentHead)
    (.exact self.headVersion)).mapError .store
  let batch ← (batch.put configSignerCertificateKey progress.finalSigner
    (.exact self.signerVersion)).mapError .store
  putHistory batch envelopes

/-- What `apply` computes before it commits, of a batch that is not empty: the batch is written and
read again, so that its limits hold whoever built it. -/
def PersistedConfigState.validateUpdates (self : PersistedConfigState)
    (updates : ConfigUpdateBatch) (nowMs : UInt64) :
    Except ConfigStateError (UpdateProgress × AtomicBatch) := do
  let bytes ← updates.toBytes.mapError .config
  let updates ← (ConfigUpdateBatch.fromBytes bytes).mapError .config
  let progress ← applyEnvelopes self.root self.encryption nowMs
    { currentConfig := self.config, currentHead := self.head, finalEnvelope := []
      finalSigner := [] } updates.envelopes
  let batch ← self.updateBatch progress updates.envelopes
  return (progress, batch)

def PersistedConfigState.apply (self : PersistedConfigState) (updates : ConfigUpdateBatch)
    (nowMs : UInt64) : StoreTask ConfigStateError (ConfigHead × PersistedConfigState) := do
  Task.lift (failIf (updates.networkId ≠ self.networkId ∨ updates.baseHead ≠ self.head)
    .baseHeadMismatch)
  if updates.envelopes = [] then return (self.head, self)
  else do
    let (progress, batch) ← Task.lift (self.validateUpdates updates nowMs)
    let scope := StoreScope.member self.networkId
    let _ ← commitOr .store batch
    let envelopeRecord ← readExistingOr .store .commitLost scope configEnvelopeKey
    let headRecord ← readExistingOr .store .commitLost scope configHeadKey
    let signerRecord ← readExistingOr .store .commitLost scope configSignerCertificateKey
    Task.lift (failIf (envelopeRecord.bytes ≠ progress.finalEnvelope) .commitLost)
    let head ← Task.lift (decodeConfigHead headRecord.bytes)
    Task.lift (failIf (head ≠ progress.currentHead) .commitLost)
    return (progress.currentHead,
      { self with
        config := progress.currentConfig
        head := progress.currentHead
        envelopeVersion := envelopeRecord.version
        headVersion := headRecord.version
        signerVersion := signerRecord.version })

/-- `PersistedConfigState::apply`, with the handle that the call leaves. -/
def PersistedConfigState.applyUpdates (self : PersistedConfigState) (updates : ConfigUpdateBatch)
    (nowMs : UInt64) :
    Prog storeInterface (Except ConfigStateError ConfigHead × PersistedConfigState) :=
  Prog.bind (self.apply updates nowMs) fun
    | .ok (head, self') => .ret (.ok head, self')
    | .error e => .ret (.error e, self)

/-! ## Serving updates -/

omit [Crypto] in
def readConfigHistory (scope : StoreScope) : List UInt64 → StoreTask ConfigStateError (List Bytes)
  | [] => return []
  | revision :: rest => do
    let record ← readExistingOr .store .historyUnavailable scope (configHistoryKey revision)
    let envelopes ← readConfigHistory scope rest
    return record.bytes :: envelopes

def PersistedConfigState.updatesAfter (self : PersistedConfigState) (baseHead : ConfigHead) :
    StoreTask ConfigStateError ConfigUpdateBatch := do
  Task.lift (failIf (self.head.revision < baseHead.revision ∨ self.head.epoch < baseHead.epoch)
    .unknownHead)
  let scope := StoreScope.member self.networkId
  let base ← readExistingOr .store .unknownHead scope (configHistoryKey baseHead.revision)
  let baseEnvelope ← Task.lift ((EncryptedConfigEnvelope.fromBytes base.bytes).mapError .config)
  Task.lift (failIf (baseEnvelope.epoch ≠ baseHead.epoch ∨
    baseEnvelope.revision ≠ baseHead.revision ∨
    baseEnvelope.envelopeHash ≠ baseHead.hash) .unknownHead)
  let envelopes ← readConfigHistory scope
    (revisionsAfter baseHead.revision self.head.revision)
  Task.lift ((ConfigUpdateBatch.new self.networkId baseHead envelopes).mapError .config)

end Weaver
