import Weaver.Authority.Invitation

/-!
# Initializing an authority

`Authority::initialize`: the keys, the root-issued certificates and the genesis configuration of a
new network. The program fills the stores of the staging directory and returns the bytes of the
manifest; the directory itself, and how it is renamed, are in `Staging`.
-/

namespace Weaver

open Checked Wire Program

/-- `AuthorityInit`, without its paths and its master key. -/
structure AuthorityInit where
  relayUrl : String
  nowMs : UInt64
  validForMs : UInt64

def validateInit (options : AuthorityInit) : Except AuthorityError Unit :=
  failIf (options.validForMs = 0 ∨ options.relayUrl = "" ∨ 2048 < (utf8 options.relayUrl).length ∨
    isAscii options.relayUrl = false) .invalidOptions

variable [Crypto]

structure InitRandomness where
  root : Option Bytes32
  memberSigning : Option Bytes32
  onlineAdmin : Option Bytes32
  memberEncryption : MemberEncryptionKeypair
  endpoint : Bytes32
  epochSecrets : Option EpochSecrets
  sealing : SealRandomness

structure Genesis where
  root : NetworkRootKey
  memberSigning : SigningKeypair
  onlineAdmin : OnlineAdminKey
  adminCertificate : AdminCertificate
  member : MemberCertificate
  endpointBinding : EndpointBinding
  config : NetworkConfigV1
  envelope : EncryptedConfigEnvelope

def authorityRoles : MemberRoles :=
  (((MemberRoles.member.union .service).union .relay).union .bootstrap).union .authority

/-- What `initialize_staging` computes before it stores anything. -/
def planGenesis (options : AuthorityInit) (random : InitRandomness) :
    Except AuthorityError Genesis := do
  let expiresAtMs ← okOr (checkedAdd options.nowMs options.validForMs) .invalidOptions
  let rootKey ← (SigningKeypair.generate random.root).mapError .crypto
  let root : NetworkRootKey := ⟨rootKey⟩
  let memberSigning ← (SigningKeypair.generate random.memberSigning).mapError .crypto
  let adminKey ← (SigningKeypair.generate random.onlineAdmin).mapError .crypto
  let onlineAdmin : OnlineAdminKey := ⟨adminKey⟩
  let adminCertificate ← (AdminCertificate.issue root onlineAdmin.publicBytes 0xFFFFFFFF 2
    options.nowMs expiresAtMs).mapError .crypto
  let endpointId := Crypto.endpointPublic random.endpoint
  let member ← (MemberCertificate.issue root memberSigning.publicBytes
    random.memberEncryption.publicBytes authorityRoles 1 options.nowMs expiresAtMs).mapError .crypto
  let endpointBinding ← (EndpointBinding.issue memberSigning member.payload endpointId 0
    expiresAtMs).mapError .crypto
  let epochSecrets ← (EpochSecrets.generate random.epochSecrets).mapError .snapshot
  let config : NetworkConfigV1 :=
    { networkId := root.public.networkId, epoch := 0, revision := 0, previousHash := zeroes 32,
      issuedAtMs := options.nowMs, expiresAtMs, adminKeys := [⟨adminCertificate.toBytes⟩],
      members := [member.toBytes], endpointBindings := [endpointBinding.toBytes],
      revokedSerials := [], apps := [], appBindings := [], virtualDns := [],
      relays := [{ endpointId, url := options.relayUrl,
                   roles := (RelayRoles.dataRelay.union .bootstrap).union .presence,
                   expiresAtMs }],
      presenceServices := [⟨endpointId, options.relayUrl, expiresAtMs⟩],
      epochSecrets, policies := .default }
  let envelope ← (EncryptedConfigEnvelope.sealConfig root config
    [random.memberEncryption.publicBytes] random.sealing).mapError .config
  return { root, memberSigning, onlineAdmin, adminCertificate, member, endpointBinding, config,
           envelope }

def sealSecret (networkId : NetworkId) (label : String) (value : Bytes) :
    StoreTask AuthorityError Unit :=
  Task.request (.sealSecret (secretId networkId label) value) fun answer => answer.mapError .secret

omit [Crypto] in
def genesisBatch (networkId : NetworkId) (envelope : Bytes) (head : ConfigHead) :
    Except StoreError AtomicBatch := do
  let batch ← (AtomicBatch.new (.authority networkId)).put keyEnvelope envelope .missing
  let batch ← batch.put keyHead (encodeHead head) .missing
  batch.put (historyKey head.revision) envelope .missing

structure InitializedAuthority where
  status : AuthorityStatus
  recoveryRoot : Bytes32

/-- `initialize_staging`, with the bytes of the manifest that it writes. -/
def initializeStaging (options : AuthorityInit) (random : InitRandomness) :
    StoreTask AuthorityError (Bytes × InitializedAuthority) := do
  let genesis ← Task.lift (planGenesis options random)
  let networkId := genesis.root.public.networkId
  let head : ConfigHead := ⟨0, 0, genesis.envelope.envelopeHash⟩
  sealSecret networkId "online-admin" genesis.onlineAdmin.toBytes.val
  sealSecret networkId "member-signing" genesis.memberSigning.toBytes.val
  sealSecret networkId "member-encryption" random.memberEncryption.secretBytes.val
  sealSecret networkId "endpoint" random.endpoint.val
  let batch ← Task.lift ((genesisBatch networkId genesis.envelope.toBytes head).mapError .store)
  let _ ← commitRecords batch
  let manifest ← Task.lift (Manifest.toBytes
    { networkId, rootPublicKey := genesis.root.publicBytes, genesisHash := head.hash,
      adminCertificate := genesis.adminCertificate.toBytes })
  return (manifest,
    { status :=
        { networkId, rootPublicKey := genesis.root.publicBytes, head,
          relayUrl := options.relayUrl }
      recoveryRoot := genesis.root.toBytes })

def Authority.initialize (options : AuthorityInit) (random : InitRandomness) :
    StoreTask AuthorityError (Bytes × InitializedAuthority) := do
  Task.lift (validateInit options)
  initializeStaging options random

end Weaver
