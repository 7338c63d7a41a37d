import Mathlib.Data.List.Sort
import Weaver.Authority.Handle

/-!
# Administrative operations

The operations of `Authority` that change the configuration. Each first computes the next
configuration from the current one (`plan…`), without touching the stores, and then commits it with
`commit_config`; `invite_member` reads the committed envelope back for its ticket.
-/

namespace Weaver

open Checked Wire Program

/-! ## Preparing a revision -/

def prepareNextRevision (config : NetworkConfigV1) (current : ConfigHead) (nowMs : UInt64) :
    Except AuthorityError NetworkConfigV1 := do
  let revision ← okOr (checkedAdd config.revision 1) .invalidOptions
  return { config with revision, previousHash := current.hash, issuedAtMs := nowMs }

def prepareNextEpoch (config : NetworkConfigV1) (current : ConfigHead) (nowMs : UInt64)
    (secrets : Option EpochSecrets) : Except AuthorityError NetworkConfigV1 := do
  let epoch ← okOr (checkedAdd config.epoch 1) .invalidOptions
  let revision ← okOr (checkedAdd config.revision 1) .invalidOptions
  let epochSecrets ← (EpochSecrets.generate secrets).mapError .snapshot
  return { config with
    epoch, revision, previousHash := current.hash, issuedAtMs := nowMs, epochSecrets }

def ensureJoinIsUnique (config : NetworkConfigV1) (request : JoinRequestPayload) :
    Except AuthorityError Unit := do
  let _ ← config.members.mapM fun raw => do
    let member ← (MemberCertificate.fromBytes raw).mapError .crypto
    failIf (member.payload.memberId = request.memberId ∨
      member.payload.signingPublicKey = request.signingPublicKey ∨
      member.payload.encryptionPublicKey = request.encryptionPublicKey)
      AuthorityError.invalidJoinRequest
  let _ ← config.endpointBindings.mapM fun raw => do
    let endpoint ← (EndpointBinding.fromBytes raw).mapError .crypto
    failIf (endpoint.payload.endpointId = request.endpointId) AuthorityError.invalidJoinRequest
  return ()

def nextSerial (config : NetworkConfigV1) : Except AuthorityError UInt64 := do
  let admins ← config.adminKeys.mapM fun key =>
    ((AdminCertificate.fromBytes key.certificate).map fun c => c.payload.serial).mapError .crypto
  let members ← config.members.mapM fun raw =>
    ((MemberCertificate.fromBytes raw).map fun c => c.payload.serial).mapError .crypto
  let maximum := (config.revokedSerials ++ admins ++ members).foldl max 0
  okOr (checkedAdd maximum 1) .invalidOptions

def isRegistered (config : NetworkConfigV1) (appAddr : AppAddr) : Bool :=
  config.apps.any fun raw =>
    match AppRegistration.fromBytes raw with
    | .ok app => app.payload.appAddr = appAddr
    | .error _ => false

variable [Crypto]

/-! ## Admission -/

structure Admission where
  next : NetworkConfigV1
  member : MemberCertificate
  nonce : Bytes32
  expiresAtMs : UInt64

/-- What `invite_member` computes before it commits. -/
def Authority.planInvite (self : Authority) (request : JoinRequest)
    (endpointBinding : EndpointBinding) (grantedRoles : MemberRoles) (nowMs validForMs : UInt64)
    (secrets : Option EpochSecrets) : Except AuthorityError Admission := do
  let request ← (request.verify self.status.networkId nowMs).mapError .crypto
  failIf (request.payload.requestedRoles.contains grantedRoles = false ∨ grantedRoles.bits = 0)
    .invalidOptions
  let requested ← okOr (checkedAdd nowMs validForMs) .invalidOptions
  let expiresAtMs := min (min (min requested request.payload.expiresAtMs)
    self.verifiedAdmin.payload.expiresAtMs) self.config.asConfig.expiresAtMs
  failIf (expiresAtMs ≤ nowMs) .invalidOptions
  failIf (endpointBinding.payload.networkId ≠ self.status.networkId ∨
    endpointBinding.payload.memberId ≠ request.payload.memberId ∨
    endpointBinding.payload.endpointId ≠ request.payload.endpointId ∨
    endpointBinding.payload.sequence ≠ 0 ∨
    endpointBinding.payload.expiresAtMs < expiresAtMs) .invalidJoinRequest
  ensureJoinIsUnique self.config.asConfig request.payload
  let serial ← nextSerial self.config.asConfig
  let member ← (MemberCertificate.issueByAdmin self.onlineAdmin self.verifiedAdmin.payload
    request.payload.signingPublicKey request.payload.encryptionPublicKey grantedRoles serial nowMs
    expiresAtMs).mapError .crypto
  let verifiedMember ← (member.verifyWithAdmin self.verifiedAdmin self.status.networkId nowMs
    []).mapError .crypto
  (endpointBinding.verify verifiedMember self.status.networkId request.payload.endpointId
    nowMs).mapError .crypto
  let next ← prepareNextEpoch self.config.asConfig self.status.head nowMs secrets
  return {
    next := { next with
      members := next.members ++ [member.toBytes]
      endpointBindings := next.endpointBindings ++ [endpointBinding.toBytes] }
    member, nonce := request.payload.nonce, expiresAtMs }

/-- The part of `invite_member` after the commit: the ticket for the admitted member. -/
def Authority.inviteTicket (self : Authority) (admission : Admission)
    (endpointBinding : EndpointBinding) (status : AuthorityStatus) :
    StoreTask AuthorityError JoinTicket := do
  let envelope ← readExisting self.scope keyEnvelope .corruptState
  Task.lift (JoinTicket.issue self.onlineAdmin self.status.networkId admission.nonce
    admission.expiresAtMs status.head self.adminCertificate admission.member.toBytes
    endpointBinding.toBytes envelope.bytes)

/-- `Authority::invite_member`; the handle is the new one even when the ticket fails. -/
def Authority.inviteMember (self : Authority) (request : JoinRequest)
    (endpointBinding : EndpointBinding) (grantedRoles : MemberRoles) (nowMs validForMs : UInt64)
    (secrets : Option EpochSecrets) (random : SealRandomness) :
    Prog storeInterface (Except AuthorityError JoinTicket × Authority) :=
  match self.planInvite request endpointBinding grantedRoles nowMs validForMs secrets with
  | .error e => .ret (.error e, self)
  | .ok admission =>
    Prog.bind (self.commitConfig admission.next nowMs random) fun
      | .error e => .ret (.error e, self)
      | .ok (status, self') =>
        Prog.bind (self'.inviteTicket admission endpointBinding status) fun result =>
          .ret (result, self')

/-! ## Revocation -/

omit [Crypto] in
def isMember (memberId : MemberId) (raw : Bytes) : Bool :=
  match MemberCertificate.fromBytes raw with
  | .ok member => member.payload.memberId = memberId
  | .error _ => false

omit [Crypto] in
def isOthersEndpoint (memberId : MemberId) (raw : Bytes) : Bool :=
  match EndpointBinding.fromBytes raw with
  | .ok binding => binding.payload.memberId ≠ memberId
  | .error _ => false

omit [Crypto] in
def isOthersAppBinding (memberId : MemberId) (raw : Bytes) : Bool :=
  match AppBinding.fromBytes raw with
  | .ok binding => binding.payload.subject ≠ memberId
  | .error _ => false

omit [Crypto] in
def endpointsOf (config : NetworkConfigV1) (memberId : MemberId) : List Bytes32 :=
  ((config.endpointBindings.filterMap fun raw => (EndpointBinding.fromBytes raw).toOption).filter
    fun binding => binding.payload.memberId = memberId).map fun binding => binding.payload.endpointId

/-- What `revoke_member` computes before it commits. -/
def Authority.planRevoke (self : Authority) (memberId : MemberId) (nowMs : UInt64)
    (secrets : Option EpochSecrets) : Except AuthorityError NetworkConfigV1 := do
  let config := self.config.asConfig
  let position ← okOr (config.members.findIdx? (isMember memberId)) .memberNotFound
  let removed ← (MemberCertificate.fromBytes (config.members.getD position [])).mapError .crypto
  failIf (removed.payload.encryptionPublicKey = self.memberEncryption.publicBytes)
    .cannotRevokeAuthorityMember
  let revokedEndpoints := endpointsOf config memberId
  failIf (removed.payload.serial ∈ config.revokedSerials) .memberNotFound
  let next ← prepareNextEpoch config self.status.head nowMs secrets
  return { next with
    members := next.members.eraseIdx position
    endpointBindings := next.endpointBindings.filter (isOthersEndpoint memberId)
    appBindings := next.appBindings.filter (isOthersAppBinding memberId)
    relays := next.relays.filter fun relay => relay.endpointId ∉ revokedEndpoints
    presenceServices := next.presenceServices.filter fun service =>
      service.endpointId ∉ revokedEndpoints
    revokedSerials := (next.revokedSerials ++ [removed.payload.serial]).insertionSort (· ≤ ·) }

def Authority.commitPlan (self : Authority) (plan : Except AuthorityError NetworkConfigV1)
    (nowMs : UInt64) (random : SealRandomness) :
    StoreTask AuthorityError (AuthorityStatus × Authority) := do
  let next ← Task.lift plan
  self.commitConfig next nowMs random

def Authority.revokeMember (self : Authority) (memberId : MemberId) (nowMs : UInt64)
    (secrets : Option EpochSecrets) (random : SealRandomness) :
    StoreTask AuthorityError (AuthorityStatus × Authority) :=
  self.commitPlan (self.planRevoke memberId nowMs secrets) nowMs random

/-! ## Applications -/

/-- What `register_app` computes before it commits: the next configuration and the registration. -/
def Authority.planRegisterApp (self : Authority) (request : AppRegistrationRequest)
    (nowMs : UInt64) : Except AuthorityError (NetworkConfigV1 × AppRegistration) := do
  let request ← (request.verify self.status.networkId).mapError .crypto
  failIf (isRegistered self.config.asConfig request.payload.appAddr = true)
    .applicationAlreadyRegistered
  let registration ← (AppRegistration.issueByAdmin self.onlineAdmin self.verifiedAdmin.payload
    request).mapError .crypto
  let next ← prepareNextRevision self.config.asConfig self.status.head nowMs
  return ({ next with apps := next.apps ++ [registration.toBytes] }, registration)

structure RegisteredApp where
  registration : Bytes
  status : AuthorityStatus

def Authority.registerApp (self : Authority) (request : AppRegistrationRequest) (nowMs : UInt64)
    (random : SealRandomness) : StoreTask AuthorityError (RegisteredApp × Authority) := do
  let (next, registration) ← Task.lift (self.planRegisterApp request nowMs)
  let (status, self') ← self.commitConfig next nowMs random
  return ({ registration := registration.toBytes, status }, self')

/-- What `authorize_app_binding` computes before it commits. -/
def Authority.planAuthorize (self : Authority) (binding : AppBinding) (nowMs : UInt64) :
    Except AuthorityError NetworkConfigV1 := do
  let next ← prepareNextRevision self.config.asConfig self.status.head nowMs
  return { next with appBindings := next.appBindings ++ [binding.toBytes] }

def Authority.authorizeAppBinding (self : Authority) (binding : AppBinding) (nowMs : UInt64)
    (random : SealRandomness) : StoreTask AuthorityError (AuthorityStatus × Authority) :=
  self.commitPlan (self.planAuthorize binding nowMs) nowMs random

/-! ## Virtual DNS -/

/-- What `set_virtual_dns` computes before it commits. -/
def Authority.planSetDns (self : Authority) (name : VirtualName) (appAddr : AppAddr)
    (expiresAtMs nowMs : UInt64) : Except AuthorityError NetworkConfigV1 := do
  let config := self.config.asConfig
  failIf (isRegistered config appAddr = false) .applicationNotFound
  failIf (expiresAtMs ≤ nowMs ∨ config.expiresAtMs < expiresAtMs) .invalidOptions
  let virtualDns := (config.virtualDns.filter fun record => record.name ≠ name) ++
    [⟨name, appAddr, expiresAtMs⟩]
  prepareNextRevision
    { config with
      virtualDns := virtualDns.insertionSort fun left right =>
        utf8 left.name.asStr ≤ utf8 right.name.asStr }
    self.status.head nowMs

def Authority.setVirtualDns (self : Authority) (name : VirtualName) (appAddr : AppAddr)
    (expiresAtMs nowMs : UInt64) (random : SealRandomness) :
    StoreTask AuthorityError (AuthorityStatus × Authority) :=
  self.commitPlan (self.planSetDns name appAddr expiresAtMs nowMs) nowMs random

/-- What `remove_virtual_dns` computes before it commits. -/
def Authority.planRemoveDns (self : Authority) (name : VirtualName) (nowMs : UInt64) :
    Except AuthorityError NetworkConfigV1 := do
  let config := self.config.asConfig
  let virtualDns := config.virtualDns.filter fun record => record.name ≠ name
  failIf (virtualDns.length = config.virtualDns.length) .virtualDnsRecordNotFound
  prepareNextRevision { config with virtualDns } self.status.head nowMs

def Authority.removeVirtualDns (self : Authority) (name : VirtualName) (nowMs : UInt64)
    (random : SealRandomness) : StoreTask AuthorityError (AuthorityStatus × Authority) :=
  self.commitPlan (self.planRemoveDns name nowMs) nowMs random

/-! ## Relays -/

/-- What `register_relay` computes before it commits. -/
def Authority.planRegisterRelay (self : Authority) (endpoint : EndpointId) (url : String)
    (roles : RelayRoles) (expiresAtMs nowMs : UInt64) : Except AuthorityError NetworkConfigV1 := do
  let config := self.config.asConfig
  let endpointId := endpoint.asBytes
  let knownRoleBits := ((RelayRoles.dataRelay.union .bootstrap).union .presence).bits
  failIf (roles.bits = 0 ∨ roles.bits &&& ~~~knownRoleBits ≠ 0 ∨ expiresAtMs ≤ nowMs ∨
    config.expiresAtMs < expiresAtMs ∨ Crypto.relayUrl url = false) .invalidOptions
  let binding ← okOr ((config.endpointBindings.filterMap fun raw =>
    (EndpointBinding.fromBytes raw).toOption).find? fun binding =>
      binding.payload.endpointId = endpointId) .memberNotFound
  let member ← okOr ((config.members.filterMap fun raw =>
    (MemberCertificate.fromBytes raw).toOption).find? fun member =>
      member.payload.memberId = binding.payload.memberId) .memberNotFound
  failIf (member.payload.roles.contains .relay = false ∨
    (roles.contains .bootstrap = true ∧ member.payload.roles.contains .bootstrap = false) ∨
    member.payload.expiresAtMs < expiresAtMs ∨ binding.payload.expiresAtMs < expiresAtMs)
    .invalidOptions
  let relays := (config.relays.filter fun relay => relay.endpointId ≠ endpointId) ++
    [⟨endpointId, url, roles, expiresAtMs⟩]
  let others := config.presenceServices.filter fun service => service.endpointId ≠ endpointId
  let presenceServices :=
    if roles.contains .presence = true then others ++ [⟨endpointId, url, expiresAtMs⟩] else others
  prepareNextRevision
    { config with
      relays := relays.insertionSort fun left right =>
        left.endpointId.val ≤ right.endpointId.val
      presenceServices := presenceServices.insertionSort fun left right =>
        left.endpointId.val ≤ right.endpointId.val }
    self.status.head nowMs

def Authority.registerRelay (self : Authority) (endpointId : EndpointId) (url : String)
    (roles : RelayRoles) (expiresAtMs nowMs : UInt64) (random : SealRandomness) :
    StoreTask AuthorityError (AuthorityStatus × Authority) :=
  self.commitPlan (self.planRegisterRelay endpointId url roles expiresAtMs nowMs) nowMs random

/-- What `remove_relay` computes before it commits. -/
def Authority.planRemoveRelay (self : Authority) (endpoint : EndpointId) (nowMs : UInt64) :
    Except AuthorityError NetworkConfigV1 := do
  let config := self.config.asConfig
  let endpointId := endpoint.asBytes
  let relays := config.relays.filter fun relay => relay.endpointId ≠ endpointId
  let presenceServices := config.presenceServices.filter fun service =>
    service.endpointId ≠ endpointId
  failIf (relays.length = config.relays.length) .relayNotFound
  prepareNextRevision { config with relays, presenceServices } self.status.head nowMs

def Authority.removeRelay (self : Authority) (endpointId : EndpointId) (nowMs : UInt64)
    (random : SealRandomness) : StoreTask AuthorityError (AuthorityStatus × Authority) :=
  self.commitPlan (self.planRemoveRelay endpointId nowMs) nowMs random

end Weaver
