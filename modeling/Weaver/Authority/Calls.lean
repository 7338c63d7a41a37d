import Weaver.Authority.Initialize

/-!
# The authority's calls

The methods of `Authority` as one type of calls, with the type of each call's value. `perform` runs
a call on a handle. `authorityApi` is what any number of processes on one pair of stores call: each
process opens a handle and then calls methods on it, at any times and in any order.
-/

namespace Weaver

open Program Wire

variable [Crypto]

inductive AuthorityCall where
  | commitConfig (nextConfig : NetworkConfigV1) (nowMs : UInt64) (random : SealRandomness)
  | inviteMember (request : JoinRequest) (endpointBinding : EndpointBinding)
      (grantedRoles : MemberRoles) (nowMs validForMs : UInt64) (secrets : Option EpochSecrets)
      (random : SealRandomness)
  | revokeMember (memberId : MemberId) (nowMs : UInt64) (secrets : Option EpochSecrets)
      (random : SealRandomness)
  | registerApp (request : AppRegistrationRequest) (nowMs : UInt64) (random : SealRandomness)
  | authorizeAppBinding (binding : AppBinding) (nowMs : UInt64) (random : SealRandomness)
  | setVirtualDns (name : VirtualName) (appAddr : AppAddr) (expiresAtMs nowMs : UInt64)
      (random : SealRandomness)
  | removeVirtualDns (name : VirtualName) (nowMs : UInt64) (random : SealRandomness)
  | registerRelay (endpointId : EndpointId) (url : String) (roles : RelayRoles)
      (expiresAtMs nowMs : UInt64) (random : SealRandomness)
  | removeRelay (endpointId : EndpointId) (nowMs : UInt64) (random : SealRandomness)
  | createInvitation (bootstrapEndpoint : EndpointId) (bootstrapDirectAddresses : List SocketAddr)
      (bootstrapRelay : Option String) (clientAppAddr : AppAddr) (serviceName : VirtualName)
      (nowMs validForMs : UInt64) (random : Option Bytes32)
  | redeemInvitation (invitation : InvitationBundle) (prepared : PreparedJoinRequest)
      (clientAppRoot : AppRootKey) (nowMs : UInt64) (secrets : Option EpochSecrets)
      (random : SealRandomness)
  | redeemInvitationOnline (invitation : InvitationBundle) (prepared : PreparedJoinRequest)
      (nowMs : UInt64) (secrets : Option EpochSecrets) (random : SealRandomness)
  | revokeInvitation (invitationId : Bytes32)
  | installEnrollmentAppRoot (appRoot : AppRootKey)
  | configUpdatesAfter (baseHead : ConfigHead)

abbrev AuthorityCall.Value : AuthorityCall → Type
  | .inviteMember .. | .redeemInvitation .. | .redeemInvitationOnline .. => JoinTicket
  | .registerApp .. => RegisteredApp
  | .createInvitation .. => InvitationBundle
  | .revokeInvitation .. | .installEnrollmentAppRoot .. => Unit
  | .configUpdatesAfter .. => ConfigUpdateBatch
  | _ => AuthorityStatus

/-- The result of a method that returns the new handle with its value: a failed method leaves the
handle as it was. -/
def updating {α : Type} (self : Authority) (x : StoreTask AuthorityError (α × Authority)) :
    Prog storeInterface (Except AuthorityError α × Authority) :=
  Prog.bind x fun
    | .ok (a, self') => .ret (.ok a, self')
    | .error e => .ret (.error e, self)

def keeping {α : Type} (self : Authority) (x : StoreTask AuthorityError α) :
    Prog storeInterface (Except AuthorityError α × Authority) :=
  Prog.bind x fun result => .ret (result, self)

def Authority.perform (self : Authority) :
    (c : AuthorityCall) → Prog storeInterface (Except AuthorityError c.Value × Authority)
  | .commitConfig nextConfig nowMs random =>
    updating self (self.commitConfig nextConfig nowMs random)
  | .inviteMember request endpointBinding grantedRoles nowMs validForMs secrets random =>
    self.inviteMember request endpointBinding grantedRoles nowMs validForMs secrets random
  | .revokeMember memberId nowMs secrets random =>
    updating self (self.revokeMember memberId nowMs secrets random)
  | .registerApp request nowMs random => updating self (self.registerApp request nowMs random)
  | .authorizeAppBinding binding nowMs random =>
    updating self (self.authorizeAppBinding binding nowMs random)
  | .setVirtualDns name appAddr expiresAtMs nowMs random =>
    updating self (self.setVirtualDns name appAddr expiresAtMs nowMs random)
  | .removeVirtualDns name nowMs random =>
    updating self (self.removeVirtualDns name nowMs random)
  | .registerRelay endpointId url roles expiresAtMs nowMs random =>
    updating self (self.registerRelay endpointId url roles expiresAtMs nowMs random)
  | .removeRelay endpointId nowMs random => updating self (self.removeRelay endpointId nowMs random)
  | .createInvitation endpoint addresses relay appAddr name nowMs validForMs random =>
    keeping self
      (self.createInvitation endpoint addresses relay appAddr name nowMs validForMs random)
  | .redeemInvitation invitation prepared clientAppRoot nowMs secrets random =>
    updating self
      (self.redeemInvitation invitation prepared clientAppRoot nowMs secrets random)
  | .redeemInvitationOnline invitation prepared nowMs secrets random =>
    updating self (self.redeemInvitationOnline invitation prepared nowMs secrets random)
  | .revokeInvitation invitationId => keeping self (self.revokeInvitation invitationId)
  | .installEnrollmentAppRoot appRoot => keeping self (self.installEnrollmentAppRoot appRoot)
  | .configUpdatesAfter baseHead => keeping self (self.configUpdatesAfter baseHead)

/-! ## Processes on one pair of stores -/

inductive AuthorityRequest where
  | open (nowMs : UInt64)
  | call (c : AuthorityCall)

abbrev AuthorityRequest.Value : AuthorityRequest → Type
  | .open _ => Unit
  | .call c => c.Value

/-- The program of a request. A process without a handle has nothing to call a method on; its
`call` returns at once. -/
def authorityBody (manifest : Bytes) :
    (r : AuthorityRequest) → Option Authority →
      Prog storeInterface (Except AuthorityError r.Value × Option Authority)
  | .open nowMs, handle =>
    Prog.bind (Authority.open manifest nowMs) fun
      | .ok self => .ret (.ok (), some self)
      | .error e => .ret (.error e, handle)
  | .call c, some self => Prog.bind (self.perform c) fun result => .ret (result.1, some result.2)
  | .call _, none => .ret (.error .corruptState, none)

def authorityApi (manifest : Bytes) : Api storeInterface Stores where
  Handle := Option Authority
  Call := AuthorityRequest
  Reply r := Except AuthorityError r.Value
  body := authorityBody manifest
  machine _ := storeMachine

end Weaver
