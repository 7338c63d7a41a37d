import Weaver.Authority.Session

/-!
# What an admission grants

A member asks for admission with a prepared request: a join request that names its keys, its
endpoint, the roles that it wants and a time, and the endpoint binding that goes with it. The
authority admits it by `invite_member` or by `redeem_invitation`. `GrantsOnly` is the contract of
both: what is committed is the member's, and no more than it asked for. `invite_member` keeps it.
`redeem_invitation` always grants the role of a member, and keeps it exactly for the requests that
ask for that role.
-/

namespace Weaver

open Checked Wire Collect Versioned Program

variable [Crypto]

def AuthorityCall.Presents (p : PreparedJoinRequest) : AuthorityCall → Prop
  | .inviteMember request binding .. => request = p.request ∧ binding = p.endpointBinding
  | .redeemInvitation _ prepared .. => prepared = p
  | .redeemInvitationOnline _ prepared .. => prepared = p
  | _ => False

/-- The call is `invite_member`. -/
def AuthorityCall.Invites : AuthorityCall → Prop
  | .inviteMember .. => True
  | _ => False

/-- The configuration `c'` admits the member `m` to `c`, and grants it no more than was requested and
no longer than its issuer's certificate and the configuration last. -/
structure GrantsOnly (p : PreparedJoinRequest) (network : NetworkId)
    (admin : AdminCertificatePayload) (c c' : NetworkConfigV1) (m : MemberCertificate) : Prop where
  members : c'.members = c.members ++ [m.toBytes]
  signing_key : m.payload.signingPublicKey = p.request.payload.signingPublicKey
  encryption_key : m.payload.encryptionPublicKey = p.request.payload.encryptionPublicKey
  member_id : m.payload.memberId = p.request.payload.memberId
  derived : m.payload.memberId = deriveMemberId network m.payload.signingPublicKey
  roles_nonempty : m.payload.roles.bits ≠ 0
  roles_requested : p.request.payload.requestedRoles.contains m.payload.roles = true
  expires_request : m.payload.expiresAtMs ≤ p.request.payload.expiresAtMs
  expires_admin : m.payload.expiresAtMs ≤ admin.expiresAtMs
  expires_config : m.payload.expiresAtMs ≤ c'.expiresAtMs
  endpoint : c'.endpointBindings = c.endpointBindings ++ [p.endpointBinding.toBytes]
  endpoint_member : p.endpointBinding.payload.memberId = m.payload.memberId

section Plan

variable {self : Authority} {p : PreparedJoinRequest} {nowMs : UInt64}

theorem Authority.planInvite_roles {request : JoinRequest} {binding : EndpointBinding}
    {roles : MemberRoles} {validForMs : UInt64} {secrets : Option EpochSecrets} {a : Admission}
    (h : self.planInvite request binding roles nowMs validForMs secrets = .ok a) :
    request.payload.requestedRoles.contains roles = true ∧ roles.bits ≠ 0 := by
  unfold Authority.planInvite at h
  simp only [bind_eq_ok, mapError_eq_ok, failIf_eq_ok, not_or, exists_and_left, exists_const,
    JoinRequest.verify_eq_ok, Bool.not_eq_false] at h
  obtain ⟨_, ⟨-, rfl⟩, hroles, -⟩ := h
  exact hroles

theorem Authority.Admitted.grantsOnly_iff {roles : MemberRoles} {appBindings : List Bytes}
    {a : Admission}
    (h : self.Admitted p.request p.endpointBinding roles nowMs appBindings a)
    (hroles : roles.bits ≠ 0) :
    GrantsOnly p self.status.networkId self.verifiedAdmin.payload self.config.asConfig a.next
      a.member ↔ p.request.payload.requestedRoles.contains roles = true := by
  obtain ⟨serial, hmember⟩ := h.member
  obtain ⟨epoch, revision, epochSecrets, -, -, hnext⟩ := h.next
  have hsigning : a.member.payload.signingPublicKey = p.request.payload.signingPublicKey := by
    rw [hmember]
  have hgranted : a.member.payload.roles = roles := by
    rw [hmember]
  have hexpires : a.member.payload.expiresAtMs = a.expiresAtMs := by
    rw [hmember]
  -- the identifier is derived from the key in the certificate as in the request
  have hderived := h.current.member_id
  have hid : a.member.payload.memberId = p.request.payload.memberId := by
    rw [← hderived, hsigning]
    exact h.request_verifies.member_id
  constructor
  · intro hgrants
    rw [← hgranted]
    exact hgrants.roles_requested
  · intro hrequested
    refine ⟨?_, hsigning, ?_, hid, hderived.symm, ?_, ?_, ?_, ?_, ?_, ?_, ?_⟩
    · rw [hnext]
    · rw [hmember]
    · rwa [hgranted]
    · rwa [hgranted]
    · rw [hexpires]
      exact h.expires_request
    · rw [hexpires]
      exact h.expires_admin
    · rw [hexpires, hnext]
      exact h.expires_config
    · rw [hnext]
    · exact h.endpoint.member_id

/-- What a call plans that brings a prepared request: the admission of one member, for which the
contract holds if it is invited or has requested the role of a member. -/
theorem Authority.Plans.grantsOnly_iff {c : AuthorityCall} {next : NetworkConfigV1}
    {random : SealRandomness} (h : self.Plans c next nowMs random) (hp : c.Presents p)
    {m : MemberCertificate} (hm : next.ListsMember m)
    (hnew : ¬ self.config.asConfig.ListsMember m) :
    GrantsOnly p self.status.networkId self.verifiedAdmin.payload self.config.asConfig next m ↔
      (c.Invites ∨ p.request.payload.requestedRoles.contains .member = true) := by
  have hmember : MemberRoles.member.bits ≠ 0 := by decide
  cases h with
  | inviteMember _ hplan =>
    obtain ⟨rfl, rfl⟩ := hp
    obtain ⟨hadmitted, -⟩ := Authority.planInvite_spec hplan
    obtain ⟨hrequested, hroles⟩ := Authority.planInvite_roles hplan
    rw [(hadmitted.members_cases hm).resolve_left hnew, hadmitted.grantsOnly_iff hroles]
    exact ⟨fun _ => .inl trivial, fun _ => hrequested⟩
  | redeemInvitation _ hplan =>
    obtain rfl := hp
    obtain ⟨hadmitted, -⟩ := Authority.planRedeem_spec hplan
    rw [(hadmitted.members_cases hm).resolve_left hnew, hadmitted.grantsOnly_iff hmember]
    exact ⟨.inr, fun h => h.resolve_left id⟩
  | redeemInvitationOnline _ hplan =>
    obtain rfl := hp
    obtain ⟨hadmitted, -⟩ := Authority.planRedeem_spec hplan
    rw [(hadmitted.members_cases hm).resolve_left hnew, hadmitted.grantsOnly_iff hmember]
    exact ⟨.inr, fun h => h.resolve_left id⟩
  | _ => cases hp

end Plan

/-- In every state of a session on the stores of an initialized authority, a call that admits a
member for a prepared request grants no more than was requested exactly if it is `invite_member`, or
the role of a member was requested. -/
theorem admission_grants_requested_iff (hideal : HpkeIdeal) {options : AuthorityInit}
    {random : InitRandomness} {manifest : Bytes} {init : InitializedAuthority} {w : Stores}
    (hinit : ( Authority.initialize options random).run serve Stores.empty =
      (.ok (manifest, init), w))
    {log : List (Event (authorityApi manifest))} {self : Authority} {w₁ : Stores}
    (hsession : Session manifest none w log (some self) w₁)
    {p : PreparedJoinRequest} {call : AuthorityCall} (hp : call.Presents p)
    {reply : Except AuthorityError call.Value} {self' : Authority} {w₂ : Stores}
    (hrun : (self.perform call).run serve w₁ = ((reply, self'), w₂))
    {m : MemberCertificate} (hm : self'.config.asConfig.ListsMember m)
    (hnew : ¬ self.config.asConfig.ListsMember m) :
    GrantsOnly p init.status.networkId self.verifiedAdmin.payload self.config.asConfig
        self'.config.asConfig m ↔
      (call.Invites ∨ p.request.payload.requestedRoles.contains .member = true) := by
  obtain ⟨g, hg, hnetwork⟩ := initialize_spec hinit
  have hI := hg.describes
  have hwork := (hsession.atWork hI (AtWork.start hg.inv)).1
  have hsound := hwork.sound self rfl
  have hturn := hsound.turn hI hwork.inv hrun
  cases hturn with
  | stayed _ heq _ _ =>
    obtain rfl := Option.some.inj heq
    exact absurd hm hnew
  | opened _ _ _ hreq => cases hreq
  | moved self₀ c next nowMs draws rest e opened moved hself hcall hplans hmoved _ _ heq _ =>
    obtain rfl := Option.some.inj hself
    obtain rfl := AuthorityRequest.call.inj hcall
    obtain rfl := Option.some.inj heq
    have hconfig := (hmoved.config_eq hideal).2
    have hstatus : init.status.networkId = self.status.networkId := by
      rw [hnetwork]
      exact hsound.network.symm
    rw [hconfig] at hm ⊢
    rw [hstatus]
    exact hplans.grantsOnly_iff hp hm hnew

end Weaver

namespace Weaver.Sample

open Checked Wire Program Transparent

/-- The authority registers an application, creates an invitation and redeems it for a member that
asks for the roles. The last certificate that is listed then is the member's. -/
def granting (roles : MemberRoles) : Option (PreparedJoinRequest × Solo × Solo ×
    MemberCertificate) := do
  let prepared ← (PreparedJoinRequest.create root.public.networkId ⟨fill 40⟩ (fill 41) (fill 42)
    (fill 43) roles 50000).toOption
  let (_, s) ← Solo.perform (none, stores) (.open 1000)
  let (_, s) ← s.perform (.call (.registerApp registration 1000 sealing))
  let (invitation, s) ← s.perform (.call (.createInvitation ⟨fill 50, valid_fifty⟩ [] none
    appRoot.appAddr serviceName 1000 50000 (some (fill 60))))
  let (_, s') ← s.perform (.call (.redeemInvitation invitation prepared appRoot 1100
    (some epochSecrets) sealing))
  let self ← s.1
  let self' ← s'.1
  let raw ← self'.config.asConfig.members.getLast?
  let m ← (MemberCertificate.fromBytes raw).toOption
  guard (m.toBytes ∈ self'.config.asConfig.members ∧ m.toBytes ∉ self.config.asConfig.members ∧
    prepared.request.payload.requestedRoles = roles ∧ m.payload.roles = .member)
  return (prepared, s, s', m)

theorem granting_member : (granting .member).isSome = true := by decide +kernel

theorem granting_relay : (granting .relay).isSome = true := by decide +kernel

theorem granting_result {roles : MemberRoles} (h : (granting roles).isSome = true) :
    ∃ (log : List (Event (authorityApi manifest))) (self self' : Authority) (w w' : Stores)
      (p : PreparedJoinRequest) (call : AuthorityCall) (ticket : call.Value) (m : MemberCertificate),
      Session manifest none stores log (some self) w ∧ call.Presents p ∧
      (self.perform call).run serve w = ((.ok ticket, self'), w') ∧
      self'.config.asConfig.ListsMember m ∧ ¬ self.config.asConfig.ListsMember m ∧
      p.request.payload.requestedRoles = roles ∧ m.payload.roles = .member := by
  obtain ⟨_, hr⟩ := Option.isSome_iff_exists.mp h
  unfold granting at hr
  simp only [Option.bind_eq_bind, Option.bind_eq_some_iff, Prod.exists, toOption_eq_some,
    Option.guard_eq_some', Option.pure_def] at hr
  obtain ⟨prepared, -, _, h₁, w₁, hopen, _, h₂, w₂, hregister, invitation, h₃, w₃, hcreate, ticket,
    h₄, w₄, hredeem, self, rfl, self', rfl, raw, -, m, -, -, ⟨hm, hnew, hroles, hgranted⟩, -⟩ := hr
  have hsession := Solo.session (Solo.session (Solo.session .nil hopen) hregister) hcreate
  obtain ⟨self₀, self₁, hself, hself', hrun⟩ :=
    authorityBody_call_eq_ok.mp (Solo.perform_eq_some.mp hredeem)
  obtain rfl := Option.some.inj hself
  obtain rfl := Option.some.inj hself'
  exact ⟨_, self, self', w₃, w₄, prepared, .redeemInvitation invitation prepared appRoot 1100
    (some epochSecrets) sealing, ticket, m, hsession, rfl, hrun, hm, hnew, hroles, hgranted⟩

/-- The sample member that asks for the role of a member is granted what it asks for. -/
theorem admission_grants_requested_sample : ∃ (init : InitializedAuthority) (self self' : Authority)
    (p : PreparedJoinRequest) (m : MemberCertificate), ¬ self.config.asConfig.ListsMember m ∧
      GrantsOnly p init.status.networkId self.verifiedAdmin.payload self.config.asConfig
        self'.config.asConfig m := by
  obtain ⟨init, hinit⟩ := initialize_eq_ok
  obtain ⟨log, self, self', w, w', p, call, ticket, m, hsession, hp, hrun, hm, hnew, hroles, -⟩ :=
    granting_result granting_member
  have hiff := admission_grants_requested_iff hpkeIdeal hinit hsession hp hrun hm hnew
  refine ⟨init, self, self', p, m, hnew, hiff.mpr (.inr ?_)⟩
  rw [hroles]
  decide

/-- A member that asks only for the role of a relay is granted that of a member, when it redeems an
invitation. -/
theorem admission_beyond_request : ∃ (log : List (Event (authorityApi manifest)))
    (self self' : Authority) (w w' : Stores) (p : PreparedJoinRequest) (call : AuthorityCall)
    (ticket : call.Value) (m : MemberCertificate),
    Session manifest none stores log (some self) w ∧ call.Presents p ∧
    (self.perform call).run serve w = ((.ok ticket, self'), w') ∧
    self'.config.asConfig.ListsMember m ∧ ¬ self.config.asConfig.ListsMember m ∧
    ∀ network, ¬ GrantsOnly p network self.verifiedAdmin.payload self.config.asConfig
      self'.config.asConfig m := by
  obtain ⟨log, self, self', w, w', p, call, ticket, m, hsession, hp, hrun, hm, hnew, hroles,
    hgranted⟩ := granting_result granting_relay
  refine ⟨log, self, self', w, w', p, call, ticket, m, hsession, hp, hrun, hm, hnew, ?_⟩
  intro network h
  have hrequested := h.roles_requested
  rw [hroles, hgranted] at hrequested
  exact absurd hrequested (by decide)

end Weaver.Sample
