import Weaver.Authority.Calls

/-!
# What the operations plan

Each administrative operation computes the next configuration from the current one. This module says
what that configuration is: `Admitted` for the two operations that admit a member, `Revoked` for the
one that removes one, and `Adjusted` for those that change the tables of applications, names and
relays. `Plans.change` puts them together: every call but `commit_config` makes one of these three
changes. Nothing here touches the stores.
-/

namespace Weaver

open Checked Wire Collect Program

def AuthorityCall.secrets [Crypto] : AuthorityCall → Option EpochSecrets
  | .inviteMember _ _ _ _ _ secrets _ => secrets
  | .revokeMember _ _ secrets _ => secrets
  | .redeemInvitation _ _ _ _ secrets _ => secrets
  | .redeemInvitationOnline _ _ _ secrets _ => secrets
  | _ => none

/-! ## Preparing a revision -/

variable {config next : NetworkConfigV1} {current : ConfigHead} {nowMs : UInt64}
  {secrets : Option EpochSecrets}

theorem prepareNextRevision_spec (h : prepareNextRevision config current nowMs = .ok next) :
    ∃ revision : UInt64, revision.toNat = config.revision.toNat + 1 ∧
      next = { config with revision, previousHash := current.hash, issuedAtMs := nowMs } := by
  unfold prepareNextRevision at h
  simp only [bind_eq_ok, okOr_eq_ok, checkedAdd_eq_some, pure_eq_ok_iff] at h
  obtain ⟨revision, hrevision, rfl⟩ := h
  exact ⟨revision, hrevision, rfl⟩

theorem prepareNextEpoch_spec (h : prepareNextEpoch config current nowMs secrets = .ok next) :
    ∃ (epoch revision : UInt64) (epochSecrets : EpochSecrets),
      epoch.toNat = config.epoch.toNat + 1 ∧ revision.toNat = config.revision.toNat + 1 ∧
      next = { config with
        epoch, revision, previousHash := current.hash, issuedAtMs := nowMs, epochSecrets } := by
  unfold prepareNextEpoch at h
  simp only [bind_eq_ok, okOr_eq_ok, checkedAdd_eq_some, pure_eq_ok_iff] at h
  obtain ⟨epoch, hepoch, revision, hrevision, epochSecrets, -, rfl⟩ := h
  exact ⟨epoch, revision, epochSecrets, hepoch, hrevision, rfl⟩

/-! ## Admission -/

/-- No listed member has the identifier or a key of the request, and no listed endpoint its
endpoint. -/
structure JoinIsUnique (config : NetworkConfigV1) (request : JoinRequestPayload) : Prop where
  members : ∀ m, config.ListsMember m → m.payload.memberId ≠ request.memberId ∧
    m.payload.signingPublicKey ≠ request.signingPublicKey ∧
    m.payload.encryptionPublicKey ≠ request.encryptionPublicKey
  endpoints : ∀ b : EndpointBinding, config.ListsEndpoint b →
    b.payload.endpointId ≠ request.endpointId

theorem ensureJoinIsUnique_spec {request : JoinRequestPayload} {u : Unit}
    (h : ensureJoinIsUnique config request = .ok u) : JoinIsUnique config request := by
  unfold ensureJoinIsUnique at h
  simp only [bind_eq_ok, mapError_eq_ok, failIf_eq_ok, mapM_eq_ok, not_or] at h
  obtain ⟨_, hmembers, _, hendpoints, -⟩ := h
  refine ⟨?_, ?_⟩
  · intro m hm
    obtain ⟨_, -, m', hm', hne⟩ := exists_of_mem_left hmembers hm
    obtain rfl := Except.ok.inj ((Signed.fromBytes_toBytes m).symm.trans hm')
    exact hne
  · intro b hb
    obtain ⟨_, -, b', hb', hne⟩ := exists_of_mem_left hendpoints hb
    obtain rfl := Except.ok.inj ((Signed.fromBytes_toBytes b).symm.trans hb')
    exact hne

variable [Crypto]

/-- What an admission is: the member that it certifies, until when, and the configuration that lists
it. -/
structure Authority.Admitted (handle : Authority) (request : JoinRequest) (binding : EndpointBinding)
    (roles : MemberRoles) (nowMs : UInt64) (appBindings : List Bytes) (a : Admission) : Prop where
  request_verifies : request.Verifies handle.status.networkId nowMs
  nonce : a.nonce = request.payload.nonce
  unexpired : nowMs < a.expiresAtMs
  expires_request : a.expiresAtMs ≤ request.payload.expiresAtMs
  expires_admin : a.expiresAtMs ≤ handle.verifiedAdmin.payload.expiresAtMs
  expires_config : a.expiresAtMs ≤ handle.config.asConfig.expiresAtMs
  unique : JoinIsUnique handle.config.asConfig request.payload
  /-- The certificate is for the request's keys, from now on and until the admission expires. -/
  member : ∃ serial, a.member.payload =
    { networkId := handle.verifiedAdmin.payload.networkId
      memberId := deriveMemberId handle.verifiedAdmin.payload.networkId
        request.payload.signingPublicKey
      signingPublicKey := request.payload.signingPublicKey
      encryptionPublicKey := request.payload.encryptionPublicKey
      roles, serial, notBeforeMs := nowMs, expiresAtMs := a.expiresAtMs
      issuerKeyId := handle.verifiedAdmin.payload.keyId }
  current : a.member.Current handle.status.networkId nowMs []
  issued : a.member.IssuedByAdmin handle.verifiedAdmin.payload handle.status.networkId
  endpoint : binding.Verifies a.member.payload handle.status.networkId request.payload.endpointId
    nowMs
  /-- The next configuration lists the member, its binding and the application bindings. -/
  next : ∃ (epoch revision : UInt64) (epochSecrets : EpochSecrets),
    epoch.toNat = handle.config.asConfig.epoch.toNat + 1 ∧
    revision.toNat = handle.config.asConfig.revision.toNat + 1 ∧
    a.next = { handle.config.asConfig with
      epoch, revision, previousHash := handle.status.head.hash, issuedAtMs := nowMs, epochSecrets
      members := handle.config.asConfig.members ++ [a.member.toBytes]
      endpointBindings := handle.config.asConfig.endpointBindings ++ [binding.toBytes]
      appBindings }

variable {self : Authority} {request : JoinRequest} {binding : EndpointBinding}
  {roles : MemberRoles} {a : Admission}

theorem Authority.Admitted.members_cases {appBindings : List Bytes}
    (h : self.Admitted request binding roles nowMs appBindings a) {m : MemberCertificate}
    (hm : a.next.ListsMember m) :
    self.config.asConfig.ListsMember m ∨ m = a.member := by
  obtain ⟨_, _, _, -, -, hnext⟩ := h.next
  unfold NetworkConfigV1.ListsMember at hm
  rw [hnext] at hm
  rcases List.mem_append.mp hm with hold | hadded
  · exact .inl hold
  · exact .inr (Signed.toBytes_injective (List.mem_singleton.mp hadded))

variable {validForMs : UInt64}

theorem Authority.planInvite_spec
    (h : self.planInvite request binding roles nowMs validForMs secrets = .ok a) :
    self.Admitted request binding roles nowMs self.config.asConfig.appBindings a ∧
      a.expiresAtMs ≤ binding.payload.expiresAtMs := by
  unfold Authority.planInvite at h
  simp only [bind_eq_ok, mapError_eq_ok, okOr_eq_ok, failIf_eq_ok, not_or, not_le, not_lt,
    exists_and_left, exists_const, pure_eq_ok_iff, JoinRequest.verify_eq_ok,
    MemberCertificate.verifyWithAdmin_eq_ok, EndpointBinding.verify_eq_ok] at h
  obtain ⟨_, ⟨hverifies, rfl⟩, -, requested, -, hunexpired, ⟨-, -, -, -, hbinding⟩, _, hunique,
    serial, -, member, hmember, verified, ⟨hcurrent, hissued, rfl⟩, hendpoint, next, hnext, rfl⟩ := h
  obtain ⟨epoch, revision, epochSecrets, hepoch, hrevision, rfl⟩ := prepareNextEpoch_spec hnext
  refine ⟨⟨hverifies, rfl, hunexpired, ?_, ?_, min_le_right _ _, ensureJoinIsUnique_spec hunique,
    ⟨serial, (MemberCertificate.issueByAdmin_spec hmember).1⟩, hcurrent, hissued, hendpoint,
    ⟨epoch, revision, epochSecrets, hepoch, hrevision, rfl⟩⟩, hbinding⟩
  · exact (min_le_left _ _).trans ((min_le_left _ _).trans (min_le_right _ _))
  · exact (min_le_left _ _).trans (min_le_right _ _)

variable {invitation : InvitationBundle} {prepared : PreparedJoinRequest}
  {clientAppRoot : AppRootKey} {r : Redemption}

theorem Authority.planRedeem_spec
    (h : self.planRedeem invitation prepared clientAppRoot nowMs secrets = .ok r) :
    self.Admitted prepared.request prepared.endpointBinding .member nowMs
        (self.config.asConfig.appBindings ++ [r.appBinding.toBytes]) r.toAdmission ∧
      r.expiresAtMs ≤ invitation.expiresAtMs ∧
      r.appBinding.payload =
        { networkId := self.status.networkId, appAddr := clientAppRoot.appAddr
          subject := prepared.request.payload.memberId, role := .client
          deviceId := some (deriveDeviceId self.status.networkId invitation.clientAppAddr
            prepared.request.payload.signingPublicKey)
          expiresAtMs := r.expiresAtMs, services := [] } := by
  unfold Authority.planRedeem at h
  simp only [bind_eq_ok, mapError_eq_ok, failIf_eq_ok, not_le, exists_and_left, exists_const,
    pure_eq_ok_iff, JoinRequest.verify_eq_ok, MemberCertificate.verifyWithAdmin_eq_ok,
    EndpointBinding.verify_eq_ok] at h
  obtain ⟨_, ⟨hverifies, rfl⟩, _, hunique, hunexpired, serial, -, member, hmember, verified,
    ⟨hcurrent, hissued, rfl⟩, hendpoint, appBinding, happ, next, hnext, rfl⟩ := h
  obtain ⟨epoch, revision, epochSecrets, hepoch, hrevision, rfl⟩ := prepareNextEpoch_spec hnext
  refine ⟨⟨hverifies, rfl, hunexpired, ?_, ?_, min_le_right _ _, ensureJoinIsUnique_spec hunique,
    ⟨serial, (MemberCertificate.issueByAdmin_spec hmember).1⟩, hcurrent, hissued, hendpoint,
    ⟨epoch, revision, epochSecrets, hepoch, hrevision, rfl⟩⟩, ?_, (AppBinding.issue_spec happ).1⟩
  · exact (min_le_left _ _).trans ((min_le_left _ _).trans (min_le_right _ _))
  · exact (min_le_left _ _).trans (min_le_right _ _)
  · exact (min_le_left _ _).trans ((min_le_left _ _).trans (min_le_left _ _))

/-! ## Revocation -/

omit [Crypto] in
theorem isMember_toBytes (memberId : MemberId) (m : MemberCertificate) :
    isMember memberId m.toBytes = true ↔ m.payload.memberId = memberId := by
  have hread : MemberCertificate.fromBytes m.toBytes = .ok m := Signed.fromBytes_toBytes m
  unfold isMember
  rw [hread]
  exact decide_eq_true_iff

omit [Crypto] in
theorem isOthersEndpoint_toBytes (memberId : MemberId) (b : EndpointBinding) :
    isOthersEndpoint memberId b.toBytes = true ↔ b.payload.memberId ≠ memberId := by
  have hread : EndpointBinding.fromBytes b.toBytes = .ok b := Signed.fromBytes_toBytes b
  unfold isOthersEndpoint
  rw [hread]
  exact decide_eq_true_iff

omit [Crypto] in
theorem isOthersAppBinding_toBytes (memberId : MemberId) (b : AppBinding) :
    isOthersAppBinding memberId b.toBytes = true ↔ b.payload.subject ≠ memberId := by
  have hread : AppBinding.fromBytes b.toBytes = .ok b := Signed.fromBytes_toBytes b
  unfold isOthersAppBinding
  rw [hread]
  exact decide_eq_true_iff

variable {memberId : MemberId}

omit [Crypto] in
theorem mem_endpointsOf {endpoint : Bytes32} :
    endpoint ∈ endpointsOf config memberId ↔
      ∃ b, config.ListsEndpoint b ∧ b.payload.memberId = memberId ∧
        b.payload.endpointId = endpoint := by
  unfold endpointsOf NetworkConfigV1.ListsEndpoint
  simp only [List.mem_map, List.mem_filter, List.mem_filterMap, toOption_eq_some,
    Signed.fromBytes_eq_ok, decide_eq_true_eq]
  constructor
  · rintro ⟨b, ⟨⟨raw, hraw, rfl⟩, hmember⟩, hendpoint⟩
    exact ⟨b, hraw, hmember, hendpoint⟩
  · rintro ⟨b, hlisted, hmember, hendpoint⟩
    exact ⟨b, ⟨⟨b.toBytes, hlisted, rfl⟩, hmember⟩, hendpoint⟩

theorem ValidatedNetworkConfig.members_once (v : ValidatedNetworkConfig) (memberId : MemberId) :
    v.asConfig.members.Pairwise fun a b =>
      isMember memberId a = true → isMember memberId b = true → False := by
  obtain ⟨root, network, nowMs, hcheck⟩ := v.validated
  have hvalid := NetworkConfigV1.check_eq_ok.mp hcheck
  refine hvalid.members_distinct.imp_of_mem ?_
  intro a b ha hb hne hisa hisb
  obtain ⟨m, rfl, -⟩ := hvalid.members a ha
  obtain ⟨m', rfl, -⟩ := hvalid.members b hb
  rw [isMember_toBytes] at hisa hisb
  exact hne m m' (Signed.fromBytes_toBytes m) (Signed.fromBytes_toBytes m') (hisa.trans hisb.symm)

structure Authority.Revoked (handle : Authority) (memberId : MemberId) (nowMs : UInt64)
    (removed : MemberCertificate) (next : NetworkConfigV1) : Prop where
  listed : handle.config.asConfig.ListsMember removed
  member_id : removed.payload.memberId = memberId
  other : removed.payload.encryptionPublicKey ≠ handle.memberEncryption.publicBytes
  unrevoked : removed.payload.serial ∉ handle.config.asConfig.revokedSerials
  /-- The next configuration has nothing of the member but its serial, which it revokes. -/
  next : ∃ (epoch revision : UInt64) (epochSecrets : EpochSecrets),
    epoch.toNat = handle.config.asConfig.epoch.toNat + 1 ∧
    revision.toNat = handle.config.asConfig.revision.toNat + 1 ∧
    next = { handle.config.asConfig with
      epoch, revision, previousHash := handle.status.head.hash, issuedAtMs := nowMs, epochSecrets
      members := handle.config.asConfig.members.filter fun raw => !isMember memberId raw
      endpointBindings :=
        handle.config.asConfig.endpointBindings.filter (isOthersEndpoint memberId)
      appBindings := handle.config.asConfig.appBindings.filter (isOthersAppBinding memberId)
      relays := handle.config.asConfig.relays.filter fun relay =>
        relay.endpointId ∉ endpointsOf handle.config.asConfig memberId
      presenceServices := handle.config.asConfig.presenceServices.filter fun service =>
        service.endpointId ∉ endpointsOf handle.config.asConfig memberId
      revokedSerials := (handle.config.asConfig.revokedSerials ++
        [removed.payload.serial]).insertionSort (· ≤ ·) }

theorem Authority.planRevoke_spec (h : self.planRevoke memberId nowMs secrets = .ok next) :
    ∃ removed, self.Revoked memberId nowMs removed next := by
  unfold Authority.planRevoke at h
  simp only [bind_eq_ok, mapError_eq_ok, okOr_eq_ok, failIf_eq_ok, exists_and_left, exists_const,
    pure_eq_ok_iff] at h
  obtain ⟨position, hposition, removed, hremoved, hother, hunrevoked, n, hnext, rfl⟩ := h
  obtain ⟨epoch, revision, epochSecrets, hepoch, hrevision, rfl⟩ := prepareNextEpoch_spec hnext
  obtain ⟨hlt, hmember, -⟩ := List.findIdx?_eq_some_iff_getElem.mp hposition
  rw [List.getD_eq_getElem?_getD, List.getElem?_eq_getElem hlt, Option.getD_some,
    Signed.fromBytes_eq_ok] at hremoved
  rw [hremoved, isMember_toBytes] at hmember
  have hlisted : self.config.asConfig.ListsMember removed := by
    unfold NetworkConfigV1.ListsMember
    rw [← hremoved]
    exact List.getElem_mem hlt
  refine ⟨removed, hlisted, hmember, hother, hunrevoked, epoch, revision, epochSecrets, hepoch,
    hrevision, ?_⟩
  rw [eraseIdx_eq_filter hposition (self.config.members_once memberId)]

/-! ## The other operations -/

omit [Crypto] in
/-- The next configuration differs from the current one in its place in the chain, its time and the
tables of applications, names and relays. -/
def Adjusted (config next : NetworkConfigV1) (head : ConfigHead) (nowMs : UInt64) : Prop :=
  ∃ (revision : UInt64) (apps appBindings : List Bytes) (virtualDns : List VirtualDnsRecord)
    (relays : List RelayDescriptor) (presenceServices : List PresenceServiceDescriptor),
    revision.toNat = config.revision.toNat + 1 ∧
    next = { config with
      revision, previousHash := head.hash, issuedAtMs := nowMs, apps, appBindings, virtualDns,
      relays, presenceServices }

theorem Authority.planRegisterApp_spec {request : AppRegistrationRequest}
    {planned : NetworkConfigV1 × AppRegistration}
    (h : self.planRegisterApp request nowMs = .ok planned) :
    ∃ revision : UInt64, revision.toNat = self.config.asConfig.revision.toNat + 1 ∧
      planned.1 = { self.config.asConfig with
        revision, previousHash := self.status.head.hash, issuedAtMs := nowMs
        apps := self.config.asConfig.apps ++ [planned.2.toBytes] } := by
  unfold Authority.planRegisterApp at h
  simp only [bind_eq_ok, pure_eq_ok_iff] at h
  obtain ⟨_, -, -, -, registration, -, next, hnext, rfl⟩ := h
  obtain ⟨revision, hrevision, rfl⟩ := prepareNextRevision_spec hnext
  exact ⟨revision, hrevision, rfl⟩

theorem Authority.planAuthorize_spec {binding : AppBinding}
    (h : self.planAuthorize binding nowMs = .ok next) :
    ∃ revision : UInt64, revision.toNat = self.config.asConfig.revision.toNat + 1 ∧
      next = { self.config.asConfig with
        revision, previousHash := self.status.head.hash, issuedAtMs := nowMs
        appBindings := self.config.asConfig.appBindings ++ [binding.toBytes] } := by
  unfold Authority.planAuthorize at h
  simp only [bind_eq_ok, pure_eq_ok_iff] at h
  obtain ⟨n, hnext, rfl⟩ := h
  obtain ⟨revision, hrevision, rfl⟩ := prepareNextRevision_spec hnext
  exact ⟨revision, hrevision, rfl⟩

variable {name : VirtualName} {expiresAtMs : UInt64}

theorem Authority.planSetDns_spec {appAddr : AppAddr}
    (h : self.planSetDns name appAddr expiresAtMs nowMs = .ok next) :
    ∃ revision : UInt64, revision.toNat = self.config.asConfig.revision.toNat + 1 ∧
      next = { self.config.asConfig with
        revision, previousHash := self.status.head.hash, issuedAtMs := nowMs
        virtualDns := List.insertionSort
          (fun left right : VirtualDnsRecord => utf8 left.name.asStr ≤ utf8 right.name.asStr)
          ((self.config.asConfig.virtualDns.filter fun record => record.name ≠ name) ++
            [⟨name, appAddr, expiresAtMs⟩]) } := by
  unfold Authority.planSetDns at h
  simp only [bind_eq_ok] at h
  obtain ⟨-, -, -, -, hnext⟩ := h
  obtain ⟨revision, hrevision, rfl⟩ := prepareNextRevision_spec hnext
  exact ⟨revision, hrevision, rfl⟩

theorem Authority.planRemoveDns_spec (h : self.planRemoveDns name nowMs = .ok next) :
    ∃ revision : UInt64, revision.toNat = self.config.asConfig.revision.toNat + 1 ∧
      next = { self.config.asConfig with
        revision, previousHash := self.status.head.hash, issuedAtMs := nowMs
        virtualDns := self.config.asConfig.virtualDns.filter fun record => record.name ≠ name } := by
  unfold Authority.planRemoveDns at h
  simp only [bind_eq_ok] at h
  obtain ⟨-, -, hnext⟩ := h
  obtain ⟨revision, hrevision, rfl⟩ := prepareNextRevision_spec hnext
  exact ⟨revision, hrevision, rfl⟩

variable {endpoint : EndpointId}

theorem Authority.planRegisterRelay_spec {url : String} {roles : RelayRoles}
    (h : self.planRegisterRelay endpoint url roles expiresAtMs nowMs = .ok next) :
    ∃ revision : UInt64, revision.toNat = self.config.asConfig.revision.toNat + 1 ∧
      next = { self.config.asConfig with
        revision, previousHash := self.status.head.hash, issuedAtMs := nowMs
        relays := List.insertionSort
          (fun left right : RelayDescriptor => left.endpointId.val ≤ right.endpointId.val)
          ((self.config.asConfig.relays.filter fun relay => relay.endpointId ≠ endpoint.asBytes) ++
            [⟨endpoint.asBytes, url, roles, expiresAtMs⟩])
        presenceServices := List.insertionSort
          (fun left right : PresenceServiceDescriptor => left.endpointId.val ≤ right.endpointId.val)
          (if roles.contains .presence = true then
            (self.config.asConfig.presenceServices.filter fun service =>
              service.endpointId ≠ endpoint.asBytes) ++ [⟨endpoint.asBytes, url, expiresAtMs⟩]
          else self.config.asConfig.presenceServices.filter fun service =>
            service.endpointId ≠ endpoint.asBytes) } := by
  unfold Authority.planRegisterRelay at h
  simp only [bind_eq_ok] at h
  obtain ⟨-, -, binding, -, member, -, -, -, hnext⟩ := h
  obtain ⟨revision, hrevision, rfl⟩ := prepareNextRevision_spec hnext
  exact ⟨revision, hrevision, rfl⟩

theorem Authority.planRemoveRelay_spec (h : self.planRemoveRelay endpoint nowMs = .ok next) :
    ∃ revision : UInt64, revision.toNat = self.config.asConfig.revision.toNat + 1 ∧
      next = { self.config.asConfig with
        revision, previousHash := self.status.head.hash, issuedAtMs := nowMs
        relays := self.config.asConfig.relays.filter fun relay =>
          relay.endpointId ≠ endpoint.asBytes
        presenceServices := self.config.asConfig.presenceServices.filter fun service =>
          service.endpointId ≠ endpoint.asBytes } := by
  unfold Authority.planRemoveRelay at h
  simp only [bind_eq_ok] at h
  obtain ⟨-, -, hnext⟩ := h
  obtain ⟨revision, hrevision, rfl⟩ := prepareNextRevision_spec hnext
  exact ⟨revision, hrevision, rfl⟩

/-! ## All calls -/

inductive Authority.Plans (handle : Authority) :
    AuthorityCall → NetworkConfigV1 → UInt64 → SealRandomness → Prop
  | commitConfig (next : NetworkConfigV1) (nowMs : UInt64) (random : SealRandomness) :
      Plans handle (.commitConfig next nowMs random) next nowMs random
  | inviteMember {request : JoinRequest} {binding : EndpointBinding} {roles : MemberRoles}
      {nowMs validForMs : UInt64} {secrets : Option EpochSecrets} {a : Admission}
      (random : SealRandomness) :
      handle.planInvite request binding roles nowMs validForMs secrets = .ok a →
      Plans handle (.inviteMember request binding roles nowMs validForMs secrets random) a.next
        nowMs random
  | revokeMember {memberId : MemberId} {nowMs : UInt64} {secrets : Option EpochSecrets}
      {next : NetworkConfigV1} (random : SealRandomness) :
      handle.planRevoke memberId nowMs secrets = .ok next →
      Plans handle (.revokeMember memberId nowMs secrets random) next nowMs random
  | registerApp {request : AppRegistrationRequest} {nowMs : UInt64}
      {planned : NetworkConfigV1 × AppRegistration} (random : SealRandomness) :
      handle.planRegisterApp request nowMs = .ok planned →
      Plans handle (.registerApp request nowMs random) planned.1 nowMs random
  | authorizeAppBinding {binding : AppBinding} {nowMs : UInt64} {next : NetworkConfigV1}
      (random : SealRandomness) :
      handle.planAuthorize binding nowMs = .ok next →
      Plans handle (.authorizeAppBinding binding nowMs random) next nowMs random
  | setVirtualDns {name : VirtualName} {appAddr : AppAddr} {expiresAtMs nowMs : UInt64}
      {next : NetworkConfigV1} (random : SealRandomness) :
      handle.planSetDns name appAddr expiresAtMs nowMs = .ok next →
      Plans handle (.setVirtualDns name appAddr expiresAtMs nowMs random) next nowMs random
  | removeVirtualDns {name : VirtualName} {nowMs : UInt64} {next : NetworkConfigV1}
      (random : SealRandomness) :
      handle.planRemoveDns name nowMs = .ok next →
      Plans handle (.removeVirtualDns name nowMs random) next nowMs random
  | registerRelay {endpoint : EndpointId} {url : String} {roles : RelayRoles}
      {expiresAtMs nowMs : UInt64} {next : NetworkConfigV1} (random : SealRandomness) :
      handle.planRegisterRelay endpoint url roles expiresAtMs nowMs = .ok next →
      Plans handle (.registerRelay endpoint url roles expiresAtMs nowMs random) next nowMs random
  | removeRelay {endpoint : EndpointId} {nowMs : UInt64} {next : NetworkConfigV1}
      (random : SealRandomness) :
      handle.planRemoveRelay endpoint nowMs = .ok next →
      Plans handle (.removeRelay endpoint nowMs random) next nowMs random
  | redeemInvitation {invitation : InvitationBundle} {prepared : PreparedJoinRequest}
      {clientAppRoot : AppRootKey} {nowMs : UInt64} {secrets : Option EpochSecrets}
      {r : Redemption} (random : SealRandomness) :
      handle.planRedeem invitation prepared clientAppRoot nowMs secrets = .ok r →
      Plans handle (.redeemInvitation invitation prepared clientAppRoot nowMs secrets random) r.next
        nowMs random
  | redeemInvitationOnline {invitation : InvitationBundle} {prepared : PreparedJoinRequest}
      {clientAppRoot : AppRootKey} {nowMs : UInt64} {secrets : Option EpochSecrets}
      {r : Redemption} (random : SealRandomness) :
      handle.planRedeem invitation prepared clientAppRoot nowMs secrets = .ok r →
      Plans handle (.redeemInvitationOnline invitation prepared nowMs secrets random) r.next nowMs
        random

/-- The operations by which an administrator runs a network: every call but `commit_config`, which
takes a configuration of the caller's. -/
def AuthorityCall.Named : AuthorityCall → Prop
  | .commitConfig .. => False
  | _ => True

def AuthorityCall.AdmitsKey (key : Bytes32) : AuthorityCall → Prop
  | .inviteMember request .. => request.payload.encryptionPublicKey = key
  | .redeemInvitation _ prepared .. => prepared.request.payload.encryptionPublicKey = key
  | .redeemInvitationOnline _ prepared .. => prepared.request.payload.encryptionPublicKey = key
  | _ => False

def AuthorityCall.time : AuthorityCall → Option UInt64
  | .commitConfig _ nowMs _ => some nowMs
  | .inviteMember _ _ _ nowMs _ _ _ => some nowMs
  | .revokeMember _ nowMs _ _ => some nowMs
  | .registerApp _ nowMs _ => some nowMs
  | .authorizeAppBinding _ nowMs _ => some nowMs
  | .setVirtualDns _ _ _ nowMs _ => some nowMs
  | .removeVirtualDns _ nowMs _ => some nowMs
  | .registerRelay _ _ _ _ nowMs _ => some nowMs
  | .removeRelay _ nowMs _ => some nowMs
  | .redeemInvitation _ _ _ nowMs _ _ => some nowMs
  | .redeemInvitationOnline _ _ nowMs _ _ => some nowMs
  | _ => none

variable {random : SealRandomness}

variable {handle : Authority}

theorem Authority.Plans.time {c : AuthorityCall} (h : handle.Plans c next nowMs random) :
    c.time = some nowMs := by
  cases h <;> rfl

def AuthorityCall.Adjusts : AuthorityCall → Prop
  | .registerApp .. | .authorizeAppBinding .. | .setVirtualDns .. | .removeVirtualDns ..
  | .registerRelay .. | .removeRelay .. => True
  | _ => False

theorem Authority.Plans.adjusted {c : AuthorityCall} (h : handle.Plans c next nowMs random)
    (hc : c.Adjusts) :
    Adjusted handle.config.asConfig next handle.status.head nowMs := by
  cases h with
  | registerApp _ hplan =>
    obtain ⟨revision, hrevision, heq⟩ := Authority.planRegisterApp_spec hplan
    exact ⟨revision, _, _, _, _, _, hrevision, heq⟩
  | authorizeAppBinding _ hplan =>
    obtain ⟨revision, hrevision, heq⟩ := Authority.planAuthorize_spec hplan
    exact ⟨revision, _, _, _, _, _, hrevision, heq⟩
  | setVirtualDns _ hplan =>
    obtain ⟨revision, hrevision, heq⟩ := Authority.planSetDns_spec hplan
    exact ⟨revision, _, _, _, _, _, hrevision, heq⟩
  | removeVirtualDns _ hplan =>
    obtain ⟨revision, hrevision, heq⟩ := Authority.planRemoveDns_spec hplan
    exact ⟨revision, _, _, _, _, _, hrevision, heq⟩
  | registerRelay _ hplan =>
    obtain ⟨revision, hrevision, heq⟩ := Authority.planRegisterRelay_spec hplan
    exact ⟨revision, _, _, _, _, _, hrevision, heq⟩
  | removeRelay _ hplan =>
    obtain ⟨revision, hrevision, heq⟩ := Authority.planRemoveRelay_spec hplan
    exact ⟨revision, _, _, _, _, _, hrevision, heq⟩
  | _ => cases hc

inductive Authority.Change (handle : Authority) (c : AuthorityCall) (nowMs : UInt64)
    (next : NetworkConfigV1) : Prop
  | adjusted : Adjusted handle.config.asConfig next handle.status.head nowMs →
      Change handle c nowMs next
  | admitted (request : JoinRequest) (binding : EndpointBinding) (roles : MemberRoles)
      (added : Option AppBinding) (a : Admission) :
      handle.Admitted request binding roles nowMs
        (handle.config.asConfig.appBindings ++ added.toList.map fun b => b.toBytes) a →
      a.next = next → c.AdmitsKey request.payload.encryptionPublicKey →
      c.secrets = some next.epochSecrets →
      (∀ b ∈ added, b.payload.subject = request.payload.memberId) → Change handle c nowMs next
  | revoked (memberId : MemberId) (removed : MemberCertificate) :
      handle.Revoked memberId nowMs removed next → c.secrets = some next.epochSecrets →
      Change handle c nowMs next

omit [Crypto] in
theorem prepareNextEpoch_secrets (h : prepareNextEpoch config current nowMs secrets = .ok next) :
    secrets = some next.epochSecrets := by
  unfold prepareNextEpoch EpochSecrets.generate at h
  simp only [bind_eq_ok, okOr_eq_ok, mapError_eq_ok, pure_eq_ok_iff] at h
  obtain ⟨epoch, -, revision, -, epochSecrets, hsecrets, rfl⟩ := h
  exact hsecrets

theorem Authority.planInvite_secrets
    (h : self.planInvite request binding roles nowMs validForMs secrets = .ok a) :
    secrets = some a.next.epochSecrets := by
  unfold Authority.planInvite at h
  simp only [bind_eq_ok, pure_eq_ok_iff] at h
  obtain ⟨_, -, _, -, _, -, _, -, _, -, _, -, _, -, _, -, _, -, _, -, next, hnext, rfl⟩ := h
  have hsecrets := prepareNextEpoch_secrets hnext
  exact hsecrets

theorem Authority.planRedeem_secrets
    (h : self.planRedeem invitation prepared clientAppRoot nowMs secrets = .ok r) :
    secrets = some r.next.epochSecrets := by
  unfold Authority.planRedeem at h
  simp only [bind_eq_ok, pure_eq_ok_iff] at h
  obtain ⟨_, -, _, -, _, -, _, -, _, -, _, -, _, -, _, -, next, hnext, rfl⟩ := h
  have hsecrets := prepareNextEpoch_secrets hnext
  exact hsecrets

theorem Authority.planRevoke_secrets (h : self.planRevoke memberId nowMs secrets = .ok next) :
    secrets = some next.epochSecrets := by
  unfold Authority.planRevoke at h
  simp only [bind_eq_ok, pure_eq_ok_iff] at h
  obtain ⟨_, -, _, -, _, -, _, -, n, hnext, rfl⟩ := h
  have hsecrets := prepareNextEpoch_secrets hnext
  exact hsecrets

theorem Authority.Change.of_redeem {c : AuthorityCall}
    (h : self.planRedeem invitation prepared clientAppRoot nowMs secrets = .ok r)
    (hadmits : c.AdmitsKey prepared.request.payload.encryptionPublicKey)
    (hsecrets : c.secrets = secrets) : self.Change c nowMs r.next := by
  obtain ⟨hadmitted, -, hbinding⟩ := Authority.planRedeem_spec h
  refine .admitted prepared.request prepared.endpointBinding .member (some r.appBinding)
    r.toAdmission hadmitted rfl hadmits (hsecrets.trans (Authority.planRedeem_secrets h)) ?_
  intro b hb
  obtain rfl := Option.some.inj hb
  rw [hbinding]

theorem Authority.Plans.change {c : AuthorityCall} (h : self.Plans c next nowMs random)
    (hnamed : c.Named) :
    self.Change c nowMs next := by
  by_cases hc : c.Adjusts
  · exact .adjusted (h.adjusted hc)
  cases h with
  | commitConfig => exact absurd hnamed id
  | @inviteMember request binding roles _ _ _ a _ hplan =>
    have hadmitted := (Authority.planInvite_spec hplan).1
    refine .admitted request binding roles none a ?_ rfl rfl (Authority.planInvite_secrets hplan)
      (by simp)
    simp only [Option.toList_none, List.map_nil, List.append_nil]
    exact hadmitted
  | @redeemInvitation invitation prepared _ _ _ r _ hplan =>
    exact Authority.Change.of_redeem hplan rfl rfl
  | @redeemInvitationOnline invitation prepared _ _ _ r _ hplan =>
    exact Authority.Change.of_redeem hplan rfl rfl
  | revokeMember _ hplan =>
    obtain ⟨removed, hrevoked⟩ := Authority.planRevoke_spec hplan
    exact .revoked _ removed hrevoked (Authority.planRevoke_secrets hplan)
  | _ => exact absurd trivial hc

/-! ## What every change keeps -/

section Change

variable {c : AuthorityCall}

omit [Crypto] in
structure Inherits (config next : NetworkConfigV1) : Prop where
  network : next.networkId = config.networkId
  expires : next.expiresAtMs = config.expiresAtMs
  admins : next.adminKeys = config.adminKeys
  policies : next.policies = config.policies

theorem Authority.Change.inherits (h : self.Change c nowMs next) :
    Inherits self.config.asConfig next ∧ next.issuedAtMs = nowMs := by
  cases h with
  | adjusted hadjusted =>
    obtain ⟨_, _, _, _, _, _, -, rfl⟩ := hadjusted
    exact ⟨⟨rfl, rfl, rfl, rfl⟩, rfl⟩
  | admitted _ _ _ _ a hadmitted hnext =>
    obtain ⟨_, _, _, -, -, ha⟩ := hadmitted.next
    rw [← hnext, ha]
    exact ⟨⟨rfl, rfl, rfl, rfl⟩, rfl⟩
  | revoked _ _ hrevoked =>
    obtain ⟨_, _, _, -, -, rfl⟩ := hrevoked.next
    exact ⟨⟨rfl, rfl, rfl, rfl⟩, rfl⟩

theorem Authority.Change.recipient (h : self.Change c nowMs next) {key : Bytes32}
    (hkey : next.HasRecipient key) :
    self.config.asConfig.HasRecipient key ∨ c.AdmitsKey key := by
  obtain ⟨m, hlisted, rfl⟩ := hkey
  cases h with
  | adjusted hadjusted =>
    obtain ⟨_, _, _, _, _, _, -, rfl⟩ := hadjusted
    exact .inl ⟨m, hlisted, rfl⟩
  | admitted request binding roles added a hadmitted hnext hadmits =>
    rw [← hnext] at hlisted
    rcases hadmitted.members_cases hlisted with hlisted | rfl
    · exact .inl ⟨m, hlisted, rfl⟩
    · obtain ⟨serial, hmember⟩ := hadmitted.member
      rw [hmember]
      exact .inr hadmits
  | revoked _ _ hrevoked =>
    obtain ⟨_, _, _, -, -, rfl⟩ := hrevoked.next
    exact .inl ⟨m, (List.mem_filter.mp hlisted).1, rfl⟩

theorem Authority.Change.keeps_authority (h : self.Change c nowMs next) {m : MemberCertificate}
    (hlisted : self.config.asConfig.ListsMember m)
    (hkey : m.payload.encryptionPublicKey = self.memberEncryption.publicBytes) :
    next.ListsMember m ∧ ∀ b, self.config.asConfig.ListsEndpoint b →
      b.payload.memberId = m.payload.memberId → next.ListsEndpoint b := by
  cases h with
  | adjusted hadjusted =>
    obtain ⟨_, _, _, _, _, _, -, rfl⟩ := hadjusted
    exact ⟨hlisted, fun b hb _ => hb⟩
  | admitted _ _ _ _ a hadmitted hnext =>
    obtain ⟨_, _, _, -, -, ha⟩ := hadmitted.next
    rw [← hnext, ha]
    exact ⟨List.mem_append_left _ hlisted, fun b hb _ => List.mem_append_left _ hb⟩
  | revoked memberId removed hrevoked =>
    -- the revoked member has another encryption key, so it is another member
    have hne : m.payload.memberId ≠ memberId := by
      intro heq
      obtain ⟨root, network, now, hcheck⟩ := self.config.validated
      have hdistinct := (NetworkConfigV1.check_eq_ok.mp hcheck).members_distinct
      have hsame := hdistinct.eq_of_key hlisted hrevoked.listed (Signed.fromBytes_toBytes m)
        (Signed.fromBytes_toBytes removed) (heq.trans hrevoked.member_id.symm)
      obtain rfl := Signed.toBytes_injective hsame
      exact hrevoked.other hkey
    obtain ⟨_, _, _, -, -, rfl⟩ := hrevoked.next
    refine ⟨?_, ?_⟩
    · refine List.mem_filter.mpr ⟨hlisted, ?_⟩
      rw [Bool.not_eq_true', Bool.eq_false_iff, ne_eq, isMember_toBytes]
      exact hne
    · intro b hb hmember
      refine List.mem_filter.mpr ⟨hb, ?_⟩
      rw [isOthersEndpoint_toBytes, hmember]
      exact hne

end Change

end Weaver
