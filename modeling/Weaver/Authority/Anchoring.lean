import Weaver.Authority.Session
import Weaver.Config.Window

/-!
# Relays and the members that run them

A relay descriptor names an endpoint, and a presence service is a relay that serves presence, listed
once more. `register_relay` checks that the endpoint is bound to a member with the roles for it, and
that the descriptor does not outlive the member, its binding or the configuration. `validate` does
not check this again: that it stays so (`infrastructure_anchored`) is due to what the other
operations do, in particular to `revoke_member`, which drops what was on the member's endpoints.
-/

namespace Weaver

open Checked Wire Collect Versioned Program

/-! ## Anchored descriptors -/

structure RelayDescriptor.AnchoredBy (relay : RelayDescriptor) (c : NetworkConfigV1)
    (b : EndpointBinding) (m : MemberCertificate) : Prop where
  endpoint_listed : c.ListsEndpoint b
  endpoint : b.payload.endpointId = relay.endpointId
  member_listed : c.ListsMember m
  member : b.payload.memberId = m.payload.memberId
  relay_role : m.payload.roles.contains .relay = true
  bootstrap_role : relay.roles.contains .bootstrap = true →
    m.payload.roles.contains .bootstrap = true
  expires_member : relay.expiresAtMs ≤ m.payload.expiresAtMs
  expires_endpoint : relay.expiresAtMs ≤ b.payload.expiresAtMs
  expires_config : relay.expiresAtMs ≤ c.expiresAtMs

def RelayDescriptor.presenceService (relay : RelayDescriptor) : PresenceServiceDescriptor :=
  ⟨relay.endpointId, relay.url, relay.expiresAtMs⟩

def ServesPresence (relays : List RelayDescriptor)
    (presenceServices : List PresenceServiceDescriptor) : Prop :=
  ∀ service, service ∈ presenceServices ↔
    ∃ relay ∈ relays, relay.roles.contains .presence = true ∧ relay.presenceService = service

structure Anchored (c : NetworkConfigV1) : Prop where
  relays : ∀ relay ∈ c.relays, ∃ b m, relay.AnchoredBy c b m
  presence : ServesPresence c.relays c.presenceServices

variable {relays : List RelayDescriptor} {presenceServices : List PresenceServiceDescriptor}

theorem ServesPresence.filter (h : ServesPresence relays presenceServices) (p : Bytes32 → Bool) :
    ServesPresence (relays.filter fun relay => p relay.endpointId)
      (presenceServices.filter fun service => p service.endpointId) := by
  intro service
  rw [List.mem_filter, h service]
  constructor
  · rintro ⟨⟨relay, hrelay, hrole, rfl⟩, hp⟩
    exact ⟨relay, List.mem_filter.mpr ⟨hrelay, hp⟩, hrole, rfl⟩
  · rintro ⟨relay, hrelay, hrole, rfl⟩
    obtain ⟨hrelay, hp⟩ := List.mem_filter.mp hrelay
    exact ⟨⟨relay, hrelay, hrole, rfl⟩, hp⟩

theorem ServesPresence.append (h : ServesPresence relays presenceServices)
    (relay : RelayDescriptor) :
    ServesPresence (relays ++ [relay])
      (if relay.roles.contains .presence = true then presenceServices ++ [relay.presenceService]
        else presenceServices) := by
  intro service
  simp only [List.mem_append, List.mem_singleton, or_and_right, exists_or, exists_eq_left,
    ← h service]
  split
  · next hrole =>
    rw [List.mem_append, List.mem_singleton]
    refine or_congr_right ?_
    constructor
    · intro heq
      exact ⟨hrole, heq.symm⟩
    · intro hservice
      exact hservice.2.symm
  · next hrole =>
    constructor
    · exact .inl
    · intro hservice
      exact hservice.resolve_right fun hnew => hrole hnew.1

theorem ServesPresence.perm {relays' : List RelayDescriptor}
    {presenceServices' : List PresenceServiceDescriptor}
    (h : ServesPresence relays presenceServices) (hrelays : relays'.Perm relays)
    (hpresence : presenceServices'.Perm presenceServices) :
    ServesPresence relays' presenceServices' := by
  intro service
  rw [hpresence.mem_iff, h service]
  simp only [hrelays.mem_iff]

variable {c c' : NetworkConfigV1}

theorem RelayDescriptor.AnchoredBy.of_listed {relay : RelayDescriptor} {b : EndpointBinding}
    {m : MemberCertificate} (h : relay.AnchoredBy c b m) (hb : c'.ListsEndpoint b)
    (hm : c'.ListsMember m) (hexpires : c'.expiresAtMs = c.expiresAtMs) :
    relay.AnchoredBy c' b m :=
  { h with
    endpoint_listed := hb
    member_listed := hm
    expires_config := hexpires ▸ h.expires_config }

theorem Anchored.of_subset (h : Anchored c) (hmembers : c.members ⊆ c'.members)
    (hendpoints : c.endpointBindings ⊆ c'.endpointBindings)
    (hexpires : c'.expiresAtMs = c.expiresAtMs) (hrelays : c'.relays = c.relays)
    (hpresence : c'.presenceServices = c.presenceServices) : Anchored c' := by
  refine ⟨?_, ?_⟩
  · intro relay hrelay
    rw [hrelays] at hrelay
    obtain ⟨b, m, hanchored⟩ := h.relays relay hrelay
    exact ⟨b, m, hanchored.of_listed (hendpoints hanchored.endpoint_listed)
      (hmembers hanchored.member_listed) hexpires⟩
  · rw [hrelays, hpresence]
    exact h.presence

theorem Anchored.filter (h : Anchored c) (p : Bytes32 → Bool)
    (hrelays : c'.relays = c.relays.filter fun relay => p relay.endpointId)
    (hpresence : c'.presenceServices =
      c.presenceServices.filter fun service => p service.endpointId)
    (hstays : ∀ (relay : RelayDescriptor) (b : EndpointBinding) (m : MemberCertificate),
      p relay.endpointId = true → relay.AnchoredBy c b m → relay.AnchoredBy c' b m) :
    Anchored c' := by
  refine ⟨?_, ?_⟩
  · intro relay hrelay
    rw [hrelays] at hrelay
    obtain ⟨hrelay, hp⟩ := List.mem_filter.mp hrelay
    obtain ⟨b, m, hanchored⟩ := h.relays relay hrelay
    exact ⟨b, m, hstays relay b m hp hanchored⟩
  · rw [hrelays, hpresence]
    exact h.presence.filter p

/-! ## What the operations do -/

variable [Crypto]

section Operations

variable {self : Authority} {nowMs : UInt64} {next : NetworkConfigV1}

variable {endpoint : EndpointId} {roles : RelayRoles} {expiresAtMs : UInt64}

theorem Authority.planRegisterRelay_anchors {url : String}
    (h : self.planRegisterRelay endpoint url roles expiresAtMs nowMs = .ok next) :
    ∃ b m, RelayDescriptor.AnchoredBy ⟨endpoint.asBytes, url, roles, expiresAtMs⟩
      self.config.asConfig b m := by
  unfold Authority.planRegisterRelay at h
  simp only [bind_eq_ok, failIf_eq_ok, okOr_eq_ok, not_or, not_and, not_lt, Bool.not_eq_false,
    exists_and_left, exists_const] at h
  obtain ⟨⟨-, -, -, hconfig, -⟩, b, hb, m, hm, ⟨hrole, hbootstrap, hmember, hendpoint⟩, -⟩ := h
  have hbound : b.payload.endpointId = endpoint.asBytes := by simpa using List.find?_some hb
  have howner : m.payload.memberId = b.payload.memberId := by simpa using List.find?_some hm
  exact ⟨b, m, mem_readable.mp (List.mem_of_find?_eq_some hb), hbound,
    mem_readable.mp (List.mem_of_find?_eq_some hm), howner.symm, hrole, hbootstrap, hmember,
    hendpoint, hconfig⟩

theorem Anchored.registerRelay (hc : Anchored self.config.asConfig) {url : String}
    (h : self.planRegisterRelay endpoint url roles expiresAtMs nowMs = .ok next) :
    Anchored next := by
  obtain ⟨b, m, hnew⟩ := Authority.planRegisterRelay_anchors h
  obtain ⟨revision, -, rfl⟩ := Authority.planRegisterRelay_spec h
  refine ⟨?_, ?_⟩
  · intro relay hrelay
    rw [List.mem_insertionSort, List.mem_append, List.mem_singleton] at hrelay
    rcases hrelay with hother | rfl
    · obtain ⟨b, m, hanchored⟩ := hc.relays relay (List.mem_filter.mp hother).1
      exact ⟨b, m, hanchored.of_listed hanchored.endpoint_listed hanchored.member_listed rfl⟩
    · exact ⟨b, m, hnew.of_listed hnew.endpoint_listed hnew.member_listed rfl⟩
  · have hothers := hc.presence.filter fun id => id ≠ endpoint.asBytes
    have happended := hothers.append ⟨endpoint.asBytes, url, roles, expiresAtMs⟩
    exact happended.perm (List.perm_insertionSort _ _) (List.perm_insertionSort _ _)

theorem Anchored.removeRelay (hc : Anchored self.config.asConfig)
    (h : self.planRemoveRelay endpoint nowMs = .ok next) : Anchored next := by
  obtain ⟨revision, -, rfl⟩ := Authority.planRemoveRelay_spec h
  refine hc.filter (fun id => id ≠ endpoint.asBytes) rfl rfl ?_
  intro relay b m _ hanchored
  exact hanchored.of_listed hanchored.endpoint_listed hanchored.member_listed rfl

theorem Anchored.revoked (hc : Anchored self.config.asConfig) {memberId : MemberId}
    {removed : MemberCertificate} (h : self.Revoked memberId nowMs removed next) :
    Anchored next := by
  obtain ⟨epoch, revision, epochSecrets, -, -, rfl⟩ := h.next
  refine hc.filter (fun id => id ∉ endpointsOf self.config.asConfig memberId) rfl rfl ?_
  intro relay b m hkept hanchored
  -- a relay that stays is on the endpoint of another member
  have hother : b.payload.memberId ≠ memberId := by
    intro heq
    refine of_decide_eq_true hkept (mem_endpointsOf.mpr ⟨b, hanchored.endpoint_listed, heq, ?_⟩)
    exact hanchored.endpoint
  refine hanchored.of_listed ?_ ?_ rfl
  · exact List.mem_filter.mpr ⟨hanchored.endpoint_listed,
      (isOthersEndpoint_toBytes memberId b).mpr hother⟩
  · refine List.mem_filter.mpr ⟨hanchored.member_listed, ?_⟩
    rw [Bool.not_eq_true', Bool.eq_false_iff, ne_eq, isMember_toBytes, ← hanchored.member]
    exact hother

theorem Anchored.admitted (hc : Anchored self.config.asConfig) {request : JoinRequest}
    {binding : EndpointBinding} {roles : MemberRoles} {appBindings : List Bytes} {a : Admission}
    (h : self.Admitted request binding roles nowMs appBindings a) : Anchored a.next := by
  obtain ⟨epoch, revision, epochSecrets, -, -, hnext⟩ := h.next
  rw [hnext]
  exact hc.of_subset (List.subset_append_left _ _) (List.subset_append_left _ _) rfl rfl rfl

theorem Authority.Plans.anchored {c : AuthorityCall} {random : SealRandomness}
    (h : self.Plans c next nowMs random) (hnamed : c.Named)
    (hc : Anchored self.config.asConfig) : Anchored next := by
  cases h with
  | commitConfig _ _ _ => exact hnamed.elim
  | inviteMember _ hplan => exact hc.admitted (Authority.planInvite_spec hplan).1
  | redeemInvitation _ hplan => exact hc.admitted (Authority.planRedeem_spec hplan).1
  | redeemInvitationOnline _ hplan => exact hc.admitted (Authority.planRedeem_spec hplan).1
  | revokeMember _ hplan =>
    obtain ⟨removed, hrevoked⟩ := Authority.planRevoke_spec hplan
    exact hc.revoked hrevoked
  | registerRelay _ hplan => exact hc.registerRelay hplan
  | removeRelay _ hplan => exact hc.removeRelay hplan
  | registerApp _ hplan =>
    obtain ⟨revision, -, heq⟩ := Authority.planRegisterApp_spec hplan
    rw [heq]
    exact hc.of_subset (List.Subset.refl _) (List.Subset.refl _) rfl rfl rfl
  | authorizeAppBinding _ hplan =>
    obtain ⟨revision, -, rfl⟩ := Authority.planAuthorize_spec hplan
    exact hc.of_subset (List.Subset.refl _) (List.Subset.refl _) rfl rfl rfl
  | setVirtualDns _ hplan =>
    obtain ⟨revision, -, rfl⟩ := Authority.planSetDns_spec hplan
    exact hc.of_subset (List.Subset.refl _) (List.Subset.refl _) rfl rfl rfl
  | removeVirtualDns _ hplan =>
    obtain ⟨revision, -, rfl⟩ := Authority.planRemoveDns_spec hplan
    exact hc.of_subset (List.Subset.refl _) (List.Subset.refl _) rfl rfl rfl

end Operations

theorem planGenesis_anchored {options : AuthorityInit} {random : InitRandomness} {g : Genesis}
    (h : planGenesis options random = .ok g) : Anchored g.config := by
  unfold planGenesis at h
  simp only [bind_eq_ok, mapError_eq_ok, okOr_eq_ok, pure_eq_ok_iff] at h
  obtain ⟨expiresAtMs, -, rootKey, -, memberSigning, -, adminKey, -, certificate, -, member,
    hmember, binding, hbinding, epochSecrets, -, envelope, -, rfl⟩ := h
  have hpayload := MemberCertificate.issue_spec hmember
  have hbound := EndpointBinding.issue_spec hbinding
  have hroles : member.payload.roles = authorityRoles := by
    rw [hpayload]
  refine ⟨?_, ?_⟩
  · intro relay hrelay
    obtain rfl := List.mem_singleton.mp hrelay
    refine ⟨binding, member, List.mem_singleton.mpr rfl, ?_, List.mem_singleton.mpr rfl, ?_, ?_, ?_,
      ?_, ?_, le_rfl⟩
    · rw [hbound]
    · rw [hbound]
    · rw [hroles]
      decide
    · intro _
      rw [hroles]
      decide
    · rw [hpayload]
    · rw [hbound]
  · intro service
    simp only [List.mem_singleton, exists_eq_left]
    constructor
    · intro heq
      exact ⟨by decide, heq.symm⟩
    · intro hservice
      exact hservice.2.symm

/-- On the stores of an initialized authority, and for any interleaving of processes that use the
named operations only, every committed configuration has its relays on endpoints of members that may
run them and for no longer than those last, on distinct endpoints, and its presence services are
those of the relays that serve presence. -/
theorem infrastructure_anchored (hideal : HpkeIdeal) {options : AuthorityInit}
    {random : InitRandomness} {manifest : Bytes} {init : InitializedAuthority} {w : Stores}
    (hinit : ( Authority.initialize options random).run serve Stores.empty =
      (.ok (manifest, init), w))
    {Made : AuthorityCall → Prop} (hnamed : ∀ c, Made c → c.Named)
    {P : Pool (authorityApi manifest)} (hP : Reachable (processesOf manifest Made) w P)
    {e : EncryptedConfigEnvelope} (he : Committed init.status.networkId P.world e)
    {c : NetworkConfigV1} (hc : e.Content random.memberEncryption c) :
    (∀ relay ∈ c.relays, ∃ b m, relay.AnchoredBy c b m) ∧
      (c.relays.map RelayDescriptor.endpointId).Nodup ∧
      ServesPresence c.relays c.presenceServices ∧
      (c.presenceServices.map PresenceServiceDescriptor.endpointId).Nodup := by
  obtain ⟨g, hplan, hg, hnetwork⟩ := initialize_planned hinit
  rw [hnetwork] at he
  have harchive := archive_of_reachable hg.describes hg.inv hP
  have hpublished := harchive.published_of_content hideal hg he hc
  have hanchored : Anchored c := by
    refine harchive.invariant hideal hg (P := Anchored) (planGenesis_anchored hplan) ?_ he hpublished
    intro handle call next nowMs draws hmade hplans _ hbefore
    exact hplans.anchored (hnamed call hmade) hbefore
  exact ⟨hanchored.relays, hpublished.valid.relays_distinct, hanchored.presence,
    hpublished.valid.presence_distinct⟩

end Weaver

namespace Weaver.Sample

open Checked Wire Program Transparent

def relaying : Option Solo := do
  let prepared ← (PreparedJoinRequest.create root.public.networkId ⟨fill 40⟩ (fill 41) (fill 42)
    (fill 43) .relay 50000).toOption
  let (_, s) ← Solo.perform (none, stores) (.open 1000)
  let (_, s) ← s.perform (.call (.inviteMember prepared.request prepared.endpointBinding
    .relay 1000 40000 (some epochSecrets) sealing))
  let (_, s) ← s.perform (.call (.registerRelay ⟨fill 42, rfl⟩ "https://other"
    (RelayRoles.dataRelay.union .presence) 30000 1100 sealing))
  return s

theorem relaying_result : (relaying.bind fun s => s.1.map fun self =>
    (self.config.asConfig.relays.length, self.config.asConfig.presenceServices.length)) =
      some (2, 2) := by
  decide +kernel

/-- The relays of the sample are anchored, with their presence services. -/
theorem infrastructure_anchored_sample : ∃ (self : Authority) (w : Stores)
    (e : EncryptedConfigEnvelope), Committed root.public.networkId w e ∧
    e.Content key self.config.asConfig ∧ self.config.asConfig.relays.length = 2 ∧
    (∀ relay ∈ self.config.asConfig.relays, ∃ b m, relay.AnchoredBy self.config.asConfig b m) ∧
    ServesPresence self.config.asConfig.relays self.config.asConfig.presenceServices := by
  obtain ⟨init, hinit⟩ := initialize_eq_ok
  obtain ⟨⟨_, _⟩, hr, hresult⟩ := Option.bind_eq_some_iff.mp relaying_result
  obtain ⟨self, rfl, hlength⟩ := Option.map_eq_some_iff.mp hresult
  unfold relaying at hr
  simp only [Option.bind_eq_bind, Option.bind_eq_some_iff, Prod.exists, Option.pure_def,
    Option.some.injEq, Prod.mk.injEq] at hr
  obtain ⟨prepared, -, _, h₁, w₁, hopen, _, h₂, w₂, hinvite, _, _, w, hregister, rfl, rfl⟩ := hr
  have hopened := Solo.reaches (R := processesOf manifest AuthorityCall.Named) rfl hopen
    fun _ h => by cases h
  have hinvited := hopened.trans (Solo.steps hinvite fun _ h => by cases h; trivial)
  have hregistered := hinvited.trans (Solo.steps hregister fun _ h => by cases h; trivial)
  -- the handle's configuration is that of the last envelope
  obtain ⟨g, hg, hnetwork⟩ := initialize_spec hinit
  have hsession := Solo.session (Solo.session (Solo.session .nil hopen) hinvite) hregister
  have hwork := (hsession.atWork hg.describes (AtWork.start hg.inv)).1
  obtain ⟨last, hchain⟩ := hwork.inv.chain
  have hcontent := hwork.current hchain
  have hcommitted : Committed init.status.networkId w last := by
    rw [hnetwork]
    exact hchain.committed
  obtain ⟨hrelays, -, hpresence, -⟩ := infrastructure_anchored hpkeIdeal hinit (fun _ h => h)
    hregistered hcommitted hcontent
  refine ⟨self, w, last, ?_, hcontent, (Prod.mk.inj hlength).1, hrelays, hpresence⟩
  rw [initialized_network hinit]
  exact hcommitted

end Weaver.Sample
