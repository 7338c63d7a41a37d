import Weaver.Authority.Ledger

/-!
# Epochs

`epoch_discipline`: on the stores of an initialized authority, and for any interleaving of processes
that use the named operations only, two consecutive committed configurations are of one epoch and
differ in the tables of applications, names and relays only, or the second begins the next epoch
with new secrets and has one member more or one member less. No two members of a committed
configuration share an identifier or a key, and no endpoint is bound twice.
-/

namespace Weaver

open Checked Wire Collect Versioned Program

/-! ## Two consecutive configurations -/

structure SameEpoch (c c' : NetworkConfigV1) : Prop where
  epoch : c'.epoch = c.epoch
  members : c'.members = c.members
  endpoints : c'.endpointBindings = c.endpointBindings
  revoked : c'.revokedSerials = c.revokedSerials
  secrets : c'.epochSecrets = c.epochSecrets
  admins : c'.adminKeys = c.adminKeys
  policies : c'.policies = c.policies
  expires : c'.expiresAtMs = c.expiresAtMs

/-- The second configuration has one member more, with one endpoint binding and at most one
application binding. -/
structure AddsMember (c c' : NetworkConfigV1) (m : MemberCertificate) (b : EndpointBinding)
    (added : Option AppBinding) : Prop where
  members : c'.members = c.members ++ [m.toBytes]
  endpoints : c'.endpointBindings = c.endpointBindings ++ [b.toBytes]
  endpoint_member : b.payload.memberId = m.payload.memberId
  bindings : c'.appBindings = c.appBindings ++ added.toList.map fun b => b.toBytes
  binding_member : ∀ a ∈ added, a.payload.subject = m.payload.memberId
  revoked : c'.revokedSerials = c.revokedSerials
  others : c'.apps = c.apps ∧ c'.virtualDns = c.virtualDns ∧ c'.relays = c.relays ∧
    c'.presenceServices = c.presenceServices

/-- The second configuration has one member less. What depended on the member is gone, and its
serial is revoked. -/
structure RemovesMember (c c' : NetworkConfigV1) (m : MemberCertificate) : Prop where
  members : c.members.Perm (m.toBytes :: c'.members)
  endpoints : c'.endpointBindings =
    c.endpointBindings.filter (isOthersEndpoint m.payload.memberId)
  bindings : c'.appBindings = c.appBindings.filter (isOthersAppBinding m.payload.memberId)
  relays : c'.relays = c.relays.filter fun relay =>
    relay.endpointId ∉ endpointsOf c m.payload.memberId
  presence : c'.presenceServices = c.presenceServices.filter fun service =>
    service.endpointId ∉ endpointsOf c m.payload.memberId
  revoked : m.payload.serial ∉ c.revokedSerials ∧
    c'.revokedSerials.Perm (m.payload.serial :: c.revokedSerials)
  others : c'.apps = c.apps ∧ c'.virtualDns = c.virtualDns

/-- What may separate two consecutive configurations, when the calls that were made draw epoch
secrets. -/
inductive EpochStep [Crypto] (Made : AuthorityCall → Prop) (c c' : NetworkConfigV1) : Prop
  | same : SameEpoch c c' → EpochStep Made c c'
  | added (call : AuthorityCall) (m : MemberCertificate) (b : EndpointBinding)
      (added : Option AppBinding) : Made call → call.secrets = some c'.epochSecrets →
      c'.epoch.toNat = c.epoch.toNat + 1 → AddsMember c c' m b added → EpochStep Made c c'
  | removed (call : AuthorityCall) (m : MemberCertificate) : Made call →
      call.secrets = some c'.epochSecrets → c'.epoch.toNat = c.epoch.toNat + 1 →
      RemovesMember c c' m → EpochStep Made c c'

structure DistinctIdentities (c : NetworkConfigV1) : Prop where
  ids : DistinctOn MemberCertificate.fromBytes (fun m => m.payload.memberId) c.members
  signing : DistinctOn MemberCertificate.fromBytes (fun m => m.payload.signingPublicKey) c.members
  encryption :
    DistinctOn MemberCertificate.fromBytes (fun m => m.payload.encryptionPublicKey) c.members
  endpoints :
    DistinctOn EndpointBinding.fromBytes (fun b => b.payload.endpointId) c.endpointBindings

/-! ## What a change amounts to -/

variable [Crypto]

theorem Published.distinct {I : Identity} {e : EncryptedConfigEnvelope} {c : NetworkConfigV1}
    (h : Published I e c) : DistinctIdentities c := by
  refine ⟨h.valid.members_distinct, ?_, h.seals.distinct, h.valid.endpoints_distinct⟩
  -- a member's identifier is derived from its signing key
  refine h.valid.members_distinct.imp_of_mem ?_
  intro raw raw' hraw hraw' hne m m' hm hm' hkey
  obtain ⟨n, hn, haccepted⟩ := h.valid.members raw hraw
  obtain ⟨n', hn', haccepted'⟩ := h.valid.members raw' hraw'
  rw [Signed.fromBytes_eq_ok, hn] at hm
  rw [Signed.fromBytes_eq_ok, hn'] at hm'
  obtain rfl := Signed.toBytes_injective hm
  obtain rfl := Signed.toBytes_injective hm'
  refine hne n n' (Signed.fromBytes_eq_ok.mpr hn) (Signed.fromBytes_eq_ok.mpr hn') ?_
  show n.payload.memberId = n'.payload.memberId
  rw [← haccepted.current.member_id, ← haccepted'.current.member_id]
  exact congrArg (deriveMemberId I.root.networkId) hkey

theorem Authority.Revoked.removes {self : Authority} {memberId : MemberId} {nowMs : UInt64}
    {m : MemberCertificate} {next : NetworkConfigV1} (h : self.Revoked memberId nowMs m next) :
    RemovesMember self.config.asConfig next m := by
  obtain ⟨epoch, revision, epochSecrets, -, -, rfl⟩ := h.next
  obtain rfl := h.member_id
  have hone := self.config.members_once m.payload.memberId
  have hperm := cons_filter_perm h.listed ((isMember_toBytes m.payload.memberId m).mpr rfl) hone
  have hsorted := (List.perm_insertionSort (· ≤ ·)
    (self.config.asConfig.revokedSerials ++ [m.payload.serial])).trans
      (List.perm_append_singleton _ _)
  exact ⟨hperm.symm, rfl, rfl, rfl, rfl, ⟨h.unrevoked, hsorted⟩, rfl, rfl⟩

theorem Authority.Change.epochStep {self : Authority} {call : AuthorityCall} {nowMs : UInt64}
    {next : NetworkConfigV1} {Made : AuthorityCall → Prop} (h : self.Change call nowMs next)
    (hmade : Made call) : EpochStep Made self.config.asConfig next := by
  cases h with
  | adjusted hadjusted =>
    obtain ⟨_, _, _, _, _, _, -, rfl⟩ := hadjusted
    exact .same ⟨rfl, rfl, rfl, rfl, rfl, rfl, rfl, rfl⟩
  | admitted request binding roles added a hadmitted hnext _ hsecrets hsubject =>
    obtain ⟨epoch, revision, epochSecrets, hepoch, -, ha⟩ := hadmitted.next
    rw [hnext] at ha
    subst ha
    have hid : a.member.payload.memberId = request.payload.memberId := by
      rw [← hadmitted.current.member_id, ← hadmitted.request_verifies.member_id]
      obtain ⟨serial, hmember⟩ := hadmitted.member
      rw [hmember]
    refine .added call a.member binding added hmade hsecrets hepoch
      ⟨rfl, rfl, hadmitted.endpoint.member_id, rfl, ?_, rfl, rfl, rfl, rfl, rfl⟩
    intro b hb
    rw [hid]
    exact hsubject b hb
  | revoked memberId removed hrevoked hsecrets =>
    have hremoves := hrevoked.removes
    obtain ⟨epoch, revision, epochSecrets, hepoch, -, rfl⟩ := hrevoked.next
    exact .removed call removed hmade hsecrets hepoch hremoves

/-! ## The discipline -/

/-- On the stores of an initialized authority, and for any interleaving of processes that use the
named operations only, every committed envelope holds a configuration with distinct identities, and
two consecutive ones are of one epoch, or differ by one member and a fresh epoch. -/
theorem epoch_discipline (hideal : HpkeIdeal) {options : AuthorityInit} {random : InitRandomness}
    {manifest : Bytes} {init : InitializedAuthority} {w : Stores}
    (hinit : ( Authority.initialize options random).run serve Stores.empty =
      (.ok (manifest, init), w))
    {Made : AuthorityCall → Prop} (hnamed : ∀ c, Made c → c.Named)
    {P : Pool (authorityApi manifest)} (hP : Reachable (processesOf manifest Made) w P) :
    (∀ e, Committed init.status.networkId P.world e →
      ∃ c, e.Content random.memberEncryption c ∧ DistinctIdentities c ∧
        c.epoch = e.epoch ∧ c.revision = e.revision) ∧
    ∀ e e' c c', Committed init.status.networkId P.world e →
      Committed init.status.networkId P.world e' → e'.revision.toNat = e.revision.toNat + 1 →
      e.Content random.memberEncryption c → e'.Content random.memberEncryption c' →
      EpochStep Made c c' := by
  obtain ⟨g, hg, hnetwork⟩ := initialize_spec hinit
  rw [hnetwork]
  have harchive := archive_of_reachable hg.describes hg.inv hP
  refine ⟨?_, ?_⟩
  · intro e he
    obtain ⟨c, hpublished⟩ := harchive.published hideal hg he
    obtain ⟨-, hepoch, hrevision, -⟩ := hpublished.seals.header
    exact ⟨c, (hpublished.content_iff hideal).mpr rfl, hpublished.distinct, hepoch.symm,
      hrevision.symm⟩
  · intro e e' c c' he he' hrevision hc hc'
    obtain ⟨handle, call, nowMs, draws, hmade, rfl, hplans⟩ :=
      harchive.planned hideal hg he he' hrevision hc hc'
    exact (hplans.change (hnamed call hmade)).epochStep hmade

end Weaver

namespace Weaver.Sample

open Program Transparent

/-- The sample authority keeps the discipline with the registration and the redemption. -/
theorem epoch_discipline_sample : ∃ (init : InitializedAuthority) (P : Pool (authorityApi manifest)),
    P.log.length = 4 ∧
    ∀ e e' c c', Committed init.status.networkId P.world e →
      Committed init.status.networkId P.world e' → e'.revision.toNat = e.revision.toNat + 1 →
      e.Content key c → e'.Content key c' → EpochStep AuthorityCall.Named c c' := by
  obtain ⟨init, hinit⟩ := initialize_eq_ok
  obtain ⟨_, hr⟩ := Option.isSome_iff_exists.mp redeeming_isSome
  unfold redeeming at hr
  simp only [Option.bind_eq_bind, Option.bind_eq_some_iff, Prod.exists] at hr
  obtain ⟨prepared, -, _, h₁, w₁, hopen, _, h₂, w₂, hregister, invitation, h₃, w₃, hcreate, ticket,
    h₄, w₄, hredeem, -⟩ := hr
  have hopened := Solo.reaches (R := processesOf manifest AuthorityCall.Named) rfl hopen
    fun _ h => by cases h
  have hregistered := hopened.trans (Solo.steps hregister fun _ h => by cases h; trivial)
  have hcreated := hregistered.trans (Solo.steps hcreate fun _ h => by cases h; trivial)
  have hredeemed := hcreated.trans (Solo.steps hredeem fun _ h => by cases h; trivial)
  exact ⟨init, _, rfl, (epoch_discipline hpkeIdeal hinit (fun _ h => h) hredeemed).2⟩

end Weaver.Sample
