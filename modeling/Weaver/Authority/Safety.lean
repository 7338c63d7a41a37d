import Weaver.Authority.Contract
import Weaver.Store.Rules

/-!
# The authority's requests keep the contract

Every request of a process, from any sound handle and among any other processes, commits only what
`Writes` allows and leaves a sound handle (`authorityBody_safe`). What a handle caches may be stale:
its configuration is that of some envelope in the history, and the versions that it cached are those
of some earlier records.
-/

namespace Weaver

open Checked Wire Versioned Program

variable [Crypto]

/-! ## What is computed before a commit -/

variable {e : EncryptedConfigEnvelope}

variable {next : NetworkConfigV1} {nowMs : UInt64} {random : SealRandomness}
  {opened : OpenedNetworkConfig}

/-- What `commit_config` and `redeem_invitation` seal: the next configuration in an envelope that
comes right after the handle's head, and that opens under the head that it hashes to. -/
theorem Authority.sealNext_spec {self : Authority}
    (h : self.sealNext next nowMs random = .ok (e, opened)) :
    e.SealedNext self.rootPublic self.onlineAdmin self.config self.status.head next nowMs ∧
      e.OpensTo self.rootPublic self.memberEncryption nowMs opened.config.asConfig ∧
      opened.head = e.head := by
  unfold Authority.sealNext at h
  simp only [bind_eq_ok, mapError_eq_ok, pure_eq_ok_iff, Prod.mk.injEq] at h
  obtain ⟨recipients, -, envelope, hseal, o, hopen, rfl, rfl⟩ := h
  obtain ⟨-, -, -, hopens, hhead⟩ := EncryptedConfigEnvelope.openNextConfig_eq_ok.mp hopen
  exact ⟨EncryptedConfigEnvelope.sealNextConfig_spec hseal, hopens, hhead⟩

variable {batch : AtomicBatch}

theorem Authority.revisionBatch_spec {self : Authority}
    (h : self.revisionBatch e.toBytes e.head = .ok batch) :
    batch.scope = self.scope ∧
      batch.operations =
        revisionOperations self.envelopeRecordVersion self.headRecordVersion e ∧
      e.toBytes.length ≤ maxValueLen := by
  unfold Authority.revisionBatch at h
  simp only [bind_eq_ok, AtomicBatch.put_eq_ok] at h
  obtain ⟨b₁, ⟨hlen, -, hscope₁, hops₁⟩, b₂, ⟨-, -, hscope₂, hops₂⟩, -, -, hscope, hops⟩ := h
  refine ⟨hscope.trans (hscope₂.trans hscope₁), ?_, hlen⟩
  rw [hops, hops₂, hops₁]
  rfl

variable {ticket : JoinTicket}

theorem Authority.redemptionBatch_spec {self : Authority} {id requestHash : Bytes32}
    {version : UInt64}
    (h : self.redemptionBatch e.toBytes e.head id requestHash ticket version = .ok batch) :
    ∃ consumed, encodeConsumed requestHash ticket = .ok consumed ∧ batch.scope = self.scope ∧
      batch.operations =
        revisionOperations self.envelopeRecordVersion self.headRecordVersion e ++
          [.put (invitationKey id) consumed (.exact version)] ∧
      e.toBytes.length ≤ maxValueLen := by
  unfold Authority.redemptionBatch at h
  simp only [bind_eq_ok, mapError_eq_ok, AtomicBatch.put_eq_ok] at h
  obtain ⟨b, hrevision, consumed, hconsumed, -, -, hscope, hops⟩ := h
  obtain ⟨hscope', hops', hlen⟩ := Authority.revisionBatch_spec hrevision
  refine ⟨consumed, hconsumed, hscope.trans hscope', ?_, hlen⟩
  rw [hops, hops']

variable {I : Identity} {w : Stores} {self : Authority} {manifest : Bytes}

theorem Authority.Sound.extends (hs : self.Sound I w) {e' : EncryptedConfigEnvelope}
    (h : self.sealNext next nowMs random = .ok (e', opened)) :
    ∃ e, Committed I.network w e ∧ e.Content I.encryption self.config.asConfig ∧ Extends e e' ∧
      EncryptedConfigEnvelope.fromBytes e'.toBytes = .ok e' ∧ e'.Seals I.root next ∧
      e'.Content I.encryption opened.config.asConfig ∧ opened.head = e'.head ∧
      ∀ c, self.Plans c next nowMs random → self.Commits I c next nowMs e e' := by
  obtain ⟨hsealed, hopens, hhead⟩ := Authority.sealNext_spec h
  obtain ⟨e, he, hehead, hcontent⟩ := hs.current
  have hchain := hsealed.chainHolds
  rw [hs.root, ← hehead] at hsealed
  rw [hs.root, hs.encryption] at hopens
  rw [← hehead] at hchain
  obtain ⟨hrev, hprev, hepoch⟩ := hchain
  refine ⟨e, he, hcontent, ⟨hrev, hprev, hepoch⟩, hsealed.seals.fromBytes_toBytes, hsealed.seals,
    hopens.content, hhead, ?_⟩
  intro c hplans
  exact ⟨⟨w, hs⟩, ⟨random, hplans⟩, hehead.symm, hcontent, hsealed, ⟨_, hopens⟩⟩

theorem Authority.Sound.scope_eq (hs : self.Sound I w) : self.scope = I.scope := by
  unfold Authority.scope Identity.scope
  rw [hs.network]

/-! ## Committing a revision -/

theorem guarantee_refl (I : Identity) (request : AuthorityRequest) (w : Stores) :
    Guarantee I request w w := .stay rfl

variable {request : AuthorityRequest}

theorem Authority.Sound.commitConfig_safe (hs : self.Sound I w) (hreq : request.Advances)
    (hplans : ∃ c, request = .call c ∧ self.Plans c next nowMs random) :
    Safe storeMachine (authorityContract I) (Guarantee I request)
      (self.commitConfig next nowMs random)
      (OnOk fun r w' => r.2.Sound I w' ∧ r.1 = r.2.status) w := by
  unfold Authority.commitConfig
  refine Safe.lift_andThen ?_
  intro ⟨envelope, opened⟩ hseal
  obtain ⟨-, -, hhead⟩ := Authority.sealNext_spec hseal
  refine Safe.lift_andThen ?_
  intro batch hbatch
  rw [mapError_eq_ok, hhead] at hbatch
  obtain ⟨hscope, hops, -⟩ := Authority.revisionBatch_spec hbatch
  refine Safe.commit_andThen (guarantee_refl I request) (by simp) ?_
  intro w₁ hle₁ hinv₁ version w₂ hcommit hsecrets
  have hs₁ := AuthorityLe.handle hle₁ hs
  obtain ⟨e, he, -, hext, hparse, -, hcontent, -, hcommits⟩ := hs₁.extends hseal
  obtain ⟨c, hcall, hplans⟩ := hplans
  have hrevision : RevisionBatch I w₁ batch e envelope [] := by
    refine ⟨he, hext, hparse, hscope.trans hs.scope_eq,
      ⟨self.envelopeRecordVersion, self.headRecordVersion, ?_⟩, by simp⟩
    rw [hops, List.append_nil]
  have hstep : Guarantee I request w₁ w₂ :=
    .commit batch version
      (.revision e envelope hreq hrevision ⟨self, c, next, nowMs, hcall, hcommits c hplans⟩) hcommit
      hsecrets
  refine ⟨hstep, ?_⟩
  intro _
  have hle₂ := (guarantee_allows I request w₁ w₂ hinv₁ hstep).2
  have hnew : Committed I.network w₂ envelope := ⟨hparse, (hrevision.advance hcommit).history⟩
  refine Safe.read_andThen (guarantee_refl I request) (by simp) ?_
  intro w₃ hle₃ _ envelopeRecord _
  refine Safe.read_andThen (guarantee_refl I request) (by simp) ?_
  intro w₄ hle₄ _ headRecord _
  refine Safe.lift_andThen fun _ _ => Safe.lift_andThen fun head _ => Safe.lift_andThen fun _ _ => ?_
  have hle : AuthorityLe I w₂ w₄ := (authorityContract I).trans hle₃ hle₄
  have hs₄ := AuthorityLe.handle ((authorityContract I).trans hle₂ hle) hs₁
  refine Safe.pure ⟨?_, rfl⟩
  exact { hs₄ with
    current := ⟨envelope, hle.committed hnew, hhead.symm, hcontent⟩ }

variable {plan : Except AuthorityError NetworkConfigV1}

theorem Authority.Sound.commitPlan_safe (hs : self.Sound I w) (hreq : request.Advances)
    (hplans : ∀ next, plan = .ok next → ∃ c, request = .call c ∧ self.Plans c next nowMs random) :
    Safe storeMachine (authorityContract I) (Guarantee I request)
      (self.commitPlan plan nowMs random)
      (OnOk fun r w' => r.2.Sound I w' ∧ r.1 = r.2.status) w := by
  unfold Authority.commitPlan
  refine Safe.lift_andThen ?_
  intro next hplan
  exact hs.commitConfig_safe hreq (hplans next hplan)

def Genuine (I : Identity) (w : Stores) (bytes : Bytes) : Prop :=
  ∃ e, Committed I.network w e ∧ bytes = e.toBytes

variable {w' : Stores}

theorem AuthorityLe.genuine (h : AuthorityLe I w w') {bytes : Bytes} (hb : Genuine I w bytes) :
    Genuine I w' bytes := by
  obtain ⟨e, he, hbytes⟩ := hb
  exact ⟨e, h.committed he, hbytes⟩

theorem Authority.Sound.inviteMember_safe (hs : self.Sound I w)
    (hinv : AuthorityInv I w) (join : JoinRequest)
    (endpointBinding : EndpointBinding) (grantedRoles : MemberRoles) (nowMs validForMs : UInt64)
    (secrets : Option EpochSecrets) (random : SealRandomness) :
    Safe storeMachine (authorityContract I) (Guarantee I (.call (.inviteMember join endpointBinding
        grantedRoles nowMs validForMs secrets random)))
      (self.inviteMember join endpointBinding grantedRoles nowMs validForMs secrets random)
      (fun r w' => r.2.Sound I w' ∧ ∀ ticket, r.1 = .ok ticket →
        Genuine I w' ticket.embeddedConfig) w := by
  unfold Authority.inviteMember
  split
  · exact ⟨hs, fun ticket h => by cases h⟩
  · next admission hplan =>
    refine Safe.bind (guarantee_allows I _) hinv
      (hs.commitConfig_safe (by trivial) ⟨_, rfl, .inviteMember random hplan⟩) ?_
    intro result w₁ hle₁ hinv₁ hresult
    cases result with
    | error e => exact ⟨AuthorityLe.handle hle₁ hs, fun ticket h => by cases h⟩
    | ok pair =>
      obtain ⟨status, self'⟩ := pair
      have hs' : self'.Sound I w₁ := (hresult _ rfl).1
      -- the current envelope is read back after the commit, and may be a later one
      have hticket : Safe storeMachine (authorityContract I) (Guarantee I (.call (.inviteMember join
          endpointBinding grantedRoles nowMs validForMs secrets random)))
          (self'.inviteTicket admission endpointBinding status)
          (OnOk fun ticket w' => Genuine I w' ticket.embeddedConfig) w₁ := by
        unfold Authority.inviteTicket
        refine Safe.read_andThen (guarantee_refl I _) (by simp) ?_
        intro w₂ _ hinv₂ record hrecord
        obtain ⟨last, hchain⟩ := hinv₂.chain
        obtain ⟨v, henvelope⟩ := hchain.envelope
        rw [hs'.scope_eq] at hrecord
        simp only [mapError_ok, ok_bind, okOr_eq_ok] at hrecord
        have hrecord' : w₂.record (.authority I.network) keyEnvelope = some record := hrecord
        rw [henvelope] at hrecord'
        refine Safe.lift ?_
        intro ticket hissue
        obtain ⟨-, -, -, -, -, -, -, -, -, hembedded, -⟩ := JoinTicket.issue_spec hissue
        refine ⟨last, hchain.committed, ?_⟩
        rw [hembedded, ← Option.some.inj hrecord']
      refine Safe.bind (guarantee_allows I _) hinv₁ hticket ?_
      intro result w₂ hle₂ _ hgenuine
      exact ⟨AuthorityLe.handle hle₂ hs', fun ticket h => hgenuine ticket h⟩

/-! ## Invitations -/

omit [Crypto] in
theorem InvitationBundle.isConsumed_encodeSigned {b : InvitationBundle} {signed rest : Bytes}
    (h : b.encodeSigned = .ok signed) : isConsumed (signed ++ rest) = false := by
  unfold InvitationBundle.encodeSigned at h
  simp only [bind_eq_ok, pure_eq_ok_iff] at h
  obtain ⟨-, -, addresses, -, relay, -, name, -, certificate, -, rfl⟩ := h
  simp only [List.append_assoc]
  rfl

structure Created (I : Identity) (invitation : InvitationBundle) : Prop where
  root : invitation.rootPublicKey = I.root.verifyingKey
  network : invitation.networkId = I.network
  endpoint : Crypto.validEndpoint invitation.bootstrapEndpointId = true
  expires : invitation.expiresAtMs ≤ I.certificate.payload.expiresAtMs
  certificate : invitation.adminCertificate = I.manifest.adminCertificate
  signer : invitation.signerKeyId = I.certificate.payload.keyId
  signature : Crypto.verify I.certificate.payload.publicKey invitation.signedBytes
    invitation.signature = true

variable {invitation : InvitationBundle}

theorem Authority.Sound.planInvitation_spec (hs : self.Sound I w) {endpoint : EndpointId}
    {addresses : List SocketAddr} {relay : Option String} {appAddr : AppAddr} {name : VirtualName}
    {validForMs : UInt64} {random : Option Bytes32}
    (h : self.planInvitation endpoint addresses relay appAddr name nowMs validForMs random =
      .ok invitation) :
    random = some invitation.invitationId ∧ isConsumed invitation.toBytes = false ∧
      Created I invitation := by
  unfold Authority.planInvitation InvitationBundle.issue at h
  simp only [bind_eq_ok, okOr_eq_ok, failIf_eq_ok, exists_and_left, pure_eq_ok_iff] at h
  obtain ⟨requested, -, -, -, -, -, id, hid, signed, hsigned, rfl⟩ := h
  obtain ⟨_, hverifies⟩ := hs.verifies
  have hkey : self.onlineAdmin.keyId = I.certificate.payload.keyId := by
    rw [← hverifies.key_id, hs.admin_key]
    rfl
  have hroot : self.rootPublic.verifyingKey = I.root.verifyingKey := by rw [hs.root]
  refine ⟨hid, InvitationBundle.isConsumed_encodeSigned hsigned, hroot, hs.network, endpoint.valid,
    ?_, hs.certificate, hkey, ?_⟩
  · rw [← hs.admin]
    exact (min_le_left _ _).trans (min_le_right _ _)
  · rw [hs.admin_key]
    exact Crypto.verify_sign _ _

theorem Authority.Sound.createInvitation_safe (hs : self.Sound I w) (endpoint : EndpointId)
    (addresses : List SocketAddr) (relay : Option String) (appAddr : AppAddr) (name : VirtualName)
    (nowMs validForMs : UInt64) (random : Option Bytes32) :
    Safe storeMachine (authorityContract I)
      (Guarantee I (.call
        (.createInvitation endpoint addresses relay appAddr name nowMs validForMs random)))
      (self.createInvitation endpoint addresses relay appAddr name nowMs validForMs random)
      (OnOk fun invitation _ => Created I invitation ∧ random = some invitation.invitationId)
      w := by
  unfold Authority.createInvitation
  refine Safe.lift_andThen ?_
  intro invitation hplan
  obtain ⟨hrandom, hpending, hcreated⟩ := hs.planInvitation_spec hplan
  refine Safe.lift_andThen ?_
  intro batch hbatch
  rw [mapError_eq_ok, AtomicBatch.put_eq_ok] at hbatch
  obtain ⟨-, -, hscope, hops⟩ := hbatch
  refine Safe.commit_andThen (guarantee_refl I _) (by simp) ?_
  intro w₁ _ _ version w₂ hcommit hsecrets
  have hscope' : batch.scope = I.scope := hscope.trans hs.scope_eq
  refine ⟨.commit batch version (.creation invitation.invitationId invitation.toBytes hrandom
    hpending hscope' hops) hcommit hsecrets, ?_⟩
  intro _
  exact Safe.pure ⟨hcreated, hrandom⟩

theorem AuthorityLe.known (h : AuthorityLe I w w') (hinv : AuthorityInv I w) {key : StoreKey}
    {record : VersionedBytes} (hrecord : w.record I.scope key = some record) :
    ∀ record', w'.record I.scope key = some record' → record'.version = record.version →
      record' = record :=
  fun _ hrecord' hversion => h.state.eq_of_version hinv.sound hrecord hrecord' hversion

theorem Authority.Sound.revokeInvitation_safe (hs : self.Sound I w) (id : Bytes32) :
    Safe storeMachine (authorityContract I) (Guarantee I (.call (.revokeInvitation id)))
      (self.revokeInvitation id) (OnOk fun _ _ => True) w := by
  unfold Authority.revokeInvitation
  refine Safe.read_andThen (guarantee_refl I _) (by simp) ?_
  intro w₁ hle₁ hinv₁ record hrecord
  rw [hs.scope_eq] at hrecord
  simp only [mapError_ok, ok_bind, okOr_eq_ok] at hrecord
  refine Safe.lift_andThen ?_
  intro _ hpending
  rw [failIf_eq_ok, Bool.not_eq_true] at hpending
  refine Safe.lift_andThen ?_
  intro batch hbatch
  rw [mapError_eq_ok, AtomicBatch.delete_eq_ok] at hbatch
  obtain ⟨-, hscope, hops⟩ := hbatch
  refine Safe.commit_andThen (guarantee_refl I _) (by simp) ?_
  intro w₂ hle₂ _ version w₃ hcommit hsecrets
  refine ⟨.commit batch version (.revocation id record rfl hpending
    (AuthorityLe.known hle₂ hinv₁ hrecord) (hscope.trans hs.scope_eq) hops) hcommit hsecrets, ?_⟩
  intro _
  exact Safe.pure trivial

/-! ## Redeeming -/

/-- The checks of `redeem_invitation` before it reads the invitation's record. -/
structure RedeemChecks (I : Identity) (invitation : InvitationBundle)
    (prepared : PreparedJoinRequest) (clientAppRoot : AppRootKey) (nowMs : UInt64) : Prop where
  verifies : invitation.verify I.root nowMs = .ok ()
  app : invitation.clientAppAddr = clientAppRoot.appAddr
  request : ∃ request, prepared.verify I.network nowMs = .ok request

variable {prepared : PreparedJoinRequest} {clientAppRoot : AppRootKey}

theorem Authority.Sound.checkRedeem_eq_ok (hs : self.Sound I w) {u : Unit} :
    self.checkRedeem invitation prepared clientAppRoot nowMs = .ok u ↔
      RedeemChecks I invitation prepared clientAppRoot nowMs := by
  unfold Authority.checkRedeem
  rw [hs.root, hs.network]
  simp only [bind_eq_ok, failIf_eq_ok, mapError_eq_ok, Decidable.not_not, exists_and_left,
    exists_const, pure_eq_ok_iff, and_true]
  constructor
  · rintro ⟨_, hinvitation, happ, hprepared⟩
    exact ⟨hinvitation, happ, hprepared⟩
  · intro h
    exact ⟨(), h.verifies, h.app, h.request⟩

/-- The invitation's record gives the ticket to the prepared request, and the ticket carries an
envelope of the history. -/
structure Redeemed (I : Identity) (w : Stores) (invitation : InvitationBundle)
    (prepared : PreparedJoinRequest) (ticket : JoinTicket) : Prop where
  record : ∃ record, w.record I.scope (invitationKey invitation.invitationId) = some record ∧
    decodeConsumed record.bytes (hash prepared.toBytes) = .ok ticket
  genuine : Genuine I w ticket.embeddedConfig

theorem AuthorityLe.redeemed (h : AuthorityLe I w w')
    (hr : Redeemed I w invitation prepared ticket) : Redeemed I w' invitation prepared ticket := by
  obtain ⟨record, hrecord, hdecode⟩ := hr.record
  exact ⟨⟨record, h.consumed _ _ hrecord (isConsumed_of_decodeConsumed hdecode), hdecode⟩,
    h.genuine hr.genuine⟩

variable {secrets : Option EpochSecrets} {c : AuthorityCall}

theorem Authority.Sound.sealRedeem_spec (hs : self.Sound I w) (hI : I.Describes manifest)
    {pending : VersionedBytes} (happ : invitation.clientAppAddr = clientAppRoot.appAddr)
    (hknown : ∀ record, w.record I.scope (invitationKey invitation.invitationId) = some record →
      record.version = pending.version → record = pending)
    (hbundle : pending.bytes = invitation.toBytes) (hunused : isConsumed pending.bytes = false)
    (h : self.sealRedeem invitation prepared clientAppRoot nowMs secrets random pending.version =
      .ok (batch, opened, ticket))
    (hplans : ∀ r, self.planRedeem invitation prepared clientAppRoot nowMs secrets = .ok r →
      self.Plans c r.next nowMs random) :
    ∃ e e' consumed,
      RedemptionBatch I w batch invitation prepared ticket e e' pending consumed ∧
      e'.Content I.encryption opened.config.asConfig ∧ opened.head = e'.head ∧
      ∃ next, self.Commits I c next nowMs e e' := by
  unfold Authority.sealRedeem at h
  simp only [bind_eq_ok, pure_eq_ok_iff, Prod.mk.injEq] at h
  obtain ⟨redemption, hplan, ⟨e', o⟩, hseal, t, hissue, b, hbatch, rfl, rfl, rfl⟩ := h
  obtain ⟨hadmitted, -, hbinding⟩ := Authority.planRedeem_spec hplan
  obtain ⟨e, he, hcontent, hext, hparse, hseals, hcontent', hhead, hcommits⟩ := hs.extends hseal
  simp only [hhead] at hissue hbatch
  obtain ⟨consumed, hconsumed, hscope, hops, hlen⟩ := Authority.redemptionBatch_spec hbatch
  have hcertificate : self.adminCertificate = I.certificate.toBytes := by
    rw [hs.certificate]
    exact Signed.fromBytes_eq_ok.mp hI.certificate
  rw [hcertificate] at hissue
  have hticket := JoinTicket.fromBytes_of_issue hissue hlen
  obtain ⟨-, -, -, -, -, hconfigHead, -, hmember, hendpoint, hembedded, -⟩ :=
    JoinTicket.issue_spec hissue
  obtain ⟨serial, hpayload⟩ := hadmitted.member
  obtain ⟨epoch, revision, epochSecrets, -, -, hnext⟩ := hadmitted.next
  refine ⟨e, e', consumed, ⟨⟨he, hext, hparse, hscope.trans hs.scope_eq, ⟨_, _, hops⟩, ?_⟩, hknown,
    hbundle, hunused, decodeConsumed_encodeConsumed hconsumed hticket, ⟨hembedded, hconfigHead⟩,
    ⟨self.config.asConfig, redemption.next, hcontent, hseals, ?_, ?_, ?_⟩⟩, hcontent', hhead,
    ⟨redemption.next, hcommits c (hplans redemption hplan)⟩⟩
  · intro op hop
    rw [List.mem_singleton.mp hop]
    exact ⟨invitation.invitationId, rfl⟩
  · refine ⟨redemption.member, by rw [hnext], ?_, ?_, ?_, hmember⟩
    · -- the member's identifier is derived from the key that the request names
      have hid := hadmitted.current.member_id
      rw [← hid, hpayload]
      exact hadmitted.request_verifies.member_id
    · rw [hpayload]
    · rw [hpayload]
  · refine ⟨by rw [hnext], hendpoint⟩
  · refine ⟨redemption.appBinding, by rw [hnext], ?_, ?_⟩
    · rw [hbinding]
    · rw [hbinding, happ]

theorem Authority.Sound.redeemInvitation_safe (hs : self.Sound I w) (hI : I.Describes manifest)
    (hreq : request.Redeems invitation prepared) (hcall : request = .call c)
    (hplans : ∀ r, self.planRedeem invitation prepared clientAppRoot nowMs secrets = .ok r →
      self.Plans c r.next nowMs random) :
    Safe storeMachine (authorityContract I) (Guarantee I request)
      (self.redeemInvitation invitation prepared clientAppRoot nowMs secrets random)
      (OnOk fun r w' => r.2.Sound I w' ∧ Redeemed I w' invitation prepared r.1 ∧
        RedeemChecks I invitation prepared clientAppRoot nowMs) w := by
  unfold Authority.redeemInvitation
  refine Safe.lift_andThen ?_
  intro _ hcheck
  have hchecks := hs.checkRedeem_eq_ok.mp hcheck
  refine Safe.read_andThen (guarantee_refl I request) (by simp) ?_
  intro w₁ hle₁ hinv₁ record hrecord
  rw [hs.scope_eq] at hrecord
  simp only [mapError_ok, ok_bind, okOr_eq_ok] at hrecord
  have hs₁ := AuthorityLe.handle hle₁ hs
  split
  · -- the invitation is consumed, and the record answers
    refine Safe.lift_andThen ?_
    intro ticket hdecode
    obtain ⟨e, he, hembedded⟩ := hinv₁.tickets _ _ _ _ hrecord hdecode
    exact Safe.pure ⟨hs₁, ⟨⟨record, hrecord, hdecode⟩, e, he, hembedded⟩, hchecks⟩
  · next hunused =>
    rw [Bool.not_eq_true] at hunused
    refine Safe.lift_andThen ?_
    intro _ hbundle
    rw [failIf_eq_ok, Decidable.not_not] at hbundle
    refine Safe.lift_andThen ?_
    intro ⟨batch, opened, ticket⟩ hseal
    refine Safe.commit_andThen (guarantee_refl I request) (by simp) ?_
    intro w₂ hle₂ hinv₂ version w₃ hcommit hsecrets
    have hs₂ := AuthorityLe.handle hle₂ hs₁
    obtain ⟨e, e', consumed, hredemption, hcontent, hhead, next, hcommits⟩ :=
      hs₂.sealRedeem_spec hI hchecks.app (AuthorityLe.known hle₂ hinv₁ hrecord) hbundle hunused
        hseal hplans
    have hstep : Guarantee I request w₂ w₃ := .commit batch version
      (.redemption invitation prepared ticket e e' record consumed hreq hredemption
        ⟨self, c, next, nowMs, hcall, hcommits⟩) hcommit hsecrets
    refine ⟨hstep, ?_⟩
    intro _
    have hle₃ := (guarantee_allows I request w₂ w₃ hinv₂ hstep).2
    obtain ⟨-, v, hconsumed⟩ := hredemption.consumes hcommit
    have hnew : Committed I.network w₃ e' :=
      ⟨hredemption.revision.parses, (hredemption.revision.advance hcommit).history⟩
    have hredeemed : Redeemed I w₃ invitation prepared ticket :=
      ⟨⟨_, hconsumed, hredemption.redeemed⟩, e', hnew, hredemption.carries.1⟩
    refine Safe.read_andThen (guarantee_refl I request) (by simp) ?_
    intro w₄ hle₄ _ envelopeRecord _
    refine Safe.read_andThen (guarantee_refl I request) (by simp) ?_
    intro w₅ hle₅ _ headRecord _
    -- the versions are those of whatever records are there by now
    have hle : AuthorityLe I w₃ w₅ := (authorityContract I).trans hle₄ hle₅
    have hs₅ := AuthorityLe.handle ((authorityContract I).trans hle₃ hle) hs₂
    refine Safe.pure ⟨?_, hle.redeemed hredeemed, hchecks⟩
    exact { hs₅ with current := ⟨e', hle.committed hnew, hhead.symm, hcontent⟩ }

theorem Authority.Sound.redeemInvitationOnline_safe
    (hs : self.Sound I w) (hI : I.Describes manifest) (invitation : InvitationBundle)
    (prepared : PreparedJoinRequest) (nowMs : UInt64)
    (secrets : Option EpochSecrets) (random : SealRandomness) :
    Safe storeMachine (authorityContract I)
      (Guarantee I (.call (.redeemInvitationOnline invitation prepared nowMs secrets random)))
      (self.redeemInvitationOnline invitation prepared nowMs secrets random)
      (OnOk fun r w' => r.2.Sound I w' ∧ Redeemed I w' invitation prepared r.1) w := by
  unfold Authority.redeemInvitationOnline
  refine Safe.openSecret_andThen (guarantee_refl I _) (by simp) ?_
  intro w₁ hle₁ hinv₁ bytes _
  have hs₁ := AuthorityLe.handle hle₁ hs
  refine Safe.weaken (guarantee_allows I _)
    (hs₁.redeemInvitation_safe hI (by exact ⟨rfl, rfl⟩) rfl
      fun _ hplan => .redeemInvitationOnline random hplan) hinv₁ ?_
  intro r w' _ _ hr a ha
  exact ⟨(hr a ha).1, (hr a ha).2.1⟩

theorem installEnrollmentAppRoot_safe (I : Identity) (self : Authority) (hreq : request.Installs)
    (appRoot : AppRootKey) (w : Stores) :
    Safe storeMachine (authorityContract I) (Guarantee I request)
      (self.installEnrollmentAppRoot appRoot) (OnOk fun _ _ => True) w := by
  unfold Authority.installEnrollmentAppRoot
  refine Safe.lift_andThen fun registration _ => Safe.lift_andThen fun _ _ => ?_
  refine Safe.sealSecret (guarantee_refl I request) ?_ fun _ _ => trivial
  intro w
  exact .secret _ _ hreq rfl rfl

/-! ## Reading the history -/

theorem readHistory_safe (I : Identity) (request : AuthorityRequest) (revisions : List UInt64)
    (w : Stores) (hinv : AuthorityInv I w) :
    Safe storeMachine (authorityContract I) (Guarantee I request)
      (readHistory I.scope revisions)
      (OnOk fun envelopes w' => ∀ raw ∈ envelopes, Genuine I w' raw) w := by
  induction revisions generalizing w with
  | nil => exact Safe.pure (by simp)
  | cons revision rest ih =>
    unfold readHistory
    refine Safe.read_andThen (guarantee_refl I request) (by simp) ?_
    intro w₁ _ hinv₁ record hrecord
    simp only [mapError_ok, ok_bind, okOr_eq_ok] at hrecord
    obtain ⟨last, hchain⟩ := hinv₁.chain
    obtain ⟨e, he, -, hbytes⟩ := hchain.of_record hrecord
    refine Safe.andThen (guarantee_allows I request) hinv₁ (ih w₁ hinv₁) ?_
    intro envelopes w₂ hle₂ _ hrest
    refine Safe.pure ?_
    intro raw hraw
    rcases List.mem_cons.mp hraw with rfl | hraw
    · exact AuthorityLe.genuine hle₂ ⟨e, he, hbytes⟩
    · exact hrest raw hraw

theorem Authority.Sound.configUpdatesAfter_safe (hs : self.Sound I w) (baseHead : ConfigHead) :
    Safe storeMachine (authorityContract I) (Guarantee I request)
      (self.configUpdatesAfter baseHead)
      (OnOk fun batch w' => ∀ raw ∈ batch.envelopes, Genuine I w' raw) w := by
  unfold Authority.configUpdatesAfter
  refine Safe.lift_andThen ?_
  intro _ _
  refine Safe.read_andThen (guarantee_refl I request) (by simp) ?_
  intro w₁ _ hinv₁ base _
  refine Safe.lift_andThen fun baseEnvelope _ => Safe.lift_andThen fun _ _ => ?_
  rw [hs.scope_eq]
  refine Safe.andThen (guarantee_allows I request) hinv₁
    (readHistory_safe I request _ w₁ hinv₁) ?_
  intro envelopes w₂ _ _ henvelopes
  refine Safe.lift ?_
  intro batch hbatch
  rw [mapError_eq_ok, ConfigUpdateBatch.new_eq_ok] at hbatch
  obtain ⟨-, -, rfl⟩ := hbatch
  exact henvelopes

/-! ## Opening a handle -/

theorem openCurrent_spec {m : Manifest} {root : NetworkRootPublic} {admin : VerifiedAdmin}
    {key : MemberEncryptionKeypair} {head : ConfigHead}
    (h : openCurrent m root admin key e head nowMs = .ok opened) :
    e.OpensTo root key nowMs opened.config.asConfig ∧ opened.head = e.head := by
  unfold openCurrent at h
  split at h
  · simp only [bind_eq_ok, mapError_eq_ok] at h
    obtain ⟨-, -, h⟩ := h
    obtain ⟨-, -, -, -, hopens, hhead⟩ := EncryptedConfigEnvelope.openConfig_eq_ok.mp h
    exact ⟨hopens, hhead⟩
  · rw [mapError_eq_ok] at h
    obtain ⟨-, -, -, -, -, hopens, hhead⟩ :=
      EncryptedConfigEnvelope.openConfigWithVerifiedAdmin_eq_ok.mp h
    exact ⟨hopens, hhead⟩

theorem seedHistory_safe (he : Committed I.network w e) :
    Safe storeMachine (authorityContract I) (Guarantee I request)
      (seedHistory I.scope e.revision e.toBytes) (OnOk fun _ _ => True) w := by
  unfold seedHistory
  refine Safe.read_andThen (guarantee_refl I request) (by simp) ?_
  intro w₁ hle₁ _ record hrecord
  obtain ⟨-, v, hhistory⟩ := AuthorityLe.committed hle₁ he
  have hscope : I.scope = .authority I.network := rfl
  rw [mapError_ok, Except.ok.injEq, hscope, hhistory] at hrecord
  rw [← hrecord]
  exact Safe.lift fun _ _ => trivial

theorem open_safe (hI : I.Describes manifest) (request : AuthorityRequest) (nowMs : UInt64)
    (w : Stores) :
    Safe storeMachine (authorityContract I) (Guarantee I request) (Authority.open manifest nowMs)
      (OnOk fun self w' => self.Sound I w') w := by
  unfold Authority.open
  refine Safe.lift_andThen ?_
  intro m hm
  obtain rfl := Except.ok.inj (hI.manifest.symm.trans hm)
  refine Safe.lift_andThen ?_
  intro root hroot
  rw [mapError_eq_ok] at hroot
  obtain rfl := Except.ok.inj (hI.root.symm.trans hroot)
  refine Safe.lift_andThen ?_
  intro _ hnetwork
  rw [failIf_eq_ok, Decidable.not_not] at hnetwork
  refine Safe.openSecret_andThen (guarantee_refl I request) (by simp) ?_
  intro w₁ _ hinv₁ encryptionBytes hbytes
  -- the secret is the authority's encryption key
  have hsecret := hinv₁.encryption
  unfold Identity.network at hsecret
  rw [hsecret, mapError_ok, ok_bind, dif_pos I.encryption.secretBytes.property] at hbytes
  have hbytes' : I.encryption.secretBytes = encryptionBytes := Except.ok.inj hbytes
  refine Safe.lift_andThen ?_
  intro encryption hencryption
  rw [mapError_eq_ok, ← hbytes', MemberEncryptionKeypair.fromSecretBytes_eq_ok] at hencryption
  obtain rfl := MemberEncryptionKeypair.eq_of_secretBytes hencryption
  refine Safe.openSecret_andThen (guarantee_refl I request) (by simp) ?_
  intro w₂ _ _ endpointSecret _
  refine Safe.openSecret_andThen (guarantee_refl I request) (by simp) ?_
  intro w₃ _ _ adminBytes _
  refine Safe.read_andThen (guarantee_refl I request) (by simp) ?_
  intro w₄ _ hinv₄ envelopeRecord hrecord
  -- the envelope that is read is in the history
  obtain ⟨last, hchain⟩ := hinv₄.chain
  obtain ⟨v, henvelope⟩ := hchain.envelope
  unfold Identity.network at henvelope
  rw [henvelope, mapError_ok, ok_bind, okOr_eq_ok] at hrecord
  obtain rfl := Option.some.inj hrecord
  refine Safe.lift_andThen ?_
  intro envelope hparse
  rw [mapError_eq_ok, VersionedBytes.bytes, hchain.committed.1] at hparse
  obtain rfl := Except.ok.inj hparse
  refine Safe.read_andThen (guarantee_refl I request) (by simp) ?_
  intro w₅ hle₅ _ storedHead _
  refine Safe.lift_andThen fun head _ => Safe.lift_andThen fun _ _ => ?_
  refine Safe.lift_andThen ?_
  intro certificate hcertificate
  rw [mapError_eq_ok] at hcertificate
  obtain rfl := Except.ok.inj (hI.certificate.symm.trans hcertificate)
  refine Safe.lift_andThen ?_
  intro admin hadmin
  rw [mapError_eq_ok, AdminCertificate.verify_eq_ok] at hadmin
  obtain ⟨hverifies, hpayload⟩ := hadmin
  refine Safe.lift_andThen ?_
  intro _ hkey
  rw [failIf_eq_ok, Decidable.not_not, hpayload] at hkey
  refine Safe.lift_andThen ?_
  intro opened hopen
  obtain ⟨hopens, hhead⟩ := openCurrent_spec hopen
  refine Safe.lift_andThen fun _ _ => Safe.lift_andThen fun _ _ => ?_
  have hcommitted₅ : Committed I.network w₅ last := AuthorityLe.committed hle₅ hchain.committed
  have hrevision : opened.head.revision = last.revision := by rw [hhead]; rfl
  rw [hrevision]
  refine Safe.andThen (guarantee_allows I request) ‹_› (seedHistory_safe hcommitted₅) ?_
  intro _ w₆ hle₆ _ _
  refine Safe.lift_andThen fun verified _ => Safe.lift_andThen fun _ _ => Safe.pure ?_
  exact ⟨rfl, rfl, hnetwork, hpayload, hkey, rfl, ⟨nowMs, hverifies⟩, rfl,
    last, AuthorityLe.committed hle₆ hcommitted₅, hhead.symm, hopens.content⟩

/-! ## All requests -/

def AuthorityRequest.Recorded (I : Identity) :
    (request : AuthorityRequest) → request.Value → Stores → Prop
  | .call (.inviteMember ..), ticket, w => Genuine I w ticket.embeddedConfig
  | .call (.createInvitation _ _ _ _ _ _ _ random), invitation, _ =>
    Created I invitation ∧ random = some invitation.invitationId
  | .call (.redeemInvitation invitation prepared clientAppRoot nowMs _ _), ticket, w =>
    Redeemed I w invitation prepared ticket ∧
      RedeemChecks I invitation prepared clientAppRoot nowMs
  | .call (.redeemInvitationOnline invitation prepared _ _ _), ticket, w =>
    Redeemed I w invitation prepared ticket
  | .call (.configUpdatesAfter _), batch, w => ∀ raw ∈ batch.envelopes, Genuine I w raw
  | _, _, _ => True

theorem AuthorityLe.recorded (h : AuthorityLe I w w') (request : AuthorityRequest)
    (value : request.Value) (hr : request.Recorded I value w) : request.Recorded I value w' := by
  unfold AuthorityRequest.Recorded at hr ⊢
  split at hr
  · exact h.genuine hr
  · exact hr
  · exact ⟨h.redeemed hr.1, hr.2⟩
  · exact h.redeemed hr
  · exact fun raw hraw => h.genuine (hr raw hraw)
  · trivial

def CallPost (I : Identity) (c : AuthorityCall) (r : Except AuthorityError c.Value × Authority)
    (w : Stores) : Prop :=
  r.2.Sound I w ∧ ∀ value, r.1 = .ok value → AuthorityRequest.Recorded I (.call c) value w

theorem Authority.Sound.updating_safe (hs : self.Sound I w) (hinv : AuthorityInv I w)
    {x : StoreTask AuthorityError (c.Value × Authority)}
    (h : Safe storeMachine (authorityContract I) (Guarantee I (.call c)) x
      (OnOk fun r w' => r.2.Sound I w' ∧ AuthorityRequest.Recorded I (.call c) r.1 w') w) :
    Safe storeMachine (authorityContract I) (Guarantee I (.call c)) (updating self x)
      (CallPost I c) w := by
  unfold updating
  refine Safe.bind (guarantee_allows I _) hinv h ?_
  intro result w₁ hle₁ _ hresult
  cases result with
  | error e => exact ⟨AuthorityLe.handle hle₁ hs, fun value hvalue => by cases hvalue⟩
  | ok pair =>
    obtain ⟨hs', hrecorded⟩ := hresult pair rfl
    exact ⟨hs', fun value hvalue => Except.ok.inj hvalue ▸ hrecorded⟩

theorem Authority.Sound.keeping_safe (hs : self.Sound I w) (hinv : AuthorityInv I w)
    {x : StoreTask AuthorityError c.Value}
    (h : Safe storeMachine (authorityContract I) (Guarantee I (.call c)) x
      (OnOk fun value w' => AuthorityRequest.Recorded I (.call c) value w') w) :
    Safe storeMachine (authorityContract I) (Guarantee I (.call c)) (keeping self x)
      (CallPost I c) w := by
  unfold keeping
  refine Safe.bind (guarantee_allows I _) hinv h ?_
  intro result w₁ hle₁ _ hresult
  exact ⟨AuthorityLe.handle hle₁ hs, hresult⟩

theorem Authority.Sound.plan_safe (hs : self.Sound I w) (hreq : request.Advances)
    (hinv : AuthorityInv I w)
    (hplans : ∀ next, plan = .ok next → ∃ c, request = .call c ∧ self.Plans c next nowMs random) :
    Safe storeMachine (authorityContract I) (Guarantee I request)
      (self.commitPlan plan nowMs random) (OnOk fun r w' => r.2.Sound I w' ∧ True) w := by
  refine Safe.weaken (guarantee_allows I request) (hs.commitPlan_safe hreq hplans) hinv ?_
  intro r w' _ _ hr a ha
  exact ⟨(hr a ha).1, trivial⟩

theorem Authority.Sound.registerApp_safe (hs : self.Sound I w)
    (hinv : AuthorityInv I w) (registration : AppRegistrationRequest)
    (nowMs : UInt64) (random : SealRandomness) :
    Safe storeMachine (authorityContract I)
      (Guarantee I (.call (.registerApp registration nowMs random)))
      (self.registerApp registration nowMs random) (OnOk fun r w' => r.2.Sound I w' ∧ True) w := by
  unfold Authority.registerApp
  refine Safe.lift_andThen ?_
  intro ⟨next, issued⟩ hplan
  refine Safe.andThen (guarantee_allows I _) hinv
    (hs.commitConfig_safe (by trivial) ⟨_, rfl, .registerApp random hplan⟩) ?_
  intro ⟨status, self'⟩ w₁ _ _ hs'
  exact Safe.pure ⟨hs'.1, trivial⟩

theorem Authority.Sound.perform_safe (hs : self.Sound I w) (hI : I.Describes manifest)
    (hinv : AuthorityInv I w) (c : AuthorityCall) :
    Safe storeMachine (authorityContract I) (Guarantee I (.call c)) (self.perform c)
      (CallPost I c) w := by
  cases c with
  | commitConfig nextConfig nowMs random =>
    refine hs.updating_safe hinv ?_
    refine Safe.weaken (guarantee_allows I _)
      (hs.commitConfig_safe (by trivial) ⟨_, rfl, .commitConfig nextConfig nowMs random⟩) hinv ?_
    intro r w' _ _ hr a ha
    exact ⟨(hr a ha).1, trivial⟩
  | inviteMember join binding roles nowMs validForMs secrets random =>
    exact hs.inviteMember_safe hinv join binding roles nowMs validForMs secrets random
  | revokeMember memberId nowMs secrets random =>
    exact hs.updating_safe hinv (hs.plan_safe (by trivial) hinv
      fun _ hplan => ⟨_, rfl, .revokeMember random hplan⟩)
  | registerApp registration nowMs random =>
    exact hs.updating_safe hinv (hs.registerApp_safe hinv registration nowMs random)
  | authorizeAppBinding binding nowMs random =>
    exact hs.updating_safe hinv (hs.plan_safe (by trivial) hinv
      fun _ hplan => ⟨_, rfl, .authorizeAppBinding random hplan⟩)
  | setVirtualDns name appAddr expiresAtMs nowMs random =>
    exact hs.updating_safe hinv (hs.plan_safe (by trivial) hinv
      fun _ hplan => ⟨_, rfl, .setVirtualDns random hplan⟩)
  | removeVirtualDns name nowMs random =>
    exact hs.updating_safe hinv (hs.plan_safe (by trivial) hinv
      fun _ hplan => ⟨_, rfl, .removeVirtualDns random hplan⟩)
  | registerRelay endpointId url roles expiresAtMs nowMs random =>
    exact hs.updating_safe hinv (hs.plan_safe (by trivial) hinv
      fun _ hplan => ⟨_, rfl, .registerRelay random hplan⟩)
  | removeRelay endpointId nowMs random =>
    exact hs.updating_safe hinv (hs.plan_safe (by trivial) hinv
      fun _ hplan => ⟨_, rfl, .removeRelay random hplan⟩)
  | createInvitation endpoint addresses relay appAddr name nowMs validForMs random =>
    exact hs.keeping_safe hinv
      (hs.createInvitation_safe endpoint addresses relay appAddr name nowMs validForMs random)
  | redeemInvitation invitation prepared clientAppRoot nowMs secrets random =>
    exact hs.updating_safe hinv
      (hs.redeemInvitation_safe hI (by exact ⟨rfl, rfl⟩) rfl
        fun _ hplan => .redeemInvitation random hplan)
  | redeemInvitationOnline invitation prepared nowMs secrets random =>
    exact hs.updating_safe hinv
      (hs.redeemInvitationOnline_safe hI invitation prepared nowMs secrets random)
  | revokeInvitation invitationId =>
    exact hs.keeping_safe hinv (hs.revokeInvitation_safe invitationId)
  | installEnrollmentAppRoot appRoot =>
    exact hs.keeping_safe hinv (installEnrollmentAppRoot_safe I self (by trivial) appRoot w)
  | configUpdatesAfter baseHead =>
    exact hs.keeping_safe hinv (hs.configUpdatesAfter_safe baseHead)

def RequestPost (I : Identity) (request : AuthorityRequest)
    (r : Except AuthorityError request.Value × Option Authority) (w : Stores) : Prop :=
  (∀ handle, r.2 = some handle → handle.Sound I w) ∧
    ∀ value, r.1 = .ok value → request.Recorded I value w

theorem authorityBody_safe (hI : I.Describes manifest) (hinv : AuthorityInv I w)
    (request : AuthorityRequest) (handle : Option Authority)
    (hs : ∀ self, handle = some self → self.Sound I w) :
    Safe storeMachine (authorityContract I) (Guarantee I request)
      (authorityBody manifest request handle) (RequestPost I request) w := by
  cases request with
  | «open» nowMs =>
    refine Safe.bind (guarantee_allows I _) hinv (open_safe hI _ nowMs w) ?_
    intro result w₁ hle₁ _ hresult
    cases result with
    | error e => exact ⟨fun self h => AuthorityLe.handle hle₁ (hs self h), fun _ h => by cases h⟩
    | ok self =>
      exact ⟨fun self' h => Option.some.inj h ▸ hresult self rfl, fun _ _ => trivial⟩
  | call c =>
    cases handle with
    | none =>
      refine ⟨?_, ?_⟩
      · intro self h
        cases h
      · intro value h
        cases h
    | some self =>
      refine Safe.bind (guarantee_allows I _) hinv ((hs self rfl).perform_safe hI hinv c) ?_
      intro result w₁ _ _ hresult
      exact ⟨fun self' h => Option.some.inj h ▸ hresult.1, hresult.2⟩

end Weaver
