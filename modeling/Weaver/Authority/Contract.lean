import Weaver.Authority.Chain
import Weaver.Authority.Plans

/-!
# What an authority's processes may do to its stores

`Writes` lists the batches that a request may commit: the next revision, a redemption, a new
invitation or the deletion of a pending one. `Guarantee` is one step of a request on the stores.

The contract of the stores is `authorityContract`: the chain of envelopes stays a chain, a record of
the history and a consumed invitation never change, and a secret stays what it is.
`guarantee_allows` derives all of it from what a single step can do.
-/

namespace Weaver

open Checked Wire Versioned Program

variable [Crypto]

/-! ## The identity of an authority -/

def EncryptedConfigEnvelope.Content (e : EncryptedConfigEnvelope) (key : MemberEncryptionKeypair)
    (config : NetworkConfigV1) : Prop :=
  ∃ plaintext, e.ContentOpens key plaintext ∧ NetworkConfigV1.fromBytes plaintext = .ok config

structure Identity where
  manifest : Manifest
  root : NetworkRootPublic
  certificate : AdminCertificate
  encryption : MemberEncryptionKeypair

def Identity.network (I : Identity) : NetworkId := I.manifest.networkId

def Identity.scope (I : Identity) : StoreScope := .authority I.network

structure Identity.Describes (I : Identity) (manifest : Bytes) : Prop where
  manifest : readManifest manifest = .ok I.manifest
  root : NetworkRootPublic.fromBytes I.manifest.rootPublicKey = .ok I.root
  certificate : AdminCertificate.fromBytes I.manifest.adminCertificate = .ok I.certificate

/-- A handle belongs to the authority, and its cached configuration is that of an envelope in the
history; not necessarily of the last one. -/
structure Authority.Sound (I : Identity) (handle : Authority) (w : Stores) : Prop where
  root : handle.rootPublic = I.root
  network : handle.status.networkId = I.network
  root_network : I.root.networkId = I.network
  admin : handle.verifiedAdmin.payload = I.certificate.payload
  admin_key : I.certificate.payload.publicKey = handle.onlineAdmin.publicBytes
  certificate : handle.adminCertificate = I.manifest.adminCertificate
  verifies : ∃ nowMs, I.certificate.Verifies I.root I.network nowMs []
  encryption : handle.memberEncryption = I.encryption
  current : ∃ e, Committed I.network w e ∧ e.head = handle.status.head ∧
    e.Content I.encryption handle.config.asConfig

structure Authority.Commits (I : Identity) (handle : Authority) (c : AuthorityCall)
    (next : NetworkConfigV1) (nowMs : UInt64) (e e' : EncryptedConfigEnvelope) : Prop where
  sound : ∃ w, handle.Sound I w
  plans : ∃ random, handle.Plans c next nowMs random
  head : handle.status.head = e.head
  content : e.Content I.encryption handle.config.asConfig
  sealed : e'.SealedNext I.root handle.onlineAdmin handle.config e.head next nowMs
  opens : ∃ config, e'.OpensTo I.root I.encryption nowMs config

/-! ## What a request may write -/

def AuthorityRequest.Advances : AuthorityRequest → Prop
  | .call (.commitConfig ..) | .call (.inviteMember ..) | .call (.revokeMember ..)
  | .call (.registerApp ..) | .call (.authorizeAppBinding ..) | .call (.setVirtualDns ..)
  | .call (.removeVirtualDns ..) | .call (.registerRelay ..) | .call (.removeRelay ..) => True
  | _ => False

def AuthorityRequest.Redeems (invitation : InvitationBundle) (prepared : PreparedJoinRequest) :
    AuthorityRequest → Prop
  | .call (.redeemInvitation i p _ _ _ _) => i = invitation ∧ p = prepared
  | .call (.redeemInvitationOnline i p _ _ _) => i = invitation ∧ p = prepared
  | _ => False

def AuthorityRequest.Creates (id : Bytes32) : AuthorityRequest → Prop
  | .call (.createInvitation _ _ _ _ _ _ _ random) => random = some id
  | _ => False

def AuthorityRequest.Revokes (id : Bytes32) : AuthorityRequest → Prop
  | .call (.revokeInvitation i) => i = id
  | _ => False

def AuthorityRequest.Installs : AuthorityRequest → Prop
  | .call (.installEnrollmentAppRoot _) => True
  | _ => False

def AuthorityRequest.Commits (I : Identity) (request : AuthorityRequest)
    (e e' : EncryptedConfigEnvelope) : Prop :=
  ∃ (handle : Authority) (c : AuthorityCall) (next : NetworkConfigV1) (nowMs : UInt64),
    request = .call c ∧ handle.Commits I c next nowMs e e'

def revisionOperations (envelopeVersion headVersion : UInt64) (e : EncryptedConfigEnvelope) :
    List (Operation StoreKey Bytes) :=
  [.put keyEnvelope e.toBytes (.exact envelopeVersion),
    .put keyHead (encodeHead e.head) (.exact headVersion),
    .put (historyKey e.revision) e.toBytes .missing]

/-- The batch commits the next envelope of the chain, with the operations `rest` on invitations. -/
structure RevisionBatch (I : Identity) (w : Stores) (batch : AtomicBatch)
    (e e' : EncryptedConfigEnvelope) (rest : List (Operation StoreKey Bytes)) : Prop where
  parent : Committed I.network w e
  follows : Extends e e'
  parses : EncryptedConfigEnvelope.fromBytes e'.toBytes = .ok e'
  scope : batch.scope = I.scope
  /-- The operations are those of the revision, whatever versions the handle had cached. -/
  operations : ∃ v v', batch.operations = revisionOperations v v' e' ++ rest
  invitations : ∀ op ∈ rest, ∃ id, op.key = invitationKey id

/-- What a redemption adds to the configuration: the new member with the keys of the prepared
request, its endpoint binding and its binding to the client application. -/
structure Admits (config next : NetworkConfigV1) (invitation : InvitationBundle)
    (prepared : PreparedJoinRequest) (ticket : JoinTicket) : Prop where
  member : ∃ m : MemberCertificate, next.members = config.members ++ [m.toBytes] ∧
    m.payload.memberId = prepared.request.payload.memberId ∧
    m.payload.signingPublicKey = prepared.request.payload.signingPublicKey ∧
    m.payload.encryptionPublicKey = prepared.request.payload.encryptionPublicKey ∧
    ticket.memberCertificate = m.toBytes
  endpoint : next.endpointBindings =
      config.endpointBindings ++ [prepared.endpointBinding.toBytes] ∧
    ticket.endpointBinding = prepared.endpointBinding.toBytes
  app : ∃ b : AppBinding, next.appBindings = config.appBindings ++ [b.toBytes] ∧
    b.payload.subject = prepared.request.payload.memberId ∧
    b.payload.appAddr = invitation.clientAppAddr

/-- What a redemption commits: on a pending record of the invitation, the consumed invitation
together with the envelope that admits the new member. -/
structure RedemptionBatch (I : Identity) (w : Stores) (batch : AtomicBatch)
    (invitation : InvitationBundle) (prepared : PreparedJoinRequest) (ticket : JoinTicket)
    (e e' : EncryptedConfigEnvelope) (pending : VersionedBytes) (consumed : Bytes) : Prop where
  revision : RevisionBatch I w batch e e'
    [.put (invitationKey invitation.invitationId) consumed (.exact pending.version)]
  known : ∀ record, w.record I.scope (invitationKey invitation.invitationId) = some record →
    record.version = pending.version → record = pending
  bundle : pending.bytes = invitation.toBytes
  unused : isConsumed pending.bytes = false
  redeemed : decodeConsumed consumed (hash prepared.toBytes) = .ok ticket
  carries : ticket.embeddedConfig = e'.toBytes ∧ ticket.configHead = e'.head
  admits : ∃ config next, e.Content I.encryption config ∧ e'.Seals I.root next ∧
    Admits config next invitation prepared ticket

inductive Writes (I : Identity) (w : Stores) (request : AuthorityRequest) (batch : AtomicBatch) :
    Prop
  | revision (e e' : EncryptedConfigEnvelope) :
      request.Advances → RevisionBatch I w batch e e' [] → request.Commits I e e' →
      Writes I w request batch
  | redemption (invitation : InvitationBundle) (prepared : PreparedJoinRequest)
      (ticket : JoinTicket) (e e' : EncryptedConfigEnvelope) (pending : VersionedBytes)
      (consumed : Bytes) :
      request.Redeems invitation prepared →
      RedemptionBatch I w batch invitation prepared ticket e e' pending consumed →
      request.Commits I e e' → Writes I w request batch
  | creation (id : Bytes32) (bytes : Bytes) :
      request.Creates id → isConsumed bytes = false → batch.scope = I.scope →
      batch.operations = [.put (invitationKey id) bytes .missing] → Writes I w request batch
  | revocation (id : Bytes32) (pending : VersionedBytes) :
      request.Revokes id → isConsumed pending.bytes = false →
      (∀ record, w.record I.scope (invitationKey id) = some record →
        record.version = pending.version → record = pending) →
      batch.scope = I.scope →
      batch.operations = [.delete (invitationKey id) (.exact pending.version)] →
      Writes I w request batch

inductive Guarantee (I : Identity) (request : AuthorityRequest) (w w' : Stores) : Prop
  | stay : w' = w → Guarantee I request w w'
  | commit (batch : AtomicBatch) (version : UInt64) :
      Writes I w request batch → w.state.commitBatch batch = .ok (version, w'.state) →
      w'.secrets = w.secrets → Guarantee I request w w'
  | secret (id : SecretId) (plaintext : Bytes) :
      request.Installs → w'.state = w.state → w'.secrets = (w.secrets.seal id plaintext).2 →
      Guarantee I request w w'

/-! ## What a write leaves -/

omit [Crypto] in
theorem isConsumed_of_decodeConsumed {bytes : Bytes} {requestHash : Bytes32} {ticket : JoinTicket}
    (h : decodeConsumed bytes requestHash = .ok ticket) : isConsumed bytes = true := by
  unfold decodeConsumed at h
  simp only [bind_eq_ok, failIf_eq_ok, not_or, Decidable.not_not, exists_and_left,
    exists_const] at h
  obtain ⟨⟨-, hmagic⟩, -⟩ := h
  unfold isConsumed
  rw [List.isPrefixOf_iff_prefix, List.prefix_iff_eq_take]
  exact hmagic.symm

omit [Crypto] in
theorem decodeConsumed_unique {bytes : Bytes} {requestHash requestHash' : Bytes32}
    {ticket ticket' : JoinTicket} (h : decodeConsumed bytes requestHash = .ok ticket)
    (h' : decodeConsumed bytes requestHash' = .ok ticket') :
    requestHash = requestHash' ∧ ticket = ticket' := by
  have hhash : requestHash = requestHash' := by
    unfold decodeConsumed at h h'
    simp only [bind_eq_ok, failIf_eq_ok, Decidable.not_not, exists_and_left, exists_const] at h h'
    exact Subtype.ext (h.2.1.symm.trans h'.2.1)
  subst hhash
  rw [h] at h'
  exact ⟨rfl, Except.ok.inj h'⟩

section Effects

variable {I : Identity} {w w' : Stores} {batch : AtomicBatch} {version : UInt64}
  {e e' : EncryptedConfigEnvelope} {rest : List (Operation StoreKey Bytes)}

theorem RevisionBatch.advance (h : RevisionBatch I w batch e e' rest)
    (hcommit : w.state.commitBatch batch = .ok (version, w'.state)) :
    Advance I.network w w' e' := by
  have hscope : batch.scope = .authority I.network := h.scope
  obtain ⟨v, v', hops⟩ := h.operations
  have hmem : ∀ op ∈ revisionOperations v v' e', op ∈ batch.operations := by
    intro op hop
    rw [hops]
    exact List.mem_append_left rest hop
  have henvelope : .put keyEnvelope e'.toBytes (.exact v) ∈ batch.operations :=
    hmem _ (by simp [revisionOperations])
  have hhead : .put keyHead (encodeHead e'.head) (.exact v') ∈ batch.operations :=
    hmem _ (by simp [revisionOperations])
  have hhistory : .put (historyKey e'.revision) e'.toBytes .missing ∈ batch.operations :=
    hmem _ (by simp [revisionOperations])
  have hexpected := Stores.expected_of_commit hcommit hhistory
  rw [hscope] at hexpected
  refine ⟨Stores.record_of_missing hexpected, ?_, ?_, ?_, ?_⟩
  · rw [← hscope]
    exact Stores.record_of_put hcommit henvelope
  · rw [← hscope]
    exact Stores.record_of_put hcommit hhead
  · rw [← hscope]
    exact Stores.record_of_put hcommit hhistory
  · intro r hr
    rw [← hscope]
    refine Stores.record_of_other hcommit ?_
    intro op hop
    rw [hops, List.mem_append] at hop
    rcases hop with hop | hop
    · simp only [revisionOperations, List.mem_cons, List.not_mem_nil, or_false] at hop
      rcases hop with rfl | rfl | rfl
      · exact keyEnvelope_ne_historyKey r
      · exact keyHead_ne_historyKey r
      · exact fun heq => hr (historyKey_injective heq).symm
    · obtain ⟨id, hid⟩ := h.invitations op hop
      rw [hid]
      exact invitationKey_ne_historyKey id r

theorem RevisionBatch.invitation (h : RevisionBatch I w batch e e' rest)
    (hcommit : w.state.commitBatch batch = .ok (version, w'.state)) {id : Bytes32}
    (hid : ∀ op ∈ rest, op.key ≠ invitationKey id) :
    w'.record I.scope (invitationKey id) = w.record I.scope (invitationKey id) := by
  obtain ⟨v, v', hops⟩ := h.operations
  rw [← h.scope]
  refine Stores.record_of_other hcommit ?_
  intro op hop
  rw [hops, List.mem_append] at hop
  rcases hop with hop | hop
  · simp only [revisionOperations, List.mem_cons, List.not_mem_nil, or_false] at hop
    rcases hop with rfl | rfl | rfl
    · exact (invitationKey_ne_keyEnvelope id).symm
    · exact (invitationKey_ne_keyHead id).symm
    · exact (invitationKey_ne_historyKey id e'.revision).symm
  · exact hid op hop

theorem RedemptionBatch.consumes {invitation : InvitationBundle} {prepared : PreparedJoinRequest}
    {ticket : JoinTicket} {pending : VersionedBytes} {consumed : Bytes}
    (h : RedemptionBatch I w batch invitation prepared ticket e e' pending consumed)
    (hcommit : w.state.commitBatch batch = .ok (version, w'.state)) :
    w.record I.scope (invitationKey invitation.invitationId) = some pending ∧
      ∃ v, w'.record I.scope (invitationKey invitation.invitationId) = some ⟨v, consumed⟩ := by
  obtain ⟨v, v', hops⟩ := h.revision.operations
  have hmem : .put (invitationKey invitation.invitationId) consumed (.exact pending.version) ∈
      batch.operations := by
    rw [hops]
    exact List.mem_append_right _ (List.mem_singleton.mpr rfl)
  have hexpected := Stores.expected_of_commit hcommit hmem
  rw [h.revision.scope] at hexpected
  obtain ⟨record, hrecord, hversion⟩ := Stores.record_of_exact hexpected
  have hrecord' : w.record I.scope (invitationKey invitation.invitationId) = some record := hrecord
  refine ⟨?_, ?_⟩
  · rw [hrecord', h.known record hrecord' hversion]
  · rw [← h.revision.scope]
    exact Stores.record_of_put hcommit hmem

theorem record_of_invitation_op {id : Bytes32} {op : Operation StoreKey Bytes} {key : StoreKey}
    (hcommit : w.state.commitBatch batch = .ok (version, w'.state)) (hscope : batch.scope = I.scope)
    (hops : batch.operations = [op]) (hop : op.key = invitationKey id)
    (hkey : invitationKey id ≠ key) : w'.record I.scope key = w.record I.scope key := by
  rw [← hscope]
  refine Stores.record_of_other hcommit ?_
  intro op' hop'
  rw [hops, List.mem_singleton] at hop'
  rw [hop', hop]
  exact hkey

end Effects

/-! ## The contract -/

structure AuthorityInv (I : Identity) (w : Stores) : Prop where
  chain : ∃ last, Chain I.network w last
  sound : w.state.Sound
  encryption : w.secrets.open (secretId I.network "member-encryption") =
    .ok I.encryption.secretBytes.val
  /-- The ticket of a consumed invitation carries an envelope of the history. -/
  tickets : ∀ id record requestHash ticket,
    w.record I.scope (invitationKey id) = some record →
    decodeConsumed record.bytes requestHash = .ok ticket →
    ∃ e, Committed I.network w e ∧ ticket.embeddedConfig = e.toBytes

structure AuthorityLe (I : Identity) (w w' : Stores) : Prop where
  state : w.state.Le w'.state
  history : ∀ r record, w.record I.scope (historyKey r) = some record →
    w'.record I.scope (historyKey r) = some record
  consumed : ∀ id record, w.record I.scope (invitationKey id) = some record →
    isConsumed record.bytes = true → w'.record I.scope (invitationKey id) = some record
  secrets : ∀ id secret, w.secrets.open id = .ok secret → w'.secrets.open id = .ok secret

def authorityContract (I : Identity) : Contract Stores where
  Inv := AuthorityInv I
  Le := AuthorityLe I
  refl _ := ⟨Versioned.Store.Le.refl _, fun _ _ h => h, fun _ _ h _ => h, fun _ _ h => h⟩
  trans h h' :=
    ⟨h.state.trans h'.state, fun r record hr => h'.history r record (h.history r record hr),
      fun id record hr hc => h'.consumed id record (h.consumed id record hr hc) hc,
      fun id secret hs => h'.secrets id secret (h.secrets id secret hs)⟩

variable {I : Identity} {w w' : Stores}

theorem AuthorityLe.committed (h : AuthorityLe I w w') {e : EncryptedConfigEnvelope}
    (he : Committed I.network w e) : Committed I.network w' e := by
  obtain ⟨hparse, v, hrec⟩ := he
  exact ⟨hparse, v, h.history _ _ hrec⟩

theorem AuthorityLe.handle (h : AuthorityLe I w w') {handle : Authority} (hs : handle.Sound I w) :
    handle.Sound I w' := by
  obtain ⟨e, he, hhead, hcontent⟩ := hs.current
  exact { hs with current := ⟨e, h.committed he, hhead, hcontent⟩ }

/-- What a committed write leaves: the history grows or stays, and the invitations that were
consumed stay. -/
structure Effect (I : Identity) (w w' : Stores) : Prop where
  chain : ∀ last, Chain I.network w last → ∃ last', Chain I.network w' last'
  history : ∀ r record, w.record I.scope (historyKey r) = some record →
    w'.record I.scope (historyKey r) = some record
  /-- An invitation that is consumed was so before, or its ticket carries a new envelope. -/
  invitation : ∀ id, w'.record I.scope (invitationKey id) = w.record I.scope (invitationKey id) ∨
    (∀ record, w.record I.scope (invitationKey id) = some record →
      isConsumed record.bytes = false) ∧
    ∀ record requestHash ticket, w'.record I.scope (invitationKey id) = some record →
      decodeConsumed record.bytes requestHash = .ok ticket →
      ∃ e, Committed I.network w' e ∧ ticket.embeddedConfig = e.toBytes

theorem RevisionBatch.effect {batch : AtomicBatch} {version : UInt64}
    {e e' : EncryptedConfigEnvelope} {rest : List (Operation StoreKey Bytes)}
    (h : RevisionBatch I w batch e e' rest)
    (hcommit : w.state.commitBatch batch = .ok (version, w'.state)) :
    (∀ last, Chain I.network w last → ∃ last', Chain I.network w' last') ∧
      ∀ r record, w.record I.scope (historyKey r) = some record →
        w'.record I.scope (historyKey r) = some record := by
  have hadvance := h.advance hcommit
  refine ⟨?_, ?_⟩
  · intro last hchain
    exact ⟨e', (hadvance.chain hchain h.parent h.follows h.parses).2⟩
  · intro r record hrecord
    have hne : r ≠ e'.revision := by
      intro heq
      have hmissing : w.record I.scope (historyKey e'.revision) = none := hadvance.missing
      rw [heq, hmissing] at hrecord
      cases hrecord
    exact (hadvance.others r hne).trans hrecord

theorem effect_of_invitation_op {batch : AtomicBatch} {version : UInt64} {id : Bytes32}
    {op : Operation StoreKey Bytes}
    (hcommit : w.state.commitBatch batch = .ok (version, w'.state)) (hscope : batch.scope = I.scope)
    (hops : batch.operations = [op]) (hop : op.key = invitationKey id)
    (hold : ∀ record, w.record I.scope (invitationKey id) = some record →
      isConsumed record.bytes = false)
    (hnew : ∀ record, w'.record I.scope (invitationKey id) = some record →
      isConsumed record.bytes = false) : Effect I w w' := by
  have hother : ∀ key, invitationKey id ≠ key → w'.record I.scope key = w.record I.scope key :=
    fun key hkey => record_of_invitation_op hcommit hscope hops hop hkey
  refine ⟨?_, ?_, ?_⟩
  · intro last hchain
    exact ⟨last, hchain.of_same (hother _ (invitationKey_ne_keyEnvelope id))
      (hother _ (invitationKey_ne_keyHead id)) fun r => hother _ (invitationKey_ne_historyKey id r)⟩
  · intro r record hrecord
    exact (hother _ (invitationKey_ne_historyKey id r)).trans hrecord
  · intro id'
    by_cases hid : id = id'
    · subst hid
      refine .inr ⟨hold, ?_⟩
      intro record requestHash ticket hrecord hdecode
      have hconsumed := isConsumed_of_decodeConsumed hdecode
      rw [hnew record hrecord] at hconsumed
      cases hconsumed
    · exact .inl (hother _ fun heq => hid (invitationKey_injective heq))

theorem Writes.effect {request : AuthorityRequest} {batch : AtomicBatch} {version : UInt64}
    (h : Writes I w request batch)
    (hcommit : w.state.commitBatch batch = .ok (version, w'.state)) : Effect I w w' := by
  cases h with
  | revision e e' _ hrevision =>
    obtain ⟨hchain, hhistory⟩ := hrevision.effect hcommit
    exact ⟨hchain, hhistory, fun id => .inl (hrevision.invitation hcommit (by simp))⟩
  | redemption invitation prepared ticket e e' pending consumed _ hredemption =>
    obtain ⟨hchain, hhistory⟩ := hredemption.revision.effect hcommit
    refine ⟨hchain, hhistory, ?_⟩
    intro id
    by_cases hid : invitation.invitationId = id
    · -- the invitation was pending, and its ticket carries the new envelope
      subst hid
      obtain ⟨hpending, v, hconsumed⟩ := hredemption.consumes hcommit
      have hadvance := hredemption.revision.advance hcommit
      refine .inr ⟨?_, ?_⟩
      · intro record hrecord
        rw [hpending] at hrecord
        rw [← Option.some.inj hrecord]
        exact hredemption.unused
      · intro record requestHash ticket' hrecord hdecode
        rw [hconsumed] at hrecord
        rw [← Option.some.inj hrecord] at hdecode
        refine ⟨e', ⟨hredemption.revision.parses, hadvance.history⟩, ?_⟩
        rw [(decodeConsumed_unique hdecode hredemption.redeemed).2]
        exact hredemption.carries.1
    · left
      refine hredemption.revision.invitation hcommit ?_
      intro op hop
      rw [List.mem_singleton.mp hop]
      exact fun heq => hid (invitationKey_injective heq)
  | creation id bytes _ hbytes hscope hops =>
    have hmem : .put (invitationKey id) bytes .missing ∈ batch.operations := by
      rw [hops]
      exact List.mem_singleton.mpr rfl
    refine effect_of_invitation_op hcommit hscope hops rfl ?_ ?_
    · intro record hrecord
      have hexpected := Stores.expected_of_commit hcommit hmem
      rw [hscope] at hexpected
      have hmissing : w.record I.scope (invitationKey id) = none :=
        Stores.record_of_missing hexpected
      rw [hmissing] at hrecord
      cases hrecord
    · intro record hrecord
      obtain ⟨v, hput⟩ := Stores.record_of_put hcommit hmem
      rw [hscope, hrecord] at hput
      rw [Option.some.inj hput]
      exact hbytes
  | revocation id pending _ hpending hknown hscope hops =>
    have hmem : .delete (invitationKey id) (.exact pending.version) ∈ batch.operations := by
      rw [hops]
      exact List.mem_singleton.mpr rfl
    refine effect_of_invitation_op hcommit hscope hops rfl ?_ ?_
    · intro record hrecord
      have hexpected := Stores.expected_of_commit hcommit hmem
      rw [hscope] at hexpected
      obtain ⟨record', hrecord', hversion⟩ := Stores.record_of_exact hexpected
      have hrecord'' : w.record I.scope (invitationKey id) = some record' := hrecord'
      rw [hrecord] at hrecord''
      obtain rfl := Option.some.inj hrecord''
      rw [hknown record hrecord hversion]
      exact hpending
    · intro record hrecord
      have hdelete := Stores.record_of_delete hcommit hmem
      rw [hscope, hrecord] at hdelete
      cases hdelete

theorem guarantee_allows (I : Identity) (request : AuthorityRequest) :
    (authorityContract I).Allows (Guarantee I request) := by
  intro w w' hinv hstep
  cases hstep with
  | stay heq =>
    rw [heq]
    exact ⟨hinv, (authorityContract I).refl w⟩
  | commit batch version hwrites hcommit hsecrets =>
    have heffect := hwrites.effect hcommit
    have hperformed := (StateStore.commitBatch_spec hcommit).2
    have hconsumed : ∀ id record, w.record I.scope (invitationKey id) = some record →
        isConsumed record.bytes = true → w'.record I.scope (invitationKey id) = some record := by
      intro id record hrecord hc
      rcases heffect.invitation id with hsame | ⟨hold, -⟩
      · exact hsame.trans hrecord
      · rw [hold record hrecord] at hc
        cases hc
    have hle : AuthorityLe I w w' := by
      refine ⟨hperformed.le, heffect.history, hconsumed, ?_⟩
      intro id secret hsecret
      rw [hsecrets]
      exact hsecret
    obtain ⟨last, hchain⟩ := hinv.chain
    refine ⟨⟨heffect.chain last hchain, hperformed.sound hinv.sound,
      hle.secrets _ _ hinv.encryption, ?_⟩, hle⟩
    intro id record requestHash ticket hrecord hdecode
    rcases heffect.invitation id with hsame | ⟨-, hnew⟩
    · rw [hsame] at hrecord
      obtain ⟨e, he, hticket⟩ := hinv.tickets id record requestHash ticket hrecord hdecode
      exact ⟨e, hle.committed he, hticket⟩
    · exact hnew record requestHash ticket hrecord hdecode
  | secret id plaintext _ hstate hsecrets =>
    have hrecord : ∀ scope key, w'.record scope key = w.record scope key := by
      intro scope key
      unfold Stores.record
      rw [hstate]
    have hle : AuthorityLe I w w' := by
      refine ⟨?_, ?_, ?_, ?_⟩
      · rw [hstate]
        exact Versioned.Store.Le.refl _
      · intro r record h
        rw [hrecord]
        exact h
      · intro id' record h _
        rw [hrecord]
        exact h
      · intro id' secret h
        rw [hsecrets]
        exact SecretStore.open_seal_of_ok h
    obtain ⟨last, hchain⟩ := hinv.chain
    refine ⟨⟨⟨last, ?_⟩, ?_, hle.secrets _ _ hinv.encryption, ?_⟩, hle⟩
    · exact hchain.of_same (hrecord _ _) (hrecord _ _) fun r => hrecord _ _
    · rw [hstate]
      exact hinv.sound
    · intro id' record requestHash ticket h hdecode
      rw [hrecord] at h
      obtain ⟨e, he, hticket⟩ := hinv.tickets id' record requestHash ticket h hdecode
      exact ⟨e, hle.committed he, hticket⟩

end Weaver
