import Weaver.Authority.Issuing
import Weaver.Member.Tenancy

/-!
# Issued tickets are joinable

A member that has kept its prepared request and its secrets can join with every ticket that the
authority has returned for the request, until the ticket expires and as long as the configuration
in it is valid. The checks of `JoinTicket::verify` and of `join` are met one by one from what a
ticket is issued with (`JoinTicket.IssuedFor`).
-/

namespace Weaver

open Checked Wire Versioned Program

variable [Crypto]

/-! ## A member that waits for its ticket -/

/-- The member has prepared the request and can join: it has the secrets of the request, it has not
joined yet, and its store can commit one more batch. -/
structure ReadyToJoin (stores : MembershipStores) (n : NetworkId) (prepared : PreparedJoinRequest)
    (signing : SigningKeypair) (encryption : MemberEncryptionKeypair) (endpoint : Bytes32)
    (w : Stores) : Prop where
  capable : validateStores stores = .ok ()
  prepared : ∃ v, w.record (.member n) keyPreparedJoin = some ⟨v, prepared.toBytes⟩
  signing : w.secrets.open (memberSecretId n "member-signing") = .ok signing.toBytes.val
  encryption :
    w.secrets.open (memberSecretId n "member-encryption") = .ok encryption.secretBytes.val
  endpoint : w.secrets.open (memberSecretId n "endpoint") = .ok endpoint.val
  unjoined : ∀ key ∈ [configEnvelopeKey, configHeadKey, configSignerCertificateKey,
    keyMemberCertificate, keyEndpointBinding], w.record (.member n) key = none
  /-- The versions for the batch of `join` are left. -/
  room : w.state.HasRoom 6

theorem ReadyToJoin.exists_join {stores : MembershipStores} {root : NetworkRootPublic}
    {prepared : PreparedJoinRequest} {signing : SigningKeypair}
    {encryption : MemberEncryptionKeypair} {endpoint : Bytes32} {w : Stores}
    (h : ReadyToJoin stores root.networkId prepared signing encryption endpoint w)
    {ticket : JoinTicket} {nowMs : UInt64} {a : AdminCertificate} {m : MemberCertificate}
    {b : EndpointBinding} {e : EncryptedConfigEnvelope} {c : NetworkConfigV1}
    (hjoins : Joins root ticket nowMs w prepared encryption a m b e c)
    (hsize : e.toBytes.length ≤ maxValueLen) :
    ∃ w', (join stores root ticket nowMs).run serve w = (.ok e.head, w') ∧
      ∃ v, w'.record (.member root.networkId) configHeadKey = some ⟨v, encodeHead e.head⟩ := by
  obtain ⟨v, hprepared⟩ := h.prepared
  have hembedded := EncryptedConfigEnvelope.toBytes_of_fromBytes hjoins.ticket.envelope
  have hadmin : ticket.adminCertificate.length ≤ maxValueLen := by
    rw [hjoins.ticket.admin.1]
    exact a.ticketBlob.2
  have hmember : ticket.memberCertificate.length ≤ maxValueLen := by
    rw [hjoins.ticket.member.1]
    exact m.ticketBlob.2
  have hendpoint : ticket.endpointBinding.length ≤ maxValueLen := by
    rw [hjoins.ticket.endpoint.1]
    exact b.ticketBlob.2
  rw [hembedded] at hsize
  -- the batch can be built, and its expectations hold
  have hbatch : ∃ batch, joinBatch (.member root.networkId) ticket e.head v = .ok batch := by
    have hdistinct : ((joinOperations ticket e.head v).map Operation.key).Nodup := by
      change [configEnvelopeKey, configHeadKey, configSignerCertificateKey, keyMemberCertificate,
        keyEndpointBinding, keyPreparedJoin].Nodup
      decide
    exact ⟨⟨.member root.networkId, joinOperations ticket e.head v, hdistinct⟩,
      joinBatch_eq_ok.mpr ⟨⟨hsize, hadmin, hmember, hendpoint⟩, rfl, rfl⟩⟩
  obtain ⟨batch, hbatch⟩ := hbatch
  obtain ⟨-, hscope, hops⟩ := joinBatch_eq_ok.mp hbatch
  have hexpected : ∀ op ∈ batch.operations,
      op.expected.Holds (w.state.version (batch.scope, op.key)) := by
    intro op hop
    rw [hops] at hop
    rw [hscope]
    unfold joinOperations at hop
    simp only [List.mem_cons, List.not_mem_nil, or_false] at hop
    rcases hop with rfl | rfl | rfl | rfl | rfl | rfl
    · exact Stores.missing_of_record (h.unjoined configEnvelopeKey (by simp))
    · exact Stores.missing_of_record (h.unjoined configHeadKey (by simp))
    · exact Stores.missing_of_record (h.unjoined configSignerCertificateKey (by simp))
    · exact Stores.missing_of_record (h.unjoined keyMemberCertificate (by simp))
    · exact Stores.missing_of_record (h.unjoined keyEndpointBinding (by simp))
    · exact Stores.exact_of_record hprepared
  have hlength : batch.operations.length = 6 := by
    rw [hops]
    rfl
  have hroom := h.room
  rw [← hlength] at hroom
  obtain ⟨version, state, hcommit⟩ := StateStore.exists_commitBatch hexpected hroom
  let w' : Stores := { w with state }
  have hcommit' : w.state.commitBatch batch = .ok (version, w'.state) := hcommit
  refine ⟨w', ?_, ?_⟩
  · exact join_eq_ok.mpr ⟨h.capable, ⟨v, prepared.toBytes⟩, prepared, encryption, a, m, b, e, c,
      hprepared, PreparedJoinRequest.fromBytes_toBytes prepared, hjoins, rfl, batch, version, hbatch,
      hcommit', rfl⟩
  · have hmem : .put configHeadKey (encodeHead e.head) .missing ∈ batch.operations := by
      rw [hops]
      exact List.mem_cons_of_mem _ List.mem_cons_self
    have hput := Stores.record_of_put hcommit' hmem
    rw [hscope] at hput
    exact hput

/-! ## The checks of a ticket -/

section Checks

variable {g : Genesis} {random : InitRandomness} {options : AuthorityInit} {manifest : Bytes}
  {w₀ w : Stores} {prepared : PreparedJoinRequest} {t : JoinTicket} {m : MemberCertificate}
  {e : EncryptedConfigEnvelope} {c : NetworkConfigV1} {nowMs : UInt64}

theorem JoinTicket.IssuedFor.verifies (hg : Initialized options random g manifest w₀)
    (h : t.IssuedFor g random w prepared.request prepared.endpointBinding m e c)
    (hjoins : prepared.endpointBinding.Joins prepared.request.payload g.root.public.networkId)
    (hunexpired : nowMs < t.expiresAtMs)
    (hvalid : c.Acceptable g.root.public g.root.public.networkId nowMs) :
    t.Verifies g.root.public g.root.public.networkId prepared.request.payload.nonce
      prepared.request.payload.endpointId nowMs g.adminCertificate m prepared.endpointBinding e := by
  obtain ⟨-, hsignature, hnetwork, hnonce, -, hhead, hadmin, hmember, hendpoint, hconfig, hsigner⟩ :=
    JoinTicket.issue_spec h.issued
  -- what the configuration lists is current
  have hverifies : g.adminCertificate.Verifies g.root.public g.root.public.networkId nowMs [] := by
    have hkey : (⟨g.adminCertificate.toBytes⟩ : AdminKey) ∈ c.adminKeys := by
      rw [h.governed.admins]
      exact List.mem_singleton.mpr rfl
    obtain ⟨a, ha, hverifies⟩ := hvalid.admins _ hkey
    obtain rfl := Signed.toBytes_injective ha
    exact { hverifies with unrevoked := List.not_mem_nil }
  have hcurrent : m.Current g.root.public.networkId nowMs [] := by
    obtain ⟨m', hm', haccepted⟩ := hvalid.members m.toBytes h.lists.1
    obtain rfl := Signed.toBytes_injective hm'
    exact { haccepted.current with unrevoked := List.not_mem_nil }
  have hbound : prepared.endpointBinding.Verifies m.payload g.root.public.networkId
      prepared.request.payload.endpointId nowMs := by
    obtain ⟨hid, hsigning, -⟩ := h.keys
    refine ⟨hjoins.network, hcurrent.network, ?_, hjoins.endpoint, ?_, ?_, ?_⟩
    · rw [hjoins.member_id, hid]
    · rw [hjoins.expires]
      exact hunexpired.trans_le h.expires
    · rw [hsigning]
      exact hjoins.valid_key
    · rw [hsigning]
      exact hjoins.signature
  have hkey : g.adminCertificate.payload.publicKey = g.onlineAdmin.publicBytes := by
    rw [hg.planned.certificate]
  refine ⟨hnetwork, rfl, hnonce, hunexpired, ⟨hadmin, hverifies⟩, ?_, ?_,
    ⟨hmember, hcurrent, h.certified⟩, ⟨hendpoint, hbound⟩, ?_, ?_, hhead.symm⟩
  · rw [hsigner, hg.keyId_eq, hkey]
    rfl
  · rw [hsignature, hkey]
    exact Crypto.verify_sign _ _
  · rw [hconfig]
    exact h.committed.1
  · exact h.governed.published.seals.header.1

theorem JoinTicket.IssuedFor.joins (hideal : HpkeIdeal)
    (hg : Initialized options random g manifest w₀)
    (h : t.IssuedFor g random w prepared.request prepared.endpointBinding m e c)
    {n : NetworkId} {signing : SigningKeypair} {encryption : MemberEncryptionKeypair}
    {endpoint nonce : Bytes32} {roles : MemberRoles} {expiresAtMs : UInt64}
    (hcreate : PreparedJoinRequest.create n signing encryption.publicBytes
      (Crypto.endpointPublic endpoint) nonce roles expiresAtMs = .ok prepared)
    (hunexpired : nowMs < t.expiresAtMs)
    (hvalid : c.Acceptable g.root.public g.root.public.networkId nowMs)
    {stores : MembershipStores} {wm : Stores} (hready : ReadyToJoin stores
      g.root.public.networkId prepared signing encryption endpoint wm) :
    Joins g.root.public t nowMs wm prepared encryption g.adminCertificate m
      prepared.endpointBinding e c := by
  obtain ⟨hpayload, hverifies, hjoins⟩ := PreparedJoinRequest.create_spec hcreate
  have hexpires : prepared.request.payload.expiresAtMs = expiresAtMs := by rw [hpayload]
  have hencryption : prepared.request.payload.encryptionPublicKey = encryption.publicBytes := by
    rw [hpayload]
  obtain rfl : n = g.root.public.networkId := by
    rw [← h.network, hpayload]
  have hlt : nowMs < expiresAtMs := by
    rw [← hexpires]
    exact hunexpired.trans_le h.expires
  refine ⟨⟨hverifies nowMs hlt, hjoins⟩, h.verifies hg hjoins hunexpired hvalid,
    ⟨hready.encryption, hencryption.symm⟩, ⟨endpoint, hready.endpoint, ?_⟩,
    ⟨signing, hready.signing, ?_⟩, ?_, ?_, h.keys⟩
  · rw [hpayload]
  · rw [hpayload]
  · -- the envelope is not the genesis, so that the administrator signed it
    rcases h.governed.signed with ⟨hzero, -⟩ | ⟨-, hsigner, hsignature⟩
    · exact absurd hzero h.later
    · refine ⟨hsigner, ?_, hsignature⟩
      rw [hg.planned.certificate]
      change (0xFFFFFFFF : UInt32) &&& adminPermissionConfigWrite ≠ 0
      decide
  · refine (h.governed.published.seals.opensTo_iff hideal _ _ _).mpr ⟨⟨m, h.lists.1, ?_⟩, hvalid, rfl⟩
    rw [h.keys.2.2, hencryption]

end Checks

/-- On the stores of an initialized authority, every ticket that a session of named operations has
returned for a prepared request, by an invitation or by a redemption, is read back from its bytes;
it carries an envelope that the authority has committed, whose configuration lists the member's
certificate and endpoint binding; and until it expires, at every time at which that configuration
validates, a member that has kept the prepared request and its secrets joins with it and stores its
head. No two requests that were presented to a redemption are to collide with this one. -/
theorem issued_tickets_joinable (hideal : HpkeIdeal) {options : AuthorityInit}
    {random : InitRandomness} {manifest : Bytes} {init : InitializedAuthority} {w : Stores}
    (hinit : ( Authority.initialize options random).run serve Stores.empty =
      (.ok (manifest, init), w))
    {log : List (Event (authorityApi manifest))} {handle : Option Authority} {w' : Stores}
    (hsession : Session manifest none w log handle w') (hnamed : NamedOnly log)
    {n : NetworkId} {signing : SigningKeypair} {encryption : MemberEncryptionKeypair}
    {endpoint nonce : Bytes32} {roles : MemberRoles} {expiresAtMs : UInt64}
    {prepared : PreparedJoinRequest}
    (hcreate : PreparedJoinRequest.create n signing encryption.publicBytes
      (Crypto.endpointPublic endpoint) nonce roles expiresAtMs = .ok prepared)
    (hfree : ∀ prepared', RedeemedFor log prepared' → CollisionFree prepared' prepared)
    {event : Event (authorityApi manifest)} (hevent : event ∈ log) {ticket : JoinTicket}
    (hreturns : ReturnsTicket prepared ticket event) :
    JoinTicket.fromBytes ticket.toBytes = .ok ticket ∧
    ∃ (I : Identity) (m : MemberCertificate) (e : EncryptedConfigEnvelope) (c : NetworkConfigV1),
      I.Describes manifest ∧ Committed I.network w' e ∧ e.head = ticket.configHead ∧
      EncryptedConfigEnvelope.fromBytes ticket.embeddedConfig = .ok e ∧
      ticket.memberCertificate = m.toBytes ∧ c.ListsMember m ∧
      m.payload.memberId = prepared.request.payload.memberId ∧
      ticket.endpointBinding = prepared.endpointBinding.toBytes ∧
      c.ListsEndpoint prepared.endpointBinding ∧
      ∀ nowMs validated, nowMs < ticket.expiresAtMs →
        c.validate I.root I.network nowMs = .ok validated →
        e.OpensTo I.root encryption nowMs c ∧
        ∀ stores wm, ReadyToJoin stores I.network prepared signing encryption endpoint wm →
          ∃ wm', (join stores I.root ticket nowMs).run serve wm = (.ok ticket.configHead, wm') ∧
            ∃ v, wm'.record (.member I.network) configHeadKey =
              some ⟨v, encodeHead ticket.configHead⟩ := by
  obtain ⟨g, hg, -⟩ := initialize_spec hinit
  obtain ⟨m, e, c, hissued⟩ := (hsession.tickets hideal hg hnamed).returned event hevent prepared
    ticket hreturns hfree
  obtain ⟨-, -, -, -, -, hhead, -, hmember, hendpoint, hconfig, -⟩ :=
    JoinTicket.issue_spec hissued.issued
  refine ⟨JoinTicket.fromBytes_of_issue hissued.issued hissued.size, g.identity random, m, e, c,
    hg.describes, hissued.committed, hhead.symm, ?_, hmember, hissued.lists.1, hissued.keys.1,
    hendpoint, hissued.lists.2, ?_⟩
  · rw [hconfig]
    exact hissued.committed.1
  · intro nowMs validated hunexpired hvalidate
    have hvalid := (NetworkConfigV1.validate_eq_ok.mp hvalidate).1
    rw [NetworkConfigV1.check_eq_ok] at hvalid
    have hencryption : m.payload.encryptionPublicKey = encryption.publicBytes := by
      rw [hissued.keys.2.2, (PreparedJoinRequest.create_spec hcreate).1]
    refine ⟨?_, ?_⟩
    · exact (hissued.governed.published.seals.opensTo_iff hideal _ _ _).mpr
        ⟨⟨m, hissued.lists.1, hencryption⟩, hvalid, rfl⟩
    · intro stores wm hready
      have hjoins := hissued.joins hideal hg hcreate hunexpired hvalid hready
      obtain ⟨wm', hjoin, hrecord⟩ := hready.exists_join hjoins hissued.size
      rw [← hhead] at hjoin hrecord
      exact ⟨wm', hjoin, hrecord⟩

end Weaver

namespace Weaver.Sample

open Checked Wire Program Transparent

theorem inviting_session {prepared : PreparedJoinRequest} {ticket : JoinTicket} {s : Solo}
    (h : inviting = some (prepared, ticket, s)) :
    preparing = .ok prepared ∧ ∃ log : List (Event (authorityApi manifest)),
      Session manifest none stores log s.1 s.2 ∧ NamedOnly log ∧
        (∀ prepared', ¬ RedeemedFor log prepared') ∧
        ∃ event ∈ log, ReturnsTicket prepared ticket event := by
  unfold inviting at h
  simp only [Option.bind_eq_bind, Option.bind_eq_some_iff, Prod.exists, toOption_eq_some,
    Option.pure_def, Option.some.injEq, Prod.mk.injEq] at h
  obtain ⟨_, hprepared, _, h₁, w₁, hopen, _, h₂, w₂, hinvite, rfl, rfl, rfl⟩ := h
  refine ⟨hprepared, _, Solo.session (Solo.session .nil hopen) hinvite, ?_, ?_, _,
    List.mem_cons_self, .invited _ _ _ _ _⟩
  · intro event hmem c hcall
    simp only [List.mem_cons, List.not_mem_nil, or_false] at hmem
    rcases hmem with rfl | rfl <;> cases hcall
    trivial
  · rintro prepared' ⟨event, hmem, invitation, hredeems⟩
    simp only [List.mem_cons, List.not_mem_nil, or_false] at hmem
    rcases hmem with rfl | rfl <;> cases hredeems

/-- The ticket of the sample authority is read back from its bytes and carries an envelope that the
authority has committed, whose configuration lists the sample member. -/
theorem issued_tickets_joinable_sample : ∃ (prepared : PreparedJoinRequest) (ticket : JoinTicket)
    (s : Solo), inviting = some (prepared, ticket, s) ∧
      JoinTicket.fromBytes ticket.toBytes = .ok ticket ∧
      ∃ (I : Identity) (m : MemberCertificate) (e : EncryptedConfigEnvelope) (c : NetworkConfigV1),
        I.Describes manifest ∧ Committed I.network s.2 e ∧ e.head = ticket.configHead ∧
        c.ListsMember m ∧ m.payload.memberId = prepared.request.payload.memberId := by
  obtain ⟨init, hinit⟩ := initialize_eq_ok
  obtain ⟨_, hjoining⟩ := Option.isSome_iff_exists.mp joining_isSome
  unfold joining at hjoining
  obtain ⟨⟨prepared, ticket, s⟩, hinviting, -⟩ := Option.bind_eq_some_iff.mp hjoining
  obtain ⟨hprepared, log, hsession, hnamed, hunredeemed, event, hmem, hreturns⟩ :=
    inviting_session hinviting
  have hcreate : PreparedJoinRequest.create root.public.networkId ⟨fill 40⟩ memberKey.publicBytes
      (Crypto.endpointPublic (fill 42)) (fill 43) .member 50000 = .ok prepared := hprepared
  obtain ⟨hparse, I, m, e, c, hI, hcommitted, hhead, -, -, hlists, hid, -⟩ :=
    issued_tickets_joinable hpkeIdeal hinit hsession hnamed hcreate
      (fun prepared' hredeemed => absurd hredeemed (hunredeemed prepared')) hmem hreturns
  exact ⟨prepared, ticket, s, hinviting, hparse, I, m, e, c, hI, hcommitted, hhead, hlists, hid⟩

end Weaver.Sample
