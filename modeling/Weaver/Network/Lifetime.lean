import Weaver.Config.Sealable
import Weaver.Member.Joinable

/-!
# How long a network stays openable

A configuration declares a window, and so does every credential and descriptor that it lists. The
validator asks all of them to be current, so that within the window of the configuration nothing but
the expiry of an entry can make it invalid (`Acceptable.later_iff`). For the authority and for every
member that stores its current envelope, opening then succeeds exactly while no entry has lapsed
(`openable_iff_unlapsed`).
-/

namespace Weaver

open Checked Wire Versioned Program

variable [Crypto]

/-! ## Lapsed entries -/

structure NetworkConfigV1.Unlapsed (c : NetworkConfigV1) (nowMs : UInt64) : Prop where
  members : ∀ m, c.ListsMember m → nowMs < m.payload.expiresAtMs
  endpoints : ∀ b, c.ListsEndpoint b → nowMs < b.payload.expiresAtMs
  bindings : ∀ b : AppBinding, b.toBytes ∈ c.appBindings → nowMs < b.payload.expiresAtMs
  relays : ∀ relay ∈ c.relays, nowMs < relay.expiresAtMs
  presence : ∀ service ∈ c.presenceServices, nowMs < service.expiresAtMs

section Lapse

variable {c : NetworkConfigV1} {root : NetworkRootPublic} {n : NetworkId} {s t : UInt64}

theorem NetworkConfigV1.Acceptable.unlapsed (h : c.Acceptable root n t) : c.Unlapsed t := by
  refine ⟨?_, ?_, ?_, fun relay hmem => (h.relays relay hmem).2,
    fun service hmem => (h.presence service hmem).2⟩
  · intro m hm
    exact (h.member_accepted hm).current.unexpired
  · intro b hb
    obtain ⟨_, -, hverifies⟩ := h.endpoint_accepted hb
    exact hverifies.unexpired
  · intro b hb
    obtain ⟨-, _, _, -, -, hverifies⟩ := h.binding_accepted hb
    exact hverifies.unexpired

theorem NetworkConfigV1.Acceptable.later_iff (h : c.Acceptable root n s) (hst : s ≤ t)
    (hexpires : t < c.expiresAtMs)
    (hadmins : ∀ a, c.ListsAdmin a → t < a.payload.expiresAtMs) :
    c.Acceptable root n t ↔ c.Unlapsed t := by
  refine ⟨fun h => h.unlapsed, ?_⟩
  intro hunlapsed
  refine { h with
    issued := h.issued.trans hst
    unexpired := hexpires
    admins := ?_, members := ?_, endpoints := ?_, bindings := ?_
    relays := fun relay hmem => ⟨(h.relays relay hmem).1, hunlapsed.relays relay hmem⟩
    presence := fun service hmem =>
      ⟨(h.presence service hmem).1, hunlapsed.presence service hmem⟩ }
  · intro key hkey
    obtain ⟨a, ha, hverifies⟩ := h.admins key hkey
    have hlisted : c.ListsAdmin a := by
      unfold NetworkConfigV1.ListsAdmin
      rw [← ha]
      exact hkey
    exact ⟨a, ha, { hverifies with
      not_before := hverifies.not_before.trans hst, unexpired := hadmins a hlisted }⟩
  · intro raw hraw
    obtain ⟨m, rfl, haccepted⟩ := h.members raw hraw
    exact ⟨m, rfl, { haccepted.current with
      not_before := haccepted.current.not_before.trans hst
      unexpired := hunlapsed.members m hraw }, haccepted.issued⟩
  · intro raw hraw
    obtain ⟨b, rfl, m, hm, hverifies⟩ := h.endpoints raw hraw
    exact ⟨b, rfl, m, hm, { hverifies with unexpired := hunlapsed.endpoints b hraw }⟩
  · intro raw hraw
    obtain ⟨b, rfl, hservices, r, m, hr, hm, hverifies⟩ := h.bindings raw hraw
    exact ⟨b, rfl, hservices, r, m, hr, hm,
      { hverifies with unexpired := hunlapsed.bindings b hraw }⟩

end Lapse

section Governed

variable {options : AuthorityInit} {random : InitRandomness} {g : Genesis} {manifest : Bytes}
  {w : Stores} {e : EncryptedConfigEnvelope} {c : NetworkConfigV1} {t : UInt64}

/-- Within its window, a configuration that the authority administers is valid exactly if no entry
has lapsed: the administrator's certificate expires with the network. -/
theorem Governed.acceptable_iff (hg : Initialized options random g manifest w)
    (h : Governed g random e c) (hissued : c.issuedAtMs ≤ t) (hexpires : t < c.expiresAtMs) :
    c.Acceptable g.root.public g.root.public.networkId t ↔ c.Unlapsed t := by
  refine h.published.valid.later_iff hissued hexpires ?_
  intro a ha
  unfold NetworkConfigV1.ListsAdmin at ha
  rw [h.admins, List.mem_singleton] at ha
  obtain rfl := Signed.toBytes_injective (AdminKey.mk.inj ha)
  rw [hg.planned.certificate, ← h.expires]
  exact hexpires

theorem Governed.member_open_iff (hideal : HpkeIdeal) (hg : Initialized options random g manifest w)
    (h : Governed g random e c) (hlater : e.revision ≠ 0) {key : MemberEncryptionKeypair}
    (hrecipient : c.HasRecipient key.publicBytes) {v : Stores}
    (henvelope : ∃ u, v.record (.member g.root.public.networkId) configEnvelopeKey =
      some ⟨u, e.toBytes⟩)
    (hhead : ∃ u, v.record (.member g.root.public.networkId) configHeadKey =
      some ⟨u, encodeHead e.head⟩)
    (hsigner : ∃ u, v.record (.member g.root.public.networkId) configSignerCertificateKey =
      some ⟨u, g.adminCertificate.toBytes⟩)
    (hseed : ∃ v', Seeded g.root.public.networkId v v' e.revision e.toBytes) :
    (∃ handle v', (PersistedConfigState.open g.root.public key t).run serve v = (.ok handle, v')) ↔
      c.Acceptable g.root.public g.root.public.networkId t := by
  have hparse := h.published.seals.fromBytes_toBytes
  constructor
  · rintro ⟨handle, v', hrun⟩
    obtain ⟨u, hrecord⟩ := henvelope
    rcases open_run_cases hrun with ⟨_, hr, -⟩ | ⟨handle', e', a, -, hroot, hkey, hopened, -⟩
    · cases hr
    -- the stored envelope is the one that was opened
    have hstored : v.record (.member handle'.root.networkId) configEnvelopeKey =
        some ⟨handle'.envelopeVersion, e'.toBytes⟩ := hopened.synced.envelope
    rw [hroot, hrecord] at hstored
    have hbytes : e.toBytes = e'.toBytes := congrArg Entry.value (Option.some.inj hstored)
    rw [hbytes, hopened.parses] at hparse
    obtain rfl := Except.ok.inj hparse
    have hopens := hopened.opens
    rw [hroot] at hopens
    exact ((h.published.seals.opensTo_iff hideal _ t _).mp hopens).2.1
  · intro hvalid
    obtain ⟨v₁, hrecord₁⟩ := henvelope
    obtain ⟨v₂, hrecord₂⟩ := hhead
    obtain ⟨v₃, hrecord₃⟩ := hsigner
    obtain ⟨v', hseeded⟩ := hseed
    obtain ⟨config, hconfig⟩ : ∃ config : ValidatedNetworkConfig, config.asConfig = c :=
      ⟨⟨c, ⟨_, _, t, NetworkConfigV1.check_eq_ok.mpr hvalid⟩⟩, rfl⟩
    obtain ⟨hzero, -⟩ | ⟨-, hsignerId, hsigned⟩ := h.signed
    · exact absurd hzero hlater
    let handle : PersistedConfigState := ⟨g.root.public, key, config, e.head, v₁, v₂, v₃⟩
    have hopened : OpenedOn handle t v e g.adminCertificate := by
      refine ⟨⟨hrecord₁, hrecord₂, hrecord₃, rfl⟩, hparse, h.published.seals.header.1,
        (h.admin_verifies hvalid).mono, ⟨hsignerId, ?_, hsigned⟩, ?_⟩
      · rw [hg.planned.certificate]
        change (0xFFFFFFFF : UInt32) &&& adminPermissionConfigWrite ≠ 0
        decide
      · rw [show handle.config.asConfig = c from hconfig]
        exact (h.published.seals.opensTo_iff hideal key t c).mpr ⟨hrecipient, hvalid, rfl⟩
    exact ⟨handle, v', open_of_openedOn hopened hseeded⟩

end Governed

/-! ## The authority and its members -/

/-- The member's stores `v` hold what joining with the authority's current envelope, or updating to
it, leaves: the envelope, its head and the certificate of the administrator. The history holds the
envelope, or can take it. -/
structure Mirrors (v : Stores) (self : Authority) (w : Stores) (raw : Bytes) : Prop where
  current : ∃ u, w.record (.authority self.status.networkId) keyEnvelope = some ⟨u, raw⟩
  envelope : ∃ u, v.record (.member self.status.networkId) configEnvelopeKey = some ⟨u, raw⟩
  head : ∃ u, v.record (.member self.status.networkId) configHeadKey =
    some ⟨u, encodeHead self.status.head⟩
  signer : ∃ u, v.record (.member self.status.networkId) configSignerCertificateKey =
    some ⟨u, self.adminCertificate⟩
  history : (∃ u, v.record (.member self.status.networkId)
      (configHistoryKey self.status.head.revision) = some ⟨u, raw⟩) ∨
    (v.record (.member self.status.networkId) (configHistoryKey self.status.head.revision) = none ∧
      v.state.HasRoom 1)

/-- After any session of named operations and within the window of the current configuration, the
authority opens exactly if no entry of the configuration has lapsed, and so does every member that
is a recipient of the current envelope and stores it. No ticket carries the genesis, so that a member
stores a later one. -/
theorem openable_iff_unlapsed (hideal : HpkeIdeal) {options : AuthorityInit}
    {random : InitRandomness} {manifest : Bytes} {init : InitializedAuthority} {w w' : Stores}
    (hinit : ( Authority.initialize options random).run serve Stores.empty =
      (.ok (manifest, init), w))
    {log : List (Event (authorityApi manifest))} {self : Authority}
    (hsession : Session manifest none w log (some self) w') (hnamed : NamedOnly log) {t : UInt64}
    (hissued : self.config.asConfig.issuedAtMs ≤ t)
    (hexpires : t < self.config.asConfig.expiresAtMs) :
    ((∃ self' w'', (Authority.open manifest t).run serve w' = (.ok self', w'')) ↔
      self.config.asConfig.Unlapsed t) ∧
    ∀ (key : MemberEncryptionKeypair) (v : Stores) (raw : Bytes),
      self.config.asConfig.HasRecipient key.publicBytes → self.status.head.revision ≠ 0 →
      Mirrors v self w' raw →
      ((∃ handle v', (PersistedConfigState.open self.rootPublic key t).run serve v =
        (.ok handle, v')) ↔ self.config.asConfig.Unlapsed t) := by
  obtain ⟨g, hg, -⟩ := initialize_spec hinit
  have hwork := (hsession.atWork hg.describes (AtWork.start hg.inv)).1
  have harchive := hsession.archive hg.describes (AtWork.start hg.inv)
  obtain ⟨last, hchain⟩ := hwork.inv.chain
  obtain ⟨c, hgoverned⟩ := harchive.governed hideal hg (fun _ => hnamed.succeeded) hchain.committed
  have hconfig : self.config.asConfig = c :=
    (hgoverned.published.content_iff hideal).mp (hwork.current hchain)
  have hholds := hsession.holds hideal hg rfl
  have hhead : self.status.head = last.head := (hwork.synced self last rfl hchain).head
  rw [hconfig] at hissued hexpires
  have hiff := hgoverned.acceptable_iff hg hissued hexpires
  refine ⟨?_, ?_⟩
  · rw [hconfig, ← hiff, ← hconfig]
    constructor
    · rintro ⟨self', w'', hopen⟩
      exact ((hsession.open_iff hideal hg hnamed t self' w'').mp hopen).2.2
    · intro hvalid
      exact ⟨self, w', (hsession.open_iff hideal hg hnamed t self w').mpr ⟨rfl, rfl, hvalid⟩⟩
  · intro key v raw hrecipient hlater hmirrors
    rw [hconfig] at hrecipient
    rw [hhead] at hlater
    obtain ⟨⟨u, hcurrent⟩, henvelope, hheadRecord, hsigner, hhistory⟩ := hmirrors
    rw [hholds.names.1] at hcurrent henvelope hheadRecord hsigner hhistory
    rw [hhead] at hheadRecord hhistory
    rw [hholds.certificate] at hsigner
    -- the mirrored bytes are those of the current envelope
    obtain ⟨u', hrecord⟩ := hchain.envelope
    have hbytes : raw = last.toBytes :=
      congrArg Entry.value (Option.some.inj (hcurrent.symm.trans hrecord))
    rw [hbytes] at henvelope hhistory
    have hseed : ∃ v', Seeded g.root.public.networkId v v' last.revision last.toBytes := by
      rcases hhistory with hstored | ⟨hmissing, hroom⟩
      · exact ⟨v, .inl ⟨hstored, rfl⟩⟩
      · obtain ⟨plaintext, recipients, -, hsealed, -⟩ := hgoverned.published.seals.sealed
        have hlength := EncryptedConfigEnvelope.Bounded.length_le hsealed.bounded hsealed.encoded
        have hlimit : maxValueLen = 16 * 1024 * 1024 := rfl
        exact exists_seeded (by omega) hmissing hroom
    rw [hholds.root, hconfig, ← hiff]
    exact hgoverned.member_open_iff hideal hg hlater hrecipient henvelope hheadRecord hsigner hseed

end Weaver

namespace Weaver.Sample

open Checked Wire Versioned Program Transparent

/-- The sample authority registers a relay that expires early and invites the sample member, which
joins: the authority's handle and stores, the ticket, the certificate in it, the head of the join and
the member's stores. After the relay has expired, neither of them opens. -/
def expiring : Option (Authority × Stores × JoinTicket × MemberCertificate × ConfigHead × Stores ×
    Stores) := do
  let prepared ← preparing.toOption
  let (_, s) ← Solo.perform (none, stores) (.open 1000)
  let (_, s) ← s.perform (.call (.registerRelay ⟨fill 8, valid_eight⟩ "https://brief" .dataRelay 1200
    1000 sealing))
  let (ticket, s) ← s.perform (.call (.inviteMember prepared.request prepared.endpointBinding
    .member 1000 40000 (some epochSecrets) sealing))
  let self ← s.1
  let m ← (MemberCertificate.fromBytes ticket.memberCertificate).toOption
  guard (ticket.memberCertificate ∈ self.config.asConfig.members ∧
    m.payload.encryptionPublicKey = memberKey.publicBytes)
  guard (self.config.asConfig.issuedAtMs ≤ 1100 ∧ 1300 < self.config.asConfig.expiresAtMs)
  guard (self.rootPublic.verifyingKey = root.public.verifyingKey ∧
    self.status.networkId = root.public.networkId ∧
    self.adminCertificate = ticket.adminCertificate ∧ self.status.head.revision ≠ 0)
  let current ← s.2.record (.authority self.status.networkId) keyEnvelope
  guard (current.bytes = ticket.embeddedConfig)
  let (_, w₀) ← succeed (prepareJoin memberStores root.public.networkId .member 50000 memberDraws)
    Stores.empty
  guard (∀ key ∈ w₀.state.records.keys, key.2.asBytes.length ≠ 26)
  guard (w₀.secrets.open (memberSecretId root.public.networkId "member-encryption") =
    .ok memberKey.secretBytes.val)
  let (head, w₁) ← succeed (join memberStores root.public ticket 1100) w₀
  guard (head = self.status.head)
  guard (w₁.state.nextRecord.toNat + 1 < 2^64 ∧ w₁.state.nextCommit.toNat + 1 < 2^64)
  guard (((Authority.open manifest 1300).run serve s.2).1.isOk = false)
  guard (((PersistedConfigState.open root.public memberKey 1300).run serve w₁).1.isOk = false)
  return (self, s.2, ticket, m, head, w₀, w₁)

set_option maxRecDepth 100000 in
theorem expiring_isSome : expiring.isSome = true := by decide +kernel

theorem expiring_spec {self : Authority} {w w₀ w₁ : Stores} {ticket : JoinTicket}
    {m : MemberCertificate} {head : ConfigHead}
    (h : expiring = some (self, w, ticket, m, head, w₀, w₁)) :
    (∃ log : List (Event (authorityApi manifest)),
      Session manifest none stores log (some self) w ∧ NamedOnly log) ∧
    (self.config.asConfig.issuedAtMs ≤ 1100 ∧ 1300 < self.config.asConfig.expiresAtMs) ∧
    self.config.asConfig.HasRecipient memberKey.publicBytes ∧ self.status.head.revision ≠ 0 ∧
    self.rootPublic = root.public ∧ Mirrors w₁ self w ticket.embeddedConfig ∧
    (∃ handle w₂, (PersistedConfigState.open root.public memberKey 1100).run serve w₁ =
      (.ok handle, w₂)) ∧
    ((Authority.open manifest 1300).run serve w).1.isOk = false ∧
    ((PersistedConfigState.open root.public memberKey 1300).run serve w₁).1.isOk = false := by
  unfold expiring at h
  simp only [Option.bind_eq_bind, Option.bind_eq_some_iff, toOption_eq_some, Prod.exists,
    Option.guard_eq_some', exists_const, Option.pure_def, succeed_eq_some, Option.some.injEq,
    Prod.mk.injEq] at h
  obtain ⟨prepared, -, _, h₁, w₁', hopen, _, h₂, w₂, hrelay, _, h₃, w₃, hinvite, _, rfl, _, hm,
    ⟨hlisted, hkey⟩, hwindow, ⟨hroot, hnetwork, hcertificate, hrevision⟩, ⟨u, bytes⟩, hcurrent,
    hbytes, _, _, -, hkeys, hsecret, _, _, hjoin, hhead, hroom, hfails, hfails', rfl, rfl, rfl, rfl,
    rfl, rfl, rfl⟩ := h
  -- the member opens at the time of the join
  obtain ⟨handle, e', a, hroot', hkey', -, hopened, -, hlength, hhistory⟩ :=
    join_openedOn hsecret hjoin
  obtain ⟨w₂, hseeded⟩ := exists_seeded hlength
    ((hhistory e'.revision).trans (history_eq_none hkeys _ _)) ⟨hroom.1, hroom.2⟩
  rw [← hroot'] at hseeded
  have hopens := open_of_openedOn hopened hseeded
  rw [hroot', hkey'] at hopens
  obtain ⟨e, hparse, rfl, -, -, henvelope, hheadRecord, hsigner, -⟩ := join_records hjoin
  rw [EncryptedConfigEnvelope.toBytes_of_fromBytes hparse] at henvelope
  rw [← hnetwork] at henvelope hheadRecord hsigner
  refine ⟨⟨_, Solo.session (Solo.session (Solo.session .nil hopen) hrelay) hinvite, ?_⟩, hwindow,
    ⟨_, ?_, hkey⟩, hrevision, NetworkRootPublic.ext_key hroot,
    ⟨⟨u, ?_⟩, henvelope, hhead ▸ hheadRecord, hcertificate ▸ hsigner, .inr ⟨?_, hroom.1, hroom.2⟩⟩,
    ⟨handle, w₂, hopens⟩, hfails, hfails'⟩
  · intro event hmem c hcall
    simp only [List.mem_cons, List.not_mem_nil, or_false] at hmem
    rcases hmem with rfl | rfl | rfl <;> cases hcall <;> trivial
  · unfold NetworkConfigV1.ListsMember
    rw [← Signed.fromBytes_eq_ok.mp hm]
    exact hlisted
  · rw [hcurrent, ← hbytes]
  · rw [hnetwork, hhistory]
    exact history_eq_none hkeys _ _

/-- Before the relay expires, the authority opens, and so does the member. -/
theorem openable_iff_unlapsed_sample : ∃ (self self' : Authority) (w w' w₀ w₁ w₂ : Stores)
    (ticket : JoinTicket) (m : MemberCertificate) (head : ConfigHead)
    (handle : PersistedConfigState), expiring = some (self, w, ticket, m, head, w₀, w₁) ∧
      (Authority.open manifest 1100).run serve w = (.ok self', w') ∧
      (PersistedConfigState.open self.rootPublic memberKey 1100).run serve w₁ =
        (.ok handle, w₂) := by
  obtain ⟨init, hinit⟩ := initialize_eq_ok
  obtain ⟨⟨self, w, ticket, m, head, w₀, w₁⟩, hexpiring⟩ :=
    Option.isSome_iff_exists.mp expiring_isSome
  obtain ⟨⟨log, hsession, hnamed⟩, ⟨hissued, hexpires⟩, hrecipient, hrevision, hroot, hmirrors,
    hmember, -⟩ := expiring_spec hexpiring
  obtain ⟨hauthority, hmembers⟩ := openable_iff_unlapsed hpkeIdeal hinit hsession hnamed hissued
    (lt_trans (by decide) hexpires)
  rw [← hroot] at hmember
  have hunlapsed := (hmembers memberKey w₁ _ hrecipient hrevision hmirrors).mp hmember
  obtain ⟨handle, w₂, hopen⟩ := hmember
  obtain ⟨self', w', hopen'⟩ := hauthority.mpr hunlapsed
  exact ⟨self, self', w, w', w₀, w₁, w₂, ticket, m, head, handle, hexpiring, hopen', hopen⟩

/-- Once the relay has expired, within the window of the configuration, neither of them does. -/
theorem unopenable_after_lapse : ∃ (log : List (Event (authorityApi manifest))) (self : Authority)
    (w w₁ : Stores) (raw : Bytes), Session manifest none stores log (some self) w ∧
      NamedOnly log ∧ self.config.asConfig.issuedAtMs ≤ 1300 ∧
      1300 < self.config.asConfig.expiresAtMs ∧ Mirrors w₁ self w raw ∧
      (∀ self' w', (Authority.open manifest 1300).run serve w ≠ (.ok self', w')) ∧
      ∀ handle w', (PersistedConfigState.open self.rootPublic memberKey 1300).run serve w₁ ≠
        (.ok handle, w') := by
  obtain ⟨⟨self, w, ticket, m, head, w₀, w₁⟩, hexpiring⟩ :=
    Option.isSome_iff_exists.mp expiring_isSome
  obtain ⟨⟨log, hsession, hnamed⟩, ⟨hissued, hexpires⟩, -, -, hroot, hmirrors, -, hfails,
    hfails'⟩ := expiring_spec hexpiring
  refine ⟨log, self, w, w₁, ticket.embeddedConfig, hsession, hnamed, hissued.trans (by decide),
    hexpires, hmirrors, ?_, ?_⟩
  · intro self' w' hopen
    rw [hopen] at hfails
    cases hfails
  · intro handle w' hopen
    rw [hroot] at hopen
    rw [hopen] at hfails'
    cases hfails'

end Weaver.Sample
