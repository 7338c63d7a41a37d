import Weaver.Authority.Reopenable

/-!
# What the named operations leave to the authority

The named operations never touch the administrators, the lifetime, or the authority's own member and
its endpoint (`Governed`). So whether `Authority::open` succeeds on the records of an authority
depends on one thing only: whether the current configuration validates at the time
(`Governed.openedOn_iff`).
-/

namespace Weaver

open Checked Wire Collect Versioned Program

variable [Crypto]

/-! ## The authority's place in the configuration -/

/-- The envelope is the published configuration, which the authority administers: it lists the
authority's administrator, member and endpoint and keeps the network's lifetime, and the envelope is
the genesis or signed by the administrator. -/
structure Governed (g : Genesis) (random : InitRandomness) (e : EncryptedConfigEnvelope)
    (c : NetworkConfigV1) : Prop where
  published : Published (g.identity random) e c
  admins : c.adminKeys = [⟨g.adminCertificate.toBytes⟩]
  member : c.ListsMember g.member
  endpoint : c.ListsEndpoint g.endpointBinding
  expires : c.expiresAtMs = g.config.expiresAtMs
  /-- The root signed the genesis, and the administrator every later envelope. -/
  signed : e.revision = 0 ∧ e = g.envelope ∨
    e.revision ≠ 0 ∧ e.signerKeyId = g.adminCertificate.payload.keyId ∧
      Crypto.verify g.adminCertificate.payload.publicKey e.signedBytes e.signature = true

section Governed

variable {options : AuthorityInit} {random : InitRandomness} {g : Genesis} {manifest : Bytes}
  {Made : AuthorityCall → Prop} {w w' : Stores}

theorem Initialized.governed (h : Initialized options random g manifest w) :
    Governed g random g.envelope g.config := by
  have hrevision : g.envelope.revision = 0 :=
    h.planned.envelope.seals.header.2.2.1.trans h.planned.start.2.1
  obtain ⟨hadmins, hmembers, hendpoints, -⟩ := h.planned.lists
  refine ⟨h.published, hadmins, ?_, ?_, rfl, .inl ⟨hrevision, rfl⟩⟩
  · unfold NetworkConfigV1.ListsMember
    rw [hmembers]
    exact List.mem_singleton.mpr rfl
  · unfold NetworkConfigV1.ListsEndpoint
    rw [hendpoints]
    exact List.mem_singleton.mpr rfl

variable {e : EncryptedConfigEnvelope} {c : NetworkConfigV1} {nowMs : UInt64}

theorem Governed.step (hideal : HpkeIdeal) (hg : Initialized options random g manifest w)
    {e' : EncryptedConfigEnvelope} (h : Governed g random e c) {handle : Authority}
    {call : AuthorityCall} {next : NetworkConfigV1}
    (hcommits : handle.Commits (g.identity random) call next nowMs e e') (hnamed : call.Named) :
    Governed g random e' next := by
  obtain ⟨w₁, hs⟩ := hcommits.sound
  obtain ⟨draws, hplans⟩ := hcommits.plans
  have hchange := hplans.change hnamed
  have hcurrent := (h.published.content_iff hideal).mp hcommits.content
  obtain ⟨hinherits, -⟩ := hchange.inherits
  have hkey : g.member.payload.encryptionPublicKey = handle.memberEncryption.publicBytes := by
    rw [hs.encryption]
    exact hg.planned.member.1
  obtain ⟨hmember, hendpoints⟩ := hchange.keeps_authority (by rw [hcurrent]; exact h.member) hkey
  rw [hcurrent] at hinherits hendpoints
  refine ⟨(hcommits.published hideal).1, hinherits.admins.trans h.admins, hmember,
    hendpoints _ h.endpoint hg.planned.binding.1, hinherits.expires.trans h.expires,
    hcommits.attested hg⟩

theorem Archive.governed (hideal : HpkeIdeal) (hg : Initialized options random g manifest w)
    (h : Archive (g.identity random) Made w w') (hnamed : ∀ c, Made c → c.Named)
    (he : Committed (g.identity random).network w' e) :
    ∃ c, Governed g random e c := by
  refine h.later hg (Q := fun e => ∃ c, Governed g random e c) ?_ (h.genesis hg) he hg.revision_le
    ⟨g.config, hg.governed⟩
  rintro handle call next nowMs e₀ e' hmade _ hcommits ⟨c, hgoverned⟩
  exact ⟨next, hgoverned.step hideal hg hcommits (hnamed call hmade)⟩

/-! ## Opening -/

theorem Governed.role (hg : Initialized options random g manifest w) (h : Governed g random e c) :
    hasAuthorityRole c (Crypto.endpointPublic random.endpoint) = true := by
  obtain ⟨hmemberId, hendpointId⟩ := hg.planned.binding
  have hlisted : g.endpointBinding ∈ c.endpointBindings.filterMap fun raw =>
      (EndpointBinding.fromBytes raw).toOption := by
    refine List.mem_filterMap.mpr ⟨g.endpointBinding.toBytes, h.endpoint, ?_⟩
    rw [toOption_eq_some]
    exact Signed.fromBytes_toBytes g.endpointBinding
  unfold hasAuthorityRole
  split
  · next hnone =>
    rw [List.find?_eq_none] at hnone
    exact absurd (decide_eq_true hendpointId) (hnone _ hlisted)
  · next binding hfound =>
    -- the endpoint is bound once, so that the binding found is the authority's
    have hendpoint : binding.payload.endpointId = Crypto.endpointPublic random.endpoint := by
      simpa using List.find?_some hfound
    obtain ⟨raw, hraw, hread⟩ := List.mem_filterMap.mp (List.mem_of_find?_eq_some hfound)
    rw [toOption_eq_some] at hread
    have hsame : raw = g.endpointBinding.toBytes := h.published.valid.endpoints_distinct.eq_of_key
      hraw h.endpoint hread (Signed.fromBytes_toBytes g.endpointBinding)
      (hendpoint.trans hendpointId.symm)
    rw [hsame] at hread
    obtain rfl := Except.ok.inj ((Signed.fromBytes_toBytes g.endpointBinding).symm.trans hread)
    rw [List.any_eq_true]
    refine ⟨g.member.toBytes, h.member, ?_⟩
    have hmember : MemberCertificate.fromBytes g.member.toBytes = .ok g.member :=
      Signed.fromBytes_toBytes g.member
    rw [hmember]
    simp only [hmemberId, hg.planned.member.2, decide_true, Bool.true_and]
    decide

theorem Governed.admin_verifies (h : Governed g random e c)
    (hvalid : c.Acceptable g.root.public g.root.public.networkId nowMs) :
    g.adminCertificate.Verifies g.root.public g.root.public.networkId nowMs c.revokedSerials := by
  have hkey : (⟨g.adminCertificate.toBytes⟩ : AdminKey) ∈ c.adminKeys := by
    rw [h.admins]
    exact List.mem_singleton.mpr rfl
  obtain ⟨a, ha, hverifies⟩ := hvalid.admins _ hkey
  obtain rfl := Signed.toBytes_injective ha
  exact hverifies

variable {self : Authority}

theorem Governed.reopenable (hg : Initialized options random g manifest w)
    (h : Governed g random e c) (hvalid : c.Acceptable g.root.public g.root.public.networkId nowMs)
    (hself : self.Holds g random) : self.Reopenable c nowMs := by
  have hlisted : c.ListsAdmin g.adminCertificate := by
    unfold NetworkConfigV1.ListsAdmin
    rw [h.admins]
    exact List.mem_singleton.mpr rfl
  have hverifies := hvalid.admin_verifies hlisted
  refine ⟨⟨g.adminCertificate, ?_, hverifies.not_before, hverifies.unexpired⟩, ?_,
    g.adminCertificate, hlisted, ?_⟩
  · rw [hself.certificate]
    exact Signed.fromBytes_toBytes g.adminCertificate
  · rw [hself.endpoint]
    exact h.role hg
  · rw [hself.admin, hg.planned.certificate]

theorem Governed.openedOn_iff (hideal : HpkeIdeal) (hg : Initialized options random g manifest w)
    (hle : AuthorityLe (g.identity random) w w') {last : EncryptedConfigEnvelope}
    (h : Governed g random last c) :
    self.OpenedOn (g.identity random) w' last nowMs ↔
      self.Holds g random ∧ self.Synced (g.identity random) w' last ∧ self.config.asConfig = c ∧
        c.Acceptable g.root.public g.root.public.networkId nowMs := by
  rw [h.published.openedOn_iff hideal hg hle h.signed]
  constructor
  · rintro ⟨hholds, hsynced, hconfig, hvalid, -⟩
    exact ⟨hholds, hsynced, hconfig, hvalid⟩
  · rintro ⟨hholds, hsynced, hconfig, hvalid⟩
    exact ⟨hholds, hsynced, hconfig, hvalid, h.reopenable hg hvalid hholds⟩

end Governed

end Weaver
