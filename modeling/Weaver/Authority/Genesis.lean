import Weaver.Authority.Contract

/-!
# What a new authority starts from

`Authority::initialize` on empty stores: what it computes (`Genesis.Planned`), what it leaves
(`Initialized`), and that the stores then satisfy the authority's contract (`Initialized.inv`).
-/

namespace Weaver

open Checked Wire Versioned Program

variable [Crypto]

/-! ## The credentials of the genesis -/

variable {expiresAtMs : UInt64}

variable {root : NetworkRootKey} {notBeforeMs : UInt64}

theorem AdminCertificate.issue_spec {key : Bytes32} {permissions : UInt32} {serial : UInt64}
    {c : AdminCertificate}
    (h : AdminCertificate.issue root key permissions serial notBeforeMs expiresAtMs = .ok c) :
    c.payload =
        { networkId := root.public.networkId
          keyId := deriveKeyId onlineAdminKeyIdContext key
          publicKey := key
          permissions, serial, notBeforeMs, expiresAtMs
          issuerKeyId := root.public.keyId } ∧
      c.signature = root.sign c.signedPayload := by
  unfold AdminCertificate.issue at h
  simp only [bind_eq_ok, failIf_eq_ok, exists_and_left, exists_const, pure_eq_ok_iff] at h
  obtain ⟨-, -, -, rfl⟩ := h
  exact ⟨rfl, rfl⟩

theorem MemberCertificate.issue_spec {signing encryption : Bytes32} {roles : MemberRoles}
    {serial : UInt64} {c : MemberCertificate}
    (h : MemberCertificate.issue root signing encryption roles serial notBeforeMs expiresAtMs =
      .ok c) :
    c.payload =
      { networkId := root.public.networkId
        memberId := deriveMemberId root.public.networkId signing
        signingPublicKey := signing
        encryptionPublicKey := encryption
        roles, serial, notBeforeMs, expiresAtMs
        issuerKeyId := root.public.keyId } := by
  unfold MemberCertificate.issue at h
  simp only [bind_eq_ok, failIf_eq_ok, exists_and_left, exists_const, pure_eq_ok_iff] at h
  obtain ⟨-, rfl⟩ := h
  rfl

theorem EndpointBinding.issue_spec {key : SigningKeypair} {member : MemberCertificatePayload}
    {endpointId : Bytes32} {sequence : UInt64} {b : EndpointBinding}
    (h : EndpointBinding.issue key member endpointId sequence expiresAtMs = .ok b) :
    b.payload =
      { networkId := member.networkId, memberId := member.memberId, endpointId, sequence,
        expiresAtMs } := by
  unfold EndpointBinding.issue at h
  simp only [bind_eq_ok, failIf_eq_ok, exists_and_left, exists_const, pure_eq_ok_iff] at h
  obtain ⟨-, rfl⟩ := h
  rfl

structure Genesis.Planned (g : Genesis) (options : AuthorityInit) (random : InitRandomness) :
    Prop where
  root : SigningKeypair.generate random.root = .ok g.root.toSigningKeypair
  /-- The administrator's certificate is valid for the lifetime of the configuration. -/
  certificate : g.adminCertificate.payload =
    { networkId := g.root.public.networkId
      keyId := deriveKeyId onlineAdminKeyIdContext g.onlineAdmin.publicBytes
      publicKey := g.onlineAdmin.publicBytes
      permissions := 0xFFFFFFFF, serial := 2
      notBeforeMs := options.nowMs, expiresAtMs := g.config.expiresAtMs
      issuerKeyId := g.root.public.keyId }
  /-- The authority's member holds the encryption key and the authority's role. -/
  member : g.member.payload.encryptionPublicKey = random.memberEncryption.publicBytes ∧
    g.member.payload.roles = authorityRoles
  binding : g.endpointBinding.payload.memberId = g.member.payload.memberId ∧
    g.endpointBinding.payload.endpointId = Crypto.endpointPublic random.endpoint
  start : g.config.epoch = 0 ∧ g.config.revision = 0 ∧ g.config.previousHash = zeroes 32 ∧
    g.config.issuedAtMs = options.nowMs
  lists : g.config.adminKeys = [⟨g.adminCertificate.toBytes⟩] ∧
    g.config.members = [g.member.toBytes] ∧
    g.config.endpointBindings = [g.endpointBinding.toBytes] ∧ g.config.revokedSerials = []
  envelope : g.envelope.SealedGenesis g.root g.config

theorem planGenesis_spec {options : AuthorityInit} {random : InitRandomness} {g : Genesis}
    (h : planGenesis options random = .ok g) : g.Planned options random := by
  unfold planGenesis at h
  simp only [bind_eq_ok, mapError_eq_ok, okOr_eq_ok, pure_eq_ok_iff] at h
  obtain ⟨expiresAtMs, -, rootKey, hroot, memberSigning, -, adminKey, -, certificate, hcertificate,
    member, hmember, binding, hbinding, epochSecrets, -, envelope, henvelope, rfl⟩ := h
  have hmember' := MemberCertificate.issue_spec hmember
  have hbinding' := EndpointBinding.issue_spec hbinding
  refine ⟨hroot, (AdminCertificate.issue_spec hcertificate).1, ⟨?_, ?_⟩, ⟨?_, ?_⟩, ⟨rfl, rfl, rfl, rfl⟩,
    ⟨rfl, rfl, rfl, rfl⟩, EncryptedConfigEnvelope.sealConfig_spec henvelope⟩
  · rw [hmember']
  · rw [hmember']
  · rw [hbinding']
  · rw [hbinding']

/-! ## What is stored -/

/-- What `initialize` leaves in the stores, and the manifest that it writes. -/
structure Initialized (options : AuthorityInit) (random : InitRandomness) (g : Genesis)
    (manifest : Bytes) (w : Stores) : Prop where
  planned : g.Planned options random
  /-- The manifest names the network, the root, the genesis and the administrator. -/
  manifest : Manifest.toBytes
    { networkId := g.root.public.networkId, rootPublicKey := g.root.publicBytes
      genesisHash := g.envelope.envelopeHash
      adminCertificate := g.adminCertificate.toBytes } = .ok manifest
  envelope : ∃ v, w.record (.authority g.root.public.networkId) keyEnvelope =
    some ⟨v, g.envelope.toBytes⟩
  head : ∃ v, w.record (.authority g.root.public.networkId) keyHead =
    some ⟨v, encodeHead g.envelope.head⟩
  history : ∃ v, w.record (.authority g.root.public.networkId) (historyKey 0) =
    some ⟨v, g.envelope.toBytes⟩
  others : ∀ key, key ≠ keyEnvelope → key ≠ keyHead → key ≠ historyKey 0 →
    w.record (.authority g.root.public.networkId) key = none
  sound : w.state.Sound
  admin : w.secrets.open (secretId g.root.public.networkId "online-admin") =
    .ok g.onlineAdmin.toBytes.val
  encryption : w.secrets.open (secretId g.root.public.networkId "member-encryption") =
    .ok random.memberEncryption.secretBytes.val
  endpoint : w.secrets.open (secretId g.root.public.networkId "endpoint") = .ok random.endpoint.val

theorem sealSecret_run {n : NetworkId} {label : String} {value : Bytes} {w w' : Stores} {u : Unit}
    (h : (sealSecret n label value).run serve w = (.ok u, w')) :
    w'.state = w.state ∧ w'.secrets.open (secretId n label) = .ok value ∧
      ∀ id secret, w.secrets.open id = .ok secret → w'.secrets.open id = .ok secret := by
  unfold sealSecret at h
  rw [Task.run_request] at h
  obtain ⟨hanswer, rfl⟩ := Prod.mk.inj h
  rw [mapError_eq_ok] at hanswer
  exact ⟨rfl, SecretStore.open_of_seal hanswer, fun _ _ => SecretStore.open_seal_of_ok⟩

omit [Crypto] in
theorem genesisBatch_spec {n : NetworkId} {e : EncryptedConfigEnvelope} {head : ConfigHead}
    {batch : AtomicBatch} (h : genesisBatch n e.toBytes head = .ok batch) :
    batch.scope = .authority n ∧ batch.operations =
      [.put keyEnvelope e.toBytes .missing, .put keyHead (encodeHead head) .missing,
        .put (historyKey head.revision) e.toBytes .missing] := by
  unfold genesisBatch at h
  simp only [bind_eq_ok, AtomicBatch.put_eq_ok] at h
  obtain ⟨b₁, ⟨-, -, hscope₁, hops₁⟩, b₂, ⟨-, -, hscope₂, hops₂⟩, -, -, hscope, hops⟩ := h
  refine ⟨hscope.trans (hscope₂.trans hscope₁), ?_⟩
  rw [hops, hops₂, hops₁]
  rfl

variable {init : InitializedAuthority}

theorem initialize_planned {options : AuthorityInit} {random : InitRandomness} {manifest : Bytes}
    {w : Stores} (h : ( Authority.initialize options random).run serve Stores.empty =
      (.ok (manifest, init), w)) :
    ∃ g, planGenesis options random = .ok g ∧ Initialized options random g manifest w ∧
      init.status.networkId = g.root.public.networkId := by
  unfold Authority.initialize initializeStaging at h
  simp only [Task.run_bind_eq_ok, Task.run_lift, Prod.mk.injEq, mapError_eq_ok] at h
  obtain ⟨_, _, ⟨-, rfl⟩, g, _, ⟨hplan, rfl⟩, _, w₁, hadmin, _, w₂, hsigning, _, w₃, hencryption,
    _, w₄, hendpoint, batch, _, ⟨hbatch, rfl⟩, version, w₅, hcommit, bytes, _, ⟨hmanifest, rfl⟩,
    hret⟩ := h
  obtain ⟨hpair, rfl⟩ := Prod.mk.inj hret
  obtain ⟨rfl, rfl⟩ := Prod.mk.inj (Except.ok.inj hpair)
  have hp := planGenesis_spec hplan
  obtain ⟨hstate₁, hadmin, -⟩ := sealSecret_run hadmin
  obtain ⟨hstate₂, -, hkeep₂⟩ := sealSecret_run hsigning
  obtain ⟨hstate₃, hencryption, hkeep₃⟩ := sealSecret_run hencryption
  obtain ⟨hstate₄, hendpoint, hkeep₄⟩ := sealSecret_run hendpoint
  obtain ⟨hcommitted, hsecrets⟩ := commitRecords_run.mp hcommit
  obtain ⟨hscope, hops⟩ := genesisBatch_spec hbatch
  have hstate : w₄.state = Stores.empty.state := by rw [hstate₄, hstate₃, hstate₂, hstate₁]
  have hput : ∀ {key value}, .put key value .missing ∈ batch.operations →
      ∃ v, w₅.record (.authority g.root.public.networkId) key = some ⟨v, value⟩ := by
    intro key value hmem
    rw [← hscope]
    exact Stores.record_of_put hcommitted hmem
  have hhead : g.envelope.head = ⟨0, 0, g.envelope.envelopeHash⟩ := by
    rw [hp.envelope.seals.head_eq, hp.start.1, hp.start.2.1]
    rfl
  refine ⟨g, hplan, ⟨hp, hmanifest, hput (by simp [hops]), ?_, hput (by simp [hops]), ?_, ?_, ?_, ?_,
    ?_⟩, rfl⟩
  · rw [hhead]
    exact hput (by simp [hops])
  · intro key henvelope hhead' hhistory
    have hother : w₅.record batch.scope key = w₄.record batch.scope key := by
      refine Stores.record_of_other hcommitted ?_
      intro op hop
      rw [hops] at hop
      simp only [List.mem_cons, List.not_mem_nil, or_false] at hop
      rcases hop with rfl | rfl | rfl
      · exact henvelope.symm
      · exact hhead'.symm
      · exact hhistory.symm
    rw [← hscope, hother]
    unfold Stores.record
    rw [hstate]
    rfl
  · refine (StateStore.commitBatch_spec hcommitted).2.sound ?_
    rw [hstate]
    intro key entry hget
    cases hget
  · rw [hsecrets]
    exact hkeep₄ _ _ (hkeep₃ _ _ (hkeep₂ _ _ hadmin))
  · rw [hsecrets]
    exact hkeep₄ _ _ hencryption
  · rw [hsecrets]
    exact hendpoint

theorem initialize_spec {options : AuthorityInit} {random : InitRandomness} {manifest : Bytes}
    {w : Stores} (h : ( Authority.initialize options random).run serve Stores.empty =
      (.ok (manifest, init), w)) :
    ∃ g, Initialized options random g manifest w ∧
      init.status.networkId = g.root.public.networkId := by
  obtain ⟨g, -, hg⟩ := initialize_planned h
  exact ⟨g, hg⟩

/-! ## The contract holds at the start -/

def Genesis.identity (g : Genesis) (random : InitRandomness) : Identity where
  manifest :=
    { networkId := g.root.public.networkId, rootPublicKey := g.root.publicBytes
      genesisHash := g.envelope.envelopeHash
      adminCertificate := g.adminCertificate.toBytes }
  root := g.root.public
  certificate := g.adminCertificate
  encryption := random.memberEncryption

section Initialized

variable {options : AuthorityInit} {random : InitRandomness} {g : Genesis} {manifest : Bytes}
  {w : Stores}

theorem Initialized.describes (h : Initialized options random g manifest w) :
    (g.identity random).Describes manifest := by
  refine ⟨readManifest_toBytes h.manifest ?_, ?_, Signed.fromBytes_toBytes g.adminCertificate⟩
  · intro hempty
    have hpos := g.adminCertificate.ticketBlob.1
    have hempty' : g.adminCertificate.toBytes = [] := hempty
    rw [hempty'] at hpos
    exact absurd hpos (by decide)
  · exact NetworkRootPublic.fromBytes_verifyingKey g.root.public

theorem Initialized.chain (h : Initialized options random g manifest w) :
    Chain g.root.public.networkId w g.envelope := by
  have hparse := h.planned.envelope.seals.fromBytes_toBytes
  have hrev : g.envelope.revision = 0 :=
    h.planned.envelope.seals.header.2.2.1.trans h.planned.start.2.1
  have hcommitted : Committed g.root.public.networkId w g.envelope := by
    refine ⟨hparse, ?_⟩
    rw [hrev]
    exact h.history
  -- the history has no record but the genesis
  have hnone : ∀ r, r ≠ 0 → w.record (.authority g.root.public.networkId) (historyKey r) = none := by
    intro r hr
    exact h.others _ (keyEnvelope_ne_historyKey r).symm (keyHead_ne_historyKey r).symm
      fun heq => hr (historyKey_injective heq)
  have hzero : ∀ e, Committed g.root.public.networkId w e → e.revision = 0 := by
    intro e he
    by_contra hne
    obtain ⟨-, v, hrec⟩ := he
    rw [hnone _ hne] at hrec
    cases hrec
  refine ⟨?_, ?_, ?_, hcommitted, h.envelope, h.head⟩
  · intro r hr
    refine ⟨g.envelope, hcommitted, ?_⟩
    rw [hrev] at hr ⊢
    rw [UInt64.le_iff_toNat_le] at hr
    exact UInt64.toNat_inj.mp (Nat.le_antisymm (Nat.zero_le _) hr)
  · intro r hr
    refine hnone r ?_
    rw [hrev] at hr
    exact ne_of_gt hr
  · intro e e' he he' hstep
    rw [hzero e he, hzero e' he'] at hstep
    exact absurd hstep (by decide)

theorem Initialized.inv (h : Initialized options random g manifest w) :
    AuthorityInv (g.identity random) w := by
  refine ⟨⟨g.envelope, h.chain⟩, h.sound, h.encryption, ?_⟩
  intro id record requestHash ticket hrecord _
  have hnone : w.record (g.identity random).scope (invitationKey id) = none :=
    h.others _ (invitationKey_ne_keyEnvelope id) (invitationKey_ne_keyHead id)
      (invitationKey_ne_historyKey id 0)
  rw [hnone] at hrecord
  cases hrecord

end Initialized

end Weaver

/-! ## A sample authority -/

namespace Weaver.Sample

open Checked Wire Program Transparent

def options : AuthorityInit := ⟨"https://relay", 1000, 100000⟩

def random : InitRandomness where
  root := some (fill 4)
  memberSigning := some (fill 5)
  onlineAdmin := some (fill 6)
  memberEncryption := key
  endpoint := fill 8
  epochSecrets := some epochSecrets
  sealing := sealing

def initialized : Except AuthorityError (Bytes × InitializedAuthority) × Stores :=
  ( Authority.initialize options random).run serve Stores.empty

def manifest : Bytes := (initialized.1.toOption.map Prod.fst).getD []

def stores : Stores := initialized.2

theorem initialized_isOk : initialized.1.isOk = true := by decide +kernel

theorem initialize_eq_ok : ∃ init,
    ( Authority.initialize options random).run serve Stores.empty =
      (.ok (manifest, init), stores) := by
  have hpair : ∀ r : Except AuthorityError (Bytes × InitializedAuthority) × Stores,
      r.1.isOk = true → ∃ init, r = (.ok ((r.1.toOption.map Prod.fst).getD [], init), r.2) := by
    intro r hok
    obtain ⟨_ | pair, w⟩ := r
    · cases hok
    · exact ⟨pair.2, rfl⟩
  exact hpair initialized initialized_isOk

theorem initialized_network {init : InitializedAuthority}
    (h : ( Authority.initialize options random).run serve Stores.empty =
      (.ok (manifest, init), stores)) : root.public.networkId = init.status.networkId := by
  obtain ⟨g, hg, hnetwork⟩ := initialize_spec h
  have hkey : root.toSigningKeypair = g.root.toSigningKeypair := Except.ok.inj hg.planned.root
  have hroot : root = g.root := congrArg NetworkRootKey.mk hkey
  exact (congrArg (fun k : NetworkRootKey => k.public.networkId) hroot).trans hnetwork.symm

-- the stores are evaluated by the kernel only
attribute [irreducible] manifest stores

end Weaver.Sample
