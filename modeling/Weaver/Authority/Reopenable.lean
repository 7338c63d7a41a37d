import Weaver.Authority.Session

/-!
# What opening asks of a committed configuration

`Authority::commit_config` commits whatever configuration the administrator may sign and the
authority can read. `Authority::open` asks for more: that the certificate of the manifest is in its
window, that the configuration gives the authority's endpoint the authority's role, and that it
lists the administrator's key (`Authority.Reopenable`). On the records of an authority these are
all that it asks of a valid configuration (`Published.openedOn_iff`), and nothing makes a
configuration that was committed meet them (`commit_reopens_iff`).
-/

namespace Weaver

open Checked Wire Collect Versioned Program

variable [Crypto]

/-! ## Who signed an envelope -/

def Attested (g : Genesis) (e : EncryptedConfigEnvelope) : Prop :=
  e.revision = 0 ∧ e = g.envelope ∨
    e.revision ≠ 0 ∧ e.signerKeyId = g.adminCertificate.payload.keyId ∧
      Crypto.verify g.adminCertificate.payload.publicKey e.signedBytes e.signature = true

section Attested

variable {options : AuthorityInit} {random : InitRandomness} {g : Genesis} {manifest : Bytes}
  {Made : AuthorityCall → Prop} {w w' : Stores}

theorem Initialized.keyId_eq (h : Initialized options random g manifest w) :
    g.adminCertificate.payload.keyId =
      deriveKeyId onlineAdminKeyIdContext g.adminCertificate.payload.publicKey := by
  rw [h.planned.certificate]

variable {e : EncryptedConfigEnvelope}

theorem Authority.Commits.attested (hg : Initialized options random g manifest w)
    {handle : Authority} {c : AuthorityCall} {next : NetworkConfigV1} {nowMs : UInt64}
    {e' : EncryptedConfigEnvelope} (h : handle.Commits (g.identity random) c next nowMs e e') :
    Attested g e' := by
  obtain ⟨w₁, hs⟩ := h.sound
  have hadmin : g.adminCertificate.payload.publicKey = handle.onlineAdmin.publicBytes :=
    hs.admin_key
  obtain ⟨hsigner, hsignature⟩ := h.sealed.signed
  have hnext := h.sealed.next_revision
  have hheader := h.sealed.seals.header.2.2.1
  refine .inr ⟨?_, ?_, ?_⟩
  · intro hzero
    rw [← hheader, hzero] at hnext
    exact absurd hnext.symm (Nat.succ_ne_zero _)
  · rw [hsigner, hg.keyId_eq, hadmin]
    rfl
  · rw [hadmin, hsignature]
    exact Crypto.verify_sign _ _

theorem Published.openCurrent_eq_ok (hideal : HpkeIdeal)
    (hg : Initialized options random g manifest w) {c : NetworkConfigV1}
    (h : Published (g.identity random) e c) (hattested : Attested g e) {admin : VerifiedAdmin}
    (hadmin : admin.payload = g.adminCertificate.payload) {config : ValidatedNetworkConfig}
    {nowMs : UInt64} :
    openCurrent (g.identity random).manifest g.root.public admin random.memberEncryption e e.head
        nowMs = .ok ⟨config, e.head⟩ ↔
      config.asConfig = c ∧ c.Acceptable g.root.public g.root.public.networkId nowMs := by
  have hopens : ∀ config' : NetworkConfigV1,
      e.OpensTo g.root.public random.memberEncryption nowMs config' ↔
        config' = c ∧ c.Acceptable g.root.public g.root.public.networkId nowMs := by
    intro config'
    have hiff := h.seals.opensTo_iff hideal random.memberEncryption nowMs config'
    constructor
    · intro ho
      obtain ⟨-, hvalid, heq⟩ := hiff.mp ho
      exact ⟨heq, hvalid⟩
    · intro ho
      exact hiff.mpr ⟨h.recipient, ho.2, ho.1⟩
  have hnetwork : e.networkId = g.root.public.networkId := h.seals.header.1
  constructor
  · intro hopen
    exact (hopens _).mp (openCurrent_spec hopen).1
  · intro ho
    unfold openCurrent
    rcases hattested with ⟨hzero, rfl⟩ | ⟨hpositive, hsigner, hsignature⟩
    · have hhash : g.envelope.envelopeHash = (g.identity random).manifest.genesisHash := rfl
      rw [if_pos hzero, failIf_neg (not_not.mpr hhash), ok_bind, mapError_eq_ok,
        EncryptedConfigEnvelope.openConfig_eq_ok]
      obtain ⟨hkeyId, hsign⟩ := hg.planned.envelope.signed
      have hprevious : g.envelope.previousHash = zeroes 32 :=
        hg.planned.envelope.seals.header.2.2.2.trans hg.planned.start.2.2.1
      refine ⟨⟨hnetwork, rfl⟩, hkeyId, ?_, ?_, (hopens _).mpr ho, rfl⟩
      · rw [hsign]
        exact Crypto.verify_sign _ _
      · exact ⟨hzero, hprevious⟩
    · rw [if_neg hpositive, mapError_eq_ok,
        EncryptedConfigEnvelope.openConfigWithVerifiedAdmin_eq_ok, hadmin]
      refine ⟨⟨hnetwork.symm, ?_⟩, hsigner, ?_, hsignature, rfl, (hopens _).mpr ho, rfl⟩
      · rw [hg.planned.certificate, hnetwork]
      · rw [hg.planned.certificate]
        show (0xFFFFFFFF : UInt32) &&& adminPermissionConfigWrite ≠ 0
        decide

end Attested

/-! ## The authority's keys -/

section Holds

variable {options : AuthorityInit} {random : InitRandomness} {g : Genesis} {manifest : Bytes}
  {w w' : Stores} {log : List (Event (authorityApi manifest))} {handle : Option Authority}

omit [Crypto] in
theorem OnlineAdminKey.eq_of_toBytes {a b : OnlineAdminKey} (h : a.toBytes = b.toBytes) : a = b := by
  obtain ⟨⟨_⟩⟩ := a
  obtain ⟨⟨_⟩⟩ := b
  cases h
  rfl

structure Authority.Holds (handle : Authority) (g : Genesis) (random : InitRandomness) : Prop where
  root : handle.rootPublic = g.root.public
  admin : handle.onlineAdmin = g.onlineAdmin
  verified : handle.verifiedAdmin.payload = g.adminCertificate.payload
  certificate : handle.adminCertificate = g.adminCertificate.toBytes
  encryption : handle.memberEncryption = random.memberEncryption
  endpoint : handle.endpointSecret = random.endpoint
  names : handle.status.networkId = g.root.public.networkId ∧
    handle.status.rootPublicKey = g.root.publicBytes
  relay : handle.status.relayUrl = firstRelayUrl handle.config.asConfig

variable {self : Authority} {last : EncryptedConfigEnvelope}

theorem Authority.Holds.unique {I : Identity} {self' : Authority} (h : self.Holds g random)
    (hsynced : self.Synced I w last) (h' : self'.Holds g random) (hsynced' : self'.Synced I w last)
    (hconfig : self.config.asConfig = self'.config.asConfig) :
    self = self' := by
  have henvelope := congrArg Entry.version
    (Option.some.inj (hsynced.envelope.symm.trans hsynced'.envelope))
  have hhead := congrArg Entry.version
    (Option.some.inj (hsynced.head_record.symm.trans hsynced'.head_record))
  have hverified := VerifiedAdmin.ext_payload (h.verified.trans h'.verified.symm)
  have hconfig' := ValidatedNetworkConfig.ext_config hconfig
  have hrelay := h.relay.trans ((congrArg firstRelayUrl hconfig).trans h'.relay.symm)
  have hstatus : self.status = self'.status := by
    have hnetwork := h.names.1.trans h'.names.1.symm
    have hpublic := h.names.2.trans h'.names.2.symm
    have hheads := hsynced.head.trans hsynced'.head.symm
    cases hs : self.status
    cases hs' : self'.status
    simp_all
  have hroot := h.root.trans h'.root.symm
  have hadmin := h.admin.trans h'.admin.symm
  have hcertificate := h.certificate.trans h'.certificate.symm
  have hencryption := h.encryption.trans h'.encryption.symm
  have hendpoint := h.endpoint.trans h'.endpoint.symm
  cases self
  cases self'
  simp only [Authority.mk.injEq]
  exact ⟨hroot, hadmin, hverified, hcertificate, hencryption, hendpoint, hconfig', henvelope, hhead,
    hstatus⟩

theorem Authority.OpenedOn.holds (hg : Initialized options random g manifest w)
    (hle : AuthorityLe (g.identity random) w w') {nowMs : UInt64}
    (h : self.OpenedOn (g.identity random) w' last nowMs) :
    self.Holds g random := by
  have hencryption := hle.secrets _ _ hg.encryption
  have hadmin := hle.secrets _ _ hg.admin
  have hendpoint := hle.secrets _ _ hg.endpoint
  obtain ⟨hroot, hcertificate, hnetwork, hpublic, hrelay⟩ := h.fields
  refine ⟨hroot, ?_, h.verifies.2, hcertificate, ?_, ?_, ⟨hnetwork, hpublic⟩, hrelay⟩
  · exact OnlineAdminKey.eq_of_toBytes (Subtype.ext (Except.ok.inj (h.admin.symm.trans hadmin)))
  · have hsecret : self.memberEncryption.secretBytes = random.memberEncryption.secretBytes :=
      Subtype.ext (Except.ok.inj (h.encryption.symm.trans hencryption))
    exact MemberEncryptionKeypair.eq_of_secretBytes hsecret
  · exact Subtype.ext (Except.ok.inj (h.endpoint.symm.trans hendpoint))

theorem Session.holds (hideal : HpkeIdeal) (hg : Initialized options random g manifest w)
    (hsession : Session manifest none w log handle w') (hself : handle = some self) :
    self.Holds g random := by
  induction hsession generalizing self with
  | nil => cases hself
  | @cons log handle₁ handle₂ w₁ w₂ request reply hbefore hrun ih =>
    have hwork := (hbefore.atWork hg.describes (AtWork.start hg.inv)).1
    have harchive := hbefore.archive hg.describes (AtWork.start hg.inv)
    obtain ⟨-, -, hturn⟩ := hwork.step hg.describes hrun
    cases hturn with
    | stayed _ heq _ _ => exact ih (heq.symm.trans hself)
    | opened _ _ self₁ _ _ hopened _ heq =>
      obtain rfl := Option.some.inj (heq.symm.trans hself)
      exact hopened.holds hg harchive.le
    | moved self₀ c next nowMs draws rest e opened self₁ hself₀ _ _ hmoved _ hrelay heq _ =>
      obtain rfl := Option.some.inj (heq.symm.trans hself)
      have hholds := ih hself₀
      obtain ⟨hopened, hconfig⟩ := hmoved.config_eq hideal
      have hhandle := hmoved.handle
      refine ⟨?_, ?_, ?_, ?_, ?_, ?_, ?_, ?_⟩
      · rw [hhandle]
        exact hholds.root
      · rw [hhandle]
        exact hholds.admin
      · rw [hhandle]
        exact hholds.verified
      · rw [hhandle]
        exact hholds.certificate
      · rw [hhandle]
        exact hholds.encryption
      · rw [hhandle]
        exact hholds.endpoint
      · rw [hhandle]
        exact hholds.names
      · -- the relay is that of the new configuration, or none of the relays has changed
        rw [hconfig]
        rcases hrelay with hrelay | ⟨hkept, hrelays⟩
        · rw [hrelay, hopened]
        · rw [hkept, hholds.relay]
          unfold firstRelayUrl
          rw [hrelays]

end Holds

/-! ## Opening -/

/-- What `open` asks at the time of the configuration that the handle has left, besides that it is
valid. -/
structure Authority.Reopenable (handle : Authority) (c : NetworkConfigV1) (nowMs : UInt64) :
    Prop where
  certificate : ∃ a, AdminCertificate.fromBytes handle.adminCertificate = .ok a ∧
    a.payload.notBeforeMs ≤ nowMs ∧ nowMs < a.payload.expiresAtMs
  /-- The endpoint of the authority is that of a member with the authority's role. -/
  role : hasAuthorityRole c (Crypto.endpointPublic handle.endpointSecret) = true
  listed : ∃ a, c.ListsAdmin a ∧ a.payload.publicKey = handle.onlineAdmin.publicBytes

section Opening

variable {options : AuthorityInit} {random : InitRandomness} {g : Genesis} {manifest : Bytes}
  {w w' : Stores} {self : Authority} {c : NetworkConfigV1} {nowMs : UInt64}

theorem Authority.Reopenable.congr (h : self.Reopenable c nowMs) (hself : self.Holds g random)
    {self' : Authority} (hself' : self'.Holds g random) : self'.Reopenable c nowMs := by
  obtain ⟨hcertificate, hrole, hlisted⟩ := h
  refine ⟨?_, ?_, ?_⟩
  · rw [hself'.certificate, ← hself.certificate]
    exact hcertificate
  · rw [hself'.endpoint, ← hself.endpoint]
    exact hrole
  · rw [hself'.admin, ← hself.admin]
    exact hlisted

theorem Initialized.certificate_verifies_iff (hg : Initialized options random g manifest w)
    (nowMs : UInt64) :
    g.adminCertificate.Verifies g.root.public g.root.public.networkId nowMs [] ↔
      g.adminCertificate.payload.notBeforeMs ≤ nowMs ∧
        nowMs < g.adminCertificate.payload.expiresAtMs := by
  have hlisted : g.config.ListsAdmin g.adminCertificate := by
    unfold NetworkConfigV1.ListsAdmin
    rw [hg.planned.lists.1]
    exact List.mem_singleton.mpr rfl
  have hgenesis := (hg.published.valid.admin_verifies hlisted).mono
  constructor
  · intro h
    exact ⟨h.not_before, h.unexpired⟩
  · intro h
    exact { hgenesis with not_before := h.1, unexpired := h.2 }

variable {last : EncryptedConfigEnvelope}

/-- The handle that `open` builds on the records of an authority is the one with the authority's
keys and the current configuration, while that is valid and gives the authority its place. -/
theorem Published.openedOn_iff (hideal : HpkeIdeal) (hg : Initialized options random g manifest w)
    (hle : AuthorityLe (g.identity random) w w') (h : Published (g.identity random) last c)
    (hattested : Attested g last) :
    self.OpenedOn (g.identity random) w' last nowMs ↔
      self.Holds g random ∧ self.Synced (g.identity random) w' last ∧ self.config.asConfig = c ∧
        c.Acceptable g.root.public g.root.public.networkId nowMs ∧ self.Reopenable c nowMs := by
  have hread : AdminCertificate.fromBytes g.adminCertificate.toBytes = .ok g.adminCertificate :=
    Signed.fromBytes_toBytes g.adminCertificate
  constructor
  · intro ho
    have hholds := ho.holds hg hle
    have hopens := ho.opens
    rw [hholds.encryption] at hopens
    obtain ⟨hconfig, hvalid⟩ := (h.openCurrent_eq_ok hideal hg hattested hholds.verified).mp hopens
    obtain ⟨a, ⟨ha, -, -⟩, hpublic⟩ := ho.listed
    have hwindow := (hg.certificate_verifies_iff nowMs).mp ho.verifies.1
    have hrole := ho.role
    rw [hconfig] at ha hrole
    refine ⟨hholds, ho.synced, hconfig, hvalid, ⟨?_, hrole, a, ha, hpublic⟩⟩
    rw [hholds.certificate]
    exact ⟨g.adminCertificate, hread, hwindow⟩
  · rintro ⟨hholds, hsynced, hconfig, hvalid, hreopenable⟩
    have hpublic : g.adminCertificate.payload.publicKey = self.onlineAdmin.publicBytes := by
      rw [hholds.admin, hg.planned.certificate]
    obtain ⟨certificate, hcertificate, hwindow⟩ := hreopenable.certificate
    rw [hholds.certificate] at hcertificate
    obtain rfl := Except.ok.inj (hread.symm.trans hcertificate)
    obtain ⟨a, hlists, hkey⟩ := hreopenable.listed
    have hverifies := hvalid.admin_verifies hlists
    refine ⟨rfl, ?_, ?_, ?_, hsynced,
      ⟨(hg.certificate_verifies_iff nowMs).mpr hwindow, hholds.verified⟩, hpublic, ?_, ?_,
      ⟨a, ⟨?_, ?_, ?_⟩, hkey⟩, hholds.root, hholds.certificate, hholds.names.1, hholds.names.2,
      hholds.relay⟩
    · rw [hholds.encryption]
      exact hle.secrets _ _ hg.encryption
    · rw [hholds.endpoint]
      exact hle.secrets _ _ hg.endpoint
    · rw [hholds.admin]
      exact hle.secrets _ _ hg.admin
    · rw [hholds.encryption]
      exact (h.openCurrent_eq_ok hideal hg hattested hholds.verified).mpr ⟨hconfig, hvalid⟩
    · rw [hconfig]
      exact hreopenable.role
    · rw [hconfig]
      exact hlists
    · -- the identifier of a key that verifies is derived from it
      rw [← hverifies.key_id, hkey]
      rfl
    · rw [hconfig, hvalid.network]
      exact hverifies

theorem Initialized.exists_holds (hg : Initialized options random g manifest w)
    (hchain : Chain (g.identity random).network w' last)
    (hvalid : c.Acceptable g.root.public g.root.public.networkId nowMs) :
    ∃ self : Authority, self.Holds g random ∧ self.Synced (g.identity random) w' last ∧
      self.config.asConfig = c := by
  obtain ⟨v, henvelope⟩ := hchain.envelope
  obtain ⟨v', hhead⟩ := hchain.head
  obtain ⟨config, hconfig⟩ : ∃ config : ValidatedNetworkConfig, config.asConfig = c :=
    ⟨⟨c, ⟨_, _, nowMs, NetworkConfigV1.check_eq_ok.mpr hvalid⟩⟩, rfl⟩
  have hkey : validKey g.adminCertificate.payload.publicKey = true := by
    rw [hg.planned.certificate]
    exact Crypto.validKey_verifyingKey _
  let self : Authority :=
    { rootPublic := g.root.public, onlineAdmin := g.onlineAdmin
      verifiedAdmin := ⟨g.adminCertificate.payload, hkey⟩
      adminCertificate := g.adminCertificate.toBytes
      memberEncryption := random.memberEncryption, endpointSecret := random.endpoint, config
      envelopeRecordVersion := v, headRecordVersion := v'
      status :=
        { networkId := g.root.public.networkId, rootPublicKey := g.root.publicBytes
          head := last.head, relayUrl := firstRelayUrl config.asConfig } }
  exact ⟨self, ⟨rfl, rfl, rfl, rfl, rfl, rfl, ⟨rfl, rfl⟩, rfl⟩, ⟨henvelope, hhead, rfl⟩, hconfig⟩

theorem Published.open_iff (hideal : HpkeIdeal) (hg : Initialized options random g manifest w)
    (hle : AuthorityLe (g.identity random) w w')
    (hchain : Chain (g.identity random).network w' last) (h : Published (g.identity random) last c)
    (hattested : Attested g last) (hself : self.Holds g random) :
    (∃ self', (Authority.open manifest nowMs).run serve w' = (.ok self', w') ∧
        self'.status.head = last.head) ↔
      c.Acceptable g.root.public g.root.public.networkId nowMs ∧ self.Reopenable c nowMs := by
  constructor
  · rintro ⟨self', hopen, -⟩
    obtain ⟨hopened, -⟩ := (open_eq_ok hg.describes hchain).mp hopen
    obtain ⟨hself', -, -, hvalid, hreopenable⟩ :=
      (h.openedOn_iff hideal hg hle hattested).mp hopened
    exact ⟨hvalid, hreopenable.congr hself' hself⟩
  · rintro ⟨hvalid, hreopenable⟩
    obtain ⟨self', hself', hsynced, hconfig⟩ := hg.exists_holds hchain hvalid
    have hopened : self'.OpenedOn (g.identity random) w' last nowMs :=
      (h.openedOn_iff hideal hg hle hattested).mpr
        ⟨hself', hsynced, hconfig, hvalid, hreopenable.congr hself hself'⟩
    exact ⟨self', (open_eq_ok hg.describes hchain).mpr ⟨hopened, rfl⟩, hsynced.head⟩

end Opening

/-- On the stores of an initialized authority, after any session: when `commit_config` of any
configuration succeeds at a time, `open` at that time succeeds with the new head exactly when the
certificate of the manifest is in its window and the configuration gives the authority's endpoint
the authority's role and lists the administrator's key. -/
theorem commit_reopens_iff (hideal : HpkeIdeal) {options : AuthorityInit} {random : InitRandomness}
    {manifest : Bytes} {init : InitializedAuthority} {w : Stores}
    (hinit : ( Authority.initialize options random).run serve Stores.empty =
      (.ok (manifest, init), w))
    {log : List (Event (authorityApi manifest))} {self : Authority} {w₁ : Stores}
    (hsession : Session manifest none w log (some self) w₁)
    {next : NetworkConfigV1} {nowMs : UInt64} {draws : SealRandomness} {status : AuthorityStatus}
    {self' : Authority} {w₂ : Stores}
    (hcommit : (self.commitConfig next nowMs draws).run serve w₁ = (.ok (status, self'), w₂)) :
    (∃ self'', (Authority.open manifest nowMs).run serve w₂ = (.ok self'', w₂) ∧
        self''.status.head = status.head) ↔
      self.Reopenable next nowMs := by
  obtain ⟨g, hg, -⟩ := initialize_spec hinit
  have hwork := (hsession.atWork hg.describes (AtWork.start hg.inv)).1
  have hholds := hsession.holds hideal hg rfl
  rcases Authority.commitConfig_run hcommit with ⟨_, herror, -⟩ | ⟨e, opened, moved, hok, hmoved, -⟩
  · cases herror
  obtain ⟨rfl, rfl⟩ := Prod.mk.inj (Except.ok.inj hok)
  obtain ⟨last, hgrows, hcommits⟩ :=
    hmoved.grows (hwork.sound self rfl) hwork.inv (fun _ hmem => absurd hmem List.not_mem_nil)
  -- the new envelope is the configuration, which is valid at the time
  have hcommitted := hcommits _ (.commitConfig next nowMs draws)
  obtain ⟨hpublished, hvalid⟩ := hcommitted.published hideal
  have hhead : self'.status.head = e.head := by rw [hmoved.handle]
  have hafter : Session manifest none w
      (⟨.call (.commitConfig next nowMs draws), (.ok self'.status : Except AuthorityError _)⟩ :: log)
      (some self') w₂ := .cons _ _ hsession
    (authorityBody_call_eq_ok.mpr ⟨self, self', rfl, rfl, updating_of_ok self hcommit⟩)
  have hle := (hafter.archive hg.describes (AtWork.start hg.inv)).le
  rw [hhead, hpublished.open_iff hideal hg hle hgrows.after (hcommitted.attested hg) hholds]
  exact and_iff_right hvalid

end Weaver

namespace Weaver.Sample

open Checked Wire Program Transparent

def recommitting (revise : NetworkConfigV1 → NetworkConfigV1) :
    Option (Authority × Stores × NetworkConfigV1 × AuthorityStatus × Authority × Stores) := do
  let (_, handle, w₁) ← Solo.perform (none, stores) (.open 1000)
  let self ← handle
  let next := revise
    { self.config.asConfig with revision := 1, previousHash := self.status.head.hash }
  match (self.commitConfig next 1000 sealing).run serve w₁ with
  | (.ok (status, self'), w₂) => return (self, w₁, next, status, self', w₂)
  | (.error _, _) => none

theorem recommitting_eq_some {revise : NetworkConfigV1 → NetworkConfigV1} {self self' : Authority}
    {w₁ w₂ : Stores} {next : NetworkConfigV1} {status : AuthorityStatus}
    (h : recommitting revise = some (self, w₁, next, status, self', w₂)) :
    Session manifest none stores [⟨.open 1000, .ok ()⟩] (some self) w₁ ∧
      (self.commitConfig next 1000 sealing).run serve w₁ = (.ok (status, self'), w₂) := by
  unfold recommitting at h
  simp only [Option.bind_eq_bind, Option.bind_eq_some_iff, Prod.exists] at h
  obtain ⟨_, _, _, hopen, _, rfl, h⟩ := h
  split at h
  · next hcommit =>
    cases h
    exact ⟨Solo.session .nil hopen, hcommit⟩
  · cases h

/-- The certificate of the manifest is in its window, and the configuration lists it and gives the
authority its role. -/
def placed (self : Authority) (next : NetworkConfigV1) : Bool :=
  match AdminCertificate.fromBytes self.adminCertificate with
  | .ok a => decide (a.payload.notBeforeMs ≤ 1000 ∧ 1000 < a.payload.expiresAtMs ∧
      ⟨a.toBytes⟩ ∈ next.adminKeys ∧ a.payload.publicKey = self.onlineAdmin.publicBytes) &&
      hasAuthorityRole next (Crypto.endpointPublic self.endpointSecret)
  | .error _ => false

theorem recommitting_placed :
    (recommitting id).any (fun r => placed r.1 r.2.2.1) = true := by decide +kernel

/-- The authority opens on its configuration, committed again. -/
theorem commit_reopens_sample : ∃ (self : Authority) (w : Stores) (next : NetworkConfigV1)
    (status : AuthorityStatus) (self' self'' : Authority) (w' : Stores),
    (self.commitConfig next 1000 sealing).run serve w = (.ok (status, self'), w') ∧
      (Authority.open manifest 1000).run serve w' = (.ok self'', w') ∧
      self''.status.head = status.head := by
  obtain ⟨init, hinit⟩ := initialize_eq_ok
  obtain ⟨⟨self, w₁, next, status, self', w₂⟩, hr, hplaced⟩ :=
    (Option.any_eq_true _ _).mp recommitting_placed
  obtain ⟨hsession, hcommit⟩ := recommitting_eq_some hr
  have hreopenable : self.Reopenable next 1000 := by
    unfold placed at hplaced
    split at hplaced
    · next a hread =>
      rw [Bool.and_eq_true, decide_eq_true_eq] at hplaced
      obtain ⟨⟨hstart, hend, hlisted, hkey⟩, hrole⟩ := hplaced
      exact ⟨⟨a, hread, hstart, hend⟩, hrole, a, hlisted, hkey⟩
    · cases hplaced
  obtain ⟨self'', hopen, hhead⟩ :=
    (commit_reopens_iff hpkeIdeal hinit hsession hcommit).mpr hreopenable
  exact ⟨self, w₁, next, status, self', self'', w₂, hcommit, hopen, hhead⟩

def unbound (c : NetworkConfigV1) : NetworkConfigV1 := { c with endpointBindings := [] }

theorem recommitting_corrupts :
    (recommitting unbound).any (fun r =>
      ((Authority.open manifest 1000).run serve r.2.2.2.2.2).1 matches .error .corruptState) =
      true := by
  decide +kernel

/-- A configuration without endpoints is committed, and the authority's state is corrupt then. -/
theorem commit_then_corrupt : ∃ (self : Authority) (w₁ : Stores) (next : NetworkConfigV1)
    (status : AuthorityStatus) (self' : Authority) (w₂ w₃ : Stores),
    Session manifest none stores [⟨.open 1000, .ok ()⟩] (some self) w₁ ∧
      (self.commitConfig next 1000 sealing).run serve w₁ = (.ok (status, self'), w₂) ∧
      (Authority.open manifest 1000).run serve w₂ = (.error .corruptState, w₃) := by
  obtain ⟨⟨self, w₁, next, status, self', w₂⟩, hr, hcorrupt⟩ :=
    (Option.any_eq_true _ _).mp recommitting_corrupts
  obtain ⟨hsession, hcommit⟩ := recommitting_eq_some hr
  refine ⟨self, w₁, next, status, self', w₂, ((Authority.open manifest 1000).run serve w₂).2,
    hsession, hcommit, Prod.ext ?_ rfl⟩
  dsimp only at hcorrupt
  split at hcorrupt
  · assumption
  · cases hcorrupt

end Weaver.Sample
