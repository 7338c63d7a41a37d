import Weaver.Config.Opening
import Weaver.Config.Sealing
import Weaver.Config.SnapshotCodec
import Weaver.Crypto.Transparent

/-!
# Sealing and opening configurations

`seal_open_next_config`: an envelope that `seal_next_config` made, sent through its wire format,
opens with a member key exactly when that key is the encryption key of a member of the sealed
snapshot, the signing administrator still verifies in the current snapshot and the sealed snapshot
is valid at the time of opening; and what it opens to is that snapshot, under the head that the
wire bytes hash to.
-/

namespace Weaver

open Checked Wire Collect Snapshot

variable [Crypto]

/-! ## The recipients -/

omit [Crypto] in
def NetworkConfigV1.HasRecipient (c : NetworkConfigV1) (key : Bytes32) : Prop :=
  ∃ m, c.ListsMember m ∧ m.payload.encryptionPublicKey = key

omit [Crypto] in
def NetworkConfigV1.DistinctRecipients (c : NetworkConfigV1) : Prop :=
  DistinctOn MemberCertificate.fromBytes (fun m => m.payload.encryptionPublicKey) c.members

omit [Crypto] in
theorem validateRecipientSet_spec {config : NetworkConfigV1} {recipients : List Bytes32}
    {u : Unit} (h : validateRecipientSet config recipients = .ok u) :
    (∀ key, key ∈ recipients ↔ config.HasRecipient key) ∧ config.DistinctRecipients := by
  unfold validateRecipientSet at h
  simp only [bind_eq_ok, failIf_eq_ok, not_or, Decidable.not_not] at h
  obtain ⟨expected, hexpected, hlength, -, hsub, hsup⟩ := h
  rw [mapM_eq_ok] at hexpected
  -- each key is a listed member's
  have hmember : ∀ raw key, (((MemberCertificate.fromBytes raw).map fun certificate =>
      certificate.payload.encryptionPublicKey).mapError ConfigError.signature) = .ok key ↔
      ∃ m : MemberCertificate, raw = m.toBytes ∧ m.payload.encryptionPublicKey = key := by
    intro raw key
    simp only [mapError_eq_ok, map_eq_ok, Signed.fromBytes_eq_ok]
  refine ⟨?_, ?_⟩
  · intro key
    constructor
    · intro hkey
      obtain ⟨raw, hraw, hm⟩ := exists_of_mem_right hexpected (hsup hkey)
      obtain ⟨m, rfl, hmkey⟩ := (hmember raw key).mp hm
      exact ⟨m, hraw, hmkey⟩
    · rintro ⟨m, hlist, hm⟩
      obtain ⟨k, hk, hk'⟩ := exists_of_mem_left hexpected hlist
      obtain ⟨m', hm', hkey'⟩ := (hmember _ _).mp hk'
      obtain rfl := Signed.toBytes_injective hm'
      rw [← hm, hkey']
      exact hsub hk
  · -- as many different keys as members, so no two members share one
    have hnodup : (expected.map id).Nodup := by
      rw [List.map_id, ← List.dedup_eq_self]
      refine (List.dedup_sublist expected).eq_of_length ?_
      rw [hlength, hexpected.length_eq]
    refine (distinctOn_congr ?_).mp ((nodup_iff_distinctOn hexpected).mp hnodup)
    intro raw hraw
    obtain ⟨key, -, hkey⟩ := exists_of_mem_left hexpected hraw
    obtain ⟨m, hm, hmkey⟩ := (hmember raw key).mp hkey
    exact ⟨key, m, hkey, Signed.fromBytes_eq_ok.mpr hm, hmkey.symm⟩

/-! ## Opening what was sealed -/

namespace EncryptedConfigEnvelope

/-- The envelope is a configuration of the root's network, sealed for its members under its own
header. -/
structure Seals (e : EncryptedConfigEnvelope) (root : NetworkRootPublic) (c : NetworkConfigV1) :
    Prop where
  network : c.networkId = root.networkId
  distinct : c.DistinctRecipients
  sealed : ∃ plaintext recipients, c.toBytes = .ok plaintext ∧ e.Sealed plaintext recipients ∧
    ∀ key, key ∈ recipients ↔ c.HasRecipient key
  header : e.networkId = root.networkId ∧ e.epoch = c.epoch ∧ e.revision = c.revision ∧
    e.previousHash = c.previousHash

section Seals

variable {e : EncryptedConfigEnvelope} {root : NetworkRootPublic} {c : NetworkConfigV1}

theorem Seals.fromBytes_toBytes (h : e.Seals root c) : fromBytes e.toBytes = .ok e := by
  obtain ⟨plaintext, recipients, -, hsealed, -⟩ := h.sealed
  exact EncryptedConfigEnvelope.fromBytes_toBytes hsealed.bounded hsealed.encoded

theorem Seals.head_eq (h : e.Seals root c) :
    e.head = ⟨c.epoch, c.revision, hash e.toBytes⟩ := by
  obtain ⟨-, hepoch, hrevision, -⟩ := h.header
  unfold EncryptedConfigEnvelope.head envelopeHash
  rw [hepoch, hrevision]

theorem Seals.recipient_of_find (hideal : HpkeIdeal) (h : e.Seals root c)
    {k : MemberEncryptionKeypair} {contentKey : Bytes32}
    (hfound : (e.memberKeyWraps.findSome? fun wrap => unwrapContentKey k wrap e.aad) =
      some contentKey) : c.HasRecipient k.publicBytes := by
  obtain ⟨plaintext, recipients, -, hsealed, hmembers⟩ := h.sealed
  have hfind := hsealed.find_content_key hideal k
  rw [← hmembers k.publicBytes]
  by_contra hmem
  rw [if_neg hmem, hfound] at hfind
  cases hfind

theorem Seals.content_iff (hideal : HpkeIdeal) (h : e.Seals root c) (k : MemberEncryptionKeypair)
    (c' : NetworkConfigV1) :
    (∃ plaintext, e.ContentOpens k plaintext ∧ NetworkConfigV1.fromBytes plaintext = .ok c') ↔
      c.HasRecipient k.publicBytes ∧ c' = c := by
  obtain ⟨plaintext, recipients, hplain, hsealed, hmembers⟩ := h.sealed
  have hread := NetworkConfigV1.fromBytes_of_toBytes hplain
  have hfind := hsealed.find_content_key hideal k
  constructor
  · rintro ⟨plaintext', ⟨key', hkey', hdec', -⟩, hread'⟩
    have hrecipient := h.recipient_of_find hideal hkey'
    -- the content key that a recipient finds is the one that decrypts
    rw [if_pos ((hmembers k.publicBytes).mpr hrecipient)] at hfind
    obtain ⟨key, hkey, hdec⟩ := hfind
    rw [hkey] at hkey'
    obtain rfl := Option.some.inj hkey'
    rw [hdec] at hdec'
    obtain rfl := Option.some.inj hdec'
    rw [hread] at hread'
    exact ⟨hrecipient, (Except.ok.inj hread').symm⟩
  · rintro ⟨hrecipient, rfl⟩
    rw [if_pos ((hmembers k.publicBytes).mpr hrecipient)] at hfind
    obtain ⟨key, hkey, hdec⟩ := hfind
    exact ⟨plaintext, ⟨key, hkey, hdec, hsealed.payload_hash.symm⟩, hread⟩

theorem Seals.opensTo_iff (hideal : HpkeIdeal) (h : e.Seals root c) (k : MemberEncryptionKeypair)
    (now' : UInt64) (c' : NetworkConfigV1) :
    e.OpensTo root k now' c' ↔
      c.HasRecipient k.publicBytes ∧ c.Acceptable root root.networkId now' ∧ c' = c := by
  obtain ⟨hnet, hepoch, hrevision, hprevious⟩ := h.header
  constructor
  · intro ho
    obtain ⟨hmem, rfl⟩ := (h.content_iff hideal k c').mp ho.content
    refine ⟨hmem, ?_, rfl⟩
    rw [← hnet]
    exact ho.valid
  · rintro ⟨hmem, hvalid, rfl⟩
    refine ⟨(h.content_iff hideal k c').mpr ⟨hmem, rfl⟩, ?_, hepoch.symm, hrevision.symm,
      hprevious.symm, ?_⟩
    · rw [hnet]
      exact h.network
    · rw [hnet]
      exact hvalid

end Seals

/-- What `seal_config` checks before it seals, and the envelope that it seals. -/
structure SealedGenesis (e : EncryptedConfigEnvelope) (root : NetworkRootKey)
    (c : NetworkConfigV1) : Prop where
  valid : c.Acceptable root.public root.public.networkId c.issuedAtMs
  seals : e.Seals root.public c
  signed : e.signerKeyId = root.public.keyId ∧ e.signature = root.sign e.signedBytes

variable {recipients : List Bytes32} {random : SealRandomness}

theorem sealConfig_spec {root : NetworkRootKey} {c : NetworkConfigV1} {e : EncryptedConfigEnvelope}
    (h : sealConfig root c recipients random = .ok e) : e.SealedGenesis root c := by
  unfold sealConfig sealByRoot at h
  simp only [bind_eq_ok, mapError_eq_ok, NetworkConfigV1.validate_eq_ok,
    NetworkConfigV1.check_eq_ok] at h
  obtain ⟨v, ⟨hvalid, -⟩, _, hrecipients, plaintext, hplain, hseal⟩ := h
  obtain ⟨hsealed, hnet, hsigner, hepoch, hrevision, hprevious, hsig⟩ := sealWithSigner_spec hseal
  obtain ⟨hmembers, hdistinct⟩ := validateRecipientSet_spec hrecipients
  exact ⟨hvalid, ⟨hvalid.network, hdistinct, ⟨plaintext, recipients, hplain, hsealed, hmembers⟩,
    hnet, hepoch, hrevision, hprevious⟩, hsigner, hsig⟩

/-- What `seal_next_config` checks before it seals, and the envelope that it seals. -/
structure SealedNext (e : EncryptedConfigEnvelope) (root : NetworkRootPublic)
    (admin : OnlineAdminKey) (current : ValidatedNetworkConfig) (head : ConfigHead)
    (next : NetworkConfigV1) (nowMs : UInt64) : Prop where
  current_network : current.asConfig.networkId = root.networkId
  current_revision : current.asConfig.revision = head.revision
  current_epoch : current.asConfig.epoch = head.epoch
  /-- The administrator is listed, verifies, holds the key and may write configurations. -/
  signer : ∃ a, current.SignerVerifies root admin.keyId nowMs a ∧
    a.payload.publicKey = admin.publicBytes ∧
    a.payload.permissions &&& adminPermissionConfigWrite ≠ 0
  next_revision : next.revision.toNat = head.revision.toNat + 1
  next_previous : next.previousHash = head.hash
  next_epoch : head.epoch ≤ next.epoch
  next_valid : next.Acceptable root root.networkId next.issuedAtMs
  seals : e.Seals root next
  signed : e.signerKeyId = admin.keyId ∧ e.signature = admin.sign e.signedBytes

theorem sealNextConfig_spec {root : NetworkRootPublic} {admin : OnlineAdminKey}
    {current : ValidatedNetworkConfig} {head : ConfigHead} {next : NetworkConfigV1} {nowMs : UInt64}
    {e : EncryptedConfigEnvelope}
    (h : sealNextConfig root admin current head next recipients nowMs random = .ok e) :
    e.SealedNext root admin current head next nowMs := by
  unfold sealNextConfig at h
  simp only [bind_eq_ok, failIf_eq_ok, mapError_eq_ok, okOr_eq_ok, not_or, not_lt,
    Decidable.not_not, exists_and_left, exists_const, checkedAdd_eq_some,
    ValidatedNetworkConfig.verifiedAdmin_eq_ok, NetworkConfigV1.validate_eq_ok,
    NetworkConfigV1.check_eq_ok] at h
  obtain ⟨⟨hcnet, hcrev, hcepoch⟩, verified, ⟨a, hsigner, hp⟩, hkey, hperm, hnnet, rev, hrev,
    ⟨rfl, hprev, hepoch⟩, v, ⟨hvalid, -⟩, _, hrecipients, plaintext, hplain, hseal⟩ := h
  rw [hp] at hkey hperm
  obtain ⟨hsealed, hnet, hsignerId, hepoch', hrevision', hprevious', hsig⟩ :=
    sealWithSigner_spec hseal
  obtain ⟨hmembers, hdistinct⟩ := validateRecipientSet_spec hrecipients
  have hone : (1 : UInt64).toNat = 1 := rfl
  rw [hone] at hrev
  exact ⟨hcnet, hcrev, hcepoch, ⟨a, hsigner, hkey, hperm⟩, hrev, hprev, hepoch, hvalid,
    ⟨hnnet, hdistinct, ⟨plaintext, recipients, hplain, hsealed, hmembers⟩, hnet, hepoch',
      hrevision', hprevious'⟩, hsignerId, hsig⟩

section SealedNext

variable {e : EncryptedConfigEnvelope} {root : NetworkRootPublic} {admin : OnlineAdminKey}
  {current : ValidatedNetworkConfig} {head : ConfigHead} {next : NetworkConfigV1}
  {nowMs : UInt64}

/-- The signature holds exactly when the signer's certificate verifies: the certificate that the
current configuration lists under the signer's identifier is the one whose key signed. -/
theorem SealedNext.signedIn_iff (h : e.SealedNext root admin current head next nowMs)
    (now' : UInt64) :
    e.SignedIn current root now' ↔ ∃ a, current.SignerVerifies root admin.keyId now' a := by
  obtain ⟨hsigner, hsig⟩ := h.signed
  unfold SignedIn
  rw [hsigner]
  constructor
  · rintro ⟨a, ha, -⟩
    exact ⟨a, ha⟩
  · rintro ⟨a, ha⟩
    obtain ⟨b, hb, hkey, hperm⟩ := h.signer
    obtain rfl := ValidatedNetworkConfig.listed_admin_unique ha.1 hb.1 (ha.2.1.trans hb.2.1.symm)
    refine ⟨a, ha, hperm, ?_⟩
    rw [hkey, hsig]
    exact SigningKeypair.verify_sign _ _

theorem SealedNext.chainHolds (h : e.SealedNext root admin current head next nowMs) :
    (ChainExpectation.next head).ChainHolds e := by
  obtain ⟨-, hepoch, hrevision, hprevious⟩ := h.seals.header
  refine ⟨?_, ?_, ?_⟩
  · rw [hrevision]
    exact h.next_revision
  · rw [hprevious]
    exact h.next_previous
  · rw [hepoch]
    exact h.next_epoch

end SealedNext

/-- An envelope that `seal_next_config` made, read back from its wire bytes, opens with a member's
key at a time exactly when the key is a member's of the sealed snapshot, the signing administrator's
certificate verifies in the current configuration at that time and the sealed snapshot validates at
it. It then opens to the sealed snapshot, with the head of its epoch, its revision and the hash of
the wire bytes. -/
theorem seal_open_next_config (hideal : HpkeIdeal) {root : NetworkRootPublic}
    {admin : OnlineAdminKey} {current : ValidatedNetworkConfig} {head : ConfigHead}
    {next : NetworkConfigV1} {recipients : List Bytes32} {nowMs : UInt64}
    {random : SealRandomness} {e : EncryptedConfigEnvelope}
    (hseal : sealNextConfig root admin current head next recipients nowMs random = .ok e)
    (k : MemberEncryptionKeypair) (now' : UInt64) (o : OpenedNetworkConfig) :
    (do
      let received ← fromBytes e.toBytes
      received.openNextConfig root current k head now') = .ok o ↔
      ((∃ m, next.ListsMember m ∧ m.payload.encryptionPublicKey = k.publicBytes) ∧
        (∃ a, current.SignerVerifies root admin.keyId now' a) ∧
        (∃ v, next.validate root root.networkId now' = .ok v)) ∧
      o.config.asConfig = next ∧
      o.head = ⟨next.epoch, next.revision, hash e.toBytes⟩ := by
  have h := sealNextConfig_spec hseal
  have hnets : root.networkId = e.networkId ∧ current.asConfig.networkId = e.networkId := by
    rw [h.seals.header.1]
    exact ⟨rfl, h.current_network⟩
  have hvalidates : (∃ v, next.validate root root.networkId now' = .ok v) ↔
      next.Acceptable root root.networkId now' := by
    simp only [NetworkConfigV1.validate_eq_ok, NetworkConfigV1.check_eq_ok]
    constructor
    · rintro ⟨v, hv, -⟩
      exact hv
    · intro hv
      exact ⟨⟨next, root, root.networkId, now', NetworkConfigV1.check_eq_ok.mpr hv⟩, hv, rfl⟩
  rw [h.seals.fromBytes_toBytes, ok_bind, openNextConfig_eq_ok, h.signedIn_iff,
    h.seals.opensTo_iff hideal, h.seals.head_eq, hvalidates]
  constructor
  · rintro ⟨-, hsigner, -, ⟨hmember, hvalid, hc⟩, hhead⟩
    exact ⟨⟨hmember, hsigner, hvalid⟩, hc, hhead⟩
  · rintro ⟨⟨hmember, hsigner, hvalid⟩, hc, hhead⟩
    exact ⟨hnets, hsigner, h.chainHolds, ⟨hmember, hvalid, hc⟩, hhead⟩

end EncryptedConfigEnvelope

end Weaver

/-! ## A sample network -/

namespace Weaver.Sample

open Checked Wire Transparent

def root : NetworkRootKey := ⟨⟨fill 4⟩⟩

def admin : OnlineAdminKey := ⟨⟨fill 6⟩⟩

def key : MemberEncryptionKeypair := ⟨fill 7, fill 7, rfl, rfl⟩

def epochSecrets : EpochSecrets := ⟨fill 21, fill 22, fill 23, fill 24⟩

def sealing : SealRandomness :=
  ⟨some (fill 1), some ⟨List.replicate 24 2, List.length_replicate⟩, fun _ => fill 3,
    fun _ => some 0⟩

def configOf (certificate : AdminCertificate) (member : MemberCertificate) : NetworkConfigV1 where
  networkId := root.public.networkId
  epoch := 0
  revision := 0
  previousHash := zeroes 32
  issuedAtMs := 1000
  expiresAtMs := 2000
  adminKeys := [⟨certificate.toBytes⟩]
  members := [member.toBytes]
  endpointBindings := []
  revokedSerials := []
  apps := []
  appBindings := []
  virtualDns := []
  relays := []
  presenceServices := []
  epochSecrets := epochSecrets
  policies := .default

def firstConfig : Option NetworkConfigV1 := do
  let certificate ← (AdminCertificate.issue root admin.publicBytes 0xFFFFFFFF 2 1000 2000).toOption
  let member ← (MemberCertificate.issue root (fill 5) key.publicBytes .member 1 1000
    2000).toOption
  return configOf certificate member

def firstHead : ConfigHead := ⟨0, 0, fill 9⟩

def nextConfig (config : NetworkConfigV1) : NetworkConfigV1 :=
  { config with revision := 1, previousHash := firstHead.hash, issuedAtMs := 1100 }

def opened : Option OpenedNetworkConfig := do
  let config ← firstConfig
  let current ← (config.validate root.public root.public.networkId 1000).toOption
  let e ← (EncryptedConfigEnvelope.sealNextConfig root.public admin current firstHead (nextConfig config)
    [key.publicBytes] 1100 sealing).toOption
  (do
    let received ← EncryptedConfigEnvelope.fromBytes e.toBytes
    received.openNextConfig root.public current key firstHead 1200).toOption

theorem opened_isSome : opened.isSome = true := by decide +kernel

/-- The sample envelope opens for the sample member, to what was sealed. -/
theorem seal_open_sample : ∃ current next e, ∃ o : OpenedNetworkConfig,
    EncryptedConfigEnvelope.sealNextConfig root.public admin current firstHead next [key.publicBytes]
      1100 sealing = .ok e ∧
    (∃ m, next.ListsMember m ∧ m.payload.encryptionPublicKey = key.publicBytes) ∧
    o.config.asConfig = next ∧ o.head = ⟨next.epoch, next.revision, hash e.toBytes⟩ := by
  obtain ⟨o, ho⟩ := Option.isSome_iff_exists.mp opened_isSome
  unfold opened at ho
  simp only [Option.bind_eq_bind, Option.bind_eq_some_iff, toOption_eq_some] at ho
  obtain ⟨config, -, current, -, e, hseal, hopen⟩ := ho
  have h := (EncryptedConfigEnvelope.seal_open_next_config hpkeIdeal hseal key 1200 o).mp hopen
  exact ⟨current, nextConfig config, e, o, hseal, h.1.1, h.2⟩

end Weaver.Sample
