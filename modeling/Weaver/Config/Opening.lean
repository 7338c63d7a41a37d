import Weaver.Config.Acceptance
import Weaver.Config.Envelope

/-!
# What opening an envelope amounts to

The `open` functions of `weaver-config` are sequences of checks with early returns. This module
states what their success amounts to: who may have signed the envelope (`SignerVerifies`), where it
stands in the chain (`ChainHolds`), and what its content is (`OpensTo`).
-/

namespace Weaver

open Checked Wire Collect Snapshot

variable [Crypto]

/-! ## The signer -/

namespace ValidatedNetworkConfig

def SignerVerifies (v : ValidatedNetworkConfig) (root : NetworkRootPublic) (keyId : KeyId)
    (nowMs : UInt64) (a : AdminCertificate) : Prop :=
  v.asConfig.ListsAdmin a ∧ a.payload.keyId = keyId ∧
    a.Verifies root v.asConfig.networkId nowMs v.asConfig.revokedSerials

theorem admins_parse (v : ValidatedNetworkConfig) :
    (∀ key ∈ v.asConfig.adminKeys, ∃ a : AdminCertificate, key.certificate = a.toBytes) ∧
    DistinctOn (fun key : AdminKey => AdminCertificate.fromBytes key.certificate)
      (fun a => a.payload.keyId) v.asConfig.adminKeys := by
  obtain ⟨root, expectedNetwork, nowMs, h⟩ := v.validated
  have hacc := NetworkConfigV1.check_eq_ok.mp h
  refine ⟨fun key hkey => ?_, hacc.admins_distinct⟩
  obtain ⟨a, ha, -⟩ := hacc.admins key hkey
  exact ⟨a, ha⟩

variable {root : NetworkRootPublic} {admin : VerifiedAdmin}

theorem findVerifiedAdmin_eq_ok {networkId : NetworkId} {revoked : List UInt64} {keyId : KeyId}
    {nowMs : UInt64} {keys : List AdminKey}
    (hparse : ∀ key ∈ keys, ∃ a : AdminCertificate, key.certificate = a.toBytes)
    (hdistinct : DistinctOn (fun key : AdminKey => AdminCertificate.fromBytes key.certificate)
      (fun a => a.payload.keyId) keys) :
    findVerifiedAdmin root networkId revoked keyId nowMs keys = .ok admin ↔
      ∃ a : AdminCertificate, ⟨a.toBytes⟩ ∈ keys ∧ a.payload.keyId = keyId ∧
        a.Verifies root networkId nowMs revoked ∧ admin.payload = a.payload := by
  induction keys with
  | nil => simp [findVerifiedAdmin]
  | cons key rest ih =>
    obtain ⟨a, ha⟩ := hparse key List.mem_cons_self
    have hfrom : AdminCertificate.fromBytes key.certificate = .ok a :=
      Signed.fromBytes_eq_ok.mpr ha
    have hkey : key = ⟨a.toBytes⟩ := by
      rw [← ha]
    obtain ⟨hfirst, hrest⟩ := List.pairwise_cons.mp hdistinct
    have ih' := ih (fun k hk => hparse k (List.mem_cons_of_mem key hk)) hrest
    unfold findVerifiedAdmin
    rw [hfrom, mapError_ok, ok_bind]
    split
    · next hid =>
      -- the first certificate has the identifier, and no later one has it
      rw [mapError_eq_ok, AdminCertificate.verify_eq_ok]
      constructor
      · intro h
        exact ⟨a, by rw [hkey]; exact List.mem_cons_self, hid, h.1, h.2⟩
      · rintro ⟨a', hmem, hid', hver, hp⟩
        rcases List.mem_cons.mp hmem with heq | hmem'
        · have hbytes : a'.toBytes = a.toBytes := by
            rw [hkey] at heq
            exact congrArg AdminKey.certificate heq
          obtain rfl := Signed.toBytes_injective hbytes
          exact ⟨hver, hp⟩
        · have hne := hfirst _ hmem' a a' hfrom (Signed.fromBytes_toBytes a')
          exact absurd (hid.trans hid'.symm) hne
    · next hid =>
      rw [ih']
      constructor
      · rintro ⟨a', hmem, h⟩
        exact ⟨a', List.mem_cons_of_mem key hmem, h⟩
      · rintro ⟨a', hmem, hid', h⟩
        rcases List.mem_cons.mp hmem with heq | hmem'
        · have hbytes : a'.toBytes = a.toBytes := by
            rw [hkey] at heq
            exact congrArg AdminKey.certificate heq
          obtain rfl := Signed.toBytes_injective hbytes
          exact absurd hid' hid
        · exact ⟨a', hmem', hid', h⟩

variable {v : ValidatedNetworkConfig}

theorem verifiedAdmin_eq_ok {keyId : KeyId} {nowMs : UInt64} :
    v.verifiedAdmin root keyId nowMs = .ok admin ↔
      ∃ a, v.SignerVerifies root keyId nowMs a ∧ admin.payload = a.payload := by
  obtain ⟨hparse, hdistinct⟩ := v.admins_parse
  unfold verifiedAdmin SignerVerifies
  rw [findVerifiedAdmin_eq_ok hparse hdistinct]
  simp only [NetworkConfigV1.ListsAdmin, and_assoc]

theorem listed_admin_unique {a b : AdminCertificate} (ha : v.asConfig.ListsAdmin a)
    (hb : v.asConfig.ListsAdmin b) (hid : a.payload.keyId = b.payload.keyId) : a = b := by
  obtain ⟨-, hdistinct⟩ := v.admins_parse
  have hkey := hdistinct.eq_of_key ha hb (Signed.fromBytes_toBytes a) (Signed.fromBytes_toBytes b)
    hid
  exact Signed.toBytes_injective (congrArg AdminKey.certificate hkey)

end ValidatedNetworkConfig

/-! ## The chain -/

def ChainExpectation.ChainHolds (e : EncryptedConfigEnvelope) : ChainExpectation → Prop
  | .genesis => e.revision = 0 ∧ e.previousHash = zeroes 32
  | .next head => e.revision.toNat = head.revision.toNat + 1 ∧ e.previousHash = head.hash ∧
      head.epoch ≤ e.epoch
  | .checkpoint head => e.head = head

theorem validateChain_eq_ok {e : EncryptedConfigEnvelope} {chain : ChainExpectation} {u : Unit} :
    validateChain e chain = .ok u ↔ chain.ChainHolds e := by
  cases chain with
  | genesis =>
    unfold validateChain ChainExpectation.ChainHolds
    rw [failIf_eq_ok, Decidable.not_not]
  | next head =>
    have hone : (1 : UInt64).toNat = 1 := rfl
    unfold validateChain ChainExpectation.ChainHolds
    rw [failIf_eq_ok, Decidable.not_not, checkedAdd_eq_some, hone]
  | checkpoint head =>
    unfold validateChain ChainExpectation.ChainHolds EncryptedConfigEnvelope.head
    rw [failIf_eq_ok, Decidable.not_not]
    constructor
    · intro h
      rw [h.1, h.2.1, h.2.2]
    · intro h
      rw [← h]
      exact ⟨rfl, rfl, rfl⟩

/-! ## The content -/

namespace EncryptedConfigEnvelope

/-- The recipient's key finds a content key among the wraps, which decrypts the envelope to the
plaintext that its payload hash names. -/
def ContentOpens (e : EncryptedConfigEnvelope) (recipient : MemberEncryptionKeypair)
    (plaintext : Bytes) : Prop :=
  ∃ contentKey, (e.memberKeyWraps.findSome? fun wrap => unwrapContentKey recipient wrap e.aad) =
      some contentKey ∧
    Crypto.aeadDecrypt contentKey e.nonce e.aad e.ciphertext = some plaintext ∧
    hash plaintext = e.payloadHash

/-- The envelope's content, for the recipient, is the snapshot `c`: it decodes to it, the header
agrees with it and it is valid. -/
structure OpensTo (e : EncryptedConfigEnvelope) (root : NetworkRootPublic)
    (recipient : MemberEncryptionKeypair) (nowMs : UInt64) (c : NetworkConfigV1) : Prop where
  content : ∃ plaintext, e.ContentOpens recipient plaintext ∧
    NetworkConfigV1.fromBytes plaintext = .ok c
  network : c.networkId = e.networkId
  epoch : c.epoch = e.epoch
  revision : c.revision = e.revision
  previous : c.previousHash = e.previousHash
  valid : c.Acceptable root e.networkId nowMs

variable {e : EncryptedConfigEnvelope} {recipient : MemberEncryptionKeypair}
  {chain : ChainExpectation}

variable {expectedNetwork : NetworkId}

theorem openAfterVerifiedSignature_eq_ok {o : OpenedConfig} :
    e.openAfterVerifiedSignature expectedNetwork recipient chain = .ok o ↔
      e.networkId = expectedNetwork ∧ chain.ChainHolds e ∧
        e.ContentOpens recipient o.plaintext ∧ o.head = e.head := by
  unfold openAfterVerifiedSignature ContentOpens
  simp only [bind_eq_ok, failIf_eq_ok, okOr_eq_ok, validateChain_eq_ok, Decidable.not_not,
    exists_and_left, exists_const, pure_eq_ok_iff]
  constructor
  · rintro ⟨hnet, hchain, key, hkey, plaintext, hplain, hhash, rfl⟩
    exact ⟨hnet, hchain, ⟨key, hkey, hplain, hhash⟩, rfl⟩
  · rintro ⟨hnet, hchain, ⟨key, hkey, hplain, hhash⟩, hhead⟩
    refine ⟨hnet, hchain, key, hkey, o.plaintext, hplain, hhash, ?_⟩
    rw [← hhead]

variable {root : NetworkRootPublic} {nowMs : UInt64} {o : OpenedNetworkConfig}

theorem decodeAndValidateOpened_eq_ok {opened : OpenedConfig} :
    e.decodeAndValidateOpened root opened nowMs = .ok o ↔
      NetworkConfigV1.fromBytes opened.plaintext = .ok o.config.asConfig ∧
        (o.config.asConfig.networkId = e.networkId ∧ o.config.asConfig.epoch = e.epoch ∧
          o.config.asConfig.revision = e.revision ∧
          o.config.asConfig.previousHash = e.previousHash) ∧
        o.config.asConfig.Acceptable root e.networkId nowMs ∧ o.head = opened.head := by
  unfold decodeAndValidateOpened
  simp only [bind_eq_ok, failIf_eq_ok, mapError_eq_ok, not_or, Decidable.not_not, exists_and_left,
    exists_const, pure_eq_ok_iff, NetworkConfigV1.validate_eq_ok, NetworkConfigV1.check_eq_ok]
  constructor
  · rintro ⟨c, hc, hheader, v, ⟨hvalid, rfl⟩, rfl⟩
    exact ⟨hc, hheader, hvalid, rfl⟩
  · rintro ⟨hc, hheader, hvalid, hhead⟩
    refine ⟨o.config.asConfig, hc, hheader, o.config, ⟨hvalid, rfl⟩, ?_⟩
    rw [← hhead]

theorem openConfig_eq_ok :
    e.openConfig root expectedNetwork recipient chain nowMs = .ok o ↔
      (e.networkId = expectedNetwork ∧ root.networkId = expectedNetwork) ∧
        e.signerKeyId = root.keyId ∧
        Crypto.verify root.verifyingKey e.signedBytes e.signature = true ∧
        chain.ChainHolds e ∧ e.OpensTo root recipient nowMs o.config.asConfig ∧
        o.head = e.head := by
  unfold openConfig openByRoot NetworkRootPublic.verifyBytes
  simp only [bind_eq_ok, failIf_eq_ok, mapError_eq_ok, verifySignature_eq_ok, not_or,
    Decidable.not_not, exists_and_left, exists_const, openAfterVerifiedSignature_eq_ok,
    decodeAndValidateOpened_eq_ok]
  constructor
  · rintro ⟨opened, ⟨hnets, hsigner, hsig, hnet, hchain, hcontent, hhead⟩, hdec, ⟨hn, hep, hrev,
      hprev⟩, hvalid, hhead'⟩
    exact ⟨hnets, hsigner, hsig, hchain, ⟨⟨_, hcontent, hdec⟩, hn, hep, hrev, hprev, hvalid⟩,
      hhead'.trans hhead⟩
  · rintro ⟨hnets, hsigner, hsig, hchain, hopens, hhead⟩
    obtain ⟨plaintext, hcontent, hdec⟩ := hopens.content
    exact ⟨⟨plaintext, e.head⟩, ⟨hnets, hsigner, hsig, hnets.1, hchain, hcontent, rfl⟩, hdec,
      ⟨hopens.network, hopens.epoch, hopens.revision, hopens.previous⟩, hopens.valid, hhead⟩

theorem openConfigWithVerifiedAdmin_eq_ok {admin : VerifiedAdmin} :
    e.openConfigWithVerifiedAdmin root admin recipient chain nowMs = .ok o ↔
      (root.networkId = e.networkId ∧ admin.payload.networkId = e.networkId) ∧
        e.signerKeyId = admin.payload.keyId ∧
        admin.payload.permissions &&& adminPermissionConfigWrite ≠ 0 ∧
        Crypto.verify admin.payload.publicKey e.signedBytes e.signature = true ∧
        chain.ChainHolds e ∧ e.OpensTo root recipient nowMs o.config.asConfig ∧
        o.head = e.head := by
  unfold openConfigWithVerifiedAdmin VerifiedAdmin.verifyBytes
  simp only [bind_eq_ok, failIf_eq_ok, mapError_eq_ok, verifySignature_eq_ok, not_or,
    Decidable.not_not, exists_and_left, exists_const, openAfterVerifiedSignature_eq_ok,
    decodeAndValidateOpened_eq_ok]
  constructor
  · rintro ⟨hnets, hsigner, hperm, hsig, opened, ⟨-, hchain, hcontent, hhead⟩, hdec, ⟨hn, hep,
      hrev, hprev⟩, hvalid, hhead'⟩
    exact ⟨hnets, hsigner, hperm, hsig, hchain,
      ⟨⟨_, hcontent, hdec⟩, hn, hep, hrev, hprev, hvalid⟩, hhead'.trans hhead⟩
  · rintro ⟨hnets, hsigner, hperm, hsig, hchain, hopens, hhead⟩
    obtain ⟨plaintext, hcontent, hdec⟩ := hopens.content
    exact ⟨hnets, hsigner, hperm, hsig, ⟨plaintext, e.head⟩, ⟨trivial, hchain, hcontent, rfl⟩, hdec,
      ⟨hopens.network, hopens.epoch, hopens.revision, hopens.previous⟩, hopens.valid, hhead⟩

/-- The envelope is signed by an administrator of the configuration that may write configurations
and verifies at the time. -/
def SignedIn (e : EncryptedConfigEnvelope) (current : ValidatedNetworkConfig)
    (root : NetworkRootPublic) (nowMs : UInt64) : Prop :=
  ∃ a, current.SignerVerifies root e.signerKeyId nowMs a ∧
    a.payload.permissions &&& adminPermissionConfigWrite ≠ 0 ∧
    Crypto.verify a.payload.publicKey e.signedBytes e.signature = true

theorem openNextConfig_eq_ok {current : ValidatedNetworkConfig} {head : ConfigHead} :
    e.openNextConfig root current recipient head nowMs = .ok o ↔
      (root.networkId = e.networkId ∧ current.asConfig.networkId = e.networkId) ∧
        e.SignedIn current root nowMs ∧ (ChainExpectation.next head).ChainHolds e ∧
        e.OpensTo root recipient nowMs o.config.asConfig ∧ o.head = e.head := by
  unfold openNextConfig SignedIn
  simp only [bind_eq_ok, failIf_eq_ok, mapError_eq_ok, not_or, Decidable.not_not, exists_and_left,
    exists_const, ValidatedNetworkConfig.verifiedAdmin_eq_ok, openConfigWithVerifiedAdmin_eq_ok]
  refine and_congr_right fun hnets => ?_
  constructor
  · rintro ⟨admin, ⟨a, hsigner, hp⟩, -, -, hperm, hsig, hchain, hopens, hhead⟩
    rw [hp] at hperm hsig
    exact ⟨⟨a, hsigner, hperm, hsig⟩, hchain, hopens, hhead⟩
  · rintro ⟨⟨a, hsigner, hperm, hsig⟩, hchain, hopens, hhead⟩
    -- the certificate is of the configuration's network, which is the envelope's
    have hnet : a.payload.networkId = e.networkId := hsigner.2.2.network.trans hnets.2
    exact ⟨⟨a.payload, hsigner.2.2.valid_key⟩, ⟨a, hsigner, rfl⟩, ⟨hnets.1, hnet⟩,
      hsigner.2.1.symm, hperm, hsig, hchain, hopens, hhead⟩

end EncryptedConfigEnvelope

end Weaver
