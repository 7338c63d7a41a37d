import Weaver.Config.SealOpen

/-!
# When sealing succeeds

The other results about sealing start from an envelope that was made. Here is when one is made:
`exists_sealNextConfig` lists what `seal_next_config` needs, besides primitives that do not fail
(`SealsAlways`) and a system that gives randomness (`Complete`). A configuration that meets it still
does when only its revision and its previous hash change (`reissued`).
-/

namespace Weaver

open Checked Wire Collect Snapshot

variable [Crypto]

structure SealsAlways : Prop where
  hpke : ∀ pk e info aad m, Crypto.validKemPublic pk = true →
    ∃ sealed, Crypto.hpkeSeal pk e info aad m = some sealed
  aead : ∀ k n aad m, ∃ c, Crypto.aeadEncrypt k n aad m = some c

omit [Crypto] in
structure SealRandomness.Complete (random : SealRandomness) : Prop where
  content_key : ∃ key, random.contentKey = some key
  nonce : ∃ nonce, random.nonce = some nonce
  draw : ∀ i, ∃ x, random.draw i = some x

omit [Crypto] in
theorem exists_shuffleFrom {α : Type} {draw : ℕ → Option UInt64}
    (hdraw : ∀ i, ∃ x, draw i = some x) (i : ℕ) (items : Array α) :
    ∃ out, shuffleFrom draw i items = .ok out := by
  induction i generalizing items with
  | zero => exact ⟨items, rfl⟩
  | succ i ih =>
    obtain ⟨x, hx⟩ := hdraw (i + 1)
    unfold shuffleFrom
    rw [hx, okOr_some, ok_bind]
    exact ih _

omit [Crypto] in
theorem KeyWrap.exists_encode {wrap : KeyWrap} (henc : wrap.encapsulatedKey.length < 2^16)
    (hct : wrap.ciphertext.length < 2^16) : ∃ b, wrap.encode = .ok b := by
  unfold KeyWrap.encode
  rw [failIf_neg (by omega), ok_bind]
  exact ⟨_, rfl⟩

namespace EncryptedConfigEnvelope

theorem exists_sealWithSigner (halways : SealsAlways) {random : SealRandomness}
    (hrandom : random.Complete) {plaintext : Bytes} (hplain : plaintext.length ≤ maxConfigPlaintext)
    {recipients : List Bytes32} (hne : recipients ≠ []) (hcount : recipients.length ≤ maxKeyWraps)
    (hkeys : ∀ key ∈ recipients, Crypto.validKemPublic key = true) (networkId : NetworkId)
    (signerKeyId : KeyId) (sign : Bytes → Signature) (epoch revision : UInt64)
    (previousHash : Bytes32) :
    ∃ e, sealWithSigner networkId signerKeyId sign epoch revision previousHash plaintext recipients
      random = .ok e := by
  obtain ⟨contentKey, hcontentKey⟩ := hrandom.content_key
  obtain ⟨nonce, hnonce⟩ := hrandom.nonce
  obtain ⟨aad, haad⟩ : ∃ aad, envelopeAad networkId epoch revision previousHash (hash plaintext) =
      aad := ⟨_, rfl⟩
  obtain ⟨ciphertext, hct⟩ := halways.aead contentKey nonce aad plaintext
  -- there is one wrap for each recipient
  obtain ⟨wraps, hwraps⟩ : ∃ wraps, recipients.zipIdx.Forall₂ (fun x wrap =>
      wrapContentKey x.1 (random.ephemeral x.2) contentKey aad = .ok wrap) wraps := by
    refine exists_forall₂ ?_
    intro x hx
    have hvalid := hkeys x.1 (List.fst_mem_of_mem_zipIdx hx)
    obtain ⟨sealed, hsealed⟩ := halways.hpke x.1 (random.ephemeral x.2) hpkeInfo aad contentKey.val
      hvalid
    unfold wrapContentKey
    rw [failIf_neg (by simp [hvalid]), ok_bind, hsealed]
    exact ⟨_, rfl⟩
  obtain ⟨shuffled, hshuffled⟩ : ∃ shuffled, shuffle random.draw wraps = .ok shuffled := by
    obtain ⟨out, hout⟩ := exists_shuffleFrom hrandom.draw (wraps.length - 1) wraps.toArray
    exact ⟨out.toList, by rw [shuffle, hout]; rfl⟩
  have hperm := shuffle_perm hshuffled
  have hlength : shuffled.length ≤ maxKeyWraps := by
    rw [hperm.length_eq, ← hwraps.length_eq, List.length_zipIdx]
    exact hcount
  -- their parts are short, so that the signed bytes are encoded
  obtain ⟨encoded, hencoded⟩ : ∃ encoded, shuffled.mapM KeyWrap.encode = .ok encoded := by
    simp only [mapM_eq_ok]
    refine exists_forall₂ ?_
    intro wrap hwrap
    obtain ⟨x, -, hx⟩ := exists_of_mem_right hwraps (hperm.mem_iff.mp hwrap)
    obtain ⟨henc, hwct⟩ := Crypto.hpke_length _ _ _ _ _ _ _ (wrapContentKey_eq_ok hx)
    rw [contentKey.property] at hwct
    exact KeyWrap.exists_encode (by omega) (by omega)
  have hctlength := Crypto.aead_length _ _ _ _ _ hct
  have hfits : ¬ (2^32 ≤ ciphertext.length ∨ 2^16 ≤ shuffled.length) := by
    unfold maxConfigPlaintext at hplain
    unfold maxKeyWraps at hlength
    omega
  unfold sealWithSigner
  rw [failIf_neg (not_lt.mpr hplain), ok_bind, failIf_neg (not_or.mpr ⟨hne, not_lt.mpr hcount⟩),
    ok_bind, hcontentKey, okOr_some, ok_bind, hnonce, okOr_some, ok_bind]
  simp only [haad]
  rw [hct, okOr_some, ok_bind]
  change ∃ e, (recipients.zipIdx.mapM (fun x =>
    wrapContentKey x.1 (random.ephemeral x.2) contentKey aad) >>= _) = .ok e
  rw [mapM_eq_ok.mpr hwraps, ok_bind, hshuffled, ok_bind, encodeSignedBytes, failIf_neg hfits,
    ok_bind, hencoded, ok_bind]
  exact ⟨_, rfl⟩

omit [Crypto] in
theorem length_encoded_wraps {wraps : List KeyWrap} {encoded : List Bytes}
    (h : wraps.mapM KeyWrap.encode = .ok encoded)
    (hparts : ∀ wrap ∈ wraps, wrap.encapsulatedKey.length ≤ maxWrapPart ∧
      wrap.ciphertext.length ≤ maxWrapPart) :
    encoded.flatten.length ≤ wraps.length * (4 + 2 * maxWrapPart) := by
  rw [mapM_eq_ok] at h
  induction h with
  | nil => simp
  | @cons wrap b wraps bs hwrap _ ih =>
    have hrest := ih fun x hx => hparts x (List.mem_cons_of_mem wrap hx)
    obtain ⟨henc, hct⟩ := hparts wrap List.mem_cons_self
    unfold KeyWrap.encode at hwrap
    simp only [bind_eq_ok, failIf_eq_ok, exists_and_left, exists_const, pure_eq_ok_iff] at hwrap
    obtain ⟨-, rfl⟩ := hwrap
    rw [List.flatten_cons, List.length_append, List.length_cons, Nat.succ_mul]
    simp only [List.length_append, be16_length]
    omega

omit [Crypto] in
theorem Bounded.length_le {e : EncryptedConfigEnvelope} (h : e.Bounded)
    (hencoded : e.encodeSignedBytes = .ok e.signedBytes) :
    e.toBytes.length ≤ 2 * 1024 * 1024 := by
  unfold encodeSignedBytes at hencoded
  simp only [bind_eq_ok, failIf_eq_ok, exists_and_left, exists_const, pure_eq_ok_iff] at hencoded
  obtain ⟨-, encoded, hwraps, hsigned⟩ := hencoded
  have hflat := length_encoded_wraps hwraps fun wrap hwrap =>
    ⟨(h.wrap_parts wrap hwrap).1.2, (h.wrap_parts wrap hwrap).2.2⟩
  have hmagic : envelopeMagic.length = 8 := by decide
  have hcount := h.wraps.2
  have hct := h.ciphertext
  have hbound : e.memberKeyWraps.length * (4 + 2 * maxWrapPart) ≤ 256 * (4 + 2 * maxWrapPart) :=
    Nat.mul_le_mul_right _ hcount
  rw [toBytes, ← hsigned]
  simp only [List.flatten_cons, List.flatten_nil, List.length_append, List.length_nil, be16_length,
    be32_length, be64_length, hmagic, e.networkId.asBytes.property, e.previousHash.property,
    e.payloadHash.property, e.nonce.property, e.signerKeyId.property, e.signature.property]
  unfold maxCiphertext maxConfigPlaintext at hct
  unfold maxWrapPart at hflat hbound
  omega

end EncryptedConfigEnvelope

/-! ## Reissuing a configuration -/

omit [Crypto] in
def NetworkConfigV1.reissued (c : NetworkConfigV1) (revision : UInt64) (previousHash : Bytes32) :
    NetworkConfigV1 :=
  { c with revision, previousHash }

section Reissued

variable {c : NetworkConfigV1} {revision : UInt64} {previousHash : Bytes32}

omit [Crypto] in
theorem NetworkConfigV1.toBytes_reissued {b : Bytes} (h : c.toBytes = .ok b) (revision : UInt64)
    (previousHash : Bytes32) :
    ∃ b', (c.reissued revision previousHash).toBytes = .ok b' ∧ b'.length = b.length := by
  unfold NetworkConfigV1.toBytes at h
  simp only [bind_eq_ok, pure_eq_ok_iff] at h
  obtain ⟨u, hshape, b₁, h₁, b₂, h₂, b₃, h₃, b₄, h₄, b₅, h₅, b₆, h₆, b₇, h₇, b₈, h₈, b₉, h₉, rfl⟩ :=
    h
  have hshape' : (c.reissued revision previousHash).validateShape = .ok u := hshape
  have hheader : (c.reissued revision previousHash).encodeHeader.length =
      c.encodeHeader.length := by
    unfold NetworkConfigV1.encodeHeader
    simp only [List.length_append, be64_length, (c.reissued _ _).previousHash.property,
      c.previousHash.property]
    rfl
  refine ⟨[(c.reissued revision previousHash).encodeHeader, b₁, b₂, b₃, b₄, b₅, b₆, b₇, b₈, b₉,
    c.encodeTrailer].flatten, ?_, ?_⟩
  · unfold NetworkConfigV1.toBytes
    rw [hshape', ok_bind]
    -- the lists are those of the configuration
    simp only [NetworkConfigV1.reissued, h₁, h₂, h₃, h₄, h₅, h₆, h₇, h₈, h₉, ok_bind]
    rfl
  · simp only [List.flatten_cons, List.length_append, hheader]

/-- What sealing needs of a configuration of the root's network, for its recipients. Its revision
and its previous hash do not matter. -/
structure NetworkConfigV1.Sealable (c : NetworkConfigV1) (root : NetworkRootPublic)
    (recipients : List Bytes32) : Prop where
  valid : c.check root root.networkId c.issuedAtMs = .ok ()
  members : validateRecipientSet c recipients = .ok ()
  count : recipients ≠ [] ∧ recipients.length ≤ maxKeyWraps
  keys : ∀ key ∈ recipients, Crypto.validKemPublic key = true
  bytes : ∃ b, c.toBytes = .ok b ∧ b.length ≤ maxConfigPlaintext

theorem NetworkConfigV1.Sealable.reissued {root : NetworkRootPublic} {recipients : List Bytes32}
    (h : c.Sealable root recipients) (revision : UInt64) (previousHash : Bytes32) :
    (c.reissued revision previousHash).Sealable root recipients := by
  obtain ⟨b, hb, hlen⟩ := h.bytes
  obtain ⟨b', hb', hlen'⟩ := NetworkConfigV1.toBytes_reissued hb revision previousHash
  exact ⟨h.valid, h.members, h.count, h.keys, b', hb', hlen'.le.trans hlen⟩

end Reissued

variable {recipients : List Bytes32} {random : SealRandomness} {e : EncryptedConfigEnvelope}

theorem EncryptedConfigEnvelope.sealWithSigner_limits {networkId : NetworkId} {signerKeyId : KeyId}
    {sign : Bytes → Signature} {epoch revision : UInt64} {previousHash : Bytes32}
    {plaintext : Bytes}
    (h : sealWithSigner networkId signerKeyId sign epoch revision previousHash plaintext recipients
      random = .ok e) :
    plaintext.length ≤ maxConfigPlaintext ∧
      (recipients ≠ [] ∧ recipients.length ≤ maxKeyWraps) ∧
      ∀ key ∈ recipients, Crypto.validKemPublic key = true := by
  unfold sealWithSigner at h
  simp only [bind_eq_ok, failIf_eq_ok, okOr_eq_ok, exists_and_left, exists_const, not_lt,
    not_or] at h
  obtain ⟨hplain, hcount, contentKey, -, nonce, -, ciphertext, -, wraps, hwraps, -⟩ := h
  refine ⟨hplain, hcount, ?_⟩
  intro key hkey
  rw [mapM_eq_ok] at hwraps
  -- every recipient has a wrap, which was made for a valid key
  obtain ⟨i, hi⟩ := List.mem_iff_getElem?.mp hkey
  obtain ⟨wrap, -, hwrap⟩ := exists_of_mem_left hwraps (List.mk_mem_zipIdx_iff_getElem?.mpr hi)
  unfold wrapContentKey at hwrap
  simp only [bind_eq_ok, failIf_eq_ok, exists_and_left, exists_const, Bool.not_eq_false] at hwrap
  exact hwrap.1

theorem EncryptedConfigEnvelope.sealConfig_sealable {root : NetworkRootKey} {c : NetworkConfigV1}
    (h : sealConfig root c recipients random = .ok e) : c.Sealable root.public recipients := by
  unfold sealConfig sealByRoot at h
  simp only [bind_eq_ok, mapError_eq_ok, NetworkConfigV1.validate_eq_ok] at h
  obtain ⟨v, ⟨hvalid, -⟩, _, hrecipients, plaintext, hplain, hseal⟩ := h
  obtain ⟨hlen, hcount, hkeys⟩ := sealWithSigner_limits hseal
  exact ⟨hvalid, hrecipients, hcount, hkeys, plaintext, hplain, hlen⟩

variable {root : NetworkRootPublic} {admin : OnlineAdminKey} {current : ValidatedNetworkConfig}
  {head : ConfigHead} {next : NetworkConfigV1}

theorem EncryptedConfigEnvelope.sealNextConfig_sealable {nowMs : UInt64}
    (h : sealNextConfig root admin current head next recipients nowMs random = .ok e) :
    next.Sealable root recipients := by
  unfold sealNextConfig at h
  simp only [bind_eq_ok, mapError_eq_ok, NetworkConfigV1.validate_eq_ok] at h
  obtain ⟨_, -, _, -, _, -, _, -, _, -, _, -, _, -, v, ⟨hvalid, -⟩, _, hrecipients, plaintext, hplain,
    hseal⟩ := h
  obtain ⟨hlen, hcount, hkeys⟩ := sealWithSigner_limits hseal
  exact ⟨hvalid, hrecipients, hcount, hkeys, plaintext, hplain, hlen⟩

theorem EncryptedConfigEnvelope.exists_sealNextConfig (halways : SealsAlways)
    (hrandom : random.Complete) {nowMs : UInt64}
    (hcurrent : current.asConfig.networkId = root.networkId ∧
      current.asConfig.revision = head.revision ∧ current.asConfig.epoch = head.epoch)
    (hadmin : ∃ a, current.SignerVerifies root admin.keyId nowMs a ∧
      a.payload.publicKey = admin.publicBytes ∧
      a.payload.permissions &&& adminPermissionConfigWrite ≠ 0)
    (hnetwork : next.networkId = root.networkId)
    (hrevision : next.revision.toNat = head.revision.toNat + 1)
    (hprevious : next.previousHash = head.hash) (hepoch : head.epoch ≤ next.epoch)
    (h : next.Sealable root recipients) :
    ∃ e, sealNextConfig root admin current head next recipients nowMs random = .ok e := by
  obtain ⟨hnet, hrev, hep⟩ := hcurrent
  obtain ⟨a, hverifies, hkey, hpermission⟩ := hadmin
  obtain ⟨plaintext, hplain, hlen⟩ := h.bytes
  obtain ⟨verified, hverified, hpayload⟩ : ∃ verified : VerifiedAdmin,
      current.verifiedAdmin root admin.keyId nowMs = .ok verified ∧
        verified.payload = a.payload := by
    have hvalid : validKey a.payload.publicKey = true := by
      rw [hkey]
      exact Crypto.validKey_verifyingKey _
    exact ⟨⟨a.payload, hvalid⟩, ValidatedNetworkConfig.verifiedAdmin_eq_ok.mpr ⟨a, hverifies, rfl⟩,
      rfl⟩
  have hone : (1 : UInt64).toNat = 1 := rfl
  have hnext : checkedAdd head.revision 1 = some next.revision := by
    rw [checkedAdd_eq_some, hone, hrevision]
  obtain ⟨v, hvalidate⟩ : ∃ v, next.validate root root.networkId next.issuedAtMs = .ok v :=
    ⟨⟨next, root, root.networkId, next.issuedAtMs, h.valid⟩,
      NetworkConfigV1.validate_eq_ok.mpr ⟨h.valid, rfl⟩⟩
  obtain ⟨e, he⟩ := exists_sealWithSigner halways hrandom hlen h.count.1 h.count.2 h.keys
    root.networkId admin.keyId admin.sign next.epoch next.revision next.previousHash
  refine ⟨e, ?_⟩
  unfold sealNextConfig
  rw [failIf_neg (by simp [hnet, hrev, hep]), ok_bind, hverified, mapError_ok, ok_bind,
    failIf_neg (by simp [hpayload, hkey]), ok_bind, failIf_neg (by rw [hpayload]; exact hpermission),
    ok_bind, failIf_neg (by simp [hnetwork]), ok_bind, hnext, okOr_some, ok_bind,
    failIf_neg (by simp [hprevious, not_lt.mpr hepoch]), ok_bind, hvalidate, mapError_ok, ok_bind,
    h.members, ok_bind, hplain, mapError_ok, ok_bind]
  exact he

end Weaver

namespace Weaver.Transparent

theorem sealsAlways : SealsAlways :=
  ⟨fun _ _ _ _ _ _ => ⟨_, rfl⟩, fun _ _ _ _ => ⟨_, rfl⟩⟩

end Weaver.Transparent
