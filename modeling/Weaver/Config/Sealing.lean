import Weaver.Config.Envelope

/-!
# What sealing produces

`Sealed` states what an envelope from `seal_with_signer` is: its signed bytes encode its fields, one
content key decrypts its payload, and its wraps are that key sealed to each recipient, in some
order. It does not depend on the random draws, so everything proved from it holds for any content
key, nonce and shuffle. A sealed envelope is read back from its bytes, and its content key is found
with exactly the recipients' keys.
-/

namespace Weaver

open Checked Wire Wire.Decoder

/-! ## The shuffle -/

variable {draw : ℕ → Option UInt64}

theorem shuffleFrom_perm {α : Type} {i : ℕ} {items out : Array α}
    (h : shuffleFrom draw i items = .ok out) : out.Perm items := by
  induction i generalizing items with
  | zero =>
    unfold shuffleFrom at h
    rw [Except.ok.inj h]
  | succ i ih =>
    unfold shuffleFrom at h
    obtain ⟨random, -, h⟩ := bind_eq_ok.mp h
    have hswap : (items.swapIfInBounds (i + 1) (random.toNat % (i + 1 + 1))).Perm items := by
      unfold Array.swapIfInBounds
      split
      · split
        · exact Array.swap_perm _ _
        · exact Array.Perm.refl _
      · exact Array.Perm.refl _
    exact (ih h).trans hswap

theorem shuffle_perm {α : Type} {items out : List α} (h : shuffle draw items = .ok out) :
    out.Perm items := by
  unfold shuffle at h
  obtain ⟨a, ha, rfl⟩ := map_eq_ok.mp h
  have hperm := shuffleFrom_perm ha
  rw [Array.perm_iff_toList_perm] at hperm
  exact hperm

/-! ## The wire format -/

theorem keyWrapItem_run {wrap : KeyWrap} {b : Bytes} (h : wrap.encode = .ok b)
    (henc : 0 < wrap.encapsulatedKey.length ∧ wrap.encapsulatedKey.length ≤ maxWrapPart)
    (hct : 0 < wrap.ciphertext.length ∧ wrap.ciphertext.length ≤ maxWrapPart) (rest : Bytes) :
    keyWrapItem.run (b ++ rest) = .ok (wrap, rest) := by
  unfold KeyWrap.encode at h
  simp only [bind_eq_ok, failIf_eq_ok, not_or, not_le, exists_and_left, exists_const,
    pure_eq_ok_iff] at h
  obtain ⟨⟨henc16, hct16⟩, rfl⟩ := h
  have hencNat : (UInt16.ofNat wrap.encapsulatedKey.length).toNat = wrap.encapsulatedKey.length :=
    UInt16.toNat_ofNat_of_lt' henc16
  have hctNat : (UInt16.ofNat wrap.ciphertext.length).toNat = wrap.ciphertext.length :=
    UInt16.toNat_ofNat_of_lt' hct16
  have hcheckEnc : failIf (wrap.encapsulatedKey.length = 0 ∨
      maxWrapPart < wrap.encapsulatedKey.length) ConfigError.malformedWire = .ok () := by
    rw [failIf_eq_ok]
    omega
  have hcheckCt : failIf (wrap.ciphertext.length = 0 ∨ maxWrapPart < wrap.ciphertext.length)
      ConfigError.malformedWire = .ok () := by
    rw [failIf_eq_ok]
    omega
  have htakeEnc : ∀ r, (take ConfigError.malformedWire wrap.encapsulatedKey.length).run
      (wrap.encapsulatedKey ++ r) = .ok (wrap.encapsulatedKey, r) := fun r => take_run rfl
  have htakeCt : (take ConfigError.malformedWire wrap.ciphertext.length).run
      (wrap.ciphertext ++ rest) = .ok (wrap.ciphertext, rest) := take_run rfl
  unfold keyWrapItem
  simp only [List.append_assoc]
  rw [bind_run, u16_run, ok_bind, bind_run, hencNat, lift_run_ok hcheckEnc, ok_bind, bind_run,
    htakeEnc, ok_bind, bind_run, u16_run, ok_bind, bind_run, hctNat, lift_run_ok hcheckCt, ok_bind,
    bind_run, htakeCt, ok_bind, pure_run]

namespace EncryptedConfigEnvelope

structure Bounded (e : EncryptedConfigEnvelope) : Prop where
  version : e.formatVersion = Weaver.formatVersion
  ciphertext : e.ciphertext.length ≤ maxCiphertext
  wraps : 0 < e.memberKeyWraps.length ∧ e.memberKeyWraps.length ≤ maxKeyWraps
  wrap_parts : ∀ wrap ∈ e.memberKeyWraps,
    (0 < wrap.encapsulatedKey.length ∧ wrap.encapsulatedKey.length ≤ maxWrapPart) ∧
    0 < wrap.ciphertext.length ∧ wrap.ciphertext.length ≤ maxWrapPart

theorem many_keyWraps_run {wraps : List KeyWrap} {bs : List Bytes}
    (h : wraps.mapM KeyWrap.encode = .ok bs)
    (hparts : ∀ wrap ∈ wraps,
      (0 < wrap.encapsulatedKey.length ∧ wrap.encapsulatedKey.length ≤ maxWrapPart) ∧
      0 < wrap.ciphertext.length ∧ wrap.ciphertext.length ≤ maxWrapPart) (rest : Bytes) :
    (many wraps.length keyWrapItem).run (bs.flatten ++ rest) = .ok (wraps, rest) := by
  rw [mapM_eq_ok] at h
  induction h with
  | nil => simp [many]
  | @cons wrap b wraps bs hwrap _ ih =>
    obtain ⟨henc, hct⟩ := hparts wrap List.mem_cons_self
    have hfirst := keyWrapItem_run hwrap henc hct (bs.flatten ++ rest)
    have hrest := ih fun w hw => hparts w (List.mem_cons_of_mem wrap hw)
    rw [List.length_cons, List.flatten_cons, List.append_assoc, many, bind_run, hfirst, ok_bind,
      bind_run, hrest, ok_bind, pure_run]

variable {e : EncryptedConfigEnvelope}

theorem fromBytes_toBytes (hb : e.Bounded) (h : e.encodeSignedBytes = .ok e.signedBytes) :
    fromBytes e.toBytes = .ok e := by
  have hlen : e.toBytes.length = e.signedBytes.length + signatureLen := by
    rw [toBytes, List.length_append, e.signature.property, signatureLen]
  have hsub : e.toBytes.length - signatureLen = e.signedBytes.length := by omega
  have htake : e.toBytes.take (e.toBytes.length - signatureLen) = e.signedBytes := by
    rw [hsub, toBytes, List.take_left]
  have hdrop : e.toBytes.drop (e.toBytes.length - signatureLen) = e.signature.val := by
    rw [hsub, toBytes, List.drop_left]
  -- the fields are read back from the signed bytes, whatever is filed beside them
  have hfields : ∀ bytes, bytes = e.signedBytes →
      (envelopeFields e.signedBytes e.signature).run bytes = .ok (e, []) := by
    intro bytes hbytes
    unfold encodeSignedBytes at h
    simp only [bind_eq_ok, failIf_eq_ok, not_or, not_le, exists_and_left, exists_const,
      pure_eq_ok_iff] at h
    obtain ⟨⟨hct32, hwraps16⟩, bs, hbs, hsigned⟩ := h
    have hctNat : (UInt32.ofNat e.ciphertext.length).toNat = e.ciphertext.length :=
      UInt32.toNat_ofNat_of_lt' hct32
    have hwrapsNat : (UInt16.ofNat e.memberKeyWraps.length).toNat = e.memberKeyWraps.length :=
      UInt16.toNat_ofNat_of_lt' hwraps16
    have hversion : failIf (e.formatVersion ≠ Weaver.formatVersion)
        (ConfigError.unsupportedVersion e.formatVersion) = .ok () := by
      rw [failIf_eq_ok, Decidable.not_not]
      exact hb.version
    have hcheckCt : failIf (maxCiphertext < e.ciphertext.length) ConfigError.payloadTooLarge =
        .ok () := by
      rw [failIf_eq_ok]
      exact not_lt.mpr hb.ciphertext
    have hcheckWraps : failIf (e.memberKeyWraps.length = 0 ∨ maxKeyWraps < e.memberKeyWraps.length)
        ConfigError.invalidRecipientCount = .ok () := by
      have hwraps := hb.wraps
      rw [failIf_eq_ok]
      omega
    have htakeCt : ∀ r, (take ConfigError.malformedWire e.ciphertext.length).run
        (e.ciphertext ++ r) = .ok (e.ciphertext, r) := fun r => take_run rfl
    have hmany := many_keyWraps_run hbs hb.wrap_parts e.signerKeyId.val
    rw [hbytes.trans hsigned.symm]
    unfold envelopeFields
    simp only [List.flatten_cons, List.flatten_nil, List.append_nil, bind_run, magic_run, ok_bind,
      u16_run, lift_run_ok hversion, array_run, u64_run, u32_run, hctNat, lift_run_ok hcheckCt,
      htakeCt, hwrapsNat, lift_run_ok hcheckWraps, hmany, array_run_end, finish_run, pure_run]
  unfold fromBytes
  rw [dif_pos (by omega)]
  have hsig : (⟨e.toBytes.drop (e.toBytes.length - signatureLen), by
      rw [hdrop, e.signature.property]⟩ : Signature) = e.signature := Subtype.ext hdrop
  simp only [htake, hsig]
  exact decode_eq_ok_of_run (hfields _ rfl)

theorem envelopeFields_returns (signedBytes : Bytes) (signature : Signature) :
    (envelopeFields signedBytes signature).Returns fun e =>
      e.signedBytes = signedBytes ∧ e.signature = signature := by
  unfold envelopeFields
  iterate 17 refine Returns.bind fun _ => ?_
  exact Returns.pure ⟨rfl, rfl⟩

theorem toBytes_of_fromBytes {bytes : Bytes} (h : fromBytes bytes = .ok e) : e.toBytes = bytes := by
  unfold fromBytes at h
  split at h
  · obtain ⟨hsigned, hsignature⟩ := (envelopeFields_returns _ _).decode h
    rw [toBytes, hsigned, hsignature]
    exact List.take_append_drop _ _
  · cases h

/-! ## Sealed envelopes -/

section Sealed

variable [Crypto]

def WrapsFor (e : EncryptedConfigEnvelope) (contentKey recipient : Bytes32) (wrap : KeyWrap) :
    Prop :=
  ∃ ephemeral, Crypto.hpkeSeal recipient ephemeral hpkeInfo e.aad contentKey.val =
    some (wrap.encapsulatedKey, wrap.ciphertext)

structure Sealed (e : EncryptedConfigEnvelope) (plaintext : Bytes) (recipients : List Bytes32) :
    Prop where
  bounded : e.Bounded
  encoded : e.encodeSignedBytes = .ok e.signedBytes
  payload_hash : e.payloadHash = hash plaintext
  /-- One content key decrypts it, and its wraps are that key sealed to each recipient. -/
  content : ∃ contentKey,
    Crypto.aeadDecrypt contentKey e.nonce e.aad e.ciphertext = some plaintext ∧
    (∀ wrap ∈ e.memberKeyWraps, ∃ recipient ∈ recipients, e.WrapsFor contentKey recipient wrap) ∧
    (∀ recipient ∈ recipients, ∃ wrap ∈ e.memberKeyWraps, e.WrapsFor contentKey recipient wrap)

variable {recipient contentKey : Bytes32} {wrap : KeyWrap}

theorem wrapContentKey_eq_ok {ephemeral : Bytes32} {aad : Bytes}
    (h : wrapContentKey recipient ephemeral contentKey aad = .ok wrap) :
    Crypto.hpkeSeal recipient ephemeral hpkeInfo aad contentKey.val =
      some (wrap.encapsulatedKey, wrap.ciphertext) := by
  unfold wrapContentKey at h
  simp only [bind_eq_ok, okOr_eq_ok, pure_eq_ok_iff] at h
  obtain ⟨-, -, sealed, hsealed, rfl⟩ := h
  exact hsealed

variable {plaintext : Bytes} {recipients : List Bytes32} {e : EncryptedConfigEnvelope}

theorem sealWithSigner_spec {networkId : NetworkId} {signerKeyId : KeyId} {sign : Bytes → Signature}
    {epoch revision : UInt64} {previousHash : Bytes32} {random : SealRandomness}
    (h : sealWithSigner networkId signerKeyId sign epoch revision previousHash plaintext recipients
      random = .ok e) :
    e.Sealed plaintext recipients ∧ e.networkId = networkId ∧ e.signerKeyId = signerKeyId ∧
      e.epoch = epoch ∧ e.revision = revision ∧ e.previousHash = previousHash ∧
      e.signature = sign e.signedBytes := by
  unfold sealWithSigner at h
  simp only [bind_eq_ok, failIf_eq_ok, okOr_eq_ok, not_or, not_lt, exists_and_left, exists_const,
    pure_eq_ok_iff] at h
  obtain ⟨hplain, ⟨hne, hcount⟩, contentKey, hkey, nonce, hnonce, ciphertext, hct, wraps, hwraps,
    shuffled, hshuffled, signedBytes, hsigned, rfl⟩ := h
  have hperm := shuffle_perm hshuffled
  rw [mapM_eq_ok] at hwraps
  -- one wrap per recipient, so the counts agree, and the shuffle keeps them
  have hlen : shuffled.length = recipients.length := by
    rw [hperm.length_eq, ← hwraps.length_eq, List.length_zipIdx]
  have hlengths := Crypto.aead_length _ _ _ _ _ hct
  have hmade : ∀ wrap ∈ shuffled, ∃ recipient ∈ recipients, ∃ ephemeral,
      Crypto.hpkeSeal recipient ephemeral hpkeInfo
        (envelopeAad networkId epoch revision previousHash (hash plaintext)) contentKey.val =
          some (wrap.encapsulatedKey, wrap.ciphertext) := by
    intro wrap hwrap
    obtain ⟨⟨recipient, i⟩, hmem, hw⟩ :=
      Collect.exists_of_mem_right hwraps (hperm.mem_iff.mp hwrap)
    exact ⟨recipient, List.fst_mem_of_mem_zipIdx hmem, _, wrapContentKey_eq_ok hw⟩
  have hfor : ∀ recipient ∈ recipients, ∃ wrap ∈ shuffled, ∃ ephemeral,
      Crypto.hpkeSeal recipient ephemeral hpkeInfo
        (envelopeAad networkId epoch revision previousHash (hash plaintext)) contentKey.val =
          some (wrap.encapsulatedKey, wrap.ciphertext) := by
    intro recipient hrecipient
    obtain ⟨i, hi⟩ : ∃ i, (recipient, i) ∈ recipients.zipIdx := by
      rw [← List.zipIdx_map_fst 0 recipients, List.mem_map] at hrecipient
      obtain ⟨⟨r, i⟩, hmem, rfl⟩ := hrecipient
      exact ⟨i, hmem⟩
    obtain ⟨wrap, hwrap, hw⟩ := Collect.exists_of_mem_left hwraps hi
    exact ⟨wrap, hperm.mem_iff.mpr hwrap, _, wrapContentKey_eq_ok hw⟩
  refine ⟨⟨⟨rfl, ?_, ?_, ?_⟩, hsigned, rfl, contentKey, ?_, hmade, hfor⟩, rfl, rfl, rfl, rfl, rfl,
    rfl⟩
  · have hct' : ciphertext.length ≤ maxCiphertext := by
      rw [hlengths, maxCiphertext]
      omega
    exact hct'
  · have hpos : 0 < recipients.length := List.length_pos_iff.mpr hne
    exact ⟨by rw [hlen]; exact hpos, by rw [hlen]; exact hcount⟩
  · intro wrap hwrap
    obtain ⟨recipient, -, ephemeral, hw⟩ := hmade wrap hwrap
    obtain ⟨henc, hwct⟩ := Crypto.hpke_length _ _ _ _ _ _ _ hw
    rw [contentKey.property] at hwct
    unfold maxWrapPart
    omega
  · exact Crypto.aead_decrypt_encrypt _ _ _ _ _ hct

/-! ## Finding the content key -/

variable {k : MemberEncryptionKeypair}

theorem unwrapContentKey_of_wrapsFor (h : e.WrapsFor contentKey k.publicBytes wrap) :
    unwrapContentKey k wrap e.aad = some contentKey := by
  obtain ⟨ephemeral, hseal⟩ := h
  rw [k.public_eq] at hseal
  have hopen := Crypto.hpke_open_seal _ _ _ _ _ _ _ hseal
  unfold unwrapContentKey
  rw [hopen]
  simp [contentKey.property]

theorem unwrapContentKey_of_other (hideal : HpkeIdeal) (h : e.WrapsFor contentKey recipient wrap)
    (hne : k.publicBytes ≠ recipient) :
    unwrapContentKey k wrap e.aad = none := by
  obtain ⟨ephemeral, hseal⟩ := h
  rw [k.public_eq] at hne
  have hopen := hideal _ _ _ _ _ _ _ _ hseal hne
  unfold unwrapContentKey
  rw [hopen]
  rfl

theorem Sealed.find_content_key (hideal : HpkeIdeal) (h : e.Sealed plaintext recipients)
    (k : MemberEncryptionKeypair) :
    if k.publicBytes ∈ recipients then
      ∃ contentKey, (e.memberKeyWraps.findSome? fun wrap => unwrapContentKey k wrap e.aad) =
        some contentKey ∧
        Crypto.aeadDecrypt contentKey e.nonce e.aad e.ciphertext = some plaintext
    else (e.memberKeyWraps.findSome? fun wrap => unwrapContentKey k wrap e.aad) = none := by
  obtain ⟨contentKey, hdec, hwraps, hfor⟩ := h.content
  split
  · next hmem =>
    refine ⟨contentKey, Collect.findSome_eq_some ?_ ?_, hdec⟩
    · intro wrap hwrap
      obtain ⟨recipient, -, hw⟩ := hwraps wrap hwrap
      -- a wrap made for this key opens; one made for another key does not
      by_cases heq : k.publicBytes = recipient
      · rw [← heq] at hw
        exact .inr (unwrapContentKey_of_wrapsFor hw)
      · exact .inl (unwrapContentKey_of_other hideal hw heq)
    · obtain ⟨wrap, hwrap, hw⟩ := hfor _ hmem
      exact ⟨wrap, hwrap, unwrapContentKey_of_wrapsFor hw⟩
  · next hmem =>
    rw [List.findSome?_eq_none_iff]
    intro wrap hwrap
    obtain ⟨recipient, hrecipient, hw⟩ := hwraps wrap hwrap
    refine unwrapContentKey_of_other hideal hw ?_
    intro heq
    rw [heq] at hmem
    exact hmem hrecipient

end Sealed

end EncryptedConfigEnvelope

end Weaver
