import Weaver.Config.SealOpen

/-!
# The envelope format is canonical

The signature and the hash of an envelope cover its bytes, and decisions are made on the fields that
were parsed from them. `envelope_codec_canonical`: the parsed fields encode to exactly the bytes that
were signed, so that no two readings of a byte string, and no two byte strings of one reading, exist;
and what sealing makes is within the limits of the reader.
-/

namespace Weaver

open Checked Wire Wire.Decoder

/-! ## What the reader consumes -/

theorem keyWrapItem_consumes : keyWrapItem.Consumes KeyWrap.encode := by
  intro b wrap rest h
  unfold keyWrapItem at h
  simp only [bind_run_eq_ok, u16_run_eq_ok, lift_run_eq_ok, take_run_eq_ok, pure_run_eq_ok,
    failIf_eq_ok] at h
  obtain ⟨encLen, _, rfl, _, _, ⟨-, rfl⟩, encapsulatedKey, _, ⟨henc, rfl⟩, wrappedLen, _, rfl, _, _,
    ⟨-, rfl⟩, ciphertext, _, ⟨hct, rfl⟩, rfl, rfl⟩ := h
  -- the lengths were written in 16 bits, so that they are written in 16 bits again
  have hencLt := encLen.toNat_lt
  have hctLt := wrappedLen.toNat_lt
  have hfits : ¬ (2^16 ≤ encapsulatedKey.length ∨ 2^16 ≤ ciphertext.length) := by omega
  have hencode : KeyWrap.encode ⟨encapsulatedKey, ciphertext⟩ =
      .ok (be16 encLen ++ encapsulatedKey ++ be16 wrappedLen ++ ciphertext) := by
    unfold KeyWrap.encode
    rw [failIf_neg hfits, ok_bind, pure_eq_ok]
    simp only [henc, hct, UInt16.ofNat_toNat]
  refine ⟨_, hencode, ?_⟩
  simp only [List.append_assoc]

namespace EncryptedConfigEnvelope

variable {e : EncryptedConfigEnvelope}

theorem encodeSignedBytes_of_run {signedBytes b rest : Bytes} {signature : Signature}
    (h : (envelopeFields signedBytes signature).run b = .ok (e, rest)) :
    e.encodeSignedBytes = .ok b := by
  unfold envelopeFields at h
  simp only [bind_run_eq_ok, magic_run_eq_ok, u16_run_eq_ok, u32_run_eq_ok, u64_run_eq_ok,
    array_run_eq_ok, lift_run_eq_ok, take_run_eq_ok, finish_run_eq_ok, pure_run_eq_ok,
    failIf_eq_ok] at h
  obtain ⟨_, _, rfl, version, _, rfl, _, _, ⟨-, rfl⟩, network, _, rfl, epoch, _, rfl, revision, _,
    rfl, previous, _, rfl, payload, _, rfl, nonce, _, rfl, ciphertextLen, _, rfl, _, _, ⟨-, rfl⟩,
    ciphertext, _, ⟨hct, rfl⟩, wrapCount, _, rfl, _, _, ⟨-, rfl⟩, wraps, _, hwraps, signer, _, rfl,
    _, _, ⟨rfl, rfl⟩, rfl, rfl⟩ := h
  obtain ⟨hcount, bs, hbs, rfl⟩ := keyWrapItem_consumes.many hwraps
  have hctLt := ciphertextLen.toNat_lt
  have hcountLt := wrapCount.toNat_lt
  have hfits : ¬ (2^32 ≤ ciphertext.length ∨ 2^16 ≤ wraps.length) := by omega
  unfold encodeSignedBytes
  rw [failIf_neg hfits, ok_bind, hbs, ok_bind, pure_eq_ok]
  simp only [hct, hcount, UInt32.ofNat_toNat, UInt16.ofNat_toNat, List.flatten_cons,
    List.flatten_nil, List.append_nil]

theorem encodeSignedBytes_of_fromBytes {bytes : Bytes} (h : fromBytes bytes = .ok e) :
    e.signedBytes = bytes.take (bytes.length - signatureLen) ∧
      e.encodeSignedBytes = .ok e.signedBytes := by
  unfold fromBytes at h
  split at h
  · obtain ⟨hsigned, -⟩ := (envelopeFields_returns _ _).decode h
    obtain ⟨rest, hrun⟩ := decode_eq_ok.mp h
    refine ⟨hsigned, ?_⟩
    rw [hsigned]
    exact encodeSignedBytes_of_run hrun
  · cases h

variable [Crypto]

theorem Sealed.fromBytes_toBytes {plaintext : Bytes} {recipients : List Bytes32}
    (h : e.Sealed plaintext recipients) :
    fromBytes e.toBytes = .ok e :=
  EncryptedConfigEnvelope.fromBytes_toBytes h.bounded h.encoded

end EncryptedConfigEnvelope

variable [Crypto]

/-- What is read from bytes is written back as these bytes, and its fields encode to exactly the
signed part of them; and what `seal`, `seal_config` and `seal_next_config` make is read back from its
bytes. -/
theorem envelope_codec_canonical :
    (∀ (b : Bytes) (e : EncryptedConfigEnvelope), EncryptedConfigEnvelope.fromBytes b = .ok e →
      e.toBytes = b ∧ e.signedBytes = b.take (b.length - signatureLen) ∧
        e.encodeSignedBytes = .ok e.signedBytes) ∧
    (∀ (root : NetworkRootKey) (epoch revision : UInt64) (previousHash : Bytes32)
      (plaintext : Bytes) (recipients : List Bytes32) (random : SealRandomness)
      (e : EncryptedConfigEnvelope),
      EncryptedConfigEnvelope.sealByRoot root epoch revision previousHash plaintext recipients
        random = .ok e → EncryptedConfigEnvelope.fromBytes e.toBytes = .ok e) ∧
    (∀ (root : NetworkRootKey) (config : NetworkConfigV1) (recipients : List Bytes32)
      (random : SealRandomness) (e : EncryptedConfigEnvelope),
      EncryptedConfigEnvelope.sealConfig root config recipients random = .ok e →
        EncryptedConfigEnvelope.fromBytes e.toBytes = .ok e) ∧
    ∀ (root : NetworkRootPublic) (admin : OnlineAdminKey) (current : ValidatedNetworkConfig)
      (head : ConfigHead) (next : NetworkConfigV1) (recipients : List Bytes32) (nowMs : UInt64)
      (random : SealRandomness) (e : EncryptedConfigEnvelope),
      EncryptedConfigEnvelope.sealNextConfig root admin current head next recipients nowMs random =
        .ok e → EncryptedConfigEnvelope.fromBytes e.toBytes = .ok e := by
  refine ⟨?_, ?_, ?_, ?_⟩
  · intro b e h
    exact ⟨EncryptedConfigEnvelope.toBytes_of_fromBytes h,
      EncryptedConfigEnvelope.encodeSignedBytes_of_fromBytes h⟩
  · intro root epoch revision previousHash plaintext recipients random e h
    exact (EncryptedConfigEnvelope.sealWithSigner_spec h).1.fromBytes_toBytes
  · intro root config recipients random e h
    exact (EncryptedConfigEnvelope.sealConfig_spec h).seals.fromBytes_toBytes
  · intro root admin current head next recipients nowMs random e h
    exact (EncryptedConfigEnvelope.sealNextConfig_spec h).seals.fromBytes_toBytes

end Weaver

namespace Weaver.Sample

open Checked Wire Transparent

def sealedMessage : Except ConfigError EncryptedConfigEnvelope :=
  EncryptedConfigEnvelope.sealByRoot root 0 0 (zeroes 32) [1, 2, 3] [key.publicBytes] sealing

theorem sealedMessage_isOk : sealedMessage.toOption.isSome = true := by decide +kernel

/-- The message is read back from its bytes, and its fields encode to what was signed. -/
theorem envelope_codec_canonical_sample : ∃ e, sealedMessage = .ok e ∧
    EncryptedConfigEnvelope.fromBytes e.toBytes = .ok e ∧
    e.encodeSignedBytes = .ok e.signedBytes := by
  obtain ⟨e, he⟩ := Option.isSome_iff_exists.mp sealedMessage_isOk
  have hsealed : sealedMessage = .ok e := toOption_eq_some.mp he
  have hread : EncryptedConfigEnvelope.fromBytes e.toBytes = .ok e :=
    envelope_codec_canonical.2.1 _ _ _ _ _ _ _ e hsealed
  exact ⟨e, hsealed, hread, (envelope_codec_canonical.1 e.toBytes e hread).2.2⟩

end Weaver.Sample
