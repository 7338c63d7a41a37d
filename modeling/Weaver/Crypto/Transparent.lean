import Weaver.Crypto.Primitives

/-!
# A transparent instance of the primitives

An instance of `Crypto` in which nothing is hidden: a public key is its secret key, a hash is a
residue, a signature is recomputed by whoever checks it, and a ciphertext is its message after a tag.
It keeps every promise of the class, and its HPKE is ideal in the sense of `HpkeIdeal`: a wrap names
its recipient, and opens for that one only. Hypotheses about primitives are discharged here, at
concrete inputs.
-/

namespace Weaver

namespace Transparent

open Checked Wire

def modulus : ℕ := 2^256 - 189

def residue (b : Bytes) : Bytes32 := ⟨toBe 32 (ofBe (1 :: b) % modulus), toBe_length _ _⟩

def tag : Bytes := List.replicate 16 0

def untag (b : Bytes) : Bytes := b.drop 16

theorem untag_append (m : Bytes) : untag (tag ++ m) = m := rfl

theorem length_tagged (m : Bytes) : (tag ++ m).length = m.length + 16 := rfl

def signature (key : Bytes32) (m : Bytes) : Signature :=
  ⟨key.val ++ (residue (key.val ++ m)).val, by
    rw [List.length_append, key.property, (residue _).property]⟩

/-- The transparent primitives. -/
scoped instance transparent : Crypto where
  hash := residue
  deriveKey context material := residue (utf8 context ++ material)
  verifyingKey s := s
  validKey _ := true
  sign := signature
  verify key m s := s == signature key m
  validKemSecret _ := true
  validKemPublic _ := true
  kemPublic s := s
  hpkeSeal key _ _ _ m := some (key.val, tag ++ m)
  hpkeOpen s enc _ _ c := if s.val = enc then some (untag c) else none
  aeadEncrypt _ _ _ m := some (tag ++ m)
  aeadDecrypt _ _ _ c := some (untag c)
  endpointPublic s := s
  validEndpoint _ := true
  relayUrl url := (utf8 url).take 8 == utf8 "https://"
  validKey_verifyingKey _ := rfl
  validEndpoint_endpointPublic _ := rfl
  verify_sign _ _ := beq_self_eq_true _
  hpke_open_seal s e info aad m enc c h := by
    obtain ⟨rfl, rfl⟩ := Prod.mk.inj (Option.some.inj h)
    rw [if_pos rfl, untag_append]
  hpke_length pk e info aad m enc c h := by
    obtain ⟨rfl, rfl⟩ := Prod.mk.inj (Option.some.inj h)
    exact ⟨pk.property, length_tagged m⟩
  aead_decrypt_encrypt k n aad m c h := by
    obtain rfl := Option.some.inj h
    rw [untag_append]
  aead_length k n aad m c h := by
    obtain rfl := Option.some.inj h
    exact length_tagged m

def fill (b : UInt8) : Bytes32 := ⟨List.replicate 32 b, List.length_replicate⟩

theorem hpkeIdeal : HpkeIdeal := by
  intro s pk e info aad m enc c hseal hne
  obtain ⟨rfl, rfl⟩ := Prod.mk.inj (Option.some.inj hseal)
  exact if_neg fun heq => hne (Subtype.ext heq)

end Transparent

end Weaver
