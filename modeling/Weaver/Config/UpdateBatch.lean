import Weaver.Config.Envelope

/-!
# Batches of configuration updates

`ConfigUpdateBatch` of `weaver-config`: the envelopes that follow a head, in the order of the chain.
A batch is only a container; whoever applies it opens every envelope. `new` checks the shape of the
chain that the envelopes' headers claim, and both directions of the wire format go through it.
-/

namespace Weaver

open Checked Wire Wire.Decoder

def updateBatchMagic : Bytes := utf8 "WVRUPD\x00\x01"

def maxUpdateEnvelopes : ℕ := 1024

def maxUpdateBatchBytes : ℕ := 16 * 1024 * 1024

/-- `ConfigUpdateBatch`; its fields are public, so a batch need not have been built by `new`. -/
structure ConfigUpdateBatch where
  networkId : NetworkId
  baseHead : ConfigHead
  envelopes : List Bytes
deriving DecidableEq

variable [Crypto]

/-- The loop of `ConfigUpdateBatch::new`: the revision and the hash that the next envelope has to
name, and the bytes so far. -/
def checkUpdates (networkId : NetworkId) :
    (expectedRevision : UInt64) → (expectedPrevious : Bytes32) → (total : ℕ) → List Bytes →
      Except ConfigError Unit
  | _, _, _, [] => .ok ()
  | expectedRevision, expectedPrevious, total, raw :: rest => do
    failIf (maxUpdateBatchBytes < total + raw.length) .updateBatchTooLarge
    let envelope ← EncryptedConfigEnvelope.fromBytes raw
    failIf (envelope.networkId ≠ networkId ∨ envelope.revision ≠ expectedRevision ∨
      envelope.previousHash ≠ expectedPrevious) .chainMismatch
    let nextRevision ← okOr (checkedAdd expectedRevision 1) .chainMismatch
    checkUpdates networkId nextRevision envelope.envelopeHash (total + raw.length) rest

def ConfigUpdateBatch.new (networkId : NetworkId) (baseHead : ConfigHead)
    (envelopes : List Bytes) : Except ConfigError ConfigUpdateBatch := do
  failIf (maxUpdateEnvelopes < envelopes.length) .updateBatchTooLarge
  let expectedRevision ← okOr (checkedAdd baseHead.revision 1) .chainMismatch
  checkUpdates networkId expectedRevision baseHead.hash 0 envelopes
  return { networkId, baseHead, envelopes }

omit [Crypto] in
def encodeUpdate (envelope : Bytes) : Except ConfigError Bytes := do
  failIf (2^32 ≤ envelope.length) .updateBatchTooLarge
  return be32 (UInt32.ofNat envelope.length) ++ envelope

def ConfigUpdateBatch.toBytes (b : ConfigUpdateBatch) : Except ConfigError Bytes := do
  let validated ← ConfigUpdateBatch.new b.networkId b.baseHead b.envelopes
  let envelopes ← validated.envelopes.mapM encodeUpdate
  return updateBatchMagic ++ validated.networkId.asBytes.val ++ be64 validated.baseHead.epoch ++
    be64 validated.baseHead.revision ++ validated.baseHead.hash.val ++
    be32 (UInt32.ofNat validated.envelopes.length) ++ envelopes.flatten

omit [Crypto] in
def updateItem : Decoder ConfigError Bytes := do
  let len ← u32 .malformedWire
  lift (failIf (maxUpdateBatchBytes < len.toNat) .updateBatchTooLarge)
  take .malformedWire len.toNat

omit [Crypto] in
def updateFields : Decoder ConfigError ConfigUpdateBatch := do
  magic .malformedWire updateBatchMagic
  let networkId ← array .malformedWire 32
  let epoch ← u64 .malformedWire
  let revision ← u64 .malformedWire
  let hash ← array .malformedWire 32
  let count ← u32 .malformedWire
  lift (failIf (maxUpdateEnvelopes < count.toNat) .updateBatchTooLarge)
  let envelopes ← many count.toNat updateItem
  finish .malformedWire
  return { networkId := ⟨networkId⟩, baseHead := { epoch, revision, hash }, envelopes }

def ConfigUpdateBatch.fromBytes (bytes : Bytes) : Except ConfigError ConfigUpdateBatch := do
  failIf (maxUpdateBatchBytes < bytes.length) .updateBatchTooLarge
  let batch ← updateFields.decode bytes
  ConfigUpdateBatch.new batch.networkId batch.baseHead batch.envelopes

/-! ## What the checks amount to -/

variable {networkId : NetworkId} {baseHead : ConfigHead} {envelopes : List Bytes}
  {b : ConfigUpdateBatch}

theorem ConfigUpdateBatch.new_eq_ok :
    ConfigUpdateBatch.new networkId baseHead envelopes = .ok b ↔
      envelopes.length ≤ maxUpdateEnvelopes ∧
      (∃ first, checkedAdd baseHead.revision 1 = some first ∧
        checkUpdates networkId first baseHead.hash 0 envelopes = .ok ()) ∧
      b = ⟨networkId, baseHead, envelopes⟩ := by
  unfold ConfigUpdateBatch.new
  simp only [bind_eq_ok, failIf_eq_ok, not_lt, okOr_eq_ok, exists_and_left, exists_const,
    pure_eq_ok_iff]
  refine and_congr_right fun _ => ?_
  constructor
  · rintro ⟨first, hfirst, _, hcheck, rfl⟩
    exact ⟨⟨first, hfirst, hcheck⟩, rfl⟩
  · rintro ⟨⟨first, hfirst, hcheck⟩, rfl⟩
    exact ⟨first, hfirst, (), hcheck, rfl⟩

variable {revision : UInt64} {previous : Bytes32} {total : ℕ}

theorem length_le_of_checkUpdates {u : Unit}
    (h : checkUpdates networkId revision previous total envelopes = .ok u) :
    ∀ raw ∈ envelopes, raw.length ≤ maxUpdateBatchBytes := by
  induction envelopes generalizing revision previous total with
  | nil => simp
  | cons raw rest ih =>
    unfold checkUpdates at h
    simp only [bind_eq_ok, failIf_eq_ok, not_lt, exists_and_left, exists_const] at h
    obtain ⟨htotal, envelope, -, -, next, -, hrest⟩ := h
    intro raw' hmem
    rcases List.mem_cons.mp hmem with rfl | hmem'
    · omega
    · exact ih hrest raw' hmem'

/-! ## The wire format -/

variable {bytes : Bytes}

omit [Crypto] in
theorem updateItem_run {raw : Bytes} (hlen : raw.length ≤ maxUpdateBatchBytes)
    (h : encodeUpdate raw = .ok bytes) (rest : Bytes) :
    updateItem.run (bytes ++ rest) = .ok (raw, rest) := by
  unfold encodeUpdate at h
  simp only [bind_eq_ok, failIf_eq_ok, not_le, exists_and_left, exists_const, pure_eq_ok_iff] at h
  obtain ⟨hlt, rfl⟩ := h
  have hnat : (UInt32.ofNat raw.length).toNat = raw.length := UInt32.toNat_ofNat_of_lt' hlt
  have hcheck : failIf (maxUpdateBatchBytes < raw.length) ConfigError.updateBatchTooLarge =
      .ok () := failIf_neg (not_lt.mpr hlen)
  have htake : (take ConfigError.malformedWire raw.length).run (raw ++ rest) = .ok (raw, rest) :=
    take_run rfl
  unfold updateItem
  rw [List.append_assoc, bind_run, u32_run, ok_bind, bind_run, hnat, lift_run_ok hcheck, ok_bind,
    htake]

omit [Crypto] in
theorem many_updateItem_run {encoded : List Bytes}
    (hlen : ∀ raw ∈ envelopes, raw.length ≤ maxUpdateBatchBytes)
    (h : envelopes.mapM encodeUpdate = .ok encoded) :
    (many envelopes.length updateItem).run encoded.flatten = .ok (envelopes, []) := by
  rw [mapM_eq_ok] at h
  induction h with
  | nil => simp [many]
  | @cons raw bytes envelopes encoded hraw _ ih =>
    have hfirst := updateItem_run (hlen raw List.mem_cons_self) hraw encoded.flatten
    have hrest := ih fun r hr => hlen r (List.mem_cons_of_mem raw hr)
    rw [List.length_cons, List.flatten_cons, many, bind_run, hfirst, ok_bind, bind_run, hrest,
      ok_bind, pure_run]

theorem ConfigUpdateBatch.fromBytes_of_toBytes (h : b.toBytes = .ok bytes) :
    ConfigUpdateBatch.fromBytes bytes =
      if bytes.length ≤ maxUpdateBatchBytes then .ok b else .error .updateBatchTooLarge := by
  unfold ConfigUpdateBatch.toBytes at h
  simp only [bind_eq_ok, pure_eq_ok_iff] at h
  obtain ⟨validated, hnew, encoded, hencoded, hbytes⟩ := h
  obtain ⟨hcount, ⟨first, -, hcheck⟩, rfl⟩ := ConfigUpdateBatch.new_eq_ok.mp hnew
  have hlt : b.envelopes.length < 2^32 := by
    unfold maxUpdateEnvelopes at hcount
    omega
  have hnat : (UInt32.ofNat b.envelopes.length).toNat = b.envelopes.length :=
    UInt32.toNat_ofNat_of_lt' hlt
  have hguard : failIf (maxUpdateEnvelopes < b.envelopes.length) ConfigError.updateBatchTooLarge =
      .ok () := failIf_neg (not_lt.mpr hcount)
  have hmany := many_updateItem_run (length_le_of_checkUpdates hcheck) hencoded
  have hfields : updateFields.run bytes = .ok (b, []) := by
    rw [← hbytes]
    unfold updateFields
    simp only [List.append_assoc, bind_run, magic_run, ok_bind, array_run, u64_run, u32_run, hnat,
      lift_run_ok hguard, hmany, finish_run, pure_run]
  unfold ConfigUpdateBatch.fromBytes
  rw [decode_eq_ok_of_run hfields, ok_bind, hnew]
  split
  · next hlen => rw [failIf_neg (not_lt.mpr hlen), ok_bind]
  · next hlen => rw [failIf_pos (not_le.mp hlen), error_bind]

omit [Crypto] in
def ConfigUpdateBatch.encodedLength (b : ConfigUpdateBatch) : ℕ :=
  92 + (b.envelopes.map fun raw => 4 + raw.length).sum

omit [Crypto] in
theorem encodeUpdates_length (hlen : ∀ raw ∈ envelopes, raw.length ≤ maxUpdateBatchBytes) :
    ∃ encoded, envelopes.mapM encodeUpdate = .ok encoded ∧
      encoded.flatten.length = (envelopes.map fun raw => 4 + raw.length).sum := by
  induction envelopes with
  | nil => exact ⟨[], rfl, rfl⟩
  | cons raw rest ih =>
    obtain ⟨encoded, hencoded, hlength⟩ := ih fun r hr => hlen r (List.mem_cons_of_mem raw hr)
    have hraw := hlen raw List.mem_cons_self
    have hlt : ¬ 2^32 ≤ raw.length := by
      unfold maxUpdateBatchBytes at hraw
      omega
    have hfirst : encodeUpdate raw = .ok (be32 (UInt32.ofNat raw.length) ++ raw) := by
      unfold encodeUpdate
      rw [failIf_neg hlt]
      rfl
    refine ⟨(be32 (UInt32.ofNat raw.length) ++ raw) :: encoded, ?_, ?_⟩
    · rw [List.mapM_cons, hfirst, ok_bind, hencoded]
      rfl
    · rw [List.flatten_cons, List.length_append, List.length_append, be32_length, hlength]
      rfl

theorem ConfigUpdateBatch.toBytes_length (h : b.toBytes = .ok bytes) :
    ConfigUpdateBatch.new b.networkId b.baseHead b.envelopes = .ok b ∧
      bytes.length = b.encodedLength := by
  unfold ConfigUpdateBatch.toBytes at h
  simp only [bind_eq_ok, pure_eq_ok_iff] at h
  obtain ⟨validated, hnew, encoded, hencoded, rfl⟩ := h
  obtain ⟨-, ⟨first, -, hcheck⟩, rfl⟩ := ConfigUpdateBatch.new_eq_ok.mp hnew
  obtain ⟨encoded', hencoded', hsum⟩ := encodeUpdates_length (length_le_of_checkUpdates hcheck)
  obtain rfl := Except.ok.inj (hencoded.symm.trans hencoded')
  have hmagic : updateBatchMagic.length = 8 := by decide
  have hnetwork : b.networkId.asBytes.val.length = 32 := b.networkId.asBytes.property
  have hhash : b.baseHead.hash.val.length = 32 := b.baseHead.hash.property
  refine ⟨hnew, ?_⟩
  unfold ConfigUpdateBatch.encodedLength
  simp only [List.length_append, be64_length, be32_length, hmagic, hnetwork, hhash, hsum]

theorem ConfigUpdateBatch.exists_toBytes
    (h : ConfigUpdateBatch.new b.networkId b.baseHead b.envelopes = .ok b) :
    ∃ bytes, b.toBytes = .ok bytes := by
  obtain ⟨-, ⟨first, -, hcheck⟩, -⟩ := ConfigUpdateBatch.new_eq_ok.mp h
  obtain ⟨encoded, hencoded, -⟩ := encodeUpdates_length (length_le_of_checkUpdates hcheck)
  unfold ConfigUpdateBatch.toBytes
  rw [h, ok_bind, hencoded]
  exact ⟨_, rfl⟩

theorem ConfigUpdateBatch.reread_eq_ok {b' : ConfigUpdateBatch} :
    (∃ bytes, b.toBytes = .ok bytes ∧ ConfigUpdateBatch.fromBytes bytes = .ok b') ↔
      b' = b ∧ ConfigUpdateBatch.new b.networkId b.baseHead b.envelopes = .ok b ∧
        b.encodedLength ≤ maxUpdateBatchBytes := by
  constructor
  · rintro ⟨bytes, hbytes, hread⟩
    obtain ⟨hnew, hlen⟩ := ConfigUpdateBatch.toBytes_length hbytes
    rw [ConfigUpdateBatch.fromBytes_of_toBytes hbytes, hlen] at hread
    split at hread
    · next hle => exact ⟨(Except.ok.inj hread).symm, hnew, hle⟩
    · cases hread
  · rintro ⟨rfl, hnew, hle⟩
    obtain ⟨bytes, hbytes⟩ := ConfigUpdateBatch.exists_toBytes hnew
    refine ⟨bytes, hbytes, ?_⟩
    rw [ConfigUpdateBatch.fromBytes_of_toBytes hbytes,
      (ConfigUpdateBatch.toBytes_length hbytes).2, if_pos hle]

/-! ## Consecutive envelopes -/

/-- The envelopes are of the network and come one after the other, the first of them after the
revision with the hash. -/
def Consecutive (networkId : NetworkId) : UInt64 → Bytes32 → List EncryptedConfigEnvelope → Prop
  | _, _, [] => True
  | revision, previous, e :: rest =>
    e.networkId = networkId ∧ e.revision.toNat = revision.toNat + 1 ∧ e.previousHash = previous ∧
      Consecutive networkId e.revision e.envelopeHash rest

omit [Crypto] in
def totalBytes (es : List EncryptedConfigEnvelope) : ℕ :=
  (es.map fun e => e.toBytes.length).sum

variable {es : List EncryptedConfigEnvelope}

omit [Crypto] in
theorem EncryptedConfigEnvelope.eq_of_map_toBytes {es' : List EncryptedConfigEnvelope}
    (hparse : ∀ e ∈ es, EncryptedConfigEnvelope.fromBytes e.toBytes = .ok e)
    (hparse' : ∀ e ∈ es', EncryptedConfigEnvelope.fromBytes e.toBytes = .ok e)
    (h : (es.map fun e => e.toBytes) = es'.map fun e => e.toBytes) : es = es' := by
  have hread : ∀ l : List EncryptedConfigEnvelope,
      (∀ e ∈ l, EncryptedConfigEnvelope.fromBytes e.toBytes = .ok e) →
      (l.map fun e => e.toBytes).map EncryptedConfigEnvelope.fromBytes = l.map .ok := by
    intro l hl
    rw [List.map_map]
    exact List.map_congr_left hl
  have hsame := hread es hparse
  rw [h, hread es' hparse'] at hsame
  exact (List.map_injective_iff.mpr (fun _ _ => Except.ok.inj) hsame).symm

theorem room_of_checkUpdates {u : Unit}
    (h : checkUpdates networkId revision previous total envelopes = .ok u) :
    revision.toNat + envelopes.length < 2^64 := by
  induction envelopes generalizing revision previous total with
  | nil => exact revision.toNat_lt
  | cons raw rest ih =>
    unfold checkUpdates at h
    simp only [bind_eq_ok, failIf_eq_ok, okOr_eq_ok, exists_and_left, exists_const] at h
    obtain ⟨-, envelope, -, -, next, hnext, hrest⟩ := h
    have hlater := ih hrest
    have hvalue : next.toNat = revision.toNat + 1 := checkedAdd_eq_some.mp hnext
    rw [List.length_cons]
    omega

theorem ConfigUpdateBatch.room_of_new
    (h : ConfigUpdateBatch.new networkId baseHead envelopes = .ok b) :
    baseHead.revision.toNat + envelopes.length + 1 < 2^64 := by
  obtain ⟨-, ⟨first, hfirst, hcheck⟩, -⟩ := ConfigUpdateBatch.new_eq_ok.mp h
  have hvalue : first.toNat = baseHead.revision.toNat + 1 := checkedAdd_eq_some.mp hfirst
  have hlater := room_of_checkUpdates hcheck
  omega

theorem checkUpdates_consecutive
    (hparse : ∀ e ∈ es, EncryptedConfigEnvelope.fromBytes e.toBytes = .ok e)
    (hes : Consecutive networkId revision previous es)
    (hroom : revision.toNat + es.length + 1 < 2^64) {expected : UInt64}
    (hexpected : expected.toNat = revision.toNat + 1) (htotal : total ≤ maxUpdateBatchBytes) :
    checkUpdates networkId expected previous total (es.map fun e => e.toBytes) =
      if total + totalBytes es ≤ maxUpdateBatchBytes then .ok () else .error .updateBatchTooLarge := by
  induction es generalizing revision previous expected total with
  | nil =>
    rw [if_pos (show total + totalBytes [] ≤ _ from htotal)]
    rfl
  | cons e rest ih =>
    obtain ⟨hnetwork, hrevision, hprevious, hrest⟩ := hes
    rw [List.length_cons] at hroom
    have hbytes : totalBytes (e :: rest) = e.toBytes.length + totalBytes rest := rfl
    have heq : e.revision = expected := UInt64.toNat_inj.mp (by omega)
    have hone : (1 : UInt64).toNat = 1 := rfl
    obtain ⟨next, hnext, hval⟩ : ∃ next, checkedAdd expected 1 = some next ∧
        next.toNat = e.revision.toNat + 1 := by
      refine ⟨UInt64.ofNat (expected.toNat + 1), ?_, ?_⟩
      · rw [checkedAdd_eq_some, hone]
        exact UInt64.toNat_ofNat_of_lt' (show expected.toNat + 1 < 2^64 by omega)
      · rw [heq]
        exact UInt64.toNat_ofNat_of_lt' (show expected.toNat + 1 < 2^64 by omega)
    rw [List.map_cons, checkUpdates, hbytes, ← Nat.add_assoc]
    by_cases hfits : total + e.toBytes.length ≤ maxUpdateBatchBytes
    · have hshape : ¬ (e.networkId ≠ networkId ∨ e.revision ≠ expected ∨
          e.previousHash ≠ previous) := by
        rw [hnetwork, heq, hprevious]
        simp
      rw [failIf_neg (not_lt.mpr hfits), ok_bind, hparse e List.mem_cons_self, ok_bind,
        failIf_neg hshape, ok_bind, hnext, okOr_some, ok_bind]
      exact ih (fun x hx => hparse x (List.mem_cons_of_mem e hx)) hrest (by omega) hval hfits
    · rw [failIf_pos (not_le.mp hfits), error_bind, if_neg (by omega)]

theorem ConfigUpdateBatch.new_consecutive
    (hparse : ∀ e ∈ es, EncryptedConfigEnvelope.fromBytes e.toBytes = .ok e)
    (hes : Consecutive networkId baseHead.revision baseHead.hash es)
    (hroom : baseHead.revision.toNat + es.length + 1 < 2^64) :
    ConfigUpdateBatch.new networkId baseHead (es.map fun e => e.toBytes) =
      if es.length ≤ maxUpdateEnvelopes ∧ totalBytes es ≤ maxUpdateBatchBytes then
        .ok ⟨networkId, baseHead, es.map fun e => e.toBytes⟩
      else .error .updateBatchTooLarge := by
  have hone : (1 : UInt64).toNat = 1 := rfl
  have hfirst : checkedAdd baseHead.revision 1 =
      some (UInt64.ofNat (baseHead.revision.toNat + 1)) := by
    rw [checkedAdd_eq_some, hone]
    exact UInt64.toNat_ofNat_of_lt' (show baseHead.revision.toNat + 1 < 2^64 by omega)
  have hloop := checkUpdates_consecutive hparse hes hroom
    (UInt64.toNat_ofNat_of_lt' (show baseHead.revision.toNat + 1 < 2^64 by omega))
    (Nat.zero_le maxUpdateBatchBytes)
  rw [Nat.zero_add] at hloop
  unfold ConfigUpdateBatch.new
  rw [List.length_map]
  by_cases hcount : es.length ≤ maxUpdateEnvelopes
  · rw [failIf_neg (not_lt.mpr hcount), ok_bind, hfirst, okOr_some, ok_bind, hloop]
    by_cases hbytes : totalBytes es ≤ maxUpdateBatchBytes
    · rw [if_pos hbytes, if_pos ⟨hcount, hbytes⟩]
      rfl
    · rw [if_neg hbytes, if_neg fun h => hbytes h.2]
      rfl
  · rw [failIf_pos (not_le.mp hcount), if_neg fun h => hcount h.1]
    rfl

end Weaver
