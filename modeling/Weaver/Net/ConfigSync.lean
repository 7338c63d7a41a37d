import Weaver.Member.ConfigState

/-!
# Fetching configuration updates

The exchange of `weaver-net` by which a member fetches the updates after its head: a request of 96
bytes, and a response with a header of five bytes. Both sides bound the length of the batch on the
wire. `ConfigUpdateBatch::new` bounds the bytes of the envelopes alone, so that a batch within its
limit may be beyond theirs by its header and the lengths that it writes before the envelopes
(`oversized_batch`); it is delivered exactly when what is written is within the limit
(`update_batch_delivered_iff`).
-/

namespace Weaver

open Checked Wire Wire.Decoder Program

/-! ## The exchange -/

def configSyncRequestMagic : Bytes := utf8 "WVR-SYNC-REQ-v1\x00"

def configSyncResponseOk : UInt8 := 0

def configSyncResponseRejected : UInt8 := 1

def maxConfigSyncResponse : ℕ := 16 * 1024 * 1024

inductive ConfigSyncError where
  | openStream
  | configSyncRejected
  | protocolViolation (message : String)
  | configSync (error : ConfigError)
deriving DecidableEq

def encodeConfigSyncRequest (networkId : NetworkId) (baseHead : ConfigHead) : Bytes :=
  configSyncRequestMagic ++ networkId.asBytes.val ++ be64 baseHead.epoch ++ be64 baseHead.revision ++
    baseHead.hash.val

/-- `decode_config_sync_request`, of the first 96 bytes that come. -/
def decodeConfigSyncRequest : Bytes → Except Unit (NetworkId × ConfigHead) :=
  Decoder.decode do
    magic () configSyncRequestMagic
    let networkId ← array () 32
    let epoch ← u64 ()
    let revision ← u64 ()
    let hash ← array () 32
    return (⟨networkId⟩, { epoch, revision, hash })

variable [Crypto] {ε : Type}

/-- The bytes that `handle_config_sync_connection` has to send, of a source of updates. -/
def configSyncResult (networkId : NetworkId) (updatesAfter : ConfigHead → Except ε ConfigUpdateBatch)
    (request : Bytes) : Except Unit Bytes := do
  let (requestedNetwork, baseHead) ← decodeConfigSyncRequest request
  failIf (requestedNetwork ≠ networkId) ()
  let updates ← (updatesAfter baseHead).mapError fun _ => ()
  failIf (updates.networkId ≠ networkId ∨ updates.baseHead ≠ baseHead) ()
  updates.toBytes.mapError fun _ => ()

/-- `handle_config_sync_connection`. -/
def handleConfigSync (networkId : NetworkId) (updatesAfter : ConfigHead → Except ε ConfigUpdateBatch)
    (request : Bytes) : Bytes :=
  match configSyncResult networkId updatesAfter request with
  | .ok bytes =>
    if bytes.length ≤ maxConfigSyncResponse then
      configSyncResponseOk :: be32 (UInt32.ofNat bytes.length) ++ bytes
    else configSyncResponseRejected :: be32 0
  | .error _ => configSyncResponseRejected :: be32 0

/-- `fetch_config_updates`, of the response. -/
def fetchConfigUpdates (networkId : NetworkId) (baseHead : ConfigHead) :
    Bytes → Except ConfigSyncError ConfigUpdateBatch :=
  Decoder.decode do
    let status ← u8 .openStream
    let len ← u32 .openStream
    lift (failIf (status ≠ configSyncResponseOk) .configSyncRejected)
    lift (failIf (maxConfigSyncResponse < len.toNat)
      (.protocolViolation "config sync response exceeds limit"))
    let bytes ← take .openStream len.toNat
    let updates ← lift ((ConfigUpdateBatch.fromBytes bytes).mapError .configSync)
    lift (failIf (updates.networkId ≠ networkId ∨ updates.baseHead ≠ baseHead)
      (.protocolViolation "config sync response does not match request"))
    return updates

/-! ## What is delivered -/

omit [Crypto] in
theorem decodeConfigSyncRequest_encode (networkId : NetworkId) (baseHead : ConfigHead) :
    decodeConfigSyncRequest (encodeConfigSyncRequest networkId baseHead) =
      .ok (networkId, baseHead) := by
  simp [decodeConfigSyncRequest, encodeConfigSyncRequest, Decoder.decode, Except.map]

variable {networkId : NetworkId} {baseHead : ConfigHead} {b : ConfigUpdateBatch}

theorem fetchConfigUpdates_eq_ok {response : Bytes} :
    fetchConfigUpdates networkId baseHead response = .ok b ↔
      ∃ bytes rest,
        response = configSyncResponseOk :: be32 (UInt32.ofNat bytes.length) ++ (bytes ++ rest) ∧
        bytes.length ≤ maxConfigSyncResponse ∧ ConfigUpdateBatch.fromBytes bytes = .ok b ∧
        b.networkId = networkId ∧ b.baseHead = baseHead := by
  unfold fetchConfigUpdates
  simp only [decode_eq_ok, bind_run_eq_ok, u8_run_eq_ok, u32_run_eq_ok, lift_run_eq_ok,
    take_run_eq_ok, pure_run_eq_ok, failIf_eq_ok, mapError_eq_ok, not_lt, not_or, not_not]
  constructor
  · rintro ⟨rest, status, _, rfl, len, _, rfl, _, _, ⟨rfl, rfl⟩, _, _, ⟨hlimit, rfl⟩, bytes,
      unread, ⟨hlen, rfl⟩, updates, _, ⟨hread, rfl⟩, _, _, ⟨hsame, rfl⟩, rfl, rfl⟩
    refine ⟨bytes, unread, ?_, hlen ▸ hlimit, hread, hsame⟩
    rw [hlen, UInt32.ofNat_toNat]
    rfl
  · rintro ⟨bytes, rest, rfl, hlimit, hread, hsame⟩
    have hlt : bytes.length < 2^32 := by
      unfold maxConfigSyncResponse at hlimit
      omega
    have hnat : (UInt32.ofNat bytes.length).toNat = bytes.length := UInt32.toNat_ofNat_of_lt' hlt
    exact ⟨rest, _, _, rfl, _, _, rfl, (), _, ⟨rfl, rfl⟩, (), _, ⟨by rw [hnat]; exact hlimit, rfl⟩,
      bytes, _, ⟨hnat.symm, rfl⟩, b, _, ⟨hread, rfl⟩, (), _, ⟨hsame, rfl⟩, rfl, rfl⟩

variable {updatesAfter : ConfigHead → Except ε ConfigUpdateBatch}

theorem configSyncResult_eq_ok {bytes : Bytes} :
    configSyncResult networkId updatesAfter (encodeConfigSyncRequest networkId baseHead) =
        .ok bytes ↔
      ∃ b, updatesAfter baseHead = .ok b ∧ b.networkId = networkId ∧ b.baseHead = baseHead ∧
        b.toBytes = .ok bytes := by
  unfold configSyncResult
  rw [decodeConfigSyncRequest_encode, ok_bind]
  simp only [bind_eq_ok, failIf_eq_ok, mapError_eq_ok, not_or, not_not, exists_and_left,
    exists_const, true_and, and_assoc]

omit [Crypto] in
theorem eq_of_response {bytes bytes' rest : Bytes} (hlen : bytes.length < 2^32)
    (hlen' : bytes'.length < 2^32)
    (h : configSyncResponseOk :: be32 (UInt32.ofNat bytes.length) ++ bytes =
      configSyncResponseOk :: be32 (UInt32.ofNat bytes'.length) ++ (bytes' ++ rest)) :
    bytes = bytes' := by
  obtain ⟨hheader, hbody⟩ := List.append_inj h (by simp)
  have hword := congrArg (fun l => UInt32.ofNat (ofBe l)) (List.cons.inj hheader).2
  simp only [ofBe_be32] at hword
  have hsame : bytes.length = bytes'.length := by
    rw [← UInt32.toNat_ofNat_of_lt' hlen, hword, UInt32.toNat_ofNat_of_lt' hlen']
  rw [← List.append_nil bytes] at hbody
  exact (List.append_inj hbody hsame).1

theorem exchange_eq_ok :
    fetchConfigUpdates networkId baseHead
        (handleConfigSync networkId updatesAfter (encodeConfigSyncRequest networkId baseHead)) =
        .ok b ↔
      updatesAfter baseHead = .ok b ∧ b.networkId = networkId ∧ b.baseHead = baseHead ∧
        ConfigUpdateBatch.new b.networkId b.baseHead b.envelopes = .ok b ∧
        b.encodedLength ≤ maxUpdateBatchBytes := by
  have hsize : ∀ bytes : Bytes, bytes.length ≤ maxConfigSyncResponse → bytes.length < 2^32 := by
    intro bytes hle
    unfold maxConfigSyncResponse at hle
    omega
  rw [fetchConfigUpdates_eq_ok]
  constructor
  · rintro ⟨bytes, rest, hresponse, hlimit, hread, hnetwork, hbase⟩
    unfold handleConfigSync at hresponse
    split at hresponse
    · next sent hsent =>
      obtain ⟨b', hsource, -, -, hbytes⟩ := configSyncResult_eq_ok.mp hsent
      split at hresponse
      · next hle =>
        obtain rfl := eq_of_response (hsize _ hle) (hsize _ hlimit) hresponse
        obtain ⟨rfl, hnew, hfits⟩ :=
          ConfigUpdateBatch.reread_eq_ok.mp ⟨sent, hbytes, hread⟩
        exact ⟨hsource, hnetwork, hbase, hnew, hfits⟩
      · cases (List.cons.inj hresponse).1
    · cases (List.cons.inj hresponse).1
  · rintro ⟨hsource, hnetwork, hbase, hnew, hfits⟩
    obtain ⟨bytes, hbytes, hread⟩ := ConfigUpdateBatch.reread_eq_ok.mpr ⟨rfl, hnew, hfits⟩
    have hlimit : bytes.length ≤ maxConfigSyncResponse := by
      rw [(ConfigUpdateBatch.toBytes_length hbytes).2]
      exact hfits
    refine ⟨bytes, [], ?_, hlimit, hread, hnetwork, hbase⟩
    unfold handleConfigSync
    rw [configSyncResult_eq_ok.mpr ⟨b, hsource, hnetwork, hbase, hbytes⟩]
    simp only [if_pos hlimit, List.append_nil]

theorem exchange_of_new {envelopes : List Bytes} (hb : updatesAfter baseHead = .ok b)
    (hnew : ConfigUpdateBatch.new networkId baseHead envelopes = .ok b) :
    fetchConfigUpdates networkId baseHead
        (handleConfigSync networkId updatesAfter (encodeConfigSyncRequest networkId baseHead)) =
        .ok b ↔ b.encodedLength ≤ maxUpdateBatchBytes := by
  obtain ⟨-, -, rfl⟩ := ConfigUpdateBatch.new_eq_ok.mp hnew
  rw [exchange_eq_ok]
  exact ⟨fun h => h.2.2.2.2, fun hfits => ⟨hb, rfl, rfl, hnew, hfits⟩⟩

theorem configUpdatesAfter_new {handle : Authority} {stores : Stores} {base : ConfigHead}
    (h : ((handle.configUpdatesAfter base).run serve stores).1 = .ok b) :
    ∃ envelopes, ConfigUpdateBatch.new handle.status.networkId base envelopes = .ok b := by
  have hrun : (handle.configUpdatesAfter base).run serve stores =
      (.ok b, ((handle.configUpdatesAfter base).run serve stores).2) := Prod.ext h rfl
  unfold Authority.configUpdatesAfter at hrun
  simp only [Task.run_bind_eq_ok, Task.run_lift, Prod.mk.injEq, mapError_eq_ok] at hrun
  obtain ⟨_, _, -, _, _, -, _, _, -, _, _, -, envelopes, _, -, hnew, -⟩ := hrun
  exact ⟨envelopes, hnew⟩

theorem updatesAfter_new {handle : PersistedConfigState} {stores : Stores} {base : ConfigHead}
    (h : ((handle.updatesAfter base).run serve stores).1 = .ok b) :
    ∃ envelopes, ConfigUpdateBatch.new handle.networkId base envelopes = .ok b := by
  have hrun : (handle.updatesAfter base).run serve stores =
      (.ok b, ((handle.updatesAfter base).run serve stores).2) := Prod.ext h rfl
  unfold PersistedConfigState.updatesAfter at hrun
  simp only [Task.run_bind_eq_ok, Task.run_lift, Prod.mk.injEq, mapError_eq_ok] at hrun
  obtain ⟨_, _, -, _, _, -, _, _, -, _, _, -, envelopes, _, -, hnew, -⟩ := hrun
  exact ⟨envelopes, hnew⟩

/-- A batch that can be written is read back, within the limit of the exchange, exactly when what is
written is within the limit; and then, and only then, a batch that `config_updates_after` or
`updates_after` returns comes through the exchange. -/
theorem update_batch_delivered_iff :
    (∀ (b : ConfigUpdateBatch) (w : Bytes), b.toBytes = .ok w →
      (ConfigUpdateBatch.fromBytes w = .ok b ∧ w.length ≤ maxConfigSyncResponse ↔
        b.encodedLength ≤ maxUpdateBatchBytes)) ∧
    (∀ (handle : Authority) (stores : Stores) (base : ConfigHead) (b : ConfigUpdateBatch),
      ((handle.configUpdatesAfter base).run serve stores).1 = .ok b →
      (fetchConfigUpdates handle.status.networkId base (handleConfigSync handle.status.networkId
          (fun head => ((handle.configUpdatesAfter head).run serve stores).1)
          (encodeConfigSyncRequest handle.status.networkId base)) = .ok b ↔
        b.encodedLength ≤ maxUpdateBatchBytes)) ∧
    ∀ (handle : PersistedConfigState) (stores : Stores) (base : ConfigHead) (b : ConfigUpdateBatch),
      ((handle.updatesAfter base).run serve stores).1 = .ok b →
      (fetchConfigUpdates handle.networkId base (handleConfigSync handle.networkId
          (fun head => ((handle.updatesAfter head).run serve stores).1)
          (encodeConfigSyncRequest handle.networkId base)) = .ok b ↔
        b.encodedLength ≤ maxUpdateBatchBytes) := by
  refine ⟨?_, ?_, ?_⟩
  · intro b w hw
    obtain ⟨hnew, hlength⟩ := ConfigUpdateBatch.toBytes_length hw
    rw [ConfigUpdateBatch.fromBytes_of_toBytes hw, hlength]
    constructor
    · intro h
      exact h.2
    · intro hfits
      rw [if_pos hfits]
      exact ⟨rfl, hfits⟩
  · intro handle stores base b hb
    obtain ⟨envelopes, hnew⟩ := configUpdatesAfter_new hb
    exact exchange_of_new hb hnew
  · intro handle stores base b hb
    obtain ⟨envelopes, hnew⟩ := updatesAfter_new hb
    exact exchange_of_new hb hnew

end Weaver

/-! ## A batch beyond the limit -/

namespace Weaver.Sample

open Checked Wire Transparent

def emptyBatch : ConfigUpdateBatch := ⟨⟨zeroes 32⟩, ⟨0, 0, zeroes 32⟩, []⟩

/-- The batch without envelopes is written and read back. -/
theorem update_batch_delivered_sample : ∃ w, emptyBatch.toBytes = .ok w ∧
    ConfigUpdateBatch.fromBytes w = .ok emptyBatch ∧ w.length ≤ maxConfigSyncResponse := by
  obtain ⟨w, hw⟩ := ConfigUpdateBatch.exists_toBytes (b := emptyBatch) rfl
  exact ⟨w, hw, (update_batch_delivered_iff.1 emptyBatch w hw).mpr (by decide)⟩

def bulkFields (content : Bytes) (revision : UInt64) (previous : Bytes32) :
    EncryptedConfigEnvelope where
  formatVersion := formatVersion
  networkId := ⟨zeroes 32⟩
  epoch := 0
  revision := revision
  previousHash := previous
  payloadHash := zeroes 32
  nonce := zeroes 24
  ciphertext := content
  memberKeyWraps := [⟨[0], [0]⟩]
  signerKeyId := zeroes 16
  signedBytes := []
  signature := zeroes 64

def bulk (content : Bytes) (revision : UInt64) (previous : Bytes32) : EncryptedConfigEnvelope :=
  let fields := bulkFields content revision previous
  { fields with signedBytes := fields.encodeSignedBytes.toOption.getD [] }

def bulkChain (content : Bytes) : ℕ → UInt64 → Bytes32 → List EncryptedConfigEnvelope
  | 0, _, _ => []
  | n + 1, revision, previous =>
    bulk content (revision + 1) previous ::
      bulkChain content n (revision + 1) (bulk content (revision + 1) previous).envelopeHash

theorem bulk_spec {content : Bytes} (hlen : content.length ≤ maxCiphertext) (revision : UInt64)
    (previous : Bytes32) :
    EncryptedConfigEnvelope.fromBytes (bulk content revision previous).toBytes =
        .ok (bulk content revision previous) ∧
      (bulk content revision previous).toBytes.length = content.length + 238 := by
  have hwrap : KeyWrap.encode ⟨[0], [0]⟩ = .ok [0, 1, 0, 0, 1, 0] := by decide
  have hfits : ¬ (2^32 ≤ content.length ∨ 2^16 ≤ [(⟨[0], [0]⟩ : KeyWrap)].length) := by
    unfold maxCiphertext maxConfigPlaintext at hlen
    rw [List.length_singleton]
    omega
  obtain ⟨bytes, hencode, hlength⟩ : ∃ bytes,
      (bulkFields content revision previous).encodeSignedBytes = .ok bytes ∧
        bytes.length = content.length + 174 := by
    unfold EncryptedConfigEnvelope.encodeSignedBytes bulkFields
    dsimp only
    rw [failIf_neg hfits, ok_bind, mapM_cons, hwrap, ok_bind, mapM_nil, ok_bind, pure_eq_ok,
      ok_bind, pure_eq_ok]
    refine ⟨_, rfl, ?_⟩
    have hmagic : envelopeMagic.length = 8 := by decide
    simp only [List.length_append, hmagic, be16_length, be32_length, be64_length, bytesN_length,
      List.flatten_cons, List.flatten_nil, List.length_cons, List.length_nil]
    omega
  have hsigned : (bulk content revision previous).signedBytes = bytes := by
    change (bulkFields content revision previous).encodeSignedBytes.toOption.getD [] = bytes
    rw [hencode]
    rfl
  refine ⟨EncryptedConfigEnvelope.fromBytes_toBytes ⟨rfl, hlen, ?_, ?_⟩ ?_, ?_⟩
  · exact ⟨Nat.one_pos, show 1 ≤ maxKeyWraps by decide⟩
  · intro wrap hwrap
    obtain rfl := List.mem_singleton.mp hwrap
    decide
  · rw [hsigned, ← hencode]
    rfl
  · rw [EncryptedConfigEnvelope.toBytes, List.length_append, hsigned, hlength,
      (bulk content revision previous).signature.property]

theorem bulkChain_spec {content : Bytes} (hlen : content.length ≤ maxCiphertext) (n : ℕ)
    (revision : UInt64) (previous : Bytes32) (hroom : revision.toNat + n < 2^64) :
    Consecutive ⟨zeroes 32⟩ revision previous (bulkChain content n revision previous) ∧
      (bulkChain content n revision previous).length = n ∧
      ∀ e ∈ bulkChain content n revision previous,
        EncryptedConfigEnvelope.fromBytes e.toBytes = .ok e ∧
          e.toBytes.length = content.length + 238 := by
  induction n generalizing revision previous with
  | zero => exact ⟨trivial, rfl, fun _ h => absurd h List.not_mem_nil⟩
  | succ n ih =>
    have hnext : (revision + 1).toNat = revision.toNat + 1 := by
      rw [UInt64.toNat_add]
      exact Nat.mod_eq_of_lt (by simp; omega)
    obtain ⟨hconsecutive, hlength, hmem⟩ := ih (revision + 1)
      (bulk content (revision + 1) previous).envelopeHash (by omega)
    refine ⟨⟨rfl, hnext, rfl, hconsecutive⟩, ?_, ?_⟩
    · rw [bulkChain, List.length_cons, hlength]
    · intro e he
      rcases List.mem_cons.mp he with rfl | he
      · exact bulk_spec hlen _ _
      · exact hmem e he

/-- Sixteen envelopes of one MiB each, which are the limit of a batch, are written in more than the
limit of the exchange, and what is written is not read back. -/
theorem oversized_batch : ∃ (b : ConfigUpdateBatch) (w : Bytes), b.toBytes = .ok w ∧
    ConfigUpdateBatch.fromBytes w = .error .updateBatchTooLarge ∧
    maxConfigSyncResponse < w.length := by
  obtain ⟨content, hcontent⟩ : ∃ content : Bytes, content.length = 1048338 :=
    ⟨List.replicate 1048338 0, List.length_replicate⟩
  have hlen : content.length ≤ maxCiphertext := by
    rw [hcontent]
    decide
  obtain ⟨hconsecutive, hcount, hmem⟩ := bulkChain_spec hlen 16 0 (zeroes 32) (by decide)
  generalize bulkChain content 16 0 (zeroes 32) = es at hconsecutive hcount hmem
  have hsize : ∀ e ∈ es, e.toBytes.length = 1048576 := by
    intro e he
    rw [(hmem e he).2, hcontent]
  have htotal : totalBytes es = 16777216 := by
    unfold totalBytes
    rw [List.map_congr_left hsize, List.map_const', List.sum_replicate_nat, hcount]
  let base : ConfigHead := ⟨0, 0, zeroes 32⟩
  let b : ConfigUpdateBatch := ⟨⟨zeroes 32⟩, base, es.map fun e => e.toBytes⟩
  have hnew : ConfigUpdateBatch.new b.networkId b.baseHead b.envelopes = .ok b := by
    refine (ConfigUpdateBatch.new_consecutive (fun e he => (hmem e he).1)
      (show Consecutive _ base.revision base.hash es from hconsecutive)
      (by rw [hcount]; decide)).trans ?_
    rw [if_pos ⟨by rw [hcount]; decide, by rw [htotal]; decide⟩]
  obtain ⟨w, hw⟩ := ConfigUpdateBatch.exists_toBytes hnew
  have hlength : w.length = 92 + 16 * 1048580 := by
    rw [(ConfigUpdateBatch.toBytes_length hw).2, ConfigUpdateBatch.encodedLength, List.map_map]
    have hwritten : ∀ e ∈ es, ((fun raw : Bytes => 4 + raw.length) ∘ fun e => e.toBytes) e =
        1048580 := by
      intro e he
      rw [Function.comp_apply, hsize e he]
    rw [List.map_congr_left hwritten, List.map_const', List.sum_replicate_nat, hcount]
  refine ⟨b, w, hw, ?_, ?_⟩
  · rw [ConfigUpdateBatch.fromBytes_of_toBytes hw, hlength]
    rfl
  · rw [hlength]
    decide

end Weaver.Sample
