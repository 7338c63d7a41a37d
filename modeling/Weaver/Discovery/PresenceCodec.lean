import Weaver.Authority.History
import Weaver.Discovery.Presence

/-!
# Presence records are read back

The codec of the payload keeps every field but two: the flow information and the scope of an IPv6
candidate are not written (`DiscoveryCandidate.onWire`). `presence_open_seal`: a record that was
sealed opens to what was sealed, if its candidates have neither.

The limits do not fit together. The payload may have 64 bytes less than the wire, but the wire also
holds a tag of 16 bytes and a header of 68: `presence_transported_iff` says which records arrive.
-/

namespace Weaver

open Checked Wire Wire.Decoder

/-! ## The codec of the payload -/

def DiscoveryCandidate.onWire : DiscoveryCandidate → DiscoveryCandidate
  | .ip (.v6 host port _ _) => .ip (.v6 host port 0 0)
  | .ip (.v4 host port) => .ip (.v4 host port)
  | .relay url => .relay url

theorem decodeVirtualAddr_run (address : ScopedVirtualAddr) (rest : Bytes) :
    decodeVirtualAddr.run (encodeVirtualAddr address ++ rest) = .ok (address, rest) := by
  cases address with
  | server app =>
    simp [decodeVirtualAddr, encodeVirtualAddr, bind_run, u8_run, array_run, pure_run]
  | client app device =>
    simp [decodeVirtualAddr, encodeVirtualAddr, bind_run, u8_run, array_run, pure_run]

variable {candidate : DiscoveryCandidate}

theorem decodeCandidate_run {bytes : Bytes} (h : encodeCandidate candidate = .ok bytes)
    (rest : Bytes) :
    decodeCandidate.run (bytes ++ rest) = .ok (candidate.onWire, rest) := by
  match candidate, h with
  | .ip (.v4 ip port), h =>
    obtain rfl := Except.ok.inj h
    simp [decodeCandidate, bind_run, u8_run, array_run, u16_run, pure_run,
      DiscoveryCandidate.onWire]
  | .ip (.v6 ip port _ _), h =>
    obtain rfl := Except.ok.inj h
    simp [decodeCandidate, bind_run, u8_run, array_run, u16_run, pure_run,
      DiscoveryCandidate.onWire]
  | .relay url, h =>
    simp only [encodeCandidate, bind_eq_ok, failIf_eq_ok, not_le, exists_and_left, exists_const,
      pure_eq_ok_iff] at h
    obtain ⟨hlt, rfl⟩ := h
    have hlength : (utf8 url).length = (UInt16.ofNat (utf8 url).length).toNat :=
      (UInt16.toNat_ofNat_of_lt' hlt).symm
    have htext : okOr (fromUtf8 (utf8 url)) DiscoveryError.malformedWire = .ok url :=
      okOr_eq_ok.mpr (fromUtf8_utf8 url)
    have hkind : ((3 : UInt8) = 1) = False ∧ ((3 : UInt8) = 2) = False := by decide
    simp only [decodeCandidate, List.cons_append, List.append_assoc, bind_run, u8_run, ok_bind,
      hkind.1, hkind.2, if_true, if_false, u16_run, take_run hlength, lift_run_ok htext, pure_run,
      DiscoveryCandidate.onWire]

def DiscoveryCandidate.wireLength : DiscoveryCandidate → ℕ
  | .ip (.v4 ..) => 7
  | .ip (.v6 ..) => 19
  | .relay url => 3 + (utf8 url).length

theorem encodeCandidate_length {bytes : Bytes} (h : encodeCandidate candidate = .ok bytes) :
    bytes.length = candidate.wireLength := by
  match candidate, h with
  | .ip (.v4 ip port), h =>
    obtain rfl := Except.ok.inj h
    simp [DiscoveryCandidate.wireLength, bytesN_length]
  | .ip (.v6 ip port _ _), h =>
    obtain rfl := Except.ok.inj h
    simp [DiscoveryCandidate.wireLength, bytesN_length]
  | .relay url, h =>
    simp only [encodeCandidate, bind_eq_ok, failIf_eq_ok, exists_and_left, exists_const,
      pure_eq_ok_iff] at h
    obtain ⟨-, rfl⟩ := h
    simp only [DiscoveryCandidate.wireLength, List.length_cons, List.length_append, be16_length]
    omega

variable {encoded : List Bytes}

theorem flatten_encodeCandidate_length {candidates : List DiscoveryCandidate}
    (h : candidates.mapM encodeCandidate = .ok encoded) :
    encoded.flatten.length = (candidates.map DiscoveryCandidate.wireLength).sum := by
  rw [List.length_flatten]
  rw [mapM_eq_ok] at h
  induction h with
  | nil => rfl
  | cons hcandidate _ ih =>
    rw [List.map_cons, List.sum_cons, List.map_cons, List.sum_cons, ih,
      encodeCandidate_length hcandidate]

theorem validateCandidates_onWire (candidates : List DiscoveryCandidate) :
    validateCandidates (candidates.map DiscoveryCandidate.onWire) =
      validateCandidates candidates := by
  unfold validateCandidates
  rw [List.length_map, List.any_map]
  congr 4
  funext candidate
  match candidate with
  | .ip (.v4 ..) => rfl
  | .ip (.v6 ..) => rfl
  | .relay _ => rfl

theorem exists_encodeCandidates {candidates : List DiscoveryCandidate}
    (h : validateCandidates candidates = .ok ()) :
    ∃ encoded, candidates.mapM encodeCandidate = .ok encoded := by
  obtain ⟨hcount, hurls⟩ := not_or.mp (failIf_eq_ok.mp h)
  have hall : ∀ candidate ∈ candidates, ∃ bytes, encodeCandidate candidate = .ok bytes := by
    intro candidate hmem
    match candidate with
    | .ip (.v4 ..) => exact ⟨_, rfl⟩
    | .ip (.v6 ..) => exact ⟨_, rfl⟩
    | .relay url =>
      have hurl : ¬ maxRelayUrlLen < (utf8 url).length := fun hlong =>
        hurls (List.any_eq_true.mpr ⟨_, hmem, decide_eq_true (.inr hlong)⟩)
      have hshort : ¬ 2^16 ≤ (utf8 url).length := by
        unfold maxRelayUrlLen at hurl
        omega
      simp only [encodeCandidate, failIf_neg hshort, ok_bind]
      exact ⟨_, rfl⟩
  obtain ⟨encoded, hencoded⟩ := Collect.exists_forall₂ hall
  exact ⟨encoded, mapM_eq_ok.mpr hencoded⟩

variable [Crypto]

def presencePayloadLength (virtualAddrs : List ScopedVirtualAddr)
    (candidates : List DiscoveryCandidate) : ℕ :=
  144 + (virtualAddrs.map fun address => (encodeVirtualAddr address).length).sum +
    (candidates.map DiscoveryCandidate.wireLength).sum

def PresenceRecord.onWire (record : PresenceRecord) : PresenceRecord :=
  { record with candidates := record.candidates.map DiscoveryCandidate.onWire }

variable {record : PresenceRecord}

theorem presencePayload_length (h : record.candidates.mapM encodeCandidate = .ok encoded) :
    (presencePayload record encoded).length =
      presencePayloadLength record.virtualAddrs record.candidates := by
  have hmagic : presencePayloadMagic.length = 8 := by decide
  have haddrs : (record.virtualAddrs.map encodeVirtualAddr).flatten.length =
      (record.virtualAddrs.map fun address => (encodeVirtualAddr address).length).sum := by
    rw [List.length_flatten, List.map_map]
    rfl
  simp only [presencePayload, List.length_append, hmagic, bytesN_length, be16_length, be32_length,
    be64_length, haddrs, flatten_encodeCandidate_length h, presencePayloadLength]
  omega

theorem presenceFields_run (hencoded : record.candidates.mapM encodeCandidate = .ok encoded)
    (hpos : record.virtualAddrs ≠ []) (haddrs : record.virtualAddrs.length ≤ maxVirtualAddrs)
    (hcandidates : record.candidates.length ≤ maxCandidates) :
    presenceFields.run (presencePayload record encoded) = .ok (record.onWire, []) := by
  have hcount : (UInt16.ofNat record.virtualAddrs.length).toNat = record.virtualAddrs.length := by
    unfold maxVirtualAddrs at haddrs
    exact UInt16.toNat_ofNat_of_lt' (show _ < 2^16 by omega)
  have hcount' : (UInt16.ofNat record.candidates.length).toNat = record.candidates.length := by
    unfold maxCandidates at hcandidates
    exact UInt16.toNat_ofNat_of_lt' (show _ < 2^16 by omega)
  have hcheck : ¬ (record.virtualAddrs.length = 0 ∨
      maxVirtualAddrs < record.virtualAddrs.length) := by
    have hne := List.length_pos_iff.mpr hpos
    omega
  have hlast := many_run_of_mapM hencoded
    (fun candidate _ bytes rest hbytes => decodeCandidate_run hbytes rest) []
  rw [List.append_nil] at hlast
  unfold presenceFields presencePayload
  simp only [List.append_assoc, bind_run, magic_run, ok_bind, array_run, u64_run, u16_run, hcount,
    lift_run_ok (failIf_neg hcheck),
    many_run (fun address _ rest => decodeVirtualAddr_run address rest),
    lift_run_ok (okOr_eq_ok.mpr (EndpointId.fromBytes_eq_some.mpr rfl)), u32_run, hcount',
    lift_run_ok (failIf_neg (not_lt.mpr hcandidates)), hlast, finish_run, pure_run]
  rfl

theorem encodePresencePayload_eq_ok {payload : Bytes}
    (haddrs : record.virtualAddrs.length ≤ maxVirtualAddrs)
    (hcandidates : record.candidates.length ≤ maxCandidates) :
    encodePresencePayload record = .ok payload ↔
      ∃ encoded, record.candidates.mapM encodeCandidate = .ok encoded ∧
        presencePayloadLength record.virtualAddrs record.candidates + 64 ≤ maxPresenceWire ∧
        presencePayload record encoded = payload := by
  have hshort : record.virtualAddrs.length < 2^16 ∧ record.candidates.length < 2^16 := by
    unfold maxVirtualAddrs at haddrs
    unfold maxCandidates at hcandidates
    omega
  simp only [encodePresencePayload, failIf_neg (not_le.mpr hshort.1),
    failIf_neg (not_le.mpr hshort.2), ok_bind, bind_eq_ok, failIf_eq_ok, not_lt, exists_and_left,
    exists_const, pure_eq_ok_iff]
  refine exists_congr fun encoded => and_congr_right fun hencoded => ?_
  rw [presencePayload_length hencoded]
  have hlimit : maxPresenceWire - signatureLen + 64 = maxPresenceWire := by decide
  exact and_congr_left fun _ => by omega

/-! ## Authorization -/

/-- The configuration binds the endpoint and the address to the member, and neither binding has
ended. -/
structure NetworkConfigV1.Authorizes (c : NetworkConfigV1) (memberId : MemberId)
    (endpointId : EndpointId) (address : ScopedVirtualAddr) (nowMs : UInt64) : Prop where
  endpoint : ∃ b, c.ListsEndpoint b ∧ b.payload.memberId = memberId ∧
    b.payload.endpointId = endpointId.asBytes ∧ nowMs < b.payload.expiresAtMs
  app : ∃ b, c.ListsBinding b ∧ b.payload.subject = memberId ∧ nowMs < b.payload.expiresAtMs ∧
    b.payload.names address = true

variable {c : NetworkConfigV1} {memberId : MemberId}

theorem authorizeEndpointAndAddr_eq_ok {endpointId : EndpointId} {address : ScopedVirtualAddr}
    {nowMs : UInt64} {u : Unit} :
    authorizeEndpointAndAddr c memberId endpointId address nowMs = .ok u ↔
      c.Authorizes memberId endpointId address nowMs := by
  simp only [authorizeEndpointAndAddr, bind_eq_ok, failIf_eq_ok, exists_and_left, exists_const,
    Bool.not_eq_false, List.any_eq_true, Option.any_eq_true, toOption_eq_some, decide_eq_true_eq]
  constructor
  · rintro ⟨⟨_, hraw, b, hb, hendpoint⟩, _, hraw', b', hb', happ⟩
    obtain rfl := Signed.fromBytes_eq_ok.mp hb
    obtain rfl := Signed.fromBytes_eq_ok.mp hb'
    exact ⟨⟨b, hraw, hendpoint⟩, b', hraw', happ⟩
  · rintro ⟨⟨b, hb, hendpoint⟩, b', hb', happ⟩
    exact ⟨⟨_, hb, b, Signed.fromBytes_toBytes b, hendpoint⟩, _, hb', b',
      Signed.fromBytes_toBytes b', happ⟩

theorem authorizeAll_iff {endpointId : EndpointId} {addresses : List ScopedVirtualAddr}
    {nowMs : UInt64} :
    (∃ us, (addresses.mapM fun address =>
        authorizeEndpointAndAddr c memberId endpointId address nowMs) = .ok us) ↔
      ∀ address ∈ addresses, c.Authorizes memberId endpointId address nowMs := by
  constructor
  · rintro ⟨us, hus⟩ address haddress
    obtain ⟨u, -, hu⟩ := Collect.exists_of_mem_left (mapM_eq_ok.mp hus) haddress
    exact authorizeEndpointAndAddr_eq_ok.mp hu
  · intro h
    exact ⟨addresses.map fun _ => (), mapM_ok_of_forall fun address haddress =>
      authorizeEndpointAndAddr_eq_ok.mpr (h address haddress)⟩

variable {m : MemberCertificate}

omit [Crypto] in
theorem memberForSigner_spec {key : Bytes32} (h : memberForSigner c key = .ok m) :
    c.ListsMember m ∧ m.payload.signingPublicKey = key := by
  have hfind := okOr_eq_ok.mp h
  have hkey := List.find?_some hfind
  obtain ⟨_, hraw, hm⟩ := List.mem_filterMap.mp (List.mem_of_find?_eq_some hfind)
  obtain rfl := Signed.fromBytes_eq_ok.mp (toOption_eq_some.mp hm)
  exact ⟨hraw, of_decide_eq_true hkey⟩

theorem memberById_of_listed (config : ValidatedNetworkConfig)
    (hm : config.asConfig.ListsMember m) :
    memberById config.asConfig m.payload.memberId = .ok m := by
  obtain ⟨root, network, nowMs, hcheck⟩ := config.validated
  have hc := NetworkConfigV1.check_eq_ok.mp hcheck
  have hfind := (hc.members_distinct.find?_eq_some (p := fun _ => true)).mpr
    ⟨⟨_, hm, Signed.fromBytes_toBytes m⟩, rfl, rfl⟩
  simp only [Bool.and_true] at hfind
  exact okOr_eq_ok.mpr hfind

/-! ## Sealing and opening -/

namespace EncryptedPresenceRecord

variable [KeyedHash] {config : ValidatedNetworkConfig} {signing : SigningKeypair}
  {endpointId : EndpointId} {virtualAddrs : List ScopedVirtualAddr}
  {candidates : List DiscoveryCandidate} {capabilities : UInt32}
  {sequence issuedAtMs expiresAtMs : UInt64} {random : Option (BytesN 24)}

structure SealedFrom (config : ValidatedNetworkConfig) (signing : SigningKeypair)
    (record : PresenceRecord) (m : MemberCertificate) (payload : Bytes) (nonce : BytesN 24)
    (r : EncryptedPresenceRecord) : Prop where
  begins : record.issuedAtMs < record.expiresAtMs
  lasts : record.expiresAtMs - record.issuedAtMs ≤ maxPresenceTtlMs
  ends : record.expiresAtMs ≤ config.asConfig.expiresAtMs
  addressed : record.virtualAddrs ≠ []
  addrs_limit : record.virtualAddrs.length ≤ maxVirtualAddrs
  addrs_distinct : record.virtualAddrs.Nodup
  reachable : validateCandidates record.candidates = .ok ()
  signer : memberForSigner config.asConfig signing.publicBytes = .ok m
  authorized : ∀ address ∈ record.virtualAddrs,
    config.asConfig.Authorizes m.payload.memberId record.endpointId address record.issuedAtMs
  encoded : encodePresencePayload record = .ok payload
  encrypted : Crypto.aeadEncrypt
    (derivePresenceKey config.asConfig.epochSecrets.presenceEncryptionSeed r.epoch r.opaqueKey)
    nonce (presenceAad r.epoch r.opaqueKey nonce)
    (payload ++ (signing.signPresence payload).val) = some r.ciphertext
  in_epoch : r.epoch = config.asConfig.epoch
  filed : r.opaqueKey =
    deriveOpaqueKey config.asConfig.epochSecrets.presenceIndexSeed record.endpointId
  drawn : r.nonce = nonce

/-- The record that `seal` writes, with the certificate that it finds for the signer. -/
def recordOf (config : ValidatedNetworkConfig) (m : MemberCertificate) (endpointId : EndpointId)
    (virtualAddrs : List ScopedVirtualAddr) (candidates : List DiscoveryCandidate)
    (capabilities : UInt32) (sequence issuedAtMs expiresAtMs : UInt64) : PresenceRecord :=
  { networkId := config.asConfig.networkId, epoch := config.asConfig.epoch, virtualAddrs,
    memberId := m.payload.memberId, endpointId, candidates, capabilities, sequence, issuedAtMs,
    expiresAtMs }

variable {r : EncryptedPresenceRecord}

theorem seal_eq_ok :
    «seal» config signing endpointId virtualAddrs candidates capabilities sequence issuedAtMs
        expiresAtMs random = .ok r ↔
      ∃ m payload nonce, random = some nonce ∧
        SealedFrom config signing (recordOf config m endpointId virtualAddrs candidates capabilities
          sequence issuedAtMs expiresAtMs) m payload nonce r := by
  simp only [«seal», bind_eq_ok, failIf_eq_ok, okOr_eq_ok, pure_eq_ok_iff, not_or, not_le, not_lt,
    exists_and_left, exists_const, not_not, and_assoc]
  constructor
  · rintro ⟨hbegins, hlasts, hends, hcount, hne, hlimit, _, hcandidates, m, hm, hnodup, us,
      hus, payload, hpayload, nonce, hnonce, ciphertext, hencrypted, rfl⟩
    exact ⟨m, payload, nonce, hnonce, ⟨hbegins, hlasts, hends, hne, hlimit, hnodup, hcandidates, hm,
      authorizeAll_iff.mp ⟨us, hus⟩, hpayload, hencrypted, rfl, rfl, rfl⟩⟩
  · rintro ⟨m, payload, nonce, hnonce, h⟩
    obtain ⟨us, hus⟩ := authorizeAll_iff.mpr h.authorized
    have hreachable := failIf_eq_ok.mp h.reachable
    obtain ⟨epoch, opaqueKey, nonce', ciphertext⟩ := r
    obtain rfl := h.in_epoch
    obtain rfl := h.drawn
    obtain rfl := h.filed
    exact ⟨h.begins, h.lasts, h.ends, not_lt.mp fun hlt => hreachable (.inl hlt), h.addressed,
      h.addrs_limit, (), h.reachable, m, h.signer, h.addrs_distinct, us, hus, payload, h.encoded, _,
      hnonce, _, h.encrypted, rfl⟩

variable {record : PresenceRecord} {m : MemberCertificate} {nonce : BytesN 24}

theorem SealedFrom.payload_spec {payload : Bytes}
    (h : SealedFrom config signing record m payload nonce r) :
    payload.length = presencePayloadLength record.virtualAddrs record.candidates ∧
      presenceFields.run payload = .ok (record.onWire, []) := by
  have hcandidates := not_lt.mp (not_or.mp (failIf_eq_ok.mp h.reachable)).1
  obtain ⟨encoded, hencoded, -, rfl⟩ :=
    (encodePresencePayload_eq_ok h.addrs_limit hcandidates).mp h.encoded
  exact ⟨presencePayload_length hencoded,
    presenceFields_run hencoded h.addressed h.addrs_limit hcandidates⟩

theorem SealedFrom.checkOpened_eq_ok {payload : Bytes} {nowMs : UInt64}
    (h : SealedFrom config signing record m payload nonce r)
    (hnetwork : record.networkId = config.asConfig.networkId)
    (hepoch : record.epoch = config.asConfig.epoch) (hid : record.memberId = m.payload.memberId)
    (hissued : record.issuedAtMs ≤ nowMs) (hexpires : nowMs < record.expiresAtMs)
    (hmember : m.payload.notBeforeMs ≤ nowMs ∧ nowMs < m.payload.expiresAtMs)
    (hbindings : ∀ address ∈ record.virtualAddrs,
      config.asConfig.Authorizes m.payload.memberId record.endpointId address nowMs) :
    r.checkOpened config.asConfig nowMs payload (signing.signPresence payload) record.onWire =
      .ok record.onWire := by
  obtain ⟨hlisted, hkey⟩ := memberForSigner_spec h.signer
  obtain ⟨root, network, validAt, hcheck⟩ := config.validated
  have haccepted := (NetworkConfigV1.check_eq_ok.mp hcheck).member_accepted hlisted
  have hverify : m.verifyPresence payload (signing.signPresence payload) = .ok () := by
    unfold MemberCertificate.verifyPresence
    simp only [hkey, bind_eq_ok, verifyingKeyFromBytes_eq_ok, verifySignature_eq_ok]
    exact ⟨(), signing.validKey_publicBytes, signing.verify_sign _⟩
  obtain ⟨us, hus⟩ := authorizeAll_iff.mpr hbindings
  simp only [checkOpened, bind_eq_ok, failIf_eq_ok, pure_eq_ok_iff, not_or, not_lt, not_le, ne_eq,
    not_not, exists_and_left, exists_const]
  refine ⟨⟨hnetwork, hepoch, hissued, hexpires, h.lasts, h.filed.symm⟩, m, ?_,
    ⟨hmember.1, hmember.2, haccepted.current.unrevoked⟩, (), ?_, ⟨h.addressed, h.addrs_limit⟩,
    h.addrs_distinct, us, ?_, (), ?_, trivial⟩
  · exact (congrArg (memberById config.asConfig) hid).trans (memberById_of_listed config hlisted)
  · rw [hverify]
    rfl
  · exact (congrArg (fun id => record.virtualAddrs.mapM fun address => authorizeEndpointAndAddr
      config.asConfig id record.endpointId address nowMs) hid).trans hus
  · exact (validateCandidates_onWire _).trans h.reachable

/-- A record that was sealed opens to what was sealed, but for the flow information and the scope
of its IPv6 candidates: at every time in its window at which the certificate of its member and the
bindings that it uses are in theirs. -/
theorem presence_open_seal {r : EncryptedPresenceRecord} {nowMs : UInt64}
    (hseal : «seal» config signing endpointId virtualAddrs candidates capabilities sequence
      issuedAtMs expiresAtMs random = .ok r)
    (hissued : issuedAtMs ≤ nowMs) (hexpires : nowMs < expiresAtMs)
    (hmember : ∀ m, config.asConfig.ListsMember m →
      m.payload.signingPublicKey = signing.publicBytes →
        m.payload.notBeforeMs ≤ nowMs ∧ nowMs < m.payload.expiresAtMs)
    (hbindings : ∀ m, config.asConfig.ListsMember m →
      m.payload.signingPublicKey = signing.publicBytes → ∀ address ∈ virtualAddrs,
        config.asConfig.Authorizes m.payload.memberId endpointId address nowMs) :
    ∃ m, config.asConfig.ListsMember m ∧ m.payload.signingPublicKey = signing.publicBytes ∧
      r.open config nowMs = .ok
        { networkId := config.asConfig.networkId, epoch := config.asConfig.epoch, virtualAddrs,
          memberId := m.payload.memberId, endpointId,
          candidates := candidates.map DiscoveryCandidate.onWire, capabilities, sequence,
          issuedAtMs, expiresAtMs } := by
  obtain ⟨m, payload, nonce, -, h⟩ := seal_eq_ok.mp hseal
  obtain ⟨hlisted, hkey⟩ := memberForSigner_spec h.signer
  refine ⟨m, hlisted, hkey, ?_⟩
  have hcheck := h.checkOpened_eq_ok rfl rfl rfl hissued hexpires (hmember m hlisted hkey)
    (hbindings m hlisted hkey)
  have hdecrypt := Crypto.aead_decrypt_encrypt _ _ _ _ _ h.encrypted
  rw [← h.drawn] at hdecrypt
  have hlength : (signing.signPresence payload).val.length = signatureLen := bytesN_length _
  have hcut : (payload ++ (signing.signPresence payload).val).length - signatureLen =
      payload.length := by
    rw [List.length_append, hlength]
    omega
  have hsignature : (array DiscoveryError.malformedWire 64).decode
      (signing.signPresence payload).val = .ok (signing.signPresence payload) := by
    exact decode_eq_ok.mpr ⟨[], array_run_end _⟩
  have hfields : presenceFields.decode payload = .ok (recordOf config m endpointId virtualAddrs
      candidates capabilities sequence issuedAtMs expiresAtMs).onWire :=
    decode_eq_ok.mpr ⟨_, h.payload_spec.2⟩
  have hlong : ¬ (payload ++ (signing.signPresence payload).val).length < signatureLen := by
    rw [List.length_append, hlength]
    omega
  simp only [«open», failIf_neg (not_not.mpr h.in_epoch), ok_bind, hdecrypt, okOr_some,
    failIf_neg hlong, hcut, List.take_left, List.drop_left, hsignature, hfields]
  exact hcheck

/-! ## Transport -/

omit [Crypto] [KeyedHash] in
theorem transported_iff (r : EncryptedPresenceRecord) :
    (∃ wire, r.toBytes = .ok wire ∧ fromBytes wire = .ok r) ↔
      68 + r.ciphertext.length ≤ maxPresenceWire := by
  have hmagic : presenceMagic.length = 8 := by decide
  simp only [toBytes, bind_eq_ok, failIf_eq_ok, not_lt, exists_and_left, exists_const,
    pure_eq_ok_iff, and_assoc, ↓existsAndEq, true_and]
  generalize hwire : presenceMagic ++ be64 r.epoch ++ r.opaqueKey.val ++ r.nonce.val ++
    be32 (UInt32.ofNat r.ciphertext.length) ++ r.ciphertext = wire
  have hlength : wire.length = 68 + r.ciphertext.length := by
    rw [← hwire]
    simp only [List.length_append, hmagic, be64_length, bytesN_length, be32_length]
  simp only [fromBytes, bind_eq_ok, failIf_eq_ok, not_lt, hlength, exists_and_left, exists_const]
  constructor
  · exact fun h => h.2.1
  · intro hle
    have hle' : r.ciphertext.length ≤ maxPresenceWire := by omega
    have hlen : r.ciphertext.length = (UInt32.ofNat r.ciphertext.length).toNat := by
      unfold maxPresenceWire at hle'
      exact (UInt32.toNat_ofNat_of_lt' (show _ < 2^32 by omega)).symm
    refine ⟨hle', hle, decode_eq_ok.mpr ⟨[], ?_⟩⟩
    rw [← hwire]
    simp only [List.append_assoc, bind_run, magic_run, ok_bind, u64_run, array_run, u32_run,
      take_run_end hlen, finish_run, pure_run]

theorem ciphertext_length_of_seal
    (hseal : «seal» config signing endpointId virtualAddrs candidates capabilities sequence
      issuedAtMs expiresAtMs random = .ok r) :
    r.ciphertext.length = presencePayloadLength virtualAddrs candidates + 80 := by
  obtain ⟨m, payload, nonce, -, h⟩ := seal_eq_ok.mp hseal
  rw [Crypto.aead_length _ _ _ _ _ h.encrypted, List.length_append, h.payload_spec.1, bytesN_length]
  rfl

theorem exists_seal_of_candidates {candidates' : List DiscoveryCandidate}
    (hseal : «seal» config signing endpointId virtualAddrs candidates capabilities sequence
      issuedAtMs expiresAtMs random = .ok r) (hcandidates : validateCandidates candidates' = .ok ())
    (hfits : presencePayloadLength virtualAddrs candidates' + 64 ≤ maxPresenceWire)
    (haead : ∀ key nonce aad m, ∃ c, Crypto.aeadEncrypt key nonce aad m = some c) :
    ∃ r', «seal» config signing endpointId virtualAddrs candidates' capabilities sequence
      issuedAtMs expiresAtMs random = .ok r' := by
  obtain ⟨m, _, nonce, hnonce, h⟩ := seal_eq_ok.mp hseal
  obtain ⟨encoded, hencoded⟩ := exists_encodeCandidates hcandidates
  let record := recordOf config m endpointId virtualAddrs candidates' capabilities sequence
    issuedAtMs expiresAtMs
  have haddrs : record.virtualAddrs.length ≤ maxVirtualAddrs := h.addrs_limit
  have hcount : record.candidates.length ≤ maxCandidates :=
    not_lt.mp (not_or.mp (failIf_eq_ok.mp hcandidates)).1
  have hpayload : encodePresencePayload record = .ok (presencePayload record encoded) :=
    (encodePresencePayload_eq_ok haddrs hcount).mpr ⟨encoded, hencoded, hfits, rfl⟩
  let index := deriveOpaqueKey config.asConfig.epochSecrets.presenceIndexSeed endpointId
  obtain ⟨ciphertext, hciphertext⟩ := haead (derivePresenceKey
    config.asConfig.epochSecrets.presenceEncryptionSeed config.asConfig.epoch index) nonce
    (presenceAad config.asConfig.epoch index nonce) (presencePayload record encoded ++ _)
  exact ⟨⟨config.asConfig.epoch, index, nonce, ciphertext⟩, seal_eq_ok.mpr ⟨m, _, nonce, hnonce,
    ⟨h.begins, h.lasts, h.ends, h.addressed, h.addrs_limit, h.addrs_distinct, hcandidates, h.signer,
      h.authorized, hpayload, hciphertext, rfl, rfl, rfl⟩⟩⟩

/-- A sealed record can be transported exactly when its payload leaves room for the signature, the
tag and the header. -/
theorem presence_transported_iff {r : EncryptedPresenceRecord}
    (hseal : «seal» config signing endpointId virtualAddrs candidates capabilities sequence
      issuedAtMs expiresAtMs random = .ok r) :
    (∃ wire, r.toBytes = .ok wire ∧ fromBytes wire = .ok r) ↔
      presencePayloadLength virtualAddrs candidates + 148 ≤ maxPresenceWire := by
  rw [transported_iff, ciphertext_length_of_seal hseal]
  omega

end EncryptedPresenceRecord

end Weaver

namespace Weaver.Sample

open Checked Wire Transparent

/-- A keyed hash that hides nothing. -/
scoped instance keyedResidue : KeyedHash := ⟨fun key m => residue (key.val ++ m)⟩

/-- The configuration after the sample invitation was redeemed, and the endpoint and the client
address of the member that joined. -/
def joinedMember : Option (ValidatedNetworkConfig × EndpointId × ScopedVirtualAddr) := do
  let (_, _, _, s) ← redeeming
  let self ← s.1
  let endpoint ← (EndpointBinding.fromBytes (← self.config.asConfig.endpointBindings[1]?)).toOption
  let app ← (AppBinding.fromBytes (← self.config.asConfig.appBindings[0]?)).toOption
  return (self.config, ← EndpointId.fromBytes endpoint.payload.endpointId,
    .client app.payload.appAddr (← app.payload.deviceId))

theorem length_sevens : (List.replicate 24 (7 : UInt8)).length = 24 := rfl

def sealPresence (config : ValidatedNetworkConfig) (endpointId : EndpointId)
    (address : ScopedVirtualAddr) (candidates : List DiscoveryCandidate) :
    Except DiscoveryError EncryptedPresenceRecord :=
  EncryptedPresenceRecord.seal config ⟨fill 40⟩ endpointId [address] candidates 0 1 1200 2000
    (some ⟨List.replicate 24 7, rfl⟩)

def linkLocal : DiscoveryCandidate := .ip (.v6 ⟨[0xfe, 0x80] ++ List.replicate 14 1, rfl⟩ 4000 0 3)

def sealedLinkLocal : Option (ValidatedNetworkConfig × EndpointId × ScopedVirtualAddr ×
    EncryptedPresenceRecord × PresenceRecord) := do
  let (config, endpointId, address) ← joinedMember
  let r ← (sealPresence config endpointId address [linkLocal]).toOption
  return (config, endpointId, address, r, ← (r.open config 1500).toOption)

def inWindow (config : ValidatedNetworkConfig) (endpointId : EndpointId)
    (address : ScopedVirtualAddr) : Bool :=
  config.asConfig.members.all fun raw => (MemberCertificate.fromBytes raw).toOption.all fun m =>
    decide (m.payload.signingPublicKey ≠ fill 40) || (decide (m.payload.notBeforeMs ≤ 1500) &&
      decide (1500 < m.payload.expiresAtMs) && (authorizeEndpointAndAddr config.asConfig
        m.payload.memberId endpointId address 1500).toOption.isSome)

theorem sealedLinkLocal_spec : ∃ config endpointId address r record,
    sealPresence config endpointId address [linkLocal] = .ok r ∧ r.open config 1500 = .ok record ∧
      record.candidates ≠ [linkLocal] ∧ inWindow config endpointId address = true := by
  have hsome : sealedLinkLocal.any (fun (config, endpointId, address, _, record) =>
      decide (record.candidates ≠ [linkLocal]) && inWindow config endpointId address) = true := by
    decide +kernel
  obtain ⟨⟨config, endpointId, address, r, record⟩, hsealed, hlost⟩ :=
    (Option.any_eq_true _ _).mp hsome
  simp only [sealedLinkLocal, Option.bind_eq_bind, Option.bind_eq_some_iff, toOption_eq_some,
    Prod.exists, Option.pure_def, Option.some.injEq, Prod.mk.injEq] at hsealed
  obtain ⟨_, _, _, -, _, hseal, _, hopen, rfl, rfl, rfl, rfl, rfl⟩ := hsealed
  rw [Bool.and_eq_true, decide_eq_true_eq] at hlost
  exact ⟨_, _, _, _, _, hseal, hopen, hlost⟩

/-- The sample record opens to what was sealed. -/
theorem presence_open_seal_sample : ∃ config endpointId address r record,
    sealPresence config endpointId address [linkLocal] = .ok r ∧ r.open config 1500 = .ok record ∧
      record.endpointId = endpointId ∧ record.virtualAddrs = [address] ∧
      record.candidates = [linkLocal.onWire] := by
  obtain ⟨config, endpointId, address, r, _, hseal, -, -, hwindow⟩ := sealedLinkLocal_spec
  have hmember : ∀ m, config.asConfig.ListsMember m →
      m.payload.signingPublicKey = (⟨fill 40⟩ : SigningKeypair).publicBytes →
      (m.payload.notBeforeMs ≤ 1500 ∧ 1500 < m.payload.expiresAtMs) ∧
        config.asConfig.Authorizes m.payload.memberId endpointId address 1500 := by
    intro m hm hkey
    have hall := (Option.all_eq_true _ _).mp (List.all_eq_true.mp hwindow _ hm) m
      (toOption_eq_some.mpr (Signed.fromBytes_toBytes m))
    have hsame : decide (m.payload.signingPublicKey ≠ fill 40) = false :=
      decide_eq_false (not_not.mpr hkey)
    simp only [hsame, Bool.false_or, Bool.and_eq_true, decide_eq_true_eq] at hall
    obtain ⟨_, hauthorized⟩ := Option.isSome_iff_exists.mp hall.2
    exact ⟨hall.1, authorizeEndpointAndAddr_eq_ok.mp (toOption_eq_some.mp hauthorized)⟩
  obtain ⟨m, -, -, hopen⟩ := EncryptedPresenceRecord.presence_open_seal hseal
    (show (1200 : UInt64) ≤ 1500 by decide) (by decide) (fun m hm hkey => (hmember m hm hkey).1)
    fun m hm hkey a ha => List.mem_singleton.mp ha ▸ (hmember m hm hkey).2
  exact ⟨config, endpointId, address, r, _, hseal, hopen, rfl, rfl, rfl⟩

/-- The link-local address does not keep its scope. -/
theorem scope_lost : ∃ config endpointId address r record,
    sealPresence config endpointId address [linkLocal] = .ok r ∧ r.open config 1500 = .ok record ∧
      record.candidates ≠ [linkLocal] := by
  obtain ⟨config, endpointId, address, r, record, hseal, hopen, hlost, -⟩ := sealedLinkLocal_spec
  exact ⟨config, endpointId, address, r, record, hseal, hopen, hlost⟩

@[irreducible]
def longUrl (n : ℕ) : String := String.ofList (List.replicate n 'r')

theorem longUrl_length (n : ℕ) : (utf8 (longUrl n)).length = n := by
  have hsize : (utf8 (longUrl n)).length = String.utf8Len (List.replicate n 'r') := by
    rw [longUrl, ← String.utf8ByteSize_ofList, ← String.size_toByteArray]
    simp [utf8]
  rw [hsize]
  clear hsize
  induction n with
  | zero => rfl
  | succ n ih =>
    rw [List.replicate_succ, String.utf8Len_cons, ih]
    rfl

def longRelays : List DiscoveryCandidate :=
  (List.replicate 7 2048 ++ [1700]).map fun n => .relay (longUrl n)

theorem longRelays_valid : validateCandidates longRelays = .ok () := by
  refine failIf_neg (not_or.mpr ⟨by decide, ?_⟩)
  rw [longRelays, List.any_map]
  simp [Function.comp_def, longUrl_length, maxRelayUrlLen, -List.length_eq_zero_iff]

theorem longRelays_length (address : ScopedVirtualAddr) :
    16236 < presencePayloadLength [address] longRelays ∧
      presencePayloadLength [address] longRelays + 64 ≤ maxPresenceWire := by
  have haddress : 33 ≤ (encodeVirtualAddr address).length ∧
      (encodeVirtualAddr address).length ≤ 65 := by
    cases address with
    | server app => simp [encodeVirtualAddr, bytesN_length]
    | client app device => simp [encodeVirtualAddr, bytesN_length]
  have hsum : (longRelays.map DiscoveryCandidate.wireLength).sum = 16060 := by
    rw [longRelays, List.map_map]
    simp [Function.comp_def, DiscoveryCandidate.wireLength, longUrl_length]
  simp only [presencePayloadLength, hsum, List.map_cons, List.map_nil, List.sum_cons, List.sum_nil]
  unfold maxPresenceWire
  omega

/-- The link-local record arrives. -/
theorem presence_transported_sample : ∃ config endpointId address r wire,
    sealPresence config endpointId address [linkLocal] = .ok r ∧ r.toBytes = .ok wire ∧
      EncryptedPresenceRecord.fromBytes wire = .ok r := by
  obtain ⟨config, endpointId, address, r, _, hseal, -⟩ := sealedLinkLocal_spec
  have hfits : presencePayloadLength [address] [linkLocal] + 148 ≤ maxPresenceWire := by
    cases address with
    | server app => simp [presencePayloadLength, encodeVirtualAddr, bytesN_length, linkLocal,
        DiscoveryCandidate.wireLength, maxPresenceWire]
    | client app device => simp [presencePayloadLength, encodeVirtualAddr, bytesN_length, linkLocal,
        DiscoveryCandidate.wireLength, maxPresenceWire]
  obtain ⟨wire, hwire, hread⟩ :=
    (EncryptedPresenceRecord.presence_transported_iff hseal).mpr hfits
  exact ⟨config, endpointId, address, r, wire, hseal, hwire, hread⟩

/-- A record with the long URLs is sealed, and does not arrive. -/
theorem long_relays_refused : ∃ config endpointId address r,
    sealPresence config endpointId address longRelays = .ok r ∧
      ¬ ∃ wire, r.toBytes = .ok wire ∧ EncryptedPresenceRecord.fromBytes wire = .ok r := by
  obtain ⟨config, endpointId, address, _, _, hseal, -⟩ := sealedLinkLocal_spec
  obtain ⟨hlong, hfits⟩ := longRelays_length address
  obtain ⟨r, hseal'⟩ := EncryptedPresenceRecord.exists_seal_of_candidates hseal longRelays_valid
    hfits fun _ _ _ _ => ⟨_, rfl⟩
  refine ⟨config, endpointId, address, r, hseal', ?_⟩
  rw [EncryptedPresenceRecord.transported_iff,
    EncryptedPresenceRecord.ciphertext_length_of_seal hseal']
  unfold maxPresenceWire
  omega

end Weaver.Sample
