import Weaver.Config.Snapshot
import Weaver.Lib.Exact

/-!
# The snapshot format round-trips

`fromBytes_of_toBytes`: what `to_bytes` writes, `from_bytes` reads back as the same snapshot. The
items of each list are read back one by one (`Decoder.Inverts`), the counts are within the limits
that `validate_shape` checked before anything was written, and the strings written are the ones
that the reader accepts.

`snapshot_codec_exact`: there is nothing else that `from_bytes` reads. What it consumes is what
`to_bytes` writes (`Decoder.Consumes`), or the layout of the first version, which has no virtual DNS
records.
-/

namespace Weaver

open Checked Wire Wire.Decoder Snapshot

namespace Snapshot

theorem pushCount_eq_ok {n : ℕ} {b : Bytes} :
    pushCount n = .ok b ↔ n < 2^16 ∧ b = be16 (UInt16.ofNat n) := by
  unfold pushCount
  simp only [bind_eq_ok, failIf_eq_ok, exists_and_left, exists_const, pure_eq_ok_iff, not_le]
  exact and_congr_right fun _ => eq_comm

theorem count_run {n maximum : ℕ} {b : Bytes} (h : pushCount n = .ok b) (hn : n ≤ maximum)
    (rest : Bytes) : (count maximum).run (b ++ rest) = .ok (n, rest) := by
  obtain ⟨hlt, rfl⟩ := pushCount_eq_ok.mp h
  have htoNat : (UInt16.ofNat n).toNat = n := UInt16.toNat_ofNat_of_lt' hlt
  have hcheck : checkLen n maximum = .ok () := checkLen_eq_ok.mpr hn
  unfold count
  simp [htoNat, hcheck, Except.map]

theorem blob_inverts : blob.Inverts pushBlob := by
  intro x b rest h
  unfold pushBlob at h
  simp only [bind_eq_ok, failIf_eq_ok, pushCount_eq_ok, pure_eq_ok_iff, not_or, not_lt] at h
  obtain ⟨_, ⟨hne, hle⟩, len, ⟨hlt, rfl⟩, rfl⟩ := h
  have htoNat : (UInt16.ofNat x.length).toNat = x.length := UInt16.toNat_ofNat_of_lt' hlt
  have hcheck : failIf (x.length = 0 ∨ maxCredentialBytes < x.length)
      SnapshotError.invalidLength = .ok () := by
    rw [failIf_eq_ok, List.length_eq_zero_iff]
    exact not_or.mpr ⟨hne, not_lt.mpr hle⟩
  have htake : (take SnapshotError.malformedWire x.length).run (x ++ rest) = .ok (x, rest) :=
    take_run rfl
  unfold blob
  rw [List.append_assoc, bind_run, u16_run, ok_bind, bind_run, htoNat, lift_run_ok hcheck, ok_bind,
    htake]

theorem string_inverts : string.Inverts pushString := by
  intro x b rest h
  unfold pushString at h
  simp only [bind_eq_ok, validateUrl_eq_ok, pushCount_eq_ok, pure_eq_ok_iff] at h
  obtain ⟨_, hurl, len, ⟨hlt, rfl⟩, rfl⟩ := h
  have hvalid : validateUrl x = .ok () := validateUrl_eq_ok.mpr hurl
  have htoNat : (UInt16.ofNat (utf8 x).length).toNat = (utf8 x).length :=
    UInt16.toNat_ofNat_of_lt' hlt
  have hcheck : failIf ((utf8 x).length = 0 ∨ maxUrlBytes < (utf8 x).length)
      SnapshotError.invalidLength = .ok () := by
    rw [failIf_eq_ok]
    exact not_or.mpr ⟨hurl.1, not_lt.mpr hurl.2.1⟩
  have htake : (take SnapshotError.malformedWire (utf8 x).length).run (utf8 x ++ rest) =
      .ok (utf8 x, rest) := take_run rfl
  have hutf8 : okOr (fromUtf8 (utf8 x)) SnapshotError.malformedWire = .ok x := by
    rw [fromUtf8_utf8, okOr_some]
  unfold string
  rw [List.append_assoc, bind_run, u16_run, ok_bind, bind_run, htoNat, lift_run_ok hcheck, ok_bind,
    bind_run, htake, ok_bind, bind_run, lift_run_ok hutf8, ok_bind, bind_run, lift_run_ok hvalid,
    ok_bind, pure_run]

theorem listOf_run {α : Type} {item : Decoder SnapshotError α}
    {push : α → Except SnapshotError Bytes} (hinv : item.Inverts push) {l : List α} {b : Bytes}
    {maximum : ℕ} (h : pushList push l = .ok b) (hl : l.length ≤ maximum) (rest : Bytes) :
    (listOf maximum item).run (b ++ rest) = .ok (l, rest) := by
  unfold pushList at h
  simp only [bind_eq_ok, pure_eq_ok_iff] at h
  obtain ⟨c, hc, items, hitems, rfl⟩ := h
  have hcount := count_run hc hl (items.flatten ++ rest)
  have hmany := hinv.many hitems rest
  unfold listOf
  rw [List.append_assoc, bind_run, hcount, ok_bind, hmany]

theorem adminKeyItem_inverts : adminKeyItem.Inverts fun key => pushBlob key.certificate := by
  intro key b rest h
  have hblob := blob_inverts key.certificate b rest h
  unfold adminKeyItem
  rw [bind_run, hblob, ok_bind, pure_run]

theorem serial_inverts :
    (u64 SnapshotError.malformedWire).Inverts
      fun serial => (pure (be64 serial) : Except SnapshotError Bytes) := by
  intro serial b rest h
  have hb := pure_eq_ok_iff.mp h
  rw [← hb, u64_run]

theorem dnsItem_inverts : dnsItem.Inverts pushDnsRecord := by
  intro record b rest h
  unfold pushDnsRecord at h
  simp only [bind_eq_ok, pure_eq_ok_iff] at h
  obtain ⟨name, hname, rfl⟩ := h
  have hstring := fun r => string_inverts record.name.asStr name r hname
  unfold dnsItem
  simp [hstring, Except.map]

theorem relayItem_inverts : relayItem.Inverts pushRelay := by
  intro relay b rest h
  unfold pushRelay at h
  simp only [bind_eq_ok, pure_eq_ok_iff] at h
  obtain ⟨url, hurl, rfl⟩ := h
  have hstring := fun r => string_inverts relay.url url r hurl
  unfold relayItem
  simp [hstring]

theorem presenceItem_inverts : presenceItem.Inverts pushPresence := by
  intro service b rest h
  unfold pushPresence at h
  simp only [bind_eq_ok, pure_eq_ok_iff] at h
  obtain ⟨url, hurl, rfl⟩ := h
  have hstring := fun r => string_inverts service.url url r hurl
  unfold presenceItem
  simp [hstring]

theorem version_run (rest : Bytes) :
    (version (snapshotMagicV2 ++ rest)).run (snapshotMagicV2 ++ rest) = .ok (true, rest) := by
  have hprefix : snapshotMagicV2.isPrefixOf (snapshotMagicV2 ++ rest) = true := by
    rw [List.isPrefixOf_iff_prefix]
    exact List.prefix_append _ _
  unfold version
  rw [if_pos hprefix, bind_run, magic_run, ok_bind, pure_run]

end Snapshot

variable {c : NetworkConfigV1} {b : Bytes}

theorem NetworkConfigV1.fields_run (h : c.toBytes = .ok b) (rest : Bytes) :
    (fields (b ++ rest)).run (b ++ rest) =
      (finish SnapshotError.malformedWire).run rest >>= fun p => .ok (c, p.2) := by
  unfold NetworkConfigV1.toBytes at h
  simp only [bind_eq_ok, pure_eq_ok_iff] at h
  obtain ⟨_, hshape, ba, ha, bm, hm, be, he, br, hr, bp, hp, bb, hb, bd, hd, by', hy, bs, hs,
    rfl⟩ := h
  have hlim := validateShape_eq_ok.mp hshape
  -- each list is read back within the limit that the shape gives
  have hadmin := listOf_run adminKeyItem_inverts ha hlim.admin_keys
  have hmember := listOf_run blob_inverts hm hlim.members
  have hendpoint := listOf_run blob_inverts he hlim.endpoint_bindings
  have hrevoked := listOf_run serial_inverts hr hlim.revoked_serials
  have happ := listOf_run blob_inverts hp hlim.apps
  have hbinding := listOf_run blob_inverts hb hlim.app_bindings
  have hdns := listOf_run dnsItem_inverts hd hlim.virtual_dns
  have hrelay := listOf_run relayItem_inverts hy hlim.relays
  have hpresence := listOf_run presenceItem_inverts hs hlim.presence_services
  unfold fields NetworkConfigV1.encodeHeader NetworkConfigV1.encodeTrailer EpochSecrets.encode
    epochSecretsItem policyItem
  simp only [List.flatten_cons, List.flatten_nil, List.append_assoc, List.nil_append, bind_run,
    version_run, ok_bind, array_run, u64_run, u32_run, u16_run, hadmin, hmember, hendpoint,
    hrevoked, happ, hbinding, hdns, hrelay, hpresence, pure_run, if_true]

theorem NetworkConfigV1.fromBytes_of_toBytes (h : c.toBytes = .ok b) :
    NetworkConfigV1.fromBytes b = .ok c := by
  have hfields := NetworkConfigV1.fields_run h []
  rw [List.append_nil, finish_run, ok_bind] at hfields
  have hshape : c.validateShape = .ok () := by
    unfold NetworkConfigV1.toBytes at h
    exact (bind_eq_ok.mp h).choose_spec.1
  unfold NetworkConfigV1.fromBytes
  rw [decode_eq_ok_of_run hfields, ok_bind, hshape, ok_bind, pure_eq_ok]

/-! ## The reader accepts nothing else -/

/-- The layout of the first version, which has no virtual DNS records. Nothing writes it any more. -/
def NetworkConfigV1.toBytesV1 (c : NetworkConfigV1) : Except SnapshotError Bytes := do
  let adminKeys ← pushList (fun key => pushBlob key.certificate) c.adminKeys
  let members ← pushList pushBlob c.members
  let endpointBindings ← pushList pushBlob c.endpointBindings
  let revokedSerials ← pushList (fun serial => pure (be64 serial)) c.revokedSerials
  let apps ← pushList pushBlob c.apps
  let appBindings ← pushList pushBlob c.appBindings
  let relays ← pushList pushRelay c.relays
  let presenceServices ← pushList pushPresence c.presenceServices
  return snapshotMagicV1 ++ c.networkId.asBytes.val ++ be64 c.epoch ++ be64 c.revision ++
    c.previousHash.val ++ be64 c.issuedAtMs ++ be64 c.expiresAtMs ++ adminKeys ++ members ++
    endpointBindings ++ revokedSerials ++ apps ++ appBindings ++ relays ++ presenceServices ++
    c.encodeTrailer

theorem utf8_of_fromUtf8 {s : String} (h : fromUtf8 b = some s) : utf8 s = b := by
  unfold fromUtf8 String.fromUTF8? at h
  split at h
  · rw [← Option.some.inj h]
    rfl
  · cases h

theorem VirtualName.asStr_of_new {text : String} {name : VirtualName}
    (h : VirtualName.new text = some name) : name.asStr = text := by
  unfold VirtualName.new at h
  split at h
  · rw [← Option.some.inj h]
  · cases h

namespace Snapshot

theorem count_consumes {maximum n : ℕ} {b rest : Bytes}
    (h : (count maximum).run b = .ok (n, rest)) :
    n ≤ maximum ∧ ∃ bytes, pushCount n = .ok bytes ∧ b = bytes ++ rest := by
  unfold count at h
  simp only [bind_run_eq_ok, u16_run_eq_ok, lift_run_eq_ok, checkLen_eq_ok, pure_run_eq_ok] at h
  obtain ⟨x, _, rfl, _, _, ⟨hle, rfl⟩, rfl, rfl⟩ := h
  refine ⟨hle, be16 x, pushCount_eq_ok.mpr ⟨x.toNat_lt, ?_⟩, rfl⟩
  rw [UInt16.ofNat_toNat]

theorem blob_consumes : blob.Consumes pushBlob := by
  intro b a rest h
  unfold blob at h
  simp only [bind_run_eq_ok, u16_run_eq_ok, lift_run_eq_ok, failIf_eq_ok, take_run_eq_ok,
    not_or, not_lt] at h
  obtain ⟨x, _, rfl, _, _, ⟨⟨hne, hle⟩, rfl⟩, hlen, rfl⟩ := h
  refine ⟨be16 x ++ a, ?_, by rw [List.append_assoc]⟩
  have hcount : pushCount a.length = .ok (be16 x) := by
    rw [hlen, pushCount_eq_ok, UInt16.ofNat_toNat]
    exact ⟨x.toNat_lt, rfl⟩
  have hcheck : failIf (a = [] ∨ maxCredentialBytes < a.length) SnapshotError.invalidLength =
      .ok () := by
    rw [failIf_eq_ok, ← List.length_eq_zero_iff, hlen]
    exact not_or.mpr ⟨hne, not_lt.mpr hle⟩
  unfold pushBlob
  rw [hcheck, ok_bind, hcount, ok_bind, pure_eq_ok]

theorem string_consumes : string.Consumes pushString := by
  intro b a rest h
  unfold string at h
  simp only [bind_run_eq_ok, u16_run_eq_ok, lift_run_eq_ok, take_run_eq_ok, okOr_eq_ok,
    pure_run_eq_ok] at h
  obtain ⟨x, _, rfl, _, _, ⟨-, rfl⟩, bytes, _, ⟨hlen, rfl⟩, text, _, ⟨hutf8, rfl⟩, _, _,
    ⟨hurl, rfl⟩, rfl, rfl⟩ := h
  obtain rfl := utf8_of_fromUtf8 hutf8
  refine ⟨be16 x ++ utf8 text, ?_, by rw [List.append_assoc]⟩
  have hcount : pushCount (utf8 text).length = .ok (be16 x) := by
    rw [hlen, pushCount_eq_ok, UInt16.ofNat_toNat]
    exact ⟨x.toNat_lt, rfl⟩
  unfold pushString
  rw [hurl, ok_bind, hcount, ok_bind, pure_eq_ok]

theorem listOf_consumes {α : Type} {item : Decoder SnapshotError α}
    {push : α → Except SnapshotError Bytes} (hitem : item.Consumes push) {maximum : ℕ}
    {b rest : Bytes} {l : List α} (h : (listOf maximum item).run b = .ok (l, rest)) :
    ∃ bytes, pushList push l = .ok bytes ∧ b = bytes ++ rest := by
  unfold listOf at h
  obtain ⟨n, _, hcount, hmany⟩ := bind_run_eq_ok.mp h
  obtain ⟨-, count, hpush, rfl⟩ := count_consumes hcount
  obtain ⟨rfl, items, hitems, rfl⟩ := hitem.many hmany
  refine ⟨count ++ items.flatten, ?_, by rw [List.append_assoc]⟩
  unfold pushList
  rw [hpush, ok_bind, hitems, ok_bind, pure_eq_ok]

theorem adminKeyItem_consumes : adminKeyItem.Consumes fun key => pushBlob key.certificate := by
  intro b key rest h
  unfold adminKeyItem at h
  simp only [bind_run_eq_ok, pure_run_eq_ok] at h
  obtain ⟨certificate, _, hblob, rfl, rfl⟩ := h
  exact blob_consumes _ _ _ hblob

theorem serial_consumes : (u64 SnapshotError.malformedWire).Consumes
    fun serial => (pure (be64 serial) : Except SnapshotError Bytes) := by
  intro b serial rest h
  exact ⟨be64 serial, rfl, u64_run_eq_ok.mp h⟩

theorem dnsItem_consumes : dnsItem.Consumes pushDnsRecord := by
  intro b record rest h
  unfold dnsItem at h
  simp only [bind_run_eq_ok, lift_run_eq_ok, okOr_eq_ok, array_run_eq_ok, u64_run_eq_ok,
    pure_run_eq_ok] at h
  obtain ⟨text, _, hstring, name, _, ⟨hname, rfl⟩, app, _, rfl, expires, _, rfl, rfl, rfl⟩ := h
  obtain ⟨bytes, hpush, rfl⟩ := string_consumes _ _ _ hstring
  have htext : name.asStr = text := VirtualName.asStr_of_new hname
  refine ⟨bytes ++ app.val ++ be64 expires, ?_, by simp only [List.append_assoc]⟩
  unfold pushDnsRecord
  rw [htext, hpush, ok_bind, pure_eq_ok]

theorem relayItem_consumes : relayItem.Consumes pushRelay := by
  intro b relay rest h
  unfold relayItem at h
  simp only [bind_run_eq_ok, array_run_eq_ok, u32_run_eq_ok, u64_run_eq_ok, pure_run_eq_ok] at h
  obtain ⟨endpoint, _, rfl, url, _, hstring, roles, _, rfl, expires, _, rfl, rfl, rfl⟩ := h
  obtain ⟨bytes, hpush, rfl⟩ := string_consumes _ _ _ hstring
  refine ⟨endpoint.val ++ bytes ++ be32 roles ++ be64 expires, ?_, by simp only [List.append_assoc]⟩
  unfold pushRelay
  rw [hpush, ok_bind, pure_eq_ok]

theorem presenceItem_consumes : presenceItem.Consumes pushPresence := by
  intro b service rest h
  unfold presenceItem at h
  simp only [bind_run_eq_ok, array_run_eq_ok, u64_run_eq_ok, pure_run_eq_ok] at h
  obtain ⟨endpoint, _, rfl, url, _, hstring, expires, _, rfl, rfl, rfl⟩ := h
  obtain ⟨bytes, hpush, rfl⟩ := string_consumes _ _ _ hstring
  refine ⟨endpoint.val ++ bytes ++ be64 expires, ?_, by simp only [List.append_assoc]⟩
  unfold pushPresence
  rw [hpush, ok_bind, pure_eq_ok]

theorem version_consumes {bytes b rest : Bytes} {hasVirtualDns : Bool}
    (h : (version bytes).run b = .ok (hasVirtualDns, rest)) :
    hasVirtualDns = true ∧ snapshotMagicV2 <+: bytes ∧ b = snapshotMagicV2 ++ rest ∨
      hasVirtualDns = false ∧ b = snapshotMagicV1 ++ rest := by
  unfold version at h
  split at h
  · next hv2 =>
    simp only [bind_run_eq_ok, magic_run_eq_ok, pure_run_eq_ok] at h
    obtain ⟨_, _, rfl, rfl, rfl⟩ := h
    exact .inl ⟨rfl, List.isPrefixOf_iff_prefix.mp hv2, rfl⟩
  split at h
  · simp only [bind_run_eq_ok, magic_run_eq_ok, pure_run_eq_ok] at h
    obtain ⟨_, _, rfl, rfl, rfl⟩ := h
    exact .inr ⟨rfl, rfl⟩
  · cases h

end Snapshot

theorem snapshotMagicV2_separates (rest : Bytes) :
    ¬ snapshotMagicV2 <+: snapshotMagicV1 ++ rest := by
  intro h
  have heq := List.prefix_iff_eq_take.mp h
  have hlen : snapshotMagicV2.length = snapshotMagicV1.length := by decide
  rw [hlen, List.take_left] at heq
  exact absurd heq (by decide)

/-- What `fromBytes` accepts is what `toBytes` writes for its result, or the layout of the first
version of a result that has no virtual DNS records and that `toBytes` can write. -/
theorem NetworkConfigV1.toBytes_of_fromBytes (h : NetworkConfigV1.fromBytes b = .ok c) :
    snapshotMagicV2 <+: b ∧ c.toBytes = .ok b ∨
      ¬ snapshotMagicV2 <+: b ∧ c.virtualDns = [] ∧ c.toBytesV1 = .ok b ∧
        ∃ b', c.toBytes = .ok b' := by
  unfold NetworkConfigV1.fromBytes at h
  simp only [bind_eq_ok, pure_eq_ok_iff, decode_eq_ok] at h
  obtain ⟨_, ⟨rest, hfields⟩, _, hshape, rfl⟩ := h
  unfold fields epochSecretsItem policyItem at hfields
  simp only [ite_bind, bind_run_eq_ok, array_run_eq_ok, u64_run_eq_ok, u32_run_eq_ok, u16_run_eq_ok,
    pure_run_eq_ok, finish_run_eq_ok] at hfields
  obtain ⟨hasVirtualDns, _, hversion, network, _, rfl, epoch, _, rfl, revision, _, rfl, previous, _,
    rfl, issued, _, rfl, expires, _, rfl, adminKeys, _, hadmins, members, _, hmembers, endpoints, _,
    hendpoints, revoked, _, hrevoked, apps, _, happs, bindings, _, hbindings, dns, _, hdns, relays,
    _, hrelays, presence, _, hpresence, _, _, ⟨seed₁, _, rfl, seed₂, _, rfl, seed₃, _, rfl, seed₄, _,
    rfl, rfl, rfl⟩, _, _, ⟨flags, _, rfl, maxMembers, _, rfl, maxServices, _, rfl, rfl, rfl⟩, _, _,
    ⟨rfl, rfl⟩, rfl, rfl⟩ := hfields
  -- each part of the input is what is written for the part that was read from it
  obtain ⟨ba, ha, rfl⟩ := listOf_consumes adminKeyItem_consumes hadmins
  obtain ⟨bm, hm, rfl⟩ := listOf_consumes blob_consumes hmembers
  obtain ⟨be, he, rfl⟩ := listOf_consumes blob_consumes hendpoints
  obtain ⟨br, hr, rfl⟩ := listOf_consumes serial_consumes hrevoked
  obtain ⟨bp, hp, rfl⟩ := listOf_consumes blob_consumes happs
  obtain ⟨bb, hb, rfl⟩ := listOf_consumes blob_consumes hbindings
  obtain ⟨by', hy, rfl⟩ := listOf_consumes relayItem_consumes hrelays
  obtain ⟨bs, hs, rfl⟩ := listOf_consumes presenceItem_consumes hpresence
  rcases version_consumes hversion with ⟨rfl, hv2, rfl⟩ | ⟨rfl, rfl⟩
  · obtain ⟨bd, hd, rfl⟩ := listOf_consumes dnsItem_consumes hdns
    refine .inl ⟨hv2, ?_⟩
    unfold NetworkConfigV1.toBytes
    simp only [hshape, ok_bind, ha, hm, he, hr, hp, hb, hd, hy, hs]
    simp only [NetworkConfigV1.encodeHeader, NetworkConfigV1.encodeTrailer, EpochSecrets.encode,
      List.flatten_cons, List.flatten_nil, List.append_assoc, List.append_nil, pure_eq_ok]
  · obtain ⟨rfl, rfl⟩ := pure_run_eq_ok.mp hdns
    refine .inr ⟨snapshotMagicV2_separates _, rfl, ?_, ?_⟩
    · unfold NetworkConfigV1.toBytesV1
      simp only [ok_bind, ha, hm, he, hr, hp, hb, hy, hs]
      simp only [NetworkConfigV1.encodeTrailer, EpochSecrets.encode, List.append_assoc,
        List.append_nil, pure_eq_ok]
    · have hd : pushList pushDnsRecord [] = .ok (be16 0) := rfl
      unfold NetworkConfigV1.toBytes
      simp only [hshape, ok_bind, ha, hm, he, hr, hp, hb, hd, hy, hs]
      exact ⟨_, rfl⟩

theorem NetworkConfigV1.fields_runV1 (h : c.toBytesV1 = .ok b) (hlim : c.Shape)
    (hnone : c.virtualDns = []) (rest : Bytes) :
    (fields (b ++ rest)).run (b ++ rest) =
      (finish SnapshotError.malformedWire).run rest >>= fun p => .ok (c, p.2) := by
  unfold NetworkConfigV1.toBytesV1 at h
  simp only [bind_eq_ok, pure_eq_ok_iff] at h
  obtain ⟨ba, ha, bm, hm, be, he, br, hr, bp, hp, bb, hb, by', hy, bs, hs, rfl⟩ := h
  have hadmin := listOf_run adminKeyItem_inverts ha hlim.admin_keys
  have hmember := listOf_run blob_inverts hm hlim.members
  have hendpoint := listOf_run blob_inverts he hlim.endpoint_bindings
  have hrevoked := listOf_run serial_inverts hr hlim.revoked_serials
  have happ := listOf_run blob_inverts hp hlim.apps
  have hbinding := listOf_run blob_inverts hb hlim.app_bindings
  have hrelay := listOf_run relayItem_inverts hy hlim.relays
  have hpresence := listOf_run presenceItem_inverts hs hlim.presence_services
  have hversion : ∀ rest, (version (snapshotMagicV1 ++ rest)).run (snapshotMagicV1 ++ rest) =
      .ok (false, rest) := by
    intro rest
    have hv2 : snapshotMagicV2.isPrefixOf (snapshotMagicV1 ++ rest) = false := by
      rw [Bool.eq_false_iff, ne_eq, List.isPrefixOf_iff_prefix]
      exact snapshotMagicV2_separates rest
    have hv1 : snapshotMagicV1.isPrefixOf (snapshotMagicV1 ++ rest) = true := by
      rw [List.isPrefixOf_iff_prefix]
      exact List.prefix_append _ _
    unfold version
    rw [hv2, hv1, if_neg (by simp), if_pos rfl, bind_run, magic_run, ok_bind, pure_run]
  unfold fields NetworkConfigV1.encodeTrailer EpochSecrets.encode epochSecretsItem policyItem
  simp only [List.append_assoc, bind_run, hversion, ok_bind, array_run, u64_run, u32_run, u16_run,
    hadmin, hmember, hendpoint, hrevoked, happ, hbinding, hrelay, hpresence, pure_run,
    Bool.false_eq_true, if_false, ← hnone]

theorem NetworkConfigV1.fromBytes_append {rest : Bytes} {c' : NetworkConfigV1}
    (h : NetworkConfigV1.fromBytes b = .ok c)
    (h' : NetworkConfigV1.fromBytes (b ++ rest) = .ok c') : rest = [] := by
  have hrun : (fields (b ++ rest)).run (b ++ rest) =
      (finish SnapshotError.malformedWire).run rest >>= fun p => .ok (c, p.2) := by
    rcases NetworkConfigV1.toBytes_of_fromBytes h with ⟨-, hbytes⟩ | ⟨-, hnone, hbytes, _, hwrites⟩
    · exact NetworkConfigV1.fields_run hbytes rest
    · unfold NetworkConfigV1.toBytes at hwrites
      obtain ⟨_, hshape, -⟩ := bind_eq_ok.mp hwrites
      exact NetworkConfigV1.fields_runV1 hbytes (validateShape_eq_ok.mp hshape) hnone rest
  unfold NetworkConfigV1.fromBytes at h'
  obtain ⟨_, hdecode, -⟩ := bind_eq_ok.mp h'
  obtain ⟨_, hfields⟩ := decode_eq_ok.mp hdecode
  rw [hrun] at hfields
  obtain ⟨⟨_, _⟩, hfinish, -⟩ := bind_eq_ok.mp hfields
  exact (finish_run_eq_ok.mp hfinish).1

/-- What is written is read back; what is read in the current format is what is written for the
result; what is read in the first format has no virtual DNS records, is the layout of the result's
fields, and the result can be written and read back; and nothing is read that goes on after the
fields. -/
theorem snapshot_codec_exact :
    (∀ (c : NetworkConfigV1) (b : Bytes), c.toBytes = .ok b →
      NetworkConfigV1.fromBytes b = .ok c) ∧
    (∀ (b : Bytes) (c : NetworkConfigV1), snapshotMagicV2 <+: b →
      NetworkConfigV1.fromBytes b = .ok c → c.toBytes = .ok b) ∧
    (∀ (b : Bytes) (c : NetworkConfigV1), ¬ snapshotMagicV2 <+: b →
      NetworkConfigV1.fromBytes b = .ok c →
      c.virtualDns = [] ∧ c.toBytesV1 = .ok b ∧
        ∃ b', c.toBytes = .ok b' ∧ NetworkConfigV1.fromBytes b' = .ok c) ∧
    ∀ (b rest : Bytes) (c c' : NetworkConfigV1), NetworkConfigV1.fromBytes b = .ok c →
      NetworkConfigV1.fromBytes (b ++ rest) = .ok c' → rest = [] := by
  refine ⟨fun c b h => NetworkConfigV1.fromBytes_of_toBytes h, ?_, ?_,
    fun b rest c c' h h' => NetworkConfigV1.fromBytes_append h h'⟩
  · intro b c hv2 h
    rcases NetworkConfigV1.toBytes_of_fromBytes h with ⟨-, hbytes⟩ | ⟨hnot, -⟩
    · exact hbytes
    · exact absurd hv2 hnot
  · intro b c hv1 h
    rcases NetworkConfigV1.toBytes_of_fromBytes h with ⟨hv2, -⟩ | ⟨-, hnone, hbytes, b', hwrites⟩
    · exact absurd hv2 hv1
    · exact ⟨hnone, hbytes, b', hwrites, NetworkConfigV1.fromBytes_of_toBytes hwrites⟩

end Weaver

namespace Weaver.Sample

open Checked Wire

def bareSnapshot : NetworkConfigV1 where
  networkId := ⟨zeroes 32⟩
  epoch := 0
  revision := 0
  previousHash := zeroes 32
  issuedAtMs := 0
  expiresAtMs := 1
  adminKeys := []
  members := []
  endpointBindings := []
  revokedSerials := []
  apps := []
  appBindings := []
  virtualDns := []
  relays := []
  presenceServices := []
  epochSecrets := ⟨zeroes 32, zeroes 32, zeroes 32, zeroes 32⟩
  policies := .default

def bareBytesV1 : Bytes := bareSnapshot.toBytesV1.toOption.getD []

theorem bareSnapshot_result : bareSnapshot.toBytes.toOption.isSome = true ∧
    snapshotMagicV2.isPrefixOf bareBytesV1 = false ∧
    (NetworkConfigV1.fromBytes bareBytesV1).toOption = some bareSnapshot := by decide +kernel

/-- The snapshot is read back from both layouts. -/
theorem snapshot_codec_exact_sample :
    (∃ b, bareSnapshot.toBytes = .ok b ∧ NetworkConfigV1.fromBytes b = .ok bareSnapshot) ∧
      bareSnapshot.toBytesV1 = .ok bareBytesV1 := by
  obtain ⟨hsome, hv1, hread⟩ := bareSnapshot_result
  obtain ⟨b, hb⟩ := Option.isSome_iff_exists.mp hsome
  have hbytes : bareSnapshot.toBytes = .ok b := toOption_eq_some.mp hb
  have hnot : ¬ snapshotMagicV2 <+: bareBytesV1 := by
    rw [← List.isPrefixOf_iff_prefix, hv1]
    exact Bool.false_ne_true
  refine ⟨⟨b, hbytes, snapshot_codec_exact.1 bareSnapshot b hbytes⟩, ?_⟩
  exact (snapshot_codec_exact.2.2.1 bareBytesV1 bareSnapshot hnot (toOption_eq_some.mp hread)).2.1

end Weaver.Sample
