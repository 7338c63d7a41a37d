import Mathlib.Data.List.Flatten
import Weaver.Config.Sealable

/-!
# Removing entries from a configuration

A configuration is issued again with some of its entries left out. When the old one is valid at the
time of issuing, the new one is valid exactly when the virtual DNS records that it keeps have not
expired: those records alone are compared with the time of issuing (`Trimmed.acceptable_iff`). It is
no longer than the old one, so that what could be sealed can still be sealed (`Trimmed.sealable`).
-/

namespace Weaver

open Checked Wire Collect Snapshot

variable [Crypto]

/-! ## Validity -/

/-- The second configuration is the first one, issued again at the time with some of its entries left
out: a binding stays only with its member, and no entry that stays is revoked. -/
structure Trimmed (c next : NetworkConfigV1) (nowMs : UInt64) : Prop where
  network : next.networkId = c.networkId
  issued : next.issuedAtMs = nowMs
  expires : next.expiresAtMs = c.expiresAtMs
  policies : next.policies = c.policies
  admins : next.adminKeys = c.adminKeys
  apps : next.apps = c.apps
  members : next.members.Sublist c.members
  endpoints : next.endpointBindings.Sublist c.endpointBindings
  bindings : next.appBindings.Sublist c.appBindings
  dns : next.virtualDns.Sublist c.virtualDns
  relays : next.relays.Sublist c.relays
  presence : next.presenceServices.Sublist c.presenceServices
  endpoint_member : ∀ b m, next.ListsEndpoint b → c.ListsMember m →
    b.payload.memberId = m.payload.memberId → next.ListsMember m
  binding_member : ∀ (b : AppBinding) m, b.toBytes ∈ next.appBindings → c.ListsMember m →
    b.payload.subject = m.payload.memberId → next.ListsMember m
  revoked_distinct : next.revokedSerials.Nodup
  revoked_limit : next.revokedSerials.length ≤ maxRevokedSerials
  admin_unrevoked : ∀ a, c.ListsAdmin a → a.payload.serial ∉ next.revokedSerials
  member_unrevoked : ∀ m, next.ListsMember m → m.payload.serial ∉ next.revokedSerials
  room : 8 * next.revokedSerials.length + 2 * next.members.length + next.members.flatten.length ≤
    8 * c.revokedSerials.length + 2 * c.members.length + c.members.flatten.length

section Validity

variable {c next : NetworkConfigV1} {nowMs : UInt64}

omit [Crypto] in
theorem Trimmed.shape (h : Trimmed c next nowMs) (hc : c.Shape) (hnow : nowMs < c.expiresAtMs) :
    next.Shape := by
  refine ⟨?_, ?_, ?_, ?_, h.revoked_limit, ?_, ?_, ?_, ?_, ?_, ?_, ?_, ?_⟩
  · rw [h.issued, h.expires]
    exact hnow
  · rw [h.admins]
    exact hc.admin_keys
  · exact h.members.length_le.trans hc.members
  · exact h.endpoints.length_le.trans hc.endpoint_bindings
  · rw [h.apps]
    exact hc.apps
  · exact h.bindings.length_le.trans hc.app_bindings
  · exact h.dns.length_le.trans hc.virtual_dns
  · exact h.relays.length_le.trans hc.relays
  · exact h.presence.length_le.trans hc.presence_services
  · intro raw hraw
    refine hc.credentials raw ?_
    unfold NetworkConfigV1.credentials at hraw ⊢
    rw [h.admins, h.apps] at hraw
    simp only [List.mem_append] at hraw ⊢
    rcases hraw with (((hraw | hraw) | hraw) | hraw) | hraw
    · exact .inl (.inl (.inl (.inl hraw)))
    · exact .inl (.inl (.inl (.inr (h.members.subset hraw))))
    · exact .inl (.inl (.inr (h.endpoints.subset hraw)))
    · exact .inl (.inr hraw)
    · exact .inr (h.bindings.subset hraw)
  · rw [h.policies]
    exact hc.policy_members
  · rw [h.policies]
    exact hc.policy_services

omit [Crypto] in
theorem Trimmed.listsAdmin_iff (h : Trimmed c next nowMs) (a : AdminCertificate) :
    next.ListsAdmin a ↔ c.ListsAdmin a := by
  unfold NetworkConfigV1.ListsAdmin
  rw [h.admins]

variable {root : NetworkRootPublic} {network : NetworkId}

theorem Trimmed.memberAccepted (h : Trimmed c next nowMs) {m : MemberCertificate}
    (hm : next.ListsMember m) (haccepted : c.MemberAccepted root network nowMs m) :
    next.MemberAccepted root network nowMs m := by
  refine ⟨{ haccepted.current with unrevoked := h.member_unrevoked m hm }, ?_⟩
  rcases haccepted.issued with hroot | ⟨hne, a, ha, hissued⟩
  · exact .inl hroot
  · exact .inr ⟨hne, a, (h.listsAdmin_iff a).mpr ha, hissued⟩

theorem Trimmed.appAccepted (h : Trimmed c next nowMs) {r : AppRegistration}
    (haccepted : c.AppAccepted root network r) :
    next.AppAccepted root network r := by
  refine ⟨haccepted.current, ?_⟩
  rcases haccepted.issued with hroot | ⟨hne, a, ha, hissued⟩
  · exact .inl hroot
  · exact .inr ⟨hne, a, (h.listsAdmin_iff a).mpr ha, hissued⟩

theorem Trimmed.acceptable_iff (h : Trimmed c next nowMs) (hc : c.Acceptable root network nowMs) :
    next.Acceptable root network nowMs ↔
      ∀ record ∈ next.virtualDns, nowMs < record.expiresAtMs := by
  constructor
  · intro hnext record hrecord
    have hbegins := (hnext.dns record hrecord).begins
    rw [h.issued] at hbegins
    exact hbegins
  · intro hdns
    have happ : ∀ r, next.ListsApp r ↔ c.ListsApp r := by
      intro r
      unfold NetworkConfigV1.ListsApp
      rw [h.apps]
    refine
      { shape := h.shape hc.shape hc.unexpired
        network := h.network.trans hc.network
        root_network := hc.root_network
        issued := h.issued.le
        unexpired := h.expires ▸ hc.unexpired
        revoked_distinct := h.revoked_distinct
        admins := ?_, admins_distinct := ?_, members := ?_, members_distinct := ?_
        members_limit := ?_, endpoints := ?_, endpoints_distinct := ?_, apps := ?_
        apps_distinct := ?_, bindings := ?_, bindings_distinct := ?_, dns := ?_
        dns_distinct := ?_, relays := ?_, relays_distinct := ?_, presence := ?_
        presence_distinct := ?_ }
    · intro key hkey
      rw [h.admins] at hkey
      obtain ⟨a, ha, hverifies⟩ := hc.admins key hkey
      have hlisted : c.ListsAdmin a := by
        unfold NetworkConfigV1.ListsAdmin
        rw [← ha]
        exact hkey
      exact ⟨a, ha, { hverifies with unrevoked := h.admin_unrevoked a hlisted }⟩
    · rw [h.admins]
      exact hc.admins_distinct
    · intro raw hraw
      obtain ⟨m, rfl, hm⟩ := hc.members raw (h.members.subset hraw)
      exact ⟨m, rfl, h.memberAccepted hraw hm⟩
    · exact List.Pairwise.sublist h.members hc.members_distinct
    · rw [h.policies]
      exact h.members.length_le.trans hc.members_limit
    · intro raw hraw
      obtain ⟨b, rfl, m, hm, hverifies⟩ := hc.endpoints raw (h.endpoints.subset hraw)
      exact ⟨b, rfl, m, h.endpoint_member b m hraw hm hverifies.member_id, hverifies⟩
    · exact List.Pairwise.sublist h.endpoints hc.endpoints_distinct
    · intro raw hraw
      rw [h.apps] at hraw
      obtain ⟨r, hr, haccepted⟩ := hc.apps raw hraw
      exact ⟨r, hr, h.appAccepted haccepted⟩
    · rw [h.apps]
      exact hc.apps_distinct
    · intro raw hraw
      obtain ⟨b, rfl, hservices, r, m, hr, hm, hverifies⟩ := hc.bindings raw (h.bindings.subset hraw)
      refine ⟨b, rfl, ?_, r, m, (happ r).mpr hr, h.binding_member b m hraw hm hverifies.subject,
        hverifies⟩
      rw [h.policies]
      exact hservices
    · exact List.Pairwise.sublist h.bindings hc.bindings_distinct
    · intro record hrecord
      obtain ⟨⟨r, hr, haddr⟩, -, hends⟩ := hc.dns record (h.dns.subset hrecord)
      refine ⟨⟨r, (happ r).mpr hr, haddr⟩, ?_, ?_⟩
      · rw [h.issued]
        exact hdns record hrecord
      · rw [h.expires]
        exact hends
    · exact hc.dns_distinct.sublist (h.dns.map _)
    · intro relay hrelay
      exact hc.relays relay (h.relays.subset hrelay)
    · exact hc.relays_distinct.sublist (h.relays.map _)
    · intro service hservice
      exact hc.presence service (h.presence.subset hservice)
    · exact hc.presence_distinct.sublist (h.presence.map _)

end Validity

/-! ## Encoding -/

section Encoding

omit [Crypto]

variable {α : Type} {push : α → Except SnapshotError Bytes} {l l' : List α} {b : Bytes}

theorem mapM_sublist {items : List Bytes} (h : l.mapM push = .ok items) (hs : l'.Sublist l) :
    ∃ items', l'.mapM push = .ok items' ∧ items'.Sublist items := by
  simp only [mapM_eq_ok] at h ⊢
  induction hs generalizing items with
  | slnil =>
    cases h
    exact ⟨[], .nil, .slnil⟩
  | cons x _ ih =>
    cases h with
    | cons _ hrest =>
      obtain ⟨items', hitems', hsub⟩ := ih hrest
      exact ⟨items', hitems', hsub.cons _⟩
  | cons_cons x _ ih =>
    cases h with
    | cons hx hrest =>
      obtain ⟨items', hitems', hsub⟩ := ih hrest
      exact ⟨_, .cons hx hitems', hsub.cons_cons _⟩

theorem pushList_eq_ok : pushList push l = .ok b ↔
    l.length < 2^16 ∧ ∃ items, l.mapM push = .ok items ∧
      be16 (UInt16.ofNat l.length) ++ items.flatten = b := by
  unfold pushList pushCount
  simp only [bind_eq_ok, failIf_eq_ok, not_le, pure_eq_ok_iff, exists_and_left, exists_const,
    exists_eq_left', and_assoc]

theorem pushList_sublist (h : pushList push l = .ok b) (hs : l'.Sublist l) :
    ∃ b', pushList push l' = .ok b' ∧ b'.length ≤ b.length := by
  obtain ⟨hcount, items, hitems, rfl⟩ := pushList_eq_ok.mp h
  obtain ⟨items', hitems', hsub⟩ := mapM_sublist hitems hs
  refine ⟨_, pushList_eq_ok.mpr ⟨hs.length_le.trans_lt hcount, items', hitems', rfl⟩, ?_⟩
  have hlen := hsub.flatten.length_le
  simp only [List.length_append, be16_length]
  omega

theorem length_pushBlobs {blobs : List Bytes} (h : pushList pushBlob blobs = .ok b) :
    b.length = 2 + 2 * blobs.length + blobs.flatten.length := by
  obtain ⟨-, items, hitems, rfl⟩ := pushList_eq_ok.mp h
  rw [mapM_eq_ok] at hitems
  have hflat : items.flatten.length = 2 * blobs.length + blobs.flatten.length := by
    clear h
    induction hitems with
    | nil => rfl
    | @cons blob item blobs items hblob _ ih =>
      have hitem : item.length = 2 + blob.length := by
        unfold pushBlob pushCount at hblob
        simp only [bind_eq_ok, failIf_eq_ok, pure_eq_ok_iff, exists_and_left, exists_const] at hblob
        obtain ⟨-, len, ⟨-, rfl⟩, rfl⟩ := hblob
        rw [List.length_append, be16_length]
      simp only [List.flatten_cons, List.length_append, List.length_cons, hitem]
      omega
  rw [List.length_append, be16_length, hflat]
  omega

theorem exists_pushSerials {serials : List UInt64} (h : serials.length ≤ maxRevokedSerials) :
    ∃ b, pushList (fun serial => (pure (be64 serial) : Except SnapshotError Bytes)) serials =
        .ok b ∧ b.length = 2 + 8 * serials.length := by
  have hitems : ∀ l : List UInt64,
      l.mapM (fun serial => (pure (be64 serial) : Except SnapshotError Bytes)) =
        .ok (l.map be64) := by
    intro l
    rw [mapM_eq_ok]
    induction l with
    | nil => exact .nil
    | cons x l ih => exact .cons rfl ih
  have hflat : (serials.map be64).flatten.length = 8 * serials.length := by
    induction serials with
    | nil => rfl
    | cons x l ih =>
      have hrest := ih (by rw [List.length_cons] at h; omega)
      simp only [List.map_cons, List.flatten_cons, List.length_append, List.length_cons,
        be64_length, hrest]
      omega
  refine ⟨_, pushList_eq_ok.mpr ⟨?_, _, hitems serials, rfl⟩, ?_⟩
  · unfold maxRevokedSerials at h
    omega
  · rw [List.length_append, be16_length, hflat]

variable {c next : NetworkConfigV1} {nowMs : UInt64}

theorem Trimmed.toBytes (h : Trimmed c next nowMs) (hnow : nowMs < c.expiresAtMs)
    (hc : c.toBytes = .ok b) : ∃ b', next.toBytes = .ok b' ∧ b'.length ≤ b.length := by
  unfold NetworkConfigV1.toBytes at hc
  simp only [bind_eq_ok, pure_eq_ok_iff] at hc
  obtain ⟨u, hshape, ba, ha, bm, hm, be, he, br, hr, bp, hp, bb, hb, bd, hd, bl, hl, bs, hs, rfl⟩ :=
    hc
  have hshape' : next.validateShape = .ok u := NetworkConfigV1.validateShape_eq_ok.mpr
    (h.shape (NetworkConfigV1.validateShape_eq_ok.mp hshape) hnow)
  have ha' : pushList (fun key => pushBlob key.certificate) next.adminKeys = .ok ba := by
    rw [h.admins]
    exact ha
  have hp' : pushList pushBlob next.apps = .ok bp := by
    rw [h.apps]
    exact hp
  obtain ⟨bm', hm', -⟩ := pushList_sublist hm h.members
  obtain ⟨be', he', hlene⟩ := pushList_sublist he h.endpoints
  obtain ⟨br', hr', hlenr⟩ := exists_pushSerials h.revoked_limit
  obtain ⟨bb', hb', hlenb⟩ := pushList_sublist hb h.bindings
  obtain ⟨bd', hd', hlend⟩ := pushList_sublist hd h.dns
  obtain ⟨bl', hl', hlenl⟩ := pushList_sublist hl h.relays
  obtain ⟨bs', hs', hlens⟩ := pushList_sublist hs h.presence
  refine ⟨[next.encodeHeader, ba, bm', be', br', bp, bb', bd', bl', bs',
    next.encodeTrailer].flatten, ?_, ?_⟩
  · unfold NetworkConfigV1.toBytes
    rw [hshape', ok_bind, ha', ok_bind, hm', ok_bind, he', ok_bind, hr', ok_bind, hp', ok_bind, hb',
      ok_bind, hd', ok_bind, hl', ok_bind, hs', ok_bind]
    rfl
  · -- the serials that are added take the place of what is left out of the members
    have hlenm := length_pushBlobs hm
    have hlenm' := length_pushBlobs hm'
    have hserials : br.length = 2 + 8 * c.revokedSerials.length := by
      have hlimit := (NetworkConfigV1.validateShape_eq_ok.mp hshape).revoked_serials
      obtain ⟨b₀, hb₀, hlen₀⟩ := exists_pushSerials hlimit
      obtain rfl := Except.ok.inj (hr.symm.trans hb₀)
      exact hlen₀
    have hheader : next.encodeHeader.length = c.encodeHeader.length := by
      unfold NetworkConfigV1.encodeHeader
      simp only [List.length_append, be64_length, next.previousHash.property,
        c.previousHash.property, next.networkId.asBytes.property, c.networkId.asBytes.property]
    have htrailer : next.encodeTrailer.length = c.encodeTrailer.length := by
      unfold NetworkConfigV1.encodeTrailer EpochSecrets.encode
      simp only [List.length_append, be16_length, be32_length,
        next.epochSecrets.presenceIndexSeed.property, c.epochSecrets.presenceIndexSeed.property,
        next.epochSecrets.presenceEncryptionSeed.property,
        c.epochSecrets.presenceEncryptionSeed.property,
        next.epochSecrets.lanDiscoverySeed.property, c.epochSecrets.lanDiscoverySeed.property,
        next.epochSecrets.relayAccessSeed.property, c.epochSecrets.relayAccessSeed.property]
    have hroom := h.room
    simp only [List.flatten_cons, List.length_append, hheader, htrailer]
    omega

end Encoding

/-! ## Sealing -/

section Sealing

variable {c next : NetworkConfigV1} {nowMs : UInt64}

variable {certificates : List MemberCertificate}

omit [Crypto] in
theorem mapM_encryptionKeys {ε : Type} (f : CertificateError → ε) {members : List Bytes}
    (h : members.Forall₂ (fun raw m => MemberCertificate.fromBytes raw = .ok m) certificates) :
    (members.mapM fun raw => ((MemberCertificate.fromBytes raw).map fun certificate =>
      certificate.payload.encryptionPublicKey).mapError f) =
      .ok (certificates.map fun m => m.payload.encryptionPublicKey) := by
  rw [mapM_eq_ok]
  induction h with
  | nil => exact .nil
  | cons hm _ ih =>
    refine .cons ?_ ih
    rw [hm]
    rfl

omit [Crypto] in
theorem validateRecipientSet_self
    (h : c.members.Forall₂ (fun raw m => MemberCertificate.fromBytes raw = .ok m) certificates)
    (hdistinct : c.DistinctRecipients) :
    validateRecipientSet c (certificates.map fun m => m.payload.encryptionPublicKey) = .ok () := by
  have hnodup : (certificates.map fun m => m.payload.encryptionPublicKey).Nodup :=
    (nodup_iff_distinctOn h).mpr hdistinct
  have hlength := h.length_eq
  unfold validateRecipientSet
  rw [mapM_encryptionKeys ConfigError.signature h, ok_bind, hnodup.dedup]
  refine failIf_neg ?_
  simp [hlength]

variable {root : NetworkRootPublic}

theorem NetworkConfigV1.Acceptable.exists_certificates {network : NetworkId}
    (h : c.Acceptable root network nowMs) :
    ∃ certificates : List MemberCertificate,
      c.members.Forall₂ (fun raw m => MemberCertificate.fromBytes raw = .ok m) certificates := by
  refine exists_forall₂ ?_
  intro raw hraw
  obtain ⟨m, rfl, -⟩ := h.members raw hraw
  exact ⟨m, Signed.fromBytes_toBytes m⟩

theorem Trimmed.sealable {recipients : List Bytes32} (h : Trimmed c next nowMs)
    (hc : c.Sealable root recipients) (hvalid : next.Acceptable root root.networkId nowMs)
    (hne : next.members ≠ [])
    (hcertificates : next.members.Forall₂ (fun raw m => MemberCertificate.fromBytes raw = .ok m)
      certificates) :
    next.Sealable root (certificates.map fun m => m.payload.encryptionPublicKey) := by
  obtain ⟨hrecipients, hdistinct⟩ := validateRecipientSet_spec hc.members
  have hlength : next.members.length = certificates.length := hcertificates.length_eq
  refine ⟨?_, ?_, ⟨?_, ?_⟩, ?_, ?_⟩
  · rw [h.issued]
    exact NetworkConfigV1.check_eq_ok.mpr hvalid
  · exact validateRecipientSet_self hcertificates (List.Pairwise.sublist h.members hdistinct)
  · intro hnil
    have hzero : certificates.length = 0 := by
      rw [← List.length_map (fun m : MemberCertificate => m.payload.encryptionPublicKey), hnil]
      rfl
    exact hne (List.length_eq_zero_iff.mp (hlength.trans hzero))
  · rw [List.length_map, ← hlength]
    exact hvalid.shape.members
  · -- a member that is left was a recipient before
    intro key hkey
    obtain ⟨m, hm, rfl⟩ := List.mem_map.mp hkey
    obtain ⟨raw, hraw, hparse⟩ := exists_of_mem_right hcertificates hm
    rw [Signed.fromBytes_eq_ok] at hparse
    refine hc.keys _ ((hrecipients _).mpr ⟨m, ?_, rfl⟩)
    unfold NetworkConfigV1.ListsMember
    rw [← hparse]
    exact h.members.subset hraw
  · obtain ⟨b, hb, hlen⟩ := hc.bytes
    have hnow : nowMs < c.expiresAtMs := by
      rw [← h.expires]
      exact hvalid.unexpired
    obtain ⟨b', hb', hlen'⟩ := h.toBytes hnow hb
    exact ⟨b', hb', hlen'.trans hlen⟩

end Sealing

end Weaver
