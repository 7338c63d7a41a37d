import Weaver.Authority.Progress
import Weaver.Authority.Reopen
import Weaver.Authority.Serials
import Weaver.Config.Trimming

/-!
# Removing names, members and relays

When a removal succeeds, on an authority that the named operations have brought about, at a time at
which its configuration is valid. The operation issues what is left of the configuration again; the
only entries that can have lapsed since then are virtual DNS records, and no operation leaves out the
ones that it is not asked to remove. So a removal succeeds exactly when the records that it leaves
have not expired.

That the rest of the configuration can be issued again needs that no two certificates share a serial:
revoking a member must not revoke another member or the administrator.
-/

namespace Weaver

open Checked Wire Collect Versioned Program

variable [Crypto]

/-! ## Serials -/

omit [Crypto] in
structure DistinctSerials (c : NetworkConfigV1) : Prop where
  members : DistinctOn MemberCertificate.fromBytes (fun m => m.payload.serial) c.members
  admins : ∀ a m, c.ListsAdmin a → c.ListsMember m → a.payload.serial ≠ m.payload.serial

omit [Crypto] in
theorem DistinctSerials.of_nodup {c : NetworkConfigV1} (h : c.serials.Nodup) :
    DistinctSerials c := by
  obtain ⟨hcertificates, -, -⟩ := List.nodup_append.mp h
  obtain ⟨-, hmembers, hdisjoint⟩ := List.nodup_append.mp hcertificates
  refine ⟨?_, ?_⟩
  · unfold NetworkConfigV1.memberCertificates at hmembers
    rw [List.Nodup, List.pairwise_map, List.pairwise_filterMap] at hmembers
    refine hmembers.imp ?_
    intro raw raw' hne m m' hm hm'
    exact hne m (toOption_eq_some.mpr hm) m' (toOption_eq_some.mpr hm')
  · intro a m ha hm
    exact hdisjoint _ (List.mem_map_of_mem (NetworkConfigV1.mem_admins.mpr ha)) _
      (List.mem_map_of_mem (mem_readable.mpr hm))

/-! ## What holds of the configurations of a session -/

structure Orderly (root : NetworkRootPublic) (c : NetworkConfigV1) : Prop where
  sealable : ∃ recipients, c.Sealable root recipients
  serials : DistinctSerials c

theorem planGenesis_sealable {options : AuthorityInit} {random : InitRandomness} {g : Genesis}
    (h : planGenesis options random = .ok g) :
    ∃ recipients, g.config.Sealable g.root.public recipients := by
  unfold planGenesis at h
  simp only [bind_eq_ok, mapError_eq_ok, okOr_eq_ok, pure_eq_ok_iff] at h
  obtain ⟨_, -, _, -, _, -, _, -, _, -, _, -, _, -, _, -, envelope, henvelope, rfl⟩ := h
  exact ⟨_, EncryptedConfigEnvelope.sealConfig_sealable henvelope⟩

theorem Authority.sealNext_sealable {self : Authority} {next : NetworkConfigV1} {nowMs : UInt64}
    {random : SealRandomness} {e : EncryptedConfigEnvelope} {opened : OpenedNetworkConfig}
    (h : self.sealNext next nowMs random = .ok (e, opened)) :
    ∃ recipients, next.Sealable self.rootPublic recipients := by
  unfold Authority.sealNext at h
  simp only [bind_eq_ok, mapError_eq_ok] at h
  obtain ⟨recipients, -, envelope, hseal, -⟩ := h
  exact ⟨recipients, EncryptedConfigEnvelope.sealNextConfig_sealable hseal⟩

section Session

variable {options : AuthorityInit} {random : InitRandomness} {g : Genesis} {manifest : Bytes}
  {w w' : Stores} {log : List (Event (authorityApi manifest))} {handle : Option Authority}

variable {last : EncryptedConfigEnvelope} {c : NetworkConfigV1}

theorem Session.sealable (hideal : HpkeIdeal) (hg : Initialized options random g manifest w)
    (hplan : planGenesis options random = .ok g) (hsession : Session manifest none w log handle w')
    (hchain : Chain (g.identity random).network w' last)
    (hcontent : last.Content (g.identity random).encryption c) :
    ∃ recipients, c.Sealable g.root.public recipients := by
  refine hsession.induction hideal hg
    (Q := fun _ c => ∃ recipients, c.Sealable g.root.public recipients) (planGenesis_sealable hplan)
    ?_ ?_ hchain hcontent
  · intro log request reply c _ hbefore
    exact hbefore
  · intro log self call value next nowMs draws e hroot _ hseal _
    rw [← hroot]
    exact Authority.sealNext_sealable hseal

theorem Session.orderly (hideal : HpkeIdeal) (hg : Initialized options random g manifest w)
    (hplan : planGenesis options random = .ok g) (hsession : Session manifest none w log handle w')
    (hnamed : NamedOnly log) (hchain : Chain (g.identity random).network w' last)
    (hcontent : last.Content (g.identity random).encryption c) :
    Orderly g.root.public c := by
  have harchive := hsession.archive hg.describes (AtWork.start hg.inv)
  have hc' := harchive.published_of_content hideal hg hchain.committed hcontent
  have hserials := harchive.serials_nodup hideal hg hplan (fun _ hc => hnamed.succeeded hc)
    hchain.committed hc'
  exact ⟨hsession.sealable hideal hg hplan hchain hcontent, .of_nodup hserials⟩

end Session

/-! ## What a removal leaves -/

section Trimmed

variable {self : Authority} {c : NetworkConfigV1} {root : NetworkRootPublic} {network : NetworkId}
  {nowMs : UInt64}

theorem Trimmed.of_tables (h : c.Acceptable root network nowMs) (revision : UInt64)
    (previousHash : Bytes32) {virtualDns : List VirtualDnsRecord} {relays : List RelayDescriptor}
    {presenceServices : List PresenceServiceDescriptor} (hdns : virtualDns.Sublist c.virtualDns)
    (hrelays : relays.Sublist c.relays) (hpresence : presenceServices.Sublist c.presenceServices) :
    Trimmed c { c with revision, previousHash, issuedAtMs := nowMs, virtualDns, relays,
                       presenceServices } nowMs where
  network := rfl
  issued := rfl
  expires := rfl
  policies := rfl
  admins := rfl
  apps := rfl
  members := List.Sublist.refl _
  endpoints := List.Sublist.refl _
  bindings := List.Sublist.refl _
  dns := hdns
  relays := hrelays
  presence := hpresence
  endpoint_member _ _ _ hm _ := hm
  binding_member _ _ _ hm _ := hm
  revoked_distinct := h.revoked_distinct
  revoked_limit := h.shape.revoked_serials
  admin_unrevoked _ ha := (h.admin_verifies ha).unrevoked
  member_unrevoked _ hm := (h.member_accepted hm).current.unrevoked
  room := le_rfl

theorem Authority.Revoked.trimmed {memberId : MemberId} {removed : MemberCertificate}
    {next : NetworkConfigV1} (h : self.Revoked memberId nowMs removed next)
    (hc : self.config.asConfig.Acceptable root network nowMs)
    (hserials : DistinctSerials self.config.asConfig)
    (hlimit : self.config.asConfig.revokedSerials.length < maxRevokedSerials) :
    Trimmed self.config.asConfig next nowMs := by
  obtain ⟨epoch, revision, epochSecrets, -, -, rfl⟩ := h.next
  have hperm := List.perm_insertionSort (· ≤ ·)
    (self.config.asConfig.revokedSerials ++ [removed.payload.serial])
  have hmem : ∀ serial, serial ∈ (self.config.asConfig.revokedSerials ++
      [removed.payload.serial]).insertionSort (· ≤ ·) ↔
      serial ∈ self.config.asConfig.revokedSerials ∨ serial = removed.payload.serial := by
    intro serial
    rw [hperm.mem_iff, List.mem_append, List.mem_singleton]
  -- a member stays exactly when it has another identifier
  have hstays : ∀ m : MemberCertificate, self.config.asConfig.ListsMember m →
      m.payload.memberId ≠ memberId →
      m.toBytes ∈ self.config.asConfig.members.filter fun raw => !isMember memberId raw := by
    intro m hm hne
    refine List.mem_filter.mpr ⟨hm, ?_⟩
    rw [Bool.not_eq_true', ← Bool.not_eq_true]
    exact fun his => hne ((isMember_toBytes memberId m).mp his)
  refine
    { network := rfl, issued := rfl, expires := rfl, policies := rfl, admins := rfl, apps := rfl
      members := List.filter_sublist
      endpoints := List.filter_sublist
      bindings := List.filter_sublist
      dns := List.Sublist.refl _
      relays := List.filter_sublist
      presence := List.filter_sublist
      endpoint_member := ?_, binding_member := ?_, revoked_distinct := ?_, revoked_limit := ?_
      admin_unrevoked := ?_, member_unrevoked := ?_, room := ?_ }
  · intro b m hb hm hid
    have hother := (isOthersEndpoint_toBytes memberId b).mp (List.mem_filter.mp hb).2
    exact hstays m hm (hid ▸ hother)
  · intro b m hb hm hid
    have hother := (isOthersAppBinding_toBytes memberId b).mp (List.mem_filter.mp hb).2
    exact hstays m hm (hid ▸ hother)
  · rw [hperm.nodup_iff, List.nodup_append]
    refine ⟨hc.revoked_distinct, List.nodup_singleton _, ?_⟩
    intro serial hserial serial' hserial' heq
    rw [List.mem_singleton.mp hserial'] at heq
    exact h.unrevoked (heq ▸ hserial)
  · rw [hperm.length_eq, List.length_append, List.length_singleton]
    exact hlimit
  · intro a ha hrevoked
    rcases (hmem _).mp hrevoked with hold | hnew
    · exact (hc.admin_verifies ha).unrevoked hold
    · exact hserials.admins a removed ha h.listed hnew
  · intro m hm hrevoked
    have hlisted : self.config.asConfig.ListsMember m := (List.mem_filter.mp hm).1
    rcases (hmem _).mp hrevoked with hold | hnew
    · exact (hc.member_accepted hlisted).current.unrevoked hold
    · -- the member with the serial is the one that is removed
      have heq := hserials.members.eq_of_key hlisted h.listed (Signed.fromBytes_toBytes m)
        (Signed.fromBytes_toBytes removed) hnew
      have hkeep := (List.mem_filter.mp hm).2
      rw [heq, (isMember_toBytes memberId removed).mpr h.member_id] at hkeep
      cases hkeep
  · have hmembers := (cons_filter_perm h.listed ((isMember_toBytes memberId removed).mpr h.member_id)
      (self.config.members_once memberId))
    have hflat := (hmembers.flatten).length_eq
    have hcount := hmembers.length_eq
    have hsize : 64 ≤ removed.toBytes.length := by
      unfold Signed.toBytes
      rw [List.length_append, removed.signature.property]
      omega
    rw [List.flatten_cons, List.length_append] at hflat
    rw [List.length_cons] at hcount
    simp only [hperm.length_eq, List.length_append, List.length_singleton]
    omega

end Trimmed

/-! ## When a removal succeeds -/

/-- The handle can commit: its configuration is valid at the time, the stores have versions left and
the system gives randomness. -/
structure Authority.Ready (I : Identity) (handle : Authority) (w : Stores) (nowMs : UInt64)
    (draws : SealRandomness) : Prop where
  work : AtWork I (some handle) w
  valid : handle.config.asConfig.Acceptable handle.rootPublic handle.rootPublic.networkId nowMs
  orderly : Orderly handle.rootPublic handle.config.asConfig
  current : handle.config.asConfig.revision = handle.status.head.revision ∧
    handle.config.asConfig.epoch = handle.status.head.epoch
  admin : ∃ a, handle.config.asConfig.ListsAdmin a ∧ a.payload.keyId = handle.onlineAdmin.keyId ∧
    a.payload.publicKey = handle.onlineAdmin.publicBytes ∧
    a.payload.permissions &&& adminPermissionConfigWrite ≠ 0
  member : handle.config.asConfig.HasRecipient handle.memberEncryption.publicBytes
  random : draws.Complete
  room : w.state.HasRoom 3
  revision : handle.status.head.revision.toNat + 1 < 2^64

section Removal

variable {I : Identity} {self : Authority} {w : Stores} {nowMs : UInt64} {draws : SealRandomness}

def Authority.Succeeds (handle : Authority) (w : Stores) (c : AuthorityCall) : Prop :=
  ∃ value self' w', (handle.perform c).run serve w = ((.ok value, self'), w')

theorem Authority.Ready.commitPlan_iff (hideal : HpkeIdeal) (halways : SealsAlways)
    (h : self.Ready I w nowMs draws) {next : NetworkConfigV1}
    (htrimmed : Trimmed self.config.asConfig next nowMs)
    (hrevision : next.revision.toNat = self.status.head.revision.toNat + 1)
    (hprevious : next.previousHash = self.status.head.hash)
    (hepoch : self.status.head.epoch ≤ next.epoch)
    (hown : next.HasRecipient self.memberEncryption.publicBytes) :
    (∃ value self' w', (updating self (self.commitPlan (.ok next) nowMs draws)).run serve w =
        ((.ok value, self'), w')) ↔
      ∀ record ∈ next.virtualDns, nowMs < record.expiresAtMs := by
  have hiff := htrimmed.acceptable_iff h.valid
  constructor
  · rintro ⟨value, self', w', hrun⟩
    rcases updating_run hrun with ⟨_, -, herror, -⟩ | ⟨_, hx, -⟩
    · cases herror
    rcases Authority.commitPlan_run hx with ⟨_, herror, -⟩ | ⟨_, e, opened, _, hplan, -, hmoved, -⟩
    · cases herror
    obtain rfl := Except.ok.inj hplan
    obtain ⟨hsealed, -, -⟩ := Authority.sealNext_spec hmoved.seals
    have hvalid := hsealed.next_valid
    rw [htrimmed.issued] at hvalid
    exact hiff.mp hvalid
  · intro hdns
    have hvalid := hiff.mpr hdns
    obtain ⟨recipients, hsealable⟩ := h.orderly.sealable
    obtain ⟨certificates, hcertificates⟩ := hvalid.exists_certificates
    obtain ⟨m, hm, hkey⟩ := hown
    have hnext := htrimmed.sealable hsealable hvalid (List.ne_nil_of_mem hm) hcertificates
    have hmem : self.memberEncryption.publicBytes ∈
        certificates.map fun m => m.payload.encryptionPublicKey :=
      ((validateRecipientSet_spec hnext.members).1 _).mpr ⟨m, hm, hkey⟩
    -- the administrator verifies now, since the configuration is valid now
    obtain ⟨a, ha, hid, hpublic, hpermission⟩ := h.admin
    obtain ⟨a', heq, hverifies⟩ := h.valid.admins _ ha
    obtain rfl : a = a' := Signed.toBytes_injective heq
    have hsigner : self.config.SignerVerifies self.rootPublic self.onlineAdmin.keyId
        next.issuedAtMs a := by
      refine ⟨ha, hid, ?_⟩
      rw [htrimmed.issued, h.valid.network]
      exact hverifies
    obtain ⟨e, opened, hseal, -, hseals, hlen⟩ := self.exists_sealNext hideal halways h.random hnext
      (mapM_encryptionKeys AuthorityError.crypto hcertificates) hmem
      ⟨h.valid.network, h.current⟩ ⟨a, hsigner, hpublic, hpermission⟩ hrevision hprevious hepoch
    have hrev : e.revision.toNat = self.status.head.revision.toNat + 1 := by
      rw [hseals.header.2.2.1]
      exact hrevision
    rw [htrimmed.issued] at hseal
    obtain ⟨self', w', hrun, -⟩ := h.work.exists_commit hseal hrev hlen h.room
    exact ⟨self'.status, self', w', updating_of_ok self hrun⟩

omit [Crypto] in
theorem exists_prepareNextRevision (config : NetworkConfigV1) (current : ConfigHead)
    (nowMs : UInt64) (h : config.revision.toNat + 1 < 2^64) :
    ∃ revision : UInt64, revision.toNat = config.revision.toNat + 1 ∧
      prepareNextRevision config current nowMs =
        .ok { config with revision, previousHash := current.hash, issuedAtMs := nowMs } := by
  obtain ⟨revision, hrevision⟩ : ∃ revision : UInt64, revision.toNat = config.revision.toNat + 1 :=
    ⟨UInt64.ofNat (config.revision.toNat + 1), UInt64.toNat_ofNat_of_lt' h⟩
  have hadd : checkedAdd config.revision 1 = some revision := by
    have hone : (1 : UInt64).toNat = 1 := rfl
    rw [checkedAdd_eq_some, hone, hrevision]
  refine ⟨revision, hrevision, ?_⟩
  unfold prepareNextRevision
  rw [hadd, okOr_some, ok_bind]
  rfl

omit [Crypto] in
theorem length_filter_ne {α : Type} {p : α → Bool} {l : List α} {x : α} (hx : x ∈ l)
    (hp : p x = false) : (l.filter p).length ≠ l.length := by
  intro heq
  have hall := List.length_filter_eq_length_iff.mp heq x hx
  rw [hp] at hall
  cases hall

theorem Authority.Ready.removeVirtualDns_iff (hideal : HpkeIdeal) (halways : SealsAlways)
    (h : self.Ready I w nowMs draws) {name : VirtualName}
    (hname : ∃ record ∈ self.config.asConfig.virtualDns, record.name = name) :
    self.Succeeds w (.removeVirtualDns name nowMs draws) ↔
      ∀ record ∈ self.config.asConfig.virtualDns, record.name ≠ name →
        nowMs < record.expiresAtMs := by
  obtain ⟨found, hfound, hnamed⟩ := hname
  let left := self.config.asConfig.virtualDns.filter fun record => record.name ≠ name
  have hshorter : left.length ≠ self.config.asConfig.virtualDns.length :=
    length_filter_ne hfound (by simp [hnamed])
  obtain ⟨revision, hrevision, hprepare⟩ :=
    exists_prepareNextRevision { self.config.asConfig with virtualDns := left } self.status.head
      nowMs (by rw [h.current.1]; exact h.revision)
  have hplan : self.planRemoveDns name nowMs = .ok { self.config.asConfig with
      virtualDns := left, revision, previousHash := self.status.head.hash, issuedAtMs := nowMs } := by
    unfold Authority.planRemoveDns
    exact bind_eq_ok.mpr ⟨(), failIf_neg hshorter, hprepare⟩
  have htrimmed := Trimmed.of_tables h.valid revision self.status.head.hash
    (List.filter_sublist : left.Sublist _) (List.Sublist.refl _) (List.Sublist.refl _)
  have hiff := h.commitPlan_iff hideal halways htrimmed
    (by rw [← h.current.1]; exact hrevision) rfl h.current.2.ge h.member
  have hcall : self.Succeeds w (.removeVirtualDns name nowMs draws) ↔
      ∃ value self' w', (updating self (self.commitPlan (self.planRemoveDns name nowMs) nowMs
        draws)).run serve w = ((.ok value, self'), w') := Iff.rfl
  rw [hcall, hplan, hiff]
  simp only [List.mem_filter, and_imp, ne_eq, decide_not, Bool.not_eq_eq_eq_not, Bool.not_true,
    decide_eq_false_iff_not]

theorem Authority.Ready.removeRelay_iff (hideal : HpkeIdeal) (halways : SealsAlways)
    (h : self.Ready I w nowMs draws) {endpoint : EndpointId}
    (hrelay : ∃ relay ∈ self.config.asConfig.relays, relay.endpointId = endpoint.asBytes) :
    self.Succeeds w (.removeRelay endpoint nowMs draws) ↔
      ∀ record ∈ self.config.asConfig.virtualDns, nowMs < record.expiresAtMs := by
  obtain ⟨found, hfound, hendpoint⟩ := hrelay
  let relays := self.config.asConfig.relays.filter fun relay => relay.endpointId ≠ endpoint.asBytes
  let presence := self.config.asConfig.presenceServices.filter fun service =>
    service.endpointId ≠ endpoint.asBytes
  have hshorter : relays.length ≠ self.config.asConfig.relays.length :=
    length_filter_ne hfound (by simp [hendpoint])
  obtain ⟨revision, hrevision, hprepare⟩ :=
    exists_prepareNextRevision
      { self.config.asConfig with relays, presenceServices := presence } self.status.head nowMs
      (by rw [h.current.1]; exact h.revision)
  have hplan : self.planRemoveRelay endpoint nowMs = .ok { self.config.asConfig with
      relays, presenceServices := presence, revision, previousHash := self.status.head.hash,
      issuedAtMs := nowMs } := by
    unfold Authority.planRemoveRelay
    exact bind_eq_ok.mpr ⟨(), failIf_neg hshorter, hprepare⟩
  have htrimmed := Trimmed.of_tables h.valid revision self.status.head.hash (List.Sublist.refl _)
    (List.filter_sublist : relays.Sublist _) (List.filter_sublist : presence.Sublist _)
  have hiff := h.commitPlan_iff hideal halways htrimmed
    (by rw [← h.current.1]; exact hrevision) rfl h.current.2.ge h.member
  have hcall : self.Succeeds w (.removeRelay endpoint nowMs draws) ↔
      ∃ value self' w', (updating self (self.commitPlan (self.planRemoveRelay endpoint nowMs) nowMs
        draws)).run serve w = ((.ok value, self'), w') := Iff.rfl
  rw [hcall, hplan, hiff]

omit [Crypto] in
theorem exists_prepareNextEpoch (config : NetworkConfigV1) (current : ConfigHead)
    (nowMs : UInt64) (secrets : EpochSecrets) (hrevision : config.revision.toNat + 1 < 2^64)
    (hepoch : config.epoch.toNat + 1 < 2^64) :
    ∃ next, prepareNextEpoch config current nowMs (some secrets) = .ok next := by
  have hadd : ∀ x : UInt64, x.toNat + 1 < 2^64 → ∃ y, checkedAdd x 1 = some y := by
    intro x hx
    refine ⟨UInt64.ofNat (x.toNat + 1), checkedAdd_eq_some.mpr ?_⟩
    exact UInt64.toNat_ofNat_of_lt' hx
  obtain ⟨epoch, hepoch'⟩ := hadd _ hepoch
  obtain ⟨revision, hrevision'⟩ := hadd _ hrevision
  unfold prepareNextEpoch
  rw [hepoch', okOr_some, ok_bind, hrevision', okOr_some, ok_bind]
  exact ⟨_, rfl⟩

variable {m : MemberCertificate}

theorem Authority.Ready.exists_planRevoke (h : self.Ready I w nowMs draws)
    (hm : self.config.asConfig.ListsMember m)
    (hother : m.payload.encryptionPublicKey ≠ self.memberEncryption.publicBytes)
    (hepoch : self.status.head.epoch.toNat + 1 < 2^64) (secrets : EpochSecrets) :
    ∃ next, self.planRevoke m.payload.memberId nowMs (some secrets) = .ok next := by
  have his : isMember m.payload.memberId m.toBytes = true := (isMember_toBytes _ m).mpr rfl
  obtain ⟨position, hposition⟩ : ∃ i, self.config.asConfig.members.findIdx?
      (isMember m.payload.memberId) = some i := by
    rw [← Option.isSome_iff_exists, List.findIdx?_isSome, List.any_eq_true]
    exact ⟨m.toBytes, hm, his⟩
  -- the member that is found is the one with the identifier
  obtain ⟨hlt, hfound, -⟩ := List.findIdx?_eq_some_iff_getElem.mp hposition
  have hget : self.config.asConfig.members.getD position [] = m.toBytes := by
    rw [List.getD_eq_getElem?_getD, List.getElem?_eq_getElem hlt, Option.getD_some]
    obtain ⟨m', heq, -⟩ := h.valid.members _ (List.getElem_mem hlt)
    rw [heq, isMember_toBytes] at hfound
    have hlisted : m'.toBytes ∈ self.config.asConfig.members := heq ▸ List.getElem_mem hlt
    rw [heq]
    exact h.valid.members_distinct.eq_of_key hlisted hm (Signed.fromBytes_toBytes m')
      (Signed.fromBytes_toBytes m) hfound
  have hread : (MemberCertificate.fromBytes (self.config.asConfig.members.getD position
      [])).mapError AuthorityError.crypto = .ok m := by
    rw [hget, mapError_eq_ok]
    exact Signed.fromBytes_toBytes m
  obtain ⟨next, hnext⟩ := exists_prepareNextEpoch self.config.asConfig self.status.head nowMs secrets
    (by rw [h.current.1]; exact h.revision) (by rw [h.current.2]; exact hepoch)
  unfold Authority.planRevoke
  simp only [hposition, okOr_some, ok_bind, hread]
  have hunrevoked := (h.valid.member_accepted hm).current.unrevoked
  rw [failIf_neg hother, ok_bind, failIf_neg hunrevoked, ok_bind, hnext, ok_bind]
  exact ⟨_, rfl⟩

/-- `revoke_member` of a listed member that is not the authority's succeeds, while there is room for
one more revoked serial, exactly when no virtual DNS record has expired. -/
theorem Authority.Ready.revokeMember_iff (hideal : HpkeIdeal) (halways : SealsAlways)
    (h : self.Ready I w nowMs draws) (hm : self.config.asConfig.ListsMember m)
    (hother : m.payload.encryptionPublicKey ≠ self.memberEncryption.publicBytes)
    (hlimit : self.config.asConfig.revokedSerials.length < maxRevokedSerials)
    (hepoch : self.status.head.epoch.toNat + 1 < 2^64) (secrets : EpochSecrets) :
    self.Succeeds w (.revokeMember m.payload.memberId nowMs (some secrets) draws) ↔
      ∀ record ∈ self.config.asConfig.virtualDns, nowMs < record.expiresAtMs := by
  obtain ⟨next, hplan⟩ := h.exists_planRevoke hm hother hepoch secrets
  obtain ⟨removed, hrevoked⟩ := Authority.planRevoke_spec hplan
  have htrimmed := hrevoked.trimmed h.valid h.orderly.serials hlimit
  obtain ⟨own, hown, hkey⟩ := h.member
  have hchange : self.Change (.revokeMember m.payload.memberId nowMs (some secrets) draws) nowMs
      next := (Authority.Plans.revokeMember draws hplan).change trivial
  have hstays : next.HasRecipient self.memberEncryption.publicBytes :=
    ⟨own, (hchange.keeps_authority hown hkey).1, hkey⟩
  obtain ⟨epoch, revision, epochSecrets, hepoch', hrevision, hnext⟩ := hrevoked.next
  have hrev : next.revision.toNat = self.status.head.revision.toNat + 1 := by
    rw [hnext, ← h.current.1]
    exact hrevision
  have hprev : next.previousHash = self.status.head.hash := by rw [hnext]
  have hle : self.status.head.epoch ≤ next.epoch := by
    rw [hnext, ← h.current.2, UInt64.le_iff_toNat_le]
    change _ ≤ epoch.toNat
    omega
  have hdns : next.virtualDns = self.config.asConfig.virtualDns := by rw [hnext]
  have hcall : self.Succeeds w (.revokeMember m.payload.memberId nowMs (some secrets) draws) ↔
      ∃ value self' w', (updating self (self.commitPlan
        (self.planRevoke m.payload.memberId nowMs (some secrets)) nowMs draws)).run serve w =
          ((.ok value, self'), w') := Iff.rfl
  rw [hcall, hplan, h.commitPlan_iff hideal halways htrimmed hrev hprev hle hstays, hdns]

theorem Session.ready (hideal : HpkeIdeal) {options : AuthorityInit} {random : InitRandomness}
    {g : Genesis} {manifest : Bytes} {w₀ : Stores}
    (hg : Initialized options random g manifest w₀) (hplan : planGenesis options random = .ok g)
    {log : List (Event (authorityApi manifest))}
    (hsession : Session manifest none w₀ log (some self) w) (hnamed : NamedOnly log)
    (hvalid : self.config.asConfig.Acceptable self.rootPublic self.status.networkId nowMs)
    (hrandom : draws.Complete) (hroom : w.state.HasRoom 3)
    (hrevision : self.status.head.revision.toNat + 1 < 2^64) :
    self.Ready (g.identity random) w nowMs draws := by
  have hwork := (hsession.atWork hg.describes (AtWork.start hg.inv)).1
  have harchive := hsession.archive hg.describes (AtWork.start hg.inv)
  have hholds := hsession.holds hideal hg rfl
  obtain ⟨last, hchain⟩ := hwork.inv.chain
  have hcontent := hwork.current hchain
  obtain ⟨c, hgoverned⟩ := harchive.governed hideal hg (fun _ => hnamed.succeeded) hchain.committed
  have hconfig := (hgoverned.published.content_iff hideal).mp hcontent
  have hhead : self.status.head = last.head := (hwork.synced self last rfl hchain).head
  obtain ⟨-, hepoch, hrev, -⟩ := hgoverned.published.seals.header
  have hcertificate := hg.planned.certificate
  refine ⟨hwork, ?_, ?_, ⟨?_, ?_⟩, ⟨g.adminCertificate, ?_, ?_, ?_, ?_⟩, ?_, hrandom, hroom,
    hrevision⟩
  · rw [hvalid.root_network]
    exact hvalid
  · rw [hholds.root]
    exact hsession.orderly hideal hg hplan hnamed hchain hcontent
  · rw [hconfig, hhead]
    exact hrev.symm
  · rw [hconfig, hhead]
    exact hepoch.symm
  · unfold NetworkConfigV1.ListsAdmin
    rw [hconfig, hgoverned.admins]
    exact List.mem_singleton_self _
  · rw [hcertificate, hholds.admin]
    rfl
  · rw [hcertificate, hholds.admin]
  · rw [hcertificate]
    exact (by decide : (0xFFFFFFFF : UInt32) &&& adminPermissionConfigWrite ≠ 0)
  · rw [hconfig, hholds.encryption]
    exact hgoverned.published.recipient

/-- On an authority that the named operations have brought about, at a time at which its
configuration is valid, and while stores, randomness and counters allow a revision: removing a name
succeeds exactly when no other virtual DNS record has expired, and revoking a member or removing a
relay exactly when none has. -/
theorem removal_iff_unexpired_dns (hideal : HpkeIdeal) (halways : SealsAlways)
    {options : AuthorityInit} {random : InitRandomness} {manifest : Bytes}
    {init : InitializedAuthority} {w₀ : Stores}
    (hinit : ( Authority.initialize options random).run serve Stores.empty =
      (.ok (manifest, init), w₀))
    {log : List (Event (authorityApi manifest))}
    (hsession : Session manifest none w₀ log (some self) w) (hnamed : NamedOnly log)
    (hvalid : ∃ v, self.config.asConfig.validate self.rootPublic self.status.networkId nowMs = .ok v)
    (hrandom : draws.Complete) (hroom : w.state.HasRoom 3)
    (hrevision : self.status.head.revision.toNat + 1 < 2^64) :
    (∀ name, (∃ record ∈ self.config.asConfig.virtualDns, record.name = name) →
      (self.Succeeds w (.removeVirtualDns name nowMs draws) ↔
        ∀ record ∈ self.config.asConfig.virtualDns, record.name ≠ name →
          nowMs < record.expiresAtMs)) ∧
    (∀ m secrets, self.config.asConfig.ListsMember m →
      m.payload.encryptionPublicKey ≠ self.memberEncryption.publicBytes →
      self.config.asConfig.revokedSerials.length < maxRevokedSerials →
      self.status.head.epoch.toNat + 1 < 2^64 →
      (self.Succeeds w (.revokeMember m.payload.memberId nowMs (some secrets) draws) ↔
        ∀ record ∈ self.config.asConfig.virtualDns, nowMs < record.expiresAtMs)) ∧
    ∀ endpoint, (∃ relay ∈ self.config.asConfig.relays, relay.endpointId = endpoint.asBytes) →
      (self.Succeeds w (.removeRelay endpoint nowMs draws) ↔
        ∀ record ∈ self.config.asConfig.virtualDns, nowMs < record.expiresAtMs) := by
  obtain ⟨g, hplan, hg, -⟩ := initialize_planned hinit
  obtain ⟨v, hv⟩ := hvalid
  have hacceptable := NetworkConfigV1.check_eq_ok.mp (NetworkConfigV1.validate_eq_ok.mp hv).1
  have hready := hsession.ready hideal hg hplan hnamed hacceptable hrandom hroom hrevision
  refine ⟨?_, ?_, ?_⟩
  · intro name hname
    exact hready.removeVirtualDns_iff hideal halways hname
  · intro m secrets hm hother hlimit hepoch
    exact hready.revokeMember_iff hideal halways hm hother hlimit hepoch secrets
  · intro endpoint hrelay
    exact hready.removeRelay_iff hideal halways hrelay

end Removal

end Weaver

/-! ## Two names that expire -/

namespace Weaver.Sample

open Checked Wire Program Transparent

def otherName : VirtualName := ⟨"mail.virtual", by decide⟩

/-- The authority registers an application and gives it two names, which expire at the time 5000. -/
def naming : Option (Authority × Stores) := do
  let (_, s) ← Solo.perform (none, stores) (.open 1000)
  let (_, s) ← s.perform (.call (.registerApp registration 1000 sealing))
  let (_, s) ← s.perform (.call (.setVirtualDns serviceName appRoot.appAddr 5000 1100 sealing))
  let (_, self, w) ← s.perform (.call (.setVirtualDns otherName appRoot.appAddr 5000 1200 sealing))
  let self ← self
  return (self, w)

def authorityEndpoint : EndpointId := ⟨Crypto.endpointPublic random.endpoint, by decide⟩

structure Named (handle : Authority) (w : Stores) : Prop where
  valid : (handle.config.asConfig.validate handle.rootPublic handle.status.networkId 2000).isOk = true ∧
    (handle.config.asConfig.validate handle.rootPublic handle.status.networkId 6000).isOk = true
  names : handle.config.asConfig.virtualDns.map (fun r => (r.name, r.expiresAtMs)) =
    [(serviceName, 5000), (otherName, 5000)]
  relays : handle.config.asConfig.relays.map RelayDescriptor.endpointId = [authorityEndpoint.asBytes]
  room : handle.status.head.revision.toNat < 10 ∧ w.state.nextRecord.toNat < 100 ∧
    w.state.nextCommit.toNat < 100
  /-- After the names have expired neither of them can be removed, nor can the relay. -/
  blocked : ∀ c ∈ [AuthorityCall.removeVirtualDns serviceName 6000 sealing,
    .removeVirtualDns otherName 6000 sealing, .removeRelay authorityEndpoint 6000 sealing],
    (Solo.perform (some handle, w) (.call c)).isNone = true

instance (handle : Authority) (w : Stores) : Decidable (Named handle w) :=
  decidable_of_iff (_ ∧ _ ∧ _ ∧ _ ∧ _)
    ⟨fun h => ⟨h.1, h.2.1, h.2.2.1, h.2.2.2.1, h.2.2.2.2⟩,
      fun h => ⟨h.valid, h.names, h.relays, h.room, h.blocked⟩⟩

theorem naming_named : (naming.map fun s => decide (Named s.1 s.2)) = some true := by decide +kernel

theorem naming_session : ∃ (log : List (Event (authorityApi manifest))) (self : Authority)
    (w : Stores), Session manifest none stores log (some self) w ∧ NamedOnly log ∧ Named self w := by
  have hnamed := naming_named
  rw [Option.map_eq_some_iff] at hnamed
  obtain ⟨⟨self, w⟩, hn, hnamed⟩ := hnamed
  unfold naming at hn
  simp only [Option.bind_eq_bind, Option.bind_eq_some_iff, Prod.exists, Option.pure_def,
    Option.some.injEq, Prod.mk.injEq] at hn
  obtain ⟨_, h₁, w₁, hopen, _, h₂, w₂, hregister, _, h₃, w₃, hset, _, h₄, w₄, hother, self', rfl,
    rfl, rfl⟩ := hn
  refine ⟨_, self', w₄, Solo.session (Solo.session (Solo.session (Solo.session .nil hopen) hregister)
    hset) hother, ?_, of_decide_eq_true hnamed⟩
  intro event hmem c hcall
  simp only [List.mem_cons, List.not_mem_nil, or_false] at hmem
  rcases hmem with rfl | rfl | rfl | rfl <;> cases hcall <;> trivial

theorem sealing_complete : sealing.Complete := ⟨⟨_, rfl⟩, ⟨_, rfl⟩, fun _ => ⟨_, rfl⟩⟩

section Named

variable {self : Authority} {w : Stores}

theorem Named.hasRoom (h : Named self w) :
    self.status.head.revision.toNat + 1 < 2^64 ∧ w.state.HasRoom 3 := by
  obtain ⟨hrevision, hrecords, hcommits⟩ := h.room
  exact ⟨by omega, by omega, by omega⟩

theorem Named.records (h : Named self w) :
    (∃ record ∈ self.config.asConfig.virtualDns, record.name = serviceName) ∧
      (∃ record ∈ self.config.asConfig.virtualDns, record.name = otherName) ∧
      ∀ record ∈ self.config.asConfig.virtualDns, record.expiresAtMs = 5000 := by
  have hmem : ∀ x, (∃ record ∈ self.config.asConfig.virtualDns,
      (record.name, record.expiresAtMs) = x) ↔ x = (serviceName, 5000) ∨ x = (otherName, 5000) := by
    intro x
    rw [← List.mem_map, h.names]
    simp
  obtain ⟨r, hr, heq⟩ := (hmem _).mpr (.inl rfl)
  obtain ⟨r', hr', heq'⟩ := (hmem _).mpr (.inr rfl)
  refine ⟨⟨r, hr, congrArg Prod.fst heq⟩, ⟨r', hr', congrArg Prod.fst heq'⟩, ?_⟩
  intro record hrecord
  rcases (hmem _).mp ⟨record, hrecord, rfl⟩ with hx | hx
  · exact congrArg Prod.snd hx
  · exact congrArg Prod.snd hx

theorem not_succeeds {c : AuthorityCall}
    (h : (Solo.perform (some self, w) (.call c)).isNone = true) : ¬ self.Succeeds w c := by
  rintro ⟨value, self', w', hrun⟩
  have hbody : (authorityBody manifest (.call c) (some self)).run serve w =
      ((.ok value, some self'), w') :=
    authorityBody_call_eq_ok.mpr ⟨self, self', rfl, rfl, hrun⟩
  have hperform : Solo.perform (some self, w) (.call c) = some (value, some self', w') :=
    Solo.perform_eq_some.mpr hbody
  rw [hperform] at h
  cases h

end Named

/-- While the names have not expired, one of them can be removed. -/
theorem removal_iff_unexpired_dns_sample : ∃ (self : Authority) (w : Stores),
    self.Succeeds w (.removeVirtualDns serviceName 2000 sealing) := by
  obtain ⟨init, hinit⟩ := initialize_eq_ok
  obtain ⟨log, self, w, hsession, hlog, hnamed⟩ := naming_session
  obtain ⟨hrevision, hroom⟩ := hnamed.hasRoom
  obtain ⟨hservice, -, hexpires⟩ := hnamed.records
  have hvalid : ∃ v, self.config.asConfig.validate self.rootPublic self.status.networkId 2000 =
      .ok v := by
    have hok := hnamed.valid.1
    cases hv : self.config.asConfig.validate self.rootPublic self.status.networkId 2000 with
    | error e =>
      rw [hv] at hok
      cases hok
    | ok v => exact ⟨v, rfl⟩
  refine ⟨self, w, ((removal_iff_unexpired_dns hpkeIdeal sealsAlways hinit hsession hlog hvalid
    sealing_complete hroom hrevision).1 serviceName hservice).mpr ?_⟩
  intro record hrecord _
  rw [hexpires record hrecord]
  decide

/-- Two names have expired, and the configuration is valid. Neither of the names can be removed, nor
can the relay. -/
theorem removal_blocked_by_expired_dns : ∃ (log : List (Event (authorityApi manifest)))
    (self : Authority) (w : Stores),
    Session manifest none stores log (some self) w ∧ NamedOnly log ∧
      (self.config.asConfig.validate self.rootPublic self.status.networkId 6000).isOk = true ∧
      sealing.Complete ∧ w.state.HasRoom 3 ∧ self.status.head.revision.toNat + 1 < 2^64 ∧
      (∃ record ∈ self.config.asConfig.virtualDns, record.name = serviceName) ∧
      ¬ self.Succeeds w (.removeVirtualDns serviceName 6000 sealing) ∧
      (∃ record ∈ self.config.asConfig.virtualDns, record.name = otherName) ∧
      ¬ self.Succeeds w (.removeVirtualDns otherName 6000 sealing) ∧
      (∃ relay ∈ self.config.asConfig.relays, relay.endpointId = authorityEndpoint.asBytes) ∧
      ¬ self.Succeeds w (.removeRelay authorityEndpoint 6000 sealing) := by
  obtain ⟨log, self, w, hsession, hlog, hnamed⟩ := naming_session
  obtain ⟨hrevision, hroom⟩ := hnamed.hasRoom
  obtain ⟨hservice, hother, -⟩ := hnamed.records
  have hrelay : ∃ relay ∈ self.config.asConfig.relays,
      relay.endpointId = authorityEndpoint.asBytes := by
    have hmem : authorityEndpoint.asBytes ∈
        self.config.asConfig.relays.map RelayDescriptor.endpointId := by
      rw [hnamed.relays]
      exact List.mem_singleton_self _
    obtain ⟨relay, hmem, heq⟩ := List.mem_map.mp hmem
    exact ⟨relay, hmem, heq⟩
  have hblocked := hnamed.blocked
  simp only [List.mem_cons, List.not_mem_nil, or_false, forall_eq_or_imp, forall_eq] at hblocked
  exact ⟨log, self, w, hsession, hlog, hnamed.valid.2, sealing_complete, hroom, hrevision, hservice,
    not_succeeds hblocked.1, hother, not_succeeds hblocked.2.1, hrelay, not_succeeds hblocked.2.2⟩

end Weaver.Sample
