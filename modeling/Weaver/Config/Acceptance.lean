import Weaver.Config.Validate

/-!
# What the validator accepts

`Acceptable` states what a valid snapshot is without loops, maps or an order of checks: every
listed credential is a credential of its kind, issued by someone entitled to, in its window and not
revoked, and identifiers are distinct within each list. `check_eq_ok` proves that the validator
accepts exactly the acceptable snapshots.

The maps that later loops consult are characterised once, by the loop that builds them: what a map
holds under a key is the listed credential with that key. An early return in one loop therefore
never hides a violation in another list.
-/

namespace Weaver

open Checked Wire Collect Snapshot

variable [Crypto]

/-! ## The predicate -/

namespace NetworkConfigV1

def ListsAdmin (c : NetworkConfigV1) (a : AdminCertificate) : Prop :=
  ⟨a.toBytes⟩ ∈ c.adminKeys

def ListsMember (c : NetworkConfigV1) (m : MemberCertificate) : Prop := m.toBytes ∈ c.members

def ListsEndpoint (c : NetworkConfigV1) (b : EndpointBinding) : Prop :=
  b.toBytes ∈ c.endpointBindings

def ListsApp (c : NetworkConfigV1) (a : AppRegistration) : Prop := a.toBytes ∈ c.apps

def ListsBinding (c : NetworkConfigV1) (b : AppBinding) : Prop := b.toBytes ∈ c.appBindings

/-- A member certificate is current, and issued by the root or by a listed administrator,
whichever its issuer identifier names. -/
structure MemberAccepted (c : NetworkConfigV1) (root : NetworkRootPublic)
    (expectedNetwork : NetworkId) (nowMs : UInt64) (m : MemberCertificate) : Prop where
  current : m.Current expectedNetwork nowMs c.revokedSerials
  issued : (m.payload.issuerKeyId = root.keyId ∧ m.IssuedByRoot root expectedNetwork) ∨
    (m.payload.issuerKeyId ≠ root.keyId ∧
      ∃ a, c.ListsAdmin a ∧ m.IssuedByAdmin a.payload expectedNetwork)

/-- A registration is of the network, and issued by the root or by a listed administrator,
whichever its issuer identifier names. -/
structure AppAccepted (c : NetworkConfigV1) (root : NetworkRootPublic)
    (expectedNetwork : NetworkId) (r : AppRegistration) : Prop where
  /-- The registration is of the network and its address is derived from its key. -/
  current : r.Current expectedNetwork
  issued : (r.payload.issuerKeyId = root.keyId ∧ r.IssuedByRoot root expectedNetwork) ∨
    (r.payload.issuerKeyId ≠ root.keyId ∧
      ∃ a, c.ListsAdmin a ∧ r.IssuedByAdmin a.payload expectedNetwork)

/-- An endpoint binding is signed by a listed member, for the endpoint it names, and unexpired. -/
def EndpointAccepted (c : NetworkConfigV1) (expectedNetwork : NetworkId) (nowMs : UInt64)
    (b : EndpointBinding) : Prop :=
  ∃ m, c.ListsMember m ∧ b.Verifies m.payload expectedNetwork b.payload.endpointId nowMs

/-- An application binding is signed by a listed application for a listed member, consistent in its
role, unexpired, and within the policy's limit on services. -/
def BindingAccepted (c : NetworkConfigV1) (expectedNetwork : NetworkId) (nowMs : UInt64)
    (b : AppBinding) : Prop :=
  b.payload.services.length ≤ c.policies.maxServicesPerBinding.toNat ∧
    ∃ r m, c.ListsApp r ∧ c.ListsMember m ∧ b.Verifies r.payload m.payload expectedNetwork nowMs

/-- A virtual DNS record names a listed application, and expires after the snapshot was issued and
no later than it. -/
structure DnsAccepted (c : NetworkConfigV1) (record : VirtualDnsRecord) : Prop where
  app : ∃ r, c.ListsApp r ∧ r.payload.appAddr = record.appAddr
  begins : c.issuedAtMs < record.expiresAtMs
  ends : record.expiresAtMs ≤ c.expiresAtMs

def DescriptorAccepted (nowMs : UInt64) (url : String) (expiresAtMs : UInt64) : Prop :=
  ((utf8 url).length ≠ 0 ∧ (utf8 url).length ≤ maxUrlBytes ∧ isAscii url = true) ∧
    nowMs < expiresAtMs

structure Acceptable (c : NetworkConfigV1) (root : NetworkRootPublic)
    (expectedNetwork : NetworkId) (nowMs : UInt64) : Prop where
  shape : c.Shape
  network : c.networkId = expectedNetwork
  root_network : root.networkId = expectedNetwork
  issued : c.issuedAtMs ≤ nowMs
  unexpired : nowMs < c.expiresAtMs
  revoked_distinct : c.revokedSerials.Nodup
  /-- Every administrator key is a certificate that the root issued, current and unrevoked. -/
  admins : ∀ key ∈ c.adminKeys, ∃ a : AdminCertificate, key.certificate = a.toBytes ∧
    a.Verifies root expectedNetwork nowMs c.revokedSerials
  admins_distinct : DistinctOn (fun key : AdminKey => AdminCertificate.fromBytes key.certificate)
    (fun a => a.payload.keyId) c.adminKeys
  /-- Every member is a certificate that is current and rightly issued. -/
  members : ∀ raw ∈ c.members, ∃ m : MemberCertificate, raw = m.toBytes ∧
    c.MemberAccepted root expectedNetwork nowMs m
  members_distinct : DistinctOn MemberCertificate.fromBytes (fun m => m.payload.memberId) c.members
  members_limit : c.members.length ≤ c.policies.maxMembers.toNat
  endpoints : ∀ raw ∈ c.endpointBindings, ∃ b : EndpointBinding, raw = b.toBytes ∧
    c.EndpointAccepted expectedNetwork nowMs b
  endpoints_distinct :
    DistinctOn EndpointBinding.fromBytes (fun b => b.payload.endpointId) c.endpointBindings
  apps : ∀ raw ∈ c.apps, ∃ r : AppRegistration, raw = r.toBytes ∧
    c.AppAccepted root expectedNetwork r
  apps_distinct : DistinctOn AppRegistration.fromBytes (fun r => r.payload.appAddr) c.apps
  /-- Every application binding is a listed application's for a listed member, and unexpired. -/
  bindings : ∀ raw ∈ c.appBindings, ∃ b : AppBinding, raw = b.toBytes ∧
    c.BindingAccepted expectedNetwork nowMs b
  bindings_distinct : DistinctOn AppBinding.fromBytes
    (fun b => (b.payload.appAddr, b.payload.subject, b.payload.role)) c.appBindings
  /-- Every virtual DNS record is within the snapshot's window and names a listed application. -/
  dns : ∀ record ∈ c.virtualDns, c.DnsAccepted record
  dns_distinct : (c.virtualDns.map VirtualDnsRecord.name).Nodup
  relays : ∀ relay ∈ c.relays, DescriptorAccepted nowMs relay.url relay.expiresAtMs
  relays_distinct : (c.relays.map RelayDescriptor.endpointId).Nodup
  presence : ∀ service ∈ c.presenceServices,
    DescriptorAccepted nowMs service.url service.expiresAtMs
  presence_distinct : (c.presenceServices.map PresenceServiceDescriptor.endpointId).Nodup

end NetworkConfigV1

/-! ## The checks of single entries -/

namespace Snapshot

variable {c : NetworkConfigV1} {root : NetworkRootPublic} {expectedNetwork : NetworkId}
  {nowMs : UInt64}

theorem validateAdminKey_eq_ok {revoked : List UInt64} {key : AdminKey} {v : VerifiedAdmin} :
    validateAdminKey root expectedNetwork nowMs revoked key = .ok v ↔
      ∃ a : AdminCertificate, key.certificate = a.toBytes ∧
        a.Verifies root expectedNetwork nowMs revoked ∧ v.payload = a.payload := by
  unfold validateAdminKey
  simp only [bind_eq_ok, mapError_eq_ok, Signed.fromBytes_eq_ok, AdminCertificate.verify_eq_ok]

section Admins

variable {admins : List VerifiedAdmin}

abbrev AdminsFrom (c : NetworkConfigV1) (root : NetworkRootPublic) (expectedNetwork : NetworkId)
    (nowMs : UInt64) (admins : List VerifiedAdmin) : Prop :=
  collect (validateAdminKey root expectedNetwork nowMs c.revokedSerials)
    (fun admin => admin.payload.keyId) (.duplicateEntry "admin key") c.adminKeys = .ok admins

variable {members : List VerifiedMember} {apps : List VerifiedApp}

abbrev MembersFrom (c : NetworkConfigV1) (root : NetworkRootPublic) (expectedNetwork : NetworkId)
    (nowMs : UInt64) (admins : List VerifiedAdmin) (members : List VerifiedMember) : Prop :=
  collect (validateMember root expectedNetwork nowMs c.revokedSerials admins)
    (fun member => member.payload.memberId) (.duplicateEntry "member") c.members = .ok members

abbrev AppsFrom (c : NetworkConfigV1) (root : NetworkRootPublic) (expectedNetwork : NetworkId)
    (admins : List VerifiedAdmin) (apps : List VerifiedApp) : Prop :=
  collect (validateApp root expectedNetwork admins) (fun app => app.payload.appAddr)
    (.duplicateEntry "application") c.apps = .ok apps

variable (ha : AdminsFrom c root expectedNetwork nowMs admins)

include ha

theorem exists_listed_admin
    {a : AdminCertificate} (hlist : c.ListsAdmin a) :
    ∃ v : VerifiedAdmin, v.payload = a.payload ∧
      validateAdminKey root expectedNetwork nowMs c.revokedSerials ⟨a.toBytes⟩ = .ok v := by
  obtain ⟨hall, -⟩ := exists_collect_eq_ok.mp ⟨admins, ha⟩
  obtain ⟨v, hv⟩ := hall _ hlist
  obtain ⟨a', ha', -, hp⟩ := validateAdminKey_eq_ok.mp hv
  obtain rfl := Signed.toBytes_injective ha'
  exact ⟨v, hp, hv⟩

variable {v : VerifiedAdmin}

theorem mem_admins :
    v ∈ admins ↔ ∃ a, c.ListsAdmin a ∧ v.payload = a.payload := by
  rw [mem_of_collect ha]
  constructor
  · rintro ⟨key, hkey, hv⟩
    obtain ⟨a, ha, -, hp⟩ := validateAdminKey_eq_ok.mp hv
    refine ⟨a, ?_, hp⟩
    rw [NetworkConfigV1.ListsAdmin, ← ha]
    exact hkey
  · rintro ⟨a, hlist, hp⟩
    -- the listed certificate passed its check, so the map holds its administrator
    obtain ⟨v', hp', hv'⟩ := exists_listed_admin ha hlist
    refine ⟨_, hlist, ?_⟩
    rw [hv', VerifiedAdmin.ext_payload (hp'.trans hp.symm)]

theorem findAdmin_eq_ok {keyId : KeyId} :
    findAdmin admins keyId = .ok v ↔
      ∃ a, c.ListsAdmin a ∧ a.payload.keyId = keyId ∧ v.payload = a.payload := by
  have hnd := (collect_eq_ok.mp ha).2
  unfold findAdmin
  rw [okOr_eq_ok, lookup_eq_some hnd, mem_admins ha]
  constructor
  · rintro ⟨⟨a, hlist, hp⟩, hid⟩
    refine ⟨a, hlist, ?_, hp⟩
    rw [← hp]
    exact hid
  · rintro ⟨a, hlist, hid, hp⟩
    refine ⟨⟨a, hlist, hp⟩, ?_⟩
    rw [hp]
    exact hid

theorem issuer_eq_ok {ν : Type} {issuer : KeyId} {byRoot : Except CertificateError ν}
    {byAdmin : VerifiedAdmin → Except CertificateError ν} {Current RootIssued : Prop}
    (IssuedBy : AdminCertificatePayload → Prop) {out v : ν}
    (hroot : byRoot = .ok v ↔ Current ∧ RootIssued ∧ v = out)
    (hadmin : ∀ admin, byAdmin admin = .ok v ↔ Current ∧ IssuedBy admin.payload ∧ v = out)
    (hissuer : ∀ a, IssuedBy a → issuer = a.keyId) :
    (if issuer = root.keyId then byRoot.mapError SnapshotError.credential
      else do
        let admin ← findAdmin admins issuer
        (byAdmin admin).mapError SnapshotError.credential) = .ok v ↔
      (Current ∧ (issuer = root.keyId ∧ RootIssued ∨
        issuer ≠ root.keyId ∧ ∃ a, c.ListsAdmin a ∧ IssuedBy a.payload)) ∧ v = out := by
  split
  · next heq =>
    rw [mapError_eq_ok, hroot]
    simp [heq, and_assoc]
  · next hne =>
    simp only [bind_eq_ok, mapError_eq_ok, findAdmin_eq_ok ha, hadmin]
    constructor
    · rintro ⟨admin, ⟨a, hlist, -, hp⟩, hcur, hiss, hv⟩
      rw [hp] at hiss
      exact ⟨⟨hcur, .inr ⟨hne, a, hlist, hiss⟩⟩, hv⟩
    · rintro ⟨⟨hcur, ⟨heq, -⟩ | ⟨-, a, hlist, hiss⟩⟩, hv⟩
      · exact absurd heq hne
      · obtain ⟨admin, hp, -⟩ := exists_listed_admin ha hlist
        refine ⟨admin, ⟨a, hlist, (hissuer _ hiss).symm, hp⟩, hcur, ?_, hv⟩
        rw [hp]
        exact hiss

variable {raw : Bytes}

theorem validateMember_eq_ok {v : VerifiedMember} :
    validateMember root expectedNetwork nowMs c.revokedSerials admins raw = .ok v ↔
      ∃ m : MemberCertificate, raw = m.toBytes ∧ c.MemberAccepted root expectedNetwork nowMs m ∧
        v = ⟨m.payload⟩ := by
  unfold validateMember
  simp only [bind_eq_ok, mapError_eq_ok, Signed.fromBytes_eq_ok]
  refine exists_congr fun m => and_congr_right fun _ => ?_
  refine (issuer_eq_ok ha (fun a => m.IssuedByAdmin a expectedNetwork) MemberCertificate.verify_eq_ok
    (fun _ => MemberCertificate.verifyWithAdmin_eq_ok) fun _ hiss => hiss.issuer).trans ?_
  exact and_congr_left fun _ => ⟨fun h => ⟨h.1, h.2⟩, fun h => ⟨h.current, h.issued⟩⟩

theorem validateApp_eq_ok {v : VerifiedApp} :
    validateApp root expectedNetwork admins raw = .ok v ↔
      ∃ r : AppRegistration, raw = r.toBytes ∧ c.AppAccepted root expectedNetwork r ∧
        v = ⟨r.payload⟩ := by
  unfold validateApp
  simp only [bind_eq_ok, mapError_eq_ok, Signed.fromBytes_eq_ok]
  refine exists_congr fun r => and_congr_right fun _ => ?_
  refine (issuer_eq_ok ha (fun a => r.IssuedByAdmin a expectedNetwork) AppRegistration.verify_eq_ok
    (fun _ => AppRegistration.verifyWithAdmin_eq_ok) fun _ hiss => hiss.issuer).trans ?_
  exact and_congr_left fun _ => ⟨fun h => ⟨h.1, h.2⟩, fun h => ⟨h.current, h.issued⟩⟩

/-! ## The maps of members and applications -/

theorem findMember_eq_ok (h : MembersFrom c root expectedNetwork nowMs admins members) {memberId : MemberId}
    {v : VerifiedMember} :
    findMember members memberId = .ok v ↔
      ∃ m, c.ListsMember m ∧ m.payload.memberId = memberId ∧ v = ⟨m.payload⟩ := by
  have hnd := (collect_eq_ok.mp h).2
  obtain ⟨hall, -⟩ := exists_collect_eq_ok.mp ⟨members, h⟩
  unfold findMember
  rw [okOr_eq_ok, lookup_eq_some hnd, mem_of_collect h]
  constructor
  · rintro ⟨⟨raw, hraw, hv⟩, hid⟩
    obtain ⟨m, rfl, -, rfl⟩ := (validateMember_eq_ok ha).mp hv
    exact ⟨m, hraw, hid, rfl⟩
  · rintro ⟨m, hlist, hid, rfl⟩
    obtain ⟨v', hv'⟩ := hall _ hlist
    obtain ⟨m', hm', -, rfl⟩ := (validateMember_eq_ok ha).mp hv'
    obtain rfl := Signed.toBytes_injective hm'
    exact ⟨⟨_, hlist, hv'⟩, hid⟩

theorem findApp_eq_ok (h : AppsFrom c root expectedNetwork admins apps) {appAddr : AppAddr} {v : VerifiedApp} :
    findApp apps appAddr = .ok v ↔
      ∃ r, c.ListsApp r ∧ r.payload.appAddr = appAddr ∧ v = ⟨r.payload⟩ := by
  have hnd := (collect_eq_ok.mp h).2
  obtain ⟨hall, -⟩ := exists_collect_eq_ok.mp ⟨apps, h⟩
  unfold findApp
  rw [okOr_eq_ok, lookup_eq_some hnd, mem_of_collect h]
  constructor
  · rintro ⟨⟨raw, hraw, hv⟩, hid⟩
    obtain ⟨r, rfl, -, rfl⟩ := (validateApp_eq_ok ha).mp hv
    exact ⟨r, hraw, hid, rfl⟩
  · rintro ⟨r, hlist, hid, rfl⟩
    obtain ⟨v', hv'⟩ := hall _ hlist
    obtain ⟨r', hr', -, rfl⟩ := (validateApp_eq_ok ha).mp hv'
    obtain rfl := Signed.toBytes_injective hr'
    exact ⟨⟨_, hlist, hv'⟩, hid⟩

theorem validateEndpoint_eq_ok (hm : MembersFrom c root expectedNetwork nowMs admins members)
    {b : EndpointBinding} :
    validateEndpoint expectedNetwork nowMs members raw = .ok b ↔ ∃ s : EndpointBinding,
      raw = s.toBytes ∧ c.EndpointAccepted expectedNetwork nowMs s ∧ b = s := by
  unfold validateEndpoint
  simp only [bind_eq_ok, mapError_eq_ok, Signed.fromBytes_eq_ok, findMember_eq_ok ha hm,
    EndpointBinding.verify_eq_ok, exists_and_left, exists_const, pure_eq_ok_iff]
  constructor
  · rintro ⟨s, hraw, v, ⟨m, hlist, -, rfl⟩, hver, rfl⟩
    exact ⟨_, hraw, ⟨m, hlist, hver⟩, rfl⟩
  · rintro ⟨s, hraw, ⟨m, hlist, hver⟩, rfl⟩
    exact ⟨_, hraw, ⟨m.payload⟩, ⟨m, hlist, hver.member_id.symm, rfl⟩, hver, rfl⟩

theorem validateAppBinding_eq_ok (hm : MembersFrom c root expectedNetwork nowMs admins members)
    (hp : AppsFrom c root expectedNetwork admins apps) {b : AppBinding} :
    validateAppBinding expectedNetwork nowMs c.policies apps members raw = .ok b ↔
      ∃ s : AppBinding, raw = s.toBytes ∧ c.BindingAccepted expectedNetwork nowMs s ∧ b = s := by
  unfold validateAppBinding
  simp only [bind_eq_ok, mapError_eq_ok, Signed.fromBytes_eq_ok, findMember_eq_ok ha hm,
    findApp_eq_ok ha hp, AppBinding.verify_eq_ok, failIf_eq_ok, not_lt, exists_and_left,
    exists_const, pure_eq_ok_iff]
  constructor
  · rintro ⟨s, hraw, _, ⟨r, hr, -, rfl⟩, _, ⟨m, hlist, -, rfl⟩, hlimit, hver, rfl⟩
    exact ⟨_, hraw, ⟨hlimit, r, m, hr, hlist, hver⟩, rfl⟩
  · rintro ⟨s, hraw, ⟨hlimit, r, m, hr, hlist, hver⟩, rfl⟩
    exact ⟨_, hraw, ⟨r.payload⟩, ⟨r, hr, hver.app_addr.symm, rfl⟩, ⟨m.payload⟩,
      ⟨m, hlist, hver.subject.symm, rfl⟩, hlimit, hver, rfl⟩

theorem validateDnsRecord_eq_ok (hp : AppsFrom c root expectedNetwork admins apps) {record out : VirtualDnsRecord} :
    validateDnsRecord c.issuedAtMs c.expiresAtMs apps record = .ok out ↔
      c.DnsAccepted record ∧ out = record := by
  unfold validateDnsRecord
  simp only [bind_eq_ok, findApp_eq_ok ha hp, failIf_eq_ok, not_or, not_le, not_lt,
    exists_and_left, exists_const, pure_eq_ok_iff]
  constructor
  · rintro ⟨_, ⟨r, hr, hid, -⟩, ⟨hbegin, hend⟩, rfl⟩
    exact ⟨⟨⟨r, hr, hid⟩, hbegin, hend⟩, rfl⟩
  · rintro ⟨⟨⟨r, hr, hid⟩, hbegin, hend⟩, rfl⟩
    exact ⟨⟨r.payload⟩, ⟨r, hr, hid, rfl⟩, ⟨hbegin, hend⟩, rfl⟩

end Admins

omit [Crypto] in
theorem validateRelay_eq_ok {relay out : RelayDescriptor} :
    validateRelay nowMs relay = .ok out ↔
      NetworkConfigV1.DescriptorAccepted nowMs relay.url relay.expiresAtMs ∧ out = relay := by
  unfold validateRelay NetworkConfigV1.DescriptorAccepted
  simp only [bind_eq_ok, validateUrl_eq_ok, failIf_eq_ok, not_le, exists_and_left, exists_const,
    pure_eq_ok_iff, and_assoc, eq_comm (a := out)]

omit [Crypto] in
theorem validatePresence_eq_ok {service out : PresenceServiceDescriptor} :
    validatePresence nowMs service = .ok out ↔
      NetworkConfigV1.DescriptorAccepted nowMs service.url service.expiresAtMs ∧
        out = service := by
  unfold validatePresence NetworkConfigV1.DescriptorAccepted
  simp only [bind_eq_ok, validateUrl_eq_ok, failIf_eq_ok, not_le, exists_and_left, exists_const,
    pure_eq_ok_iff, and_assoc, eq_comm (a := out)]

/-! ## The loops -/

variable {dup : SnapshotError}

omit [Crypto] in
/-- A loop over entries that hold a credential each, and files what it makes of them under a key: it
succeeds exactly when every credential is accepted and the keys are distinct. -/
theorem exists_collect_credentials {α ν P κ : Type} [DecidableEq κ] {F : PayloadFormat P}
    {f : α → Except SnapshotError ν} {raw : α → Bytes} {accepted : Signed F → Prop}
    {Makes : Signed F → ν → Prop}
    (hf : ∀ x v, f x = .ok v ↔ ∃ s, raw x = s.toBytes ∧ accepted s ∧ Makes s v)
    (hmakes : ∀ s, accepted s → ∃ v, Makes s v) {key : ν → κ} {key' : Signed F → κ}
    (hkey : ∀ s v, Makes s v → key v = key' s) {l : List α} :
    (∃ out, collect f key dup l = .ok out) ↔
      (∀ x ∈ l, ∃ s : Signed F, raw x = s.toBytes ∧ accepted s) ∧
      DistinctOn (fun x => Signed.fromBytes F (raw x)) key' l := by
  have hitem : ∀ x, (∃ v, f x = .ok v) ↔ ∃ s : Signed F, raw x = s.toBytes ∧ accepted s := by
    intro x
    simp only [hf]
    constructor
    · rintro ⟨v, s, hs, hacc, -⟩
      exact ⟨s, hs, hacc⟩
    · rintro ⟨s, hs, hacc⟩
      obtain ⟨v, hv⟩ := hmakes s hacc
      exact ⟨v, s, hs, hacc, hv⟩
  rw [exists_collect_eq_ok]
  simp only [hitem]
  refine and_congr_right fun hall => distinctOn_congr fun x hx => ?_
  obtain ⟨s, hs, hacc⟩ := hall x hx
  obtain ⟨v, hv⟩ := hmakes s hacc
  exact ⟨v, s, (hf x v).mpr ⟨s, hs, hacc, hv⟩, Signed.fromBytes_eq_ok.mpr hs, hkey s v hv⟩

omit [Crypto] in
theorem exists_collect_signed {P κ : Type} [DecidableEq κ] {F : PayloadFormat P}
    {f : Bytes → Except SnapshotError (Signed F)} {accepted : Signed F → Prop}
    (hf : ∀ raw b, f raw = .ok b ↔ ∃ s : Signed F, raw = s.toBytes ∧ accepted s ∧ b = s)
    {key : Signed F → κ} {l : List Bytes} :
    (∃ out, collect f key dup l = .ok out) ↔
      (∀ raw ∈ l, ∃ s : Signed F, raw = s.toBytes ∧ accepted s) ∧
      DistinctOn (Signed.fromBytes F) key l :=
  exists_collect_credentials hf (fun s _ => ⟨s, rfl⟩) fun _ _ hv => by rw [hv]

theorem exists_admins_iff :
    (∃ admins, AdminsFrom c root expectedNetwork nowMs admins) ↔
      (∀ key ∈ c.adminKeys, ∃ a : AdminCertificate, key.certificate = a.toBytes ∧
        a.Verifies root expectedNetwork nowMs c.revokedSerials) ∧
      DistinctOn (fun key : AdminKey => AdminCertificate.fromBytes key.certificate)
        (fun a => a.payload.keyId) c.adminKeys :=
  exists_collect_credentials (fun _ _ => validateAdminKey_eq_ok)
    (fun a hver => ⟨⟨a.payload, hver.valid_key⟩, rfl⟩) fun _ _ hv => by rw [hv]

section Admitted

variable {admins : List VerifiedAdmin} (ha : AdminsFrom c root expectedNetwork nowMs admins)

include ha

theorem exists_members_iff :
    (∃ members, MembersFrom c root expectedNetwork nowMs admins members) ↔
      (∀ raw ∈ c.members, ∃ m : MemberCertificate, raw = m.toBytes ∧
        c.MemberAccepted root expectedNetwork nowMs m) ∧
      DistinctOn MemberCertificate.fromBytes (fun m => m.payload.memberId) c.members :=
  exists_collect_credentials (fun _ _ => validateMember_eq_ok ha) (fun _ _ => ⟨_, rfl⟩)
    fun _ _ hv => by rw [hv]

theorem exists_apps_iff :
    (∃ apps, AppsFrom c root expectedNetwork admins apps) ↔
      (∀ raw ∈ c.apps, ∃ r : AppRegistration, raw = r.toBytes ∧
        c.AppAccepted root expectedNetwork r) ∧
      DistinctOn AppRegistration.fromBytes (fun r => r.payload.appAddr) c.apps :=
  exists_collect_credentials (fun _ _ => validateApp_eq_ok ha) (fun _ _ => ⟨_, rfl⟩)
    fun _ _ hv => by rw [hv]

end Admitted

omit [Crypto] in
theorem validateDescriptors_eq_ok {u : Unit} :
    validateDescriptors c.relays c.presenceServices nowMs = .ok u ↔
      ((∀ relay ∈ c.relays,
          NetworkConfigV1.DescriptorAccepted nowMs relay.url relay.expiresAtMs) ∧
        (c.relays.map RelayDescriptor.endpointId).Nodup) ∧
      (∀ service ∈ c.presenceServices,
          NetworkConfigV1.DescriptorAccepted nowMs service.url service.expiresAtMs) ∧
        (c.presenceServices.map PresenceServiceDescriptor.endpointId).Nodup := by
  unfold validateDescriptors
  simp only [bind_eq_ok, pure_eq_ok_iff, exists_and_right]
  rw [exists_collect_self_eq_ok fun _ _ => validateRelay_eq_ok,
    exists_collect_self_eq_ok fun _ _ => validatePresence_eq_ok]
  simp

end Snapshot

/-! ## The validator -/

theorem NetworkConfigV1.check_eq_ok {c : NetworkConfigV1} {root : NetworkRootPublic}
    {expectedNetwork : NetworkId} {nowMs : UInt64} {u : Unit} :
    c.check root expectedNetwork nowMs = .ok u ↔ c.Acceptable root expectedNetwork nowMs := by
  have hrevoked : c.revokedSerials.dedup.length = c.revokedSerials.length ↔
      c.revokedSerials.Nodup := by
    rw [← List.dedup_eq_self]
    constructor
    · intro h
      exact (List.dedup_sublist c.revokedSerials).eq_of_length h
    · intro h
      rw [h]
  unfold NetworkConfigV1.check
  simp only [bind_eq_ok, validateShape_eq_ok, failIf_eq_ok, not_or, not_lt, not_le,
    Decidable.not_not, hrevoked, exists_and_left, exists_const, validateDescriptors_eq_ok]
  constructor
  · rintro ⟨hshape, ⟨hnet, hroot⟩, hissued, hexp, hrev, admins, ha, members, hm, hlimit, ends, he,
      apps, hp, bindings, hb, dns, hd, ⟨hrel, hreld⟩, hpres, hpresd⟩
    obtain ⟨hadmins, hadminsd⟩ := exists_admins_iff.mp ⟨admins, ha⟩
    obtain ⟨hmembers, hmembersd⟩ := (exists_members_iff ha).mp ⟨members, hm⟩
    obtain ⟨happs, happsd⟩ := (exists_apps_iff ha).mp ⟨apps, hp⟩
    obtain ⟨hends, hendsd⟩ := (exists_collect_signed
      fun _ _ => validateEndpoint_eq_ok ha hm).mp ⟨ends, he⟩
    obtain ⟨hbinds, hbindsd⟩ := (exists_collect_signed
      fun _ _ => validateAppBinding_eq_ok ha hm hp).mp ⟨bindings, hb⟩
    obtain ⟨hdns, hdnsd⟩ := (exists_collect_self_eq_ok
      fun _ _ => validateDnsRecord_eq_ok ha hp).mp ⟨dns, hd⟩
    have hlen : members.length = c.members.length := (collect_eq_ok.mp hm).1.length_eq.symm
    rw [hlen] at hlimit
    exact ⟨hshape, hnet, hroot, hissued, hexp, hrev, hadmins, hadminsd, hmembers, hmembersd,
      hlimit, hends, hendsd, happs, happsd, hbinds, hbindsd, hdns, hdnsd, hrel, hreld, hpres,
      hpresd⟩
  · intro h
    obtain ⟨admins, ha⟩ := exists_admins_iff.mpr ⟨h.admins, h.admins_distinct⟩
    obtain ⟨members, hm⟩ := (exists_members_iff ha).mpr ⟨h.members, h.members_distinct⟩
    obtain ⟨apps, hp⟩ := (exists_apps_iff ha).mpr ⟨h.apps, h.apps_distinct⟩
    obtain ⟨ends, he⟩ := (exists_collect_signed
      fun _ _ => validateEndpoint_eq_ok ha hm).mpr ⟨h.endpoints, h.endpoints_distinct⟩
    obtain ⟨bindings, hb⟩ := (exists_collect_signed
      fun _ _ => validateAppBinding_eq_ok ha hm hp).mpr ⟨h.bindings, h.bindings_distinct⟩
    obtain ⟨dns, hd⟩ := (exists_collect_self_eq_ok
      fun _ _ => validateDnsRecord_eq_ok ha hp).mpr ⟨h.dns, h.dns_distinct⟩
    have hlen : members.length = c.members.length := (collect_eq_ok.mp hm).1.length_eq.symm
    have hlimit : members.length ≤ c.policies.maxMembers.toNat := by
      rw [hlen]
      exact h.members_limit
    exact ⟨h.shape, ⟨h.network, h.root_network⟩, h.issued, h.unexpired, h.revoked_distinct, admins,
      ha, members, hm, hlimit, ends, he, apps, hp, bindings, hb, dns, hd,
      ⟨h.relays, h.relays_distinct⟩, h.presence, h.presence_distinct⟩

/-- `NetworkConfigV1::validate` returns a configuration exactly for the acceptable snapshots, and
then the snapshot itself. -/
theorem NetworkConfigV1.validate_iff_acceptable (c : NetworkConfigV1) (root : NetworkRootPublic)
    (expectedNetwork : NetworkId) (nowMs : UInt64) :
    (∃ v, c.validate root expectedNetwork nowMs = .ok v) ↔
      c.Acceptable root expectedNetwork nowMs := by
  rw [← check_eq_ok (u := ())]
  constructor
  · rintro ⟨v, hv⟩
    exact (validate_eq_ok.mp hv).1
  · intro h
    exact ⟨⟨c, root, expectedNetwork, nowMs, h⟩, validate_eq_ok.mpr ⟨h, rfl⟩⟩

/-! ## The entries of a valid snapshot -/

namespace NetworkConfigV1.Acceptable

variable {c : NetworkConfigV1} {root : NetworkRootPublic} {network : NetworkId} {nowMs : UInt64}

theorem admin_verifies (h : c.Acceptable root network nowMs) {a : AdminCertificate}
    (ha : c.ListsAdmin a) : a.Verifies root network nowMs c.revokedSerials := by
  obtain ⟨a', heq, hverifies⟩ := h.admins _ ha
  rw [Signed.toBytes_injective heq]
  exact hverifies

theorem member_accepted (h : c.Acceptable root network nowMs) {m : MemberCertificate}
    (hm : c.ListsMember m) : c.MemberAccepted root network nowMs m := by
  obtain ⟨m', heq, haccepted⟩ := h.members _ hm
  rw [Signed.toBytes_injective heq]
  exact haccepted

theorem endpoint_accepted (h : c.Acceptable root network nowMs) {b : EndpointBinding}
    (hb : c.ListsEndpoint b) : c.EndpointAccepted network nowMs b := by
  obtain ⟨b', heq, haccepted⟩ := h.endpoints _ hb
  rw [Signed.toBytes_injective heq]
  exact haccepted

theorem app_accepted (h : c.Acceptable root network nowMs) {r : AppRegistration}
    (hr : c.ListsApp r) : c.AppAccepted root network r := by
  obtain ⟨r', heq, haccepted⟩ := h.apps _ hr
  rw [Signed.toBytes_injective heq]
  exact haccepted

theorem binding_accepted (h : c.Acceptable root network nowMs) {b : AppBinding}
    (hb : c.ListsBinding b) : c.BindingAccepted network nowMs b := by
  obtain ⟨b', heq, haccepted⟩ := h.bindings _ hb
  rw [Signed.toBytes_injective heq]
  exact haccepted

end NetworkConfigV1.Acceptable

end Weaver
