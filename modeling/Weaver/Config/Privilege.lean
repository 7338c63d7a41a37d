import Weaver.Config.SealOpen

/-!
# What an administrator's permissions allow it to change

The permissions of an administrator are bits of its certificate. `open_next_config` requires
`ADMIN_PERMISSION_CONFIG_WRITE` of the signer, and `validate` requires of the issuer of each member
and of each application that it is the root or has the permission for it. The fourth bit,
`ADMIN_PERMISSION_REVOKE`, is read nowhere: who may write a configuration may also drop members and
revoke serials.
-/

namespace Weaver

open Checked Wire Collect Snapshot

variable [Crypto]

def adminPermissionRevoke : UInt32 := 4

/-- The configuration `next` drops a member of `c`, or revokes a serial that `c` does not. -/
def NetworkConfigV1.Revokes (c next : NetworkConfigV1) : Prop :=
  (∃ m, c.ListsMember m ∧ ¬ next.ListsMember m) ∨
    ∃ serial ∈ next.revokedSerials, serial ∉ c.revokedSerials

def NetworkConfigV1.Permits (c : NetworkConfigV1) (keyId : KeyId) (permission : UInt32) : Prop :=
  ∃ a, c.ListsAdmin a ∧ a.payload.keyId = keyId ∧ a.payload.permissions &&& permission ≠ 0

/-- The change from `c` to `next`, signed by the administrator `signer`, is within the permissions
of those who made it. -/
structure NetworkConfigV1.LeastPrivilege (root : NetworkRootPublic) (signer : KeyId)
    (c next : NetworkConfigV1) : Prop where
  revoke : c.Revokes next → c.Permits signer adminPermissionRevoke
  /-- Each new member is issued by the root, or by an administrator that may issue members. -/
  member : ∀ m, next.ListsMember m → ¬ c.ListsMember m →
    m.IssuedByRoot root next.networkId ∨
      ∃ a, next.ListsAdmin a ∧ m.IssuedByAdmin a.payload next.networkId ∧
        a.payload.permissions &&& adminPermissionIssueMember ≠ 0
  /-- Each new application is registered by the root, or by an administrator that may register
  applications. -/
  app : ∀ r, next.ListsApp r → ¬ c.ListsApp r →
    r.IssuedByRoot root next.networkId ∨
      ∃ a, next.ListsAdmin a ∧ r.IssuedByAdmin a.payload next.networkId ∧
        a.payload.permissions &&& adminPermissionRegisterApp ≠ 0

variable {c : NetworkConfigV1} {root : NetworkRootPublic} {network : NetworkId}

theorem NetworkConfigV1.Acceptable.member_permitted {nowMs : UInt64}
    (h : c.Acceptable root network nowMs) {m : MemberCertificate} (hm : c.ListsMember m) :
    m.IssuedByRoot root network ∨
      ∃ a, c.ListsAdmin a ∧ m.IssuedByAdmin a.payload network ∧
        a.payload.permissions &&& adminPermissionIssueMember ≠ 0 := by
  have hacc := h.member_accepted hm
  obtain ⟨-, hroot⟩ | ⟨-, a, ha, hadmin⟩ := hacc.issued
  · exact .inl hroot
  · exact .inr ⟨a, ha, hadmin, hadmin.permitted⟩

theorem NetworkConfigV1.Acceptable.app_permitted {nowMs : UInt64}
    (h : c.Acceptable root network nowMs) {r : AppRegistration} (hr : c.ListsApp r) :
    r.IssuedByRoot root network ∨
      ∃ a, c.ListsAdmin a ∧ r.IssuedByAdmin a.payload network ∧
        a.payload.permissions &&& adminPermissionRegisterApp ≠ 0 := by
  have hacc := h.app_accepted hr
  obtain ⟨-, hroot⟩ | ⟨-, a, ha, hadmin⟩ := hacc.issued
  · exact .inl hroot
  · exact .inr ⟨a, ha, hadmin, hadmin.permitted⟩

end Weaver

namespace Weaver.Sample

open Checked Wire Transparent NetworkConfigV1

/-- The configuration of the sample network with a second member, whose administrator has the
permissions. -/
def secondConfig (certificate : AdminCertificate) (member second : MemberCertificate) :
    NetworkConfigV1 :=
  { configOf certificate member with members := [member.toBytes, second.toBytes] }

/-- The administrator with the permissions drops the second member and revokes its serial. The
first member opens the envelope. -/
def dropping (permissions : UInt32) : Option (AdminCertificate × MemberCertificate ×
    ValidatedNetworkConfig × EncryptedConfigEnvelope × OpenedNetworkConfig) := do
  let certificate ← (AdminCertificate.issue root admin.publicBytes permissions 2 1000
    2000).toOption
  let member ← (MemberCertificate.issue root (fill 5) key.publicBytes .member 1 1000
    2000).toOption
  let second ← (MemberCertificate.issue root (fill 8) (fill 9) .member 3 1000 2000).toOption
  let config := secondConfig certificate member second
  let current ← (config.validate root.public root.public.networkId 1000).toOption
  let next := { nextConfig config with members := [member.toBytes], revokedSerials := [3] }
  let e ← (EncryptedConfigEnvelope.sealNextConfig root.public admin current firstHead next
    [key.publicBytes] 1100 sealing).toOption
  let o ← (e.openNextConfig root.public current key firstHead 1200).toOption
  guard (certificate.payload.permissions = permissions ∧
    certificate.payload.keyId = e.signerKeyId ∧
    current.asConfig.adminKeys = [⟨certificate.toBytes⟩] ∧
    second.toBytes ∈ current.asConfig.members ∧ second.toBytes ∉ o.config.asConfig.members)
  return (certificate, second, current, e, o)

theorem dropping_isSome : (dropping 0xFFFFFFFF).isSome = true ∧
    (dropping adminPermissionConfigWrite).isSome = true := by
  decide +kernel

theorem dropping_result {permissions : UInt32} (h : (dropping permissions).isSome = true) :
    ∃ (certificate : AdminCertificate) (current : ValidatedNetworkConfig)
      (e : EncryptedConfigEnvelope) (o : OpenedNetworkConfig),
      e.openNextConfig root.public current key firstHead 1200 = .ok o ∧
      certificate.payload.permissions = permissions ∧
      certificate.payload.keyId = e.signerKeyId ∧
      current.asConfig.adminKeys = [⟨certificate.toBytes⟩] ∧
      current.asConfig.Revokes o.config.asConfig := by
  obtain ⟨o, ho⟩ := Option.isSome_iff_exists.mp h
  unfold dropping at ho
  simp only [Option.bind_eq_bind, Option.bind_eq_some_iff, toOption_eq_some,
    Option.guard_eq_some', Option.pure_def] at ho
  obtain ⟨certificate, -, member, -, second, -, current, -, e, -, o, hopen, -,
    ⟨hpermissions, hid, hkeys, hlisted, hdropped⟩, -⟩ := ho
  exact ⟨certificate, current, e, o, hopen, hpermissions, hid, hkeys,
    .inl ⟨second, hlisted, hdropped⟩⟩

end Weaver.Sample
