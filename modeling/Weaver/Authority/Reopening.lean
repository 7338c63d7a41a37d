import Weaver.Authority.Safety

/-!
# What opening a handle amounts to

`Authority::open` reads the manifest, three secrets and two records, and checks them against each
other. On the records of a chain, `open_eq_ok` says exactly when it succeeds and with which handle:
the handle is determined by the records and the secrets (`OpenedOn`), and the stores stay as they
are, since the history holds the current envelope already.
-/

namespace Weaver

open Checked Wire Versioned Program

variable [Crypto]

structure Authority.Synced (I : Identity) (handle : Authority) (w : Stores)
    (last : EncryptedConfigEnvelope) : Prop where
  envelope : w.record I.scope keyEnvelope = some ⟨handle.envelopeRecordVersion, last.toBytes⟩
  head_record : w.record I.scope keyHead = some ⟨handle.headRecordVersion, encodeHead last.head⟩
  head : handle.status.head = last.head

/-- The handle is the one that `open` builds at the time from the secrets, the manifest and the
records, whose last envelope is `last`. -/
structure Authority.OpenedOn (I : Identity) (handle : Authority) (w : Stores)
    (last : EncryptedConfigEnvelope) (nowMs : UInt64) : Prop where
  root_network : I.root.networkId = I.network
  encryption : w.secrets.open (secretId I.network "member-encryption") =
    .ok handle.memberEncryption.secretBytes.val
  endpoint : w.secrets.open (secretId I.network "endpoint") = .ok handle.endpointSecret.val
  admin : w.secrets.open (secretId I.network "online-admin") = .ok handle.onlineAdmin.toBytes.val
  synced : handle.Synced I w last
  verifies : I.certificate.Verifies I.root I.network nowMs [] ∧
    handle.verifiedAdmin.payload = I.certificate.payload
  admin_key : I.certificate.payload.publicKey = handle.onlineAdmin.publicBytes
  opens : openCurrent I.manifest I.root handle.verifiedAdmin handle.memberEncryption last last.head
    nowMs = .ok ⟨handle.config, last.head⟩
  role : hasAuthorityRole handle.config.asConfig (Crypto.endpointPublic handle.endpointSecret) =
    true
  listed : ∃ a, handle.config.SignerVerifies I.root handle.onlineAdmin.keyId nowMs a ∧
    a.payload.publicKey = handle.onlineAdmin.publicBytes
  /-- The root, the certificate and the status are the manifest's and the configuration's. -/
  fields : handle.rootPublic = I.root ∧ handle.adminCertificate = I.manifest.adminCertificate ∧
    handle.status.networkId = I.network ∧
    handle.status.rootPublicKey = I.manifest.rootPublicKey ∧
    handle.status.relayUrl = firstRelayUrl handle.config.asConfig

section

variable {I : Identity} {manifest : Bytes} {w w' : Stores} {last : EncryptedConfigEnvelope}

theorem seedHistory_run (he : Committed I.network w last) :
    (seedHistory I.scope last.revision last.toBytes).run serve w = (.ok (), w) := by
  obtain ⟨-, v, hrecord⟩ := he
  have hrecord' : w.record I.scope (historyKey last.revision) = some ⟨v, last.toBytes⟩ := hrecord
  unfold seedHistory
  rw [Task.run_bind, readRecord_run, hrecord']
  simp only [Task.run_lift, VersionedBytes.bytes]
  rw [failIf_neg (by simp)]

theorem open_eq_ok (hI : I.Describes manifest) (hchain : Chain I.network w last)
    {nowMs : UInt64} {self : Authority} :
    (Authority.open manifest nowMs).run serve w = (.ok self, w') ↔
      self.OpenedOn I w last nowMs ∧ w' = w := by
  obtain ⟨v, henvelope⟩ := hchain.envelope
  obtain ⟨v', hhead⟩ := hchain.head
  have hscope : StoreScope.authority I.manifest.networkId = I.scope := rfl
  have hnetwork : I.manifest.networkId = I.network := rfl
  constructor
  · intro h
    unfold Authority.open at h
    obtain ⟨m, hm, h⟩ := Task.run_lift_bind_eq_ok.mp h
    obtain rfl := Except.ok.inj (hI.manifest.symm.trans hm)
    obtain ⟨root, hroot, h⟩ := Task.run_lift_bind_eq_ok.mp h
    obtain rfl := Except.ok.inj (hI.root.symm.trans (mapError_eq_ok.mp hroot))
    obtain ⟨_, hnet, h⟩ := Task.run_lift_bind_eq_ok.mp h
    rw [failIf_eq_ok, Decidable.not_not] at hnet
    obtain ⟨encryptionBytes, hencryption, h⟩ := openSecret32_bind_eq_ok.mp h
    obtain ⟨encryption, hkey, h⟩ := Task.run_lift_bind_eq_ok.mp h
    rw [mapError_eq_ok, MemberEncryptionKeypair.fromSecretBytes_eq_ok] at hkey
    obtain ⟨endpoint, hendpoint, h⟩ := openSecret32_bind_eq_ok.mp h
    obtain ⟨adminBytes, hadmin, h⟩ := openSecret32_bind_eq_ok.mp h
    obtain ⟨record, hrecord, h⟩ := readExisting_bind_eq_ok.mp h
    rw [hscope] at hrecord
    obtain rfl := Option.some.inj (henvelope.symm.trans hrecord)
    obtain ⟨e, hparse, h⟩ := Task.run_lift_bind_eq_ok.mp h
    obtain rfl := Except.ok.inj (hchain.committed.1.symm.trans (mapError_eq_ok.mp hparse))
    obtain ⟨headRecord, hheadRecord, h⟩ := readExisting_bind_eq_ok.mp h
    rw [hscope] at hheadRecord
    obtain rfl := Option.some.inj (hhead.symm.trans hheadRecord)
    obtain ⟨head, hdecode, h⟩ := Task.run_lift_bind_eq_ok.mp h
    obtain rfl := Except.ok.inj ((decodeHeadOr_encodeHead _ _).symm.trans hdecode)
    obtain ⟨_, -, h⟩ := Task.run_lift_bind_eq_ok.mp h
    obtain ⟨certificate, hcertificate, h⟩ := Task.run_lift_bind_eq_ok.mp h
    obtain rfl := Except.ok.inj (hI.certificate.symm.trans (mapError_eq_ok.mp hcertificate))
    obtain ⟨admin, hverify, h⟩ := Task.run_lift_bind_eq_ok.mp h
    rw [mapError_eq_ok, AdminCertificate.verify_eq_ok] at hverify
    obtain ⟨_, hpublic, h⟩ := Task.run_lift_bind_eq_ok.mp h
    rw [failIf_eq_ok, Decidable.not_not, hverify.2] at hpublic
    obtain ⟨⟨config, openedHead⟩, hopen, h⟩ := Task.run_lift_bind_eq_ok.mp h
    obtain ⟨_, hsame, h⟩ := Task.run_lift_bind_eq_ok.mp h
    rw [failIf_eq_ok, Decidable.not_not] at hsame
    subst hsame
    obtain ⟨_, hrole, h⟩ := Task.run_lift_bind_eq_ok.mp h
    rw [failIf_eq_ok, Bool.not_eq_false] at hrole
    rw [Task.run_bind, hscope] at h
    have hseed : (seedHistory I.scope last.head.revision last.toBytes).run serve w = (.ok (), w) :=
      seedHistory_run hchain.committed
    rw [hseed] at h
    simp only at h
    obtain ⟨verified, hverified, h⟩ := Task.run_lift_bind_eq_ok.mp h
    rw [mapError_eq_ok, ValidatedNetworkConfig.verifiedAdmin_eq_ok] at hverified
    obtain ⟨a, hsigner, ha⟩ := hverified
    obtain ⟨_, hlisted, h⟩ := Task.run_lift_bind_eq_ok.mp h
    rw [failIf_eq_ok, Decidable.not_not, ha] at hlisted
    rw [Task.run_pure] at h
    obtain ⟨hself, rfl⟩ := Prod.mk.inj h
    obtain rfl := Except.ok.inj hself
    refine ⟨⟨hnet, ?_, hendpoint, hadmin, ⟨henvelope, hhead, rfl⟩, hverify, hpublic, hopen, hrole,
      ⟨a, hsigner, hlisted⟩, rfl, rfl, rfl, rfl, rfl⟩, rfl⟩
    rw [hkey]
    exact hencryption
  · rintro ⟨o, rfl⟩
    obtain ⟨hroot, hcertificate, hstatus, hpublicKey, hrelay⟩ := o.fields
    obtain ⟨a, hsigner, hkey⟩ := o.listed
    have hcached := o.synced.envelope
    have hcached' := o.synced.head_record
    unfold Authority.open
    refine Task.run_lift_bind_eq_ok.mpr ⟨I.manifest, hI.manifest, ?_⟩
    refine Task.run_lift_bind_eq_ok.mpr ⟨I.root, mapError_eq_ok.mpr hI.root, ?_⟩
    refine Task.run_lift_bind_eq_ok.mpr ⟨(), failIf_neg (not_not.mpr o.root_network), ?_⟩
    refine openSecret32_bind_eq_ok.mpr ⟨self.memberEncryption.secretBytes, o.encryption, ?_⟩
    refine Task.run_lift_bind_eq_ok.mpr ⟨self.memberEncryption,
      mapError_eq_ok.mpr (MemberEncryptionKeypair.fromSecretBytes_eq_ok.mpr rfl), ?_⟩
    refine openSecret32_bind_eq_ok.mpr ⟨self.endpointSecret, o.endpoint, ?_⟩
    refine openSecret32_bind_eq_ok.mpr ⟨self.onlineAdmin.toBytes, o.admin, ?_⟩
    refine readExisting_bind_eq_ok.mpr ⟨_, hcached, ?_⟩
    refine Task.run_lift_bind_eq_ok.mpr ⟨last, mapError_eq_ok.mpr hchain.committed.1, ?_⟩
    refine readExisting_bind_eq_ok.mpr ⟨_, hcached', ?_⟩
    refine Task.run_lift_bind_eq_ok.mpr ⟨last.head, decodeHeadOr_encodeHead _ _, ?_⟩
    refine Task.run_lift_bind_eq_ok.mpr ⟨(), failIf_neg (not_not.mpr rfl), ?_⟩
    refine Task.run_lift_bind_eq_ok.mpr ⟨I.certificate, mapError_eq_ok.mpr hI.certificate, ?_⟩
    refine Task.run_lift_bind_eq_ok.mpr ⟨self.verifiedAdmin,
      mapError_eq_ok.mpr (AdminCertificate.verify_eq_ok.mpr o.verifies), ?_⟩
    refine Task.run_lift_bind_eq_ok.mpr ⟨(), failIf_neg (not_not.mpr ?_), ?_⟩
    · rw [o.verifies.2]
      exact o.admin_key
    refine Task.run_lift_bind_eq_ok.mpr ⟨⟨self.config, last.head⟩, o.opens, ?_⟩
    refine Task.run_lift_bind_eq_ok.mpr ⟨(), failIf_neg (not_not.mpr rfl), ?_⟩
    refine Task.run_lift_bind_eq_ok.mpr ⟨(), failIf_neg ?_, ?_⟩
    · rw [Bool.not_eq_false]
      exact o.role
    rw [Task.run_bind, hscope]
    have hseed : (seedHistory I.scope last.head.revision last.toBytes).run serve w' = (.ok (), w') :=
      seedHistory_run hchain.committed
    rw [hseed]
    simp only
    refine Task.run_lift_bind_eq_ok.mpr ⟨⟨a.payload, hsigner.2.2.valid_key⟩,
      mapError_eq_ok.mpr (ValidatedNetworkConfig.verifiedAdmin_eq_ok.mpr ⟨a, hsigner, rfl⟩), ?_⟩
    refine Task.run_lift_bind_eq_ok.mpr ⟨(), failIf_neg (not_not.mpr hkey), ?_⟩
    rw [Task.run_pure, ← hroot, ← hcertificate, ← hpublicKey, ← hrelay, ← o.synced.head, hnetwork,
      ← hstatus]

end

end Weaver
