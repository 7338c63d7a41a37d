import Weaver.Authority.Session
import Weaver.Config.Sealable

/-!
# Histories have no bound

An authority whose configuration can be sealed can commit it again, as the next revision, for as
long as its stores have versions left (`AtWork.reissue`). So a session commits any number of
revisions (`AtWork.reissues`).
-/

namespace Weaver

open Checked Wire Versioned Program

variable [Crypto]

structure Authority.CanReissue (handle : Authority) (recipients : List Bytes32) : Prop where
  sealable : handle.config.asConfig.Sealable handle.rootPublic recipients
  keys : activeRecipientKeys handle.config.asConfig = .ok recipients
  own : handle.memberEncryption.publicBytes ∈ recipients
  current : handle.config.asConfig.revision = handle.status.head.revision ∧
    handle.config.asConfig.epoch = handle.status.head.epoch
  /-- The handle's administrator is one of the configuration, and may write configurations. -/
  admin : ∃ a, handle.config.SignerVerifies handle.rootPublic handle.onlineAdmin.keyId
      handle.config.asConfig.issuedAtMs a ∧
    a.payload.publicKey = handle.onlineAdmin.publicBytes ∧
    a.payload.permissions &&& adminPermissionConfigWrite ≠ 0

def Authority.reissue (handle : Authority) : NetworkConfigV1 :=
  handle.config.asConfig.reissued (UInt64.ofNat (handle.status.head.revision.toNat + 1))
    handle.status.head.hash

section Reissue

variable {I : Identity} {manifest : Bytes} {self : Authority} {w : Stores}
  {recipients : List Bytes32} {random : SealRandomness}

variable {next : NetworkConfigV1}

theorem Authority.exists_sealNext (self : Authority) (hideal : HpkeIdeal) (halways : SealsAlways)
    (hrandom : random.Complete) (hnext : next.Sealable self.rootPublic recipients)
    (hkeys : activeRecipientKeys next = .ok recipients)
    (hown : self.memberEncryption.publicBytes ∈ recipients)
    (hcurrent : self.config.asConfig.networkId = self.rootPublic.networkId ∧
      self.config.asConfig.revision = self.status.head.revision ∧
      self.config.asConfig.epoch = self.status.head.epoch)
    (hadmin : ∃ a, self.config.SignerVerifies self.rootPublic self.onlineAdmin.keyId
        next.issuedAtMs a ∧ a.payload.publicKey = self.onlineAdmin.publicBytes ∧
      a.payload.permissions &&& adminPermissionConfigWrite ≠ 0)
    (hrevision : next.revision.toNat = self.status.head.revision.toNat + 1)
    (hprevious : next.previousHash = self.status.head.hash)
    (hepoch : self.status.head.epoch ≤ next.epoch) :
    ∃ e opened, self.sealNext next next.issuedAtMs random = .ok (e, opened) ∧
      opened.config.asConfig = next ∧ e.Seals self.rootPublic next ∧
      e.toBytes.length ≤ maxValueLen := by
  have hvalid := NetworkConfigV1.check_eq_ok.mp hnext.valid
  obtain ⟨e, he⟩ := EncryptedConfigEnvelope.exists_sealNextConfig halways hrandom hcurrent hadmin
    hvalid.network hrevision hprevious hepoch hnext
  have hspec := EncryptedConfigEnvelope.sealNextConfig_spec he
  obtain ⟨plaintext, keys, -, hsealed, -⟩ := hspec.seals.sealed
  have hlen := hsealed.bounded.length_le hsealed.encoded
  -- the authority is a member, its administrator verifies and the configuration is valid
  obtain ⟨a, ha, -⟩ := hadmin
  have hmember : next.HasRecipient self.memberEncryption.publicBytes :=
    ((validateRecipientSet_spec hnext.members).1 _).mp hown
  obtain ⟨v, hv⟩ : ∃ v, next.validate self.rootPublic self.rootPublic.networkId next.issuedAtMs =
      .ok v :=
    ⟨⟨next, _, _, _, hnext.valid⟩, NetworkConfigV1.validate_eq_ok.mpr ⟨hnext.valid, rfl⟩⟩
  have hconfig := (NetworkConfigV1.validate_eq_ok.mp hv).2
  let opened : OpenedNetworkConfig := ⟨v, ⟨next.epoch, next.revision, hash e.toBytes⟩⟩
  have hopen := (EncryptedConfigEnvelope.seal_open_next_config hideal he self.memberEncryption
    next.issuedAtMs opened).mpr ⟨⟨hmember, ⟨a, ha⟩, v, hv⟩, hconfig, rfl⟩
  rw [hspec.seals.fromBytes_toBytes, ok_bind] at hopen
  refine ⟨e, opened, ?_, hconfig, hspec.seals, ?_⟩
  · unfold Authority.sealNext
    rw [hkeys, ok_bind, he, mapError_ok, ok_bind, hopen]
    rfl
  · unfold maxValueLen
    omega

variable {e : EncryptedConfigEnvelope}

theorem Authority.exists_revisionBatch (self : Authority) (hlen : e.toBytes.length ≤ maxValueLen) :
    ∃ batch, self.revisionBatch e.toBytes e.head = .ok batch := by
  have hhead : (encodeHead e.head).length ≤ maxValueLen := by
    rw [encodeHead_length]
    decide
  obtain ⟨b₁, hb₁, hkeys₁⟩ := (AtomicBatch.new self.scope).exists_put keyEnvelope hlen
    List.not_mem_nil (.exact self.envelopeRecordVersion)
  have hnewHead : keyHead ∉ b₁.operations.map Operation.key := by
    rw [hkeys₁]
    change keyHead ∉ [keyEnvelope]
    decide
  obtain ⟨b₂, hb₂, hkeys₂⟩ := b₁.exists_put keyHead hhead hnewHead (.exact self.headRecordVersion)
  have hnew : historyKey e.head.revision ∉ b₂.operations.map Operation.key := by
    rw [hkeys₂, hkeys₁]
    simp [AtomicBatch.new, (keyEnvelope_ne_historyKey _).symm, (keyHead_ne_historyKey _).symm]
  obtain ⟨b₃, hb₃, -⟩ := b₂.exists_put (historyKey e.head.revision) hlen hnew .missing
  refine ⟨b₃, ?_⟩
  unfold Authority.revisionBatch
  rw [hb₁, ok_bind, hb₂, ok_bind]
  exact hb₃

theorem AtWork.exists_commit (hwork : AtWork I (some self) w) {nowMs : UInt64}
    {opened : OpenedNetworkConfig} (hseal : self.sealNext next nowMs random = .ok (e, opened))
    (hrevision : e.revision.toNat = self.status.head.revision.toNat + 1)
    (hlen : e.toBytes.length ≤ maxValueLen) (hroom : w.state.HasRoom 3) :
    ∃ self' w', (self.commitConfig next nowMs random).run serve w =
        (.ok (self'.status, self'), w') ∧ self.Moved next nowMs random [] w e opened self' w' ∧
      w'.state.nextRecord.toNat ≤ w.state.nextRecord.toNat + 3 ∧
      w'.state.nextCommit.toNat = w.state.nextCommit.toNat + 1 := by
  obtain ⟨batch, hbatch⟩ := self.exists_revisionBatch hlen
  obtain ⟨hscope, hops, -⟩ := Authority.revisionBatch_spec hbatch
  have hs := hwork.sound self rfl
  obtain ⟨last, hchain⟩ := hwork.inv.chain
  have hsynced := hwork.synced self last rfl hchain
  -- the handle has cached the current versions, and the history ends with its head
  have hmissing : w.record I.scope (historyKey e.revision) = none := by
    refine hchain.beyond e.revision ?_
    have hlast : self.status.head.revision = last.revision := by
      rw [hsynced.head]
      rfl
    rw [UInt64.lt_iff_toNat_lt, ← hlast]
    omega
  have hexpected : ∀ op ∈ batch.operations,
      op.expected.Holds (w.state.version (batch.scope, op.key)) := by
    intro op hop
    rw [hscope, hs.scope_eq]
    rw [hops] at hop
    simp only [revisionOperations, List.mem_cons, List.not_mem_nil, or_false] at hop
    rcases hop with rfl | rfl | rfl
    · exact Stores.exact_of_record hsynced.envelope
    · exact Stores.exact_of_record hsynced.head_record
    · exact Stores.missing_of_record hmissing
  have hcount : batch.operations.length = 3 := by
    rw [hops]
    rfl
  obtain ⟨version, state, hcommit⟩ := StateStore.exists_commitBatch hexpected (by rwa [hcount])
  let w' : Stores := { w with state := state }
  have hcommit' : w.state.commitBatch batch = .ok (version, w'.state) := hcommit
  obtain ⟨self', hrun, hmoved, -⟩ := Authority.commitConfig_of_commit hseal hbatch hcommit' rfl
  obtain ⟨hrecords, hcommits⟩ := StateStore.commitBatch_next hcommit'
  rw [hcount] at hrecords
  exact ⟨self', w', hrun, hmoved, hrecords, hcommits⟩

theorem AtWork.reissue (hideal : HpkeIdeal) (halways : SealsAlways) (hrandom : random.Complete)
    (hwork : AtWork I (some self) w) (h : self.CanReissue recipients)
    (hrevision : self.status.head.revision.toNat + 1 < 2^64) (hroom : w.state.HasRoom 3) :
    ∃ self' w', (self.commitConfig self.reissue self.config.asConfig.issuedAtMs random).run serve w =
        (.ok (self'.status, self'), w') ∧ self'.CanReissue recipients ∧
      self'.status.head.revision.toNat = self.status.head.revision.toNat + 1 ∧
      w'.state.nextRecord.toNat ≤ w.state.nextRecord.toNat + 3 ∧
      w'.state.nextCommit.toNat = w.state.nextCommit.toNat + 1 := by
  have hnat : self.reissue.revision.toNat = self.status.head.revision.toNat + 1 :=
    UInt64.toNat_ofNat_of_lt' hrevision
  have hnetwork := (NetworkConfigV1.check_eq_ok.mp h.sealable.valid).network
  have hnext : self.reissue.Sealable self.rootPublic recipients := h.sealable.reissued _ _
  obtain ⟨e, opened, hseal, hconfig, hseals, hlen⟩ :=
    self.exists_sealNext hideal halways hrandom hnext h.keys h.own ⟨hnetwork, h.current⟩ h.admin
      hnat rfl h.current.2.ge
  have hrev : e.revision.toNat = self.status.head.revision.toNat + 1 := by
    rw [hseals.header.2.2.1]
    exact hnat
  obtain ⟨self', w', hrun, hmoved, hrecords, hcommits⟩ :=
    hwork.exists_commit hseal hrev hlen hroom
  have hhandle := hmoved.handle
  have hconfig' : self'.config.asConfig = self.reissue := by
    rw [hhandle]
    exact hconfig
  have hhead' : self'.status.head = e.head := by
    rw [hhandle]
  obtain ⟨hroot, hadmin, hkey⟩ : self'.rootPublic = self.rootPublic ∧
      self'.onlineAdmin = self.onlineAdmin ∧ self'.memberEncryption = self.memberEncryption := by
    rw [hhandle]
    exact ⟨rfl, rfl, rfl⟩
  refine ⟨self', w', hrun, ⟨?_, ?_, ?_, ?_, ?_⟩, ?_, hrecords, hcommits⟩
  · rw [hconfig', hroot]
    exact h.sealable.reissued _ _
  · rw [hconfig']
    exact h.keys
  · rw [hkey]
    exact h.own
  · rw [hconfig', hhead']
    exact ⟨hseals.header.2.2.1.symm, hseals.header.2.1.symm⟩
  · obtain ⟨a, ha, hpublic, hpermission⟩ := h.admin
    refine ⟨a, ?_, ?_, hpermission⟩
    · unfold ValidatedNetworkConfig.SignerVerifies
      rw [hconfig', hroot, hadmin]
      exact ha
    · rw [hadmin]
      exact hpublic
  · rw [hhead']
    exact hrev

theorem AtWork.reissues (hideal : HpkeIdeal) (halways : SealsAlways) (hrandom : random.Complete)
    (hI : I.Describes manifest) (hwork : AtWork I none w)
    {log : List (Event (authorityApi manifest))} {w₀ : Stores}
    (hsession : Session manifest none w log (some self) w₀) (h : self.CanReissue recipients)
    (k : ℕ) (hrevision : self.status.head.revision.toNat + k < 2^64)
    (hrecords : w₀.state.nextRecord.toNat + 3 * k < 2^64)
    (hcommits : w₀.state.nextCommit.toNat + k < 2^64) :
    ∃ log' self' w', Session manifest none w log' (some self') w' ∧ self'.CanReissue recipients ∧
      self'.status.head.revision.toNat = self.status.head.revision.toNat + k ∧
      w'.state.nextRecord.toNat ≤ w₀.state.nextRecord.toNat + 3 * k ∧
      w'.state.nextCommit.toNat = w₀.state.nextCommit.toNat + k := by
  induction k with
  | zero => exact ⟨log, self, w₀, hsession, h, rfl, le_rfl, rfl⟩
  | succ k ih =>
    obtain ⟨log₁, self₁, w₁, hsession₁, h₁, hrevision₁, hrecords₁, hcommits₁⟩ :=
      ih (by omega) (by omega) (by omega)
    obtain ⟨hwork₁, -⟩ := hsession₁.atWork hI hwork
    have hroom : w₁.state.HasRoom 3 := ⟨by omega, by omega⟩
    obtain ⟨self', w', hrun, h', hrevision', hrecords', hcommits'⟩ :=
      hwork₁.reissue hideal halways hrandom h₁ (by omega) hroom
    let call := AuthorityCall.commitConfig self₁.reissue self₁.config.asConfig.issuedAtMs random
    have hbody : (authorityBody manifest (.call call) (some self₁)).run serve w₁ =
        ((.ok self'.status, some self'), w') :=
      authorityBody_call_eq_ok.mpr ⟨self₁, self', rfl, rfl, updating_of_ok self₁ hrun⟩
    exact ⟨_, self', w', hsession₁.cons (.call call) (.ok self'.status) hbody, h', by omega,
      by omega, by omega⟩

end Reissue

end Weaver
