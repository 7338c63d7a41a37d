import Weaver.Authority.Epochs
import Weaver.Authority.Session

/-!
# Revocation

`revocation_complete`: a successful `revoke_member` leaves a configuration with nothing of the
member but its revoked serial, and with everything else as it was, in the next epoch. From that
revision on, no committed envelope opens with the member's encryption key, for as long as no
successful operation admits the key again (`Archive.excludes`).
-/

namespace Weaver

open Checked Wire Collect Versioned Program

/-! ## What is gone -/

structure ForgetsMember (c c' : NetworkConfigV1) (m : MemberCertificate) : Prop where
  members : ∀ n, c'.ListsMember n → n.payload.memberId ≠ m.payload.memberId
  endpoints : ∀ b, c'.ListsEndpoint b → b.payload.memberId ≠ m.payload.memberId
  bindings : ∀ b : AppBinding, b.toBytes ∈ c'.appBindings → b.payload.subject ≠ m.payload.memberId
  relays : ∀ relay ∈ c'.relays, ∀ b, c.ListsEndpoint b →
    b.payload.memberId = m.payload.memberId → relay.endpointId ≠ b.payload.endpointId
  presence : ∀ service ∈ c'.presenceServices, ∀ b, c.ListsEndpoint b →
    b.payload.memberId = m.payload.memberId → service.endpointId ≠ b.payload.endpointId
  revoked : m.payload.serial ∈ c'.revokedSerials

variable [Crypto]

variable {self : Authority} {memberId : MemberId} {m : MemberCertificate} {next : NetworkConfigV1}

theorem Authority.Revoked.forgets {nowMs : UInt64} (h : self.Revoked memberId nowMs m next) :
    ForgetsMember self.config.asConfig next m := by
  have hserial := h.removes.revoked.2
  obtain ⟨epoch, revision, epochSecrets, -, -, rfl⟩ := h.next
  obtain rfl := h.member_id
  -- what a descriptor's filter keeps is on no endpoint of the member
  have hendpoint : ∀ endpoint : Bytes32,
      endpoint ∉ endpointsOf self.config.asConfig m.payload.memberId →
      ∀ b, self.config.asConfig.ListsEndpoint b → b.payload.memberId = m.payload.memberId →
      endpoint ≠ b.payload.endpointId := by
    intro endpoint hnot b hb hmember heq
    exact hnot (mem_endpointsOf.mpr ⟨b, hb, hmember, heq.symm⟩)
  refine ⟨?_, ?_, ?_, ?_, ?_, hserial.symm.subset List.mem_cons_self⟩
  · intro n hn hid
    have hkept := (List.mem_filter.mp hn).2
    rw [(isMember_toBytes m.payload.memberId n).mpr hid] at hkept
    cases hkept
  · intro b hb
    exact (isOthersEndpoint_toBytes _ b).mp (List.mem_filter.mp hb).2
  · intro b hb
    exact (isOthersAppBinding_toBytes _ b).mp (List.mem_filter.mp hb).2
  · intro relay hrelay
    have hkept := (List.mem_filter.mp hrelay).2
    exact hendpoint relay.endpointId (of_decide_eq_true hkept)
  · intro service hservice
    have hkept := (List.mem_filter.mp hservice).2
    exact hendpoint service.endpointId (of_decide_eq_true hkept)

theorem Authority.Revoked.excludes {nowMs : UInt64} (h : self.Revoked memberId nowMs m next)
    (hdistinct : self.config.asConfig.DistinctRecipients) :
    ¬ next.HasRecipient m.payload.encryptionPublicKey := by
  rintro ⟨n, hn, hkey⟩
  have hforgets := h.forgets.members n hn
  obtain ⟨_, _, _, -, -, rfl⟩ := h.next
  -- a listed member with the key is the revoked one, since keys are distinct
  have hsame := hdistinct.eq_of_key (List.mem_filter.mp hn).1 h.listed (Signed.fromBytes_toBytes n)
    (Signed.fromBytes_toBytes m) hkey
  exact hforgets (by rw [Signed.toBytes_injective hsame])

/-! ## What stays out -/

variable {e : EncryptedConfigEnvelope}

theorem Archive.excludes {I : Identity} {Made : AuthorityCall → Prop} {w w' : Stores}
    (hideal : HpkeIdeal) (h : Archive I Made w w') {key : Bytes32}
    (hmade : ∀ c, Made c → c.Named ∧ ¬ c.AdmitsKey key) {last : EncryptedConfigEnvelope}
    (hchain : Chain I.network w last) {c₀ : NetworkConfigV1} (hlast : Published I last c₀)
    (hout : ¬ c₀.HasRecipient key) (he : Committed I.network w' e)
    (hle : last.revision ≤ e.revision) : ∃ c, Published I e c ∧ ¬ c.HasRecipient key := by
  refine h.induction hchain (h.le.committed hchain.committed) le_rfl
    (Q := fun e => ∃ c, Published I e c ∧ ¬ c.HasRecipient key) ⟨c₀, hlast, hout⟩ ?_ he hle
  rintro handle call next nowMs e₀ e' hcall _ hcommits ⟨c, hpublished, hout₀⟩
  obtain ⟨hnamed, hadmits⟩ := hmade call hcall
  obtain ⟨random, hplans⟩ := hcommits.plans
  refine ⟨next, (hcommits.published hideal).1, ?_⟩
  intro hrecipient
  rcases (hplans.change hnamed).recipient hrecipient with hbefore | hadmitted
  · rw [(hpublished.content_iff hideal).mp hcommits.content] at hbefore
    exact hout₀ hbefore
  · exact hadmits hadmitted

theorem Published.not_opens {I : Identity} {c : NetworkConfigV1} (hideal : HpkeIdeal)
    (h : Published I e c) {key : MemberEncryptionKeypair} (hout : ¬ c.HasRecipient key.publicBytes)
    (plaintext : Bytes) :
    ¬ e.ContentOpens key plaintext := by
  rintro ⟨contentKey, hfound, -⟩
  obtain ⟨_, recipients, -, hsealed, hmembers⟩ := h.seals.sealed
  have hfind := hsealed.find_content_key hideal key
  have hnot : key.publicBytes ∉ recipients := fun hmem => hout ((hmembers _).mp hmem)
  rw [if_neg hnot, hfound] at hfind
  cases hfind

/-- After any session on the stores of an initialized authority, a successful `revoke_member` leaves
nothing of the member but its revoked serial and everything else as it was, in the next epoch; and
whatever named operations follow, no envelope of that revision or a later one opens with the
member's encryption key, unless one of them admits the key again. -/
theorem revocation_complete (hideal : HpkeIdeal) {options : AuthorityInit} {random : InitRandomness}
    {manifest : Bytes} {init : InitializedAuthority} {w : Stores}
    (hinit : ( Authority.initialize options random).run serve Stores.empty =
      (.ok (manifest, init), w))
    {log : List (Event (authorityApi manifest))} {self : Authority} {w₁ : Stores}
    (hsession : Session manifest none w log (some self) w₁)
    {memberId : MemberId} {nowMs : UInt64} {secrets : Option EpochSecrets} {draws : SealRandomness}
    {status : AuthorityStatus} {self' : Authority} {w₂ : Stores}
    (hrevoke : (self.revokeMember memberId nowMs secrets draws).run serve w₁ =
      (.ok (status, self'), w₂)) :
    ∃ m last, self.config.asConfig.ListsMember m ∧ m.payload.memberId = memberId ∧
      Chain init.status.networkId w₂ last ∧
      last.Content random.memberEncryption self'.config.asConfig ∧
      self'.config.asConfig.epoch.toNat = self.config.asConfig.epoch.toNat + 1 ∧
      RemovesMember self.config.asConfig self'.config.asConfig m ∧
      ForgetsMember self.config.asConfig self'.config.asConfig m ∧
      Inherits self.config.asConfig self'.config.asConfig ∧
      ∀ (log' : List (Event (authorityApi manifest))) (handle' : Option Authority) (w₃ : Stores),
        Session manifest (some self') w₂ log' handle' w₃ → NamedOnly log' →
        (∀ c, Succeeded log' c → ¬ c.AdmitsKey m.payload.encryptionPublicKey) →
        ∀ e, Committed init.status.networkId w₃ e → last.revision ≤ e.revision →
        ∀ key : MemberEncryptionKeypair, key.publicBytes = m.payload.encryptionPublicKey →
        ∀ plaintext, ¬ e.ContentOpens key plaintext := by
  obtain ⟨g, hg, hnetwork⟩ := initialize_spec hinit
  rw [hnetwork]
  have hI := hg.describes
  have hwork := (hsession.atWork hI (AtWork.start hg.inv)).1
  have harchive := hsession.archive hI (AtWork.start hg.inv)
  obtain ⟨next, now, draws', e, opened, last, hplans, ⟨rest, hmoved⟩, hgrows, hcommits, hwork'⟩ :=
    hwork.commits hI (c := .revokeMember memberId nowMs secrets draws) trivial
      (updating_of_ok self hrevoke)
  have hconfig := (hmoved.config_eq hideal).2
  have hpublished := (hcommits.published hideal).1
  rw [hconfig]
  -- the keys of the current configuration are distinct, since it was sealed
  obtain ⟨c, hbefore⟩ := harchive.published hideal hg hgrows.before.committed
  have hcurrent := (hbefore.content_iff hideal).mp hcommits.content
  cases hplans with
  | revokeMember _ hplan =>
    obtain ⟨m, hrevoked⟩ := Authority.planRevoke_spec hplan
    have hout := hrevoked.excludes (by rw [hcurrent]; exact hbefore.seals.distinct)
    obtain ⟨hinherits, -⟩ := (Authority.Change.revoked (c := .revokeMember memberId nowMs secrets
      draws) memberId m hrevoked (Authority.planRevoke_secrets hplan)).inherits
    obtain ⟨epoch, revision, epochSecrets, hepoch, -, hnext⟩ := hrevoked.next
    refine ⟨m, e, hrevoked.listed, hrevoked.member_id, hgrows.after,
      (hpublished.content_iff hideal).mpr rfl, ?_, hrevoked.removes, hrevoked.forgets, hinherits, ?_⟩
    · rw [hnext]
      exact hepoch
    · intro log' handle' w₃ hlater hnamed hadmits x hx hle key hkey plaintext
      have hafter := hlater.archive hI hwork'
      have hmade : ∀ c, Succeeded log' c →
          c.Named ∧ ¬ c.AdmitsKey m.payload.encryptionPublicKey := by
        rintro c ⟨value, hmem⟩
        exact ⟨hnamed _ hmem c rfl, hadmits c ⟨value, hmem⟩⟩
      obtain ⟨c', hpublished', hout'⟩ :=
        hafter.excludes hideal hmade hgrows.after hpublished hout hx hle
      rw [← hkey] at hout'
      exact hpublished'.not_opens hideal hout' plaintext

end Weaver

namespace Weaver.Sample

open Checked Wire Program Transparent

def revoking : Option (Solo × AuthorityStatus × Authority × Stores) := do
  let (prepared, _, s) ← inviting
  let self ← s.1
  match (self.revokeMember prepared.request.payload.memberId 1100 (some epochSecrets) sealing).run
    serve s.2 with
  | (.ok (status, self'), w) => some (s, status, self', w)
  | (.error _, _) => none

theorem revoking_isSome : revoking.isSome = true := by decide +kernel

/-- The sample member is gone after its revocation. -/
theorem revocation_complete_sample : ∃ (self self' : Authority) (m : MemberCertificate),
    self.config.asConfig.ListsMember m ∧
      ForgetsMember self.config.asConfig self'.config.asConfig m := by
  obtain ⟨init, hinit⟩ := initialize_eq_ok
  obtain ⟨_, hr⟩ := Option.isSome_iff_exists.mp revoking_isSome
  unfold revoking inviting at hr
  simp only [Option.bind_eq_bind, Option.bind_eq_some_iff, Option.pure_def, Option.some.injEq,
    Prod.exists, Prod.mk.injEq] at hr
  obtain ⟨prepared, _, _, _, ⟨_, -, _, h₁, w₁, hopen, _, h₂, w₂, hinvite, rfl, rfl, rfl, rfl⟩, self,
    rfl, hr⟩ := hr
  split at hr
  · next status self' w₃ hrevoke =>
    have hinvited := Solo.session (Solo.session .nil hopen) hinvite
    obtain ⟨m, last, hlisted, -, -, -, -, -, hforgets, -⟩ :=
      revocation_complete hpkeIdeal hinit hinvited hrevoke
    exact ⟨self, self', m, hlisted, hforgets⟩
  · cases hr

end Weaver.Sample
