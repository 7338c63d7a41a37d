import Weaver.Authority.Epochs

/-!
# How long a revocation lasts

`open_next_config` compares the next snapshot with the head and the administrators of the current
one, and with nothing else of it. A revoked serial is therefore barred from the configuration that
revokes it (`ValidatedNetworkConfig.bars`) and its holder cannot sign the next one
(`AcceptsNext.signer`), but the next snapshot need not revoke it again. That it stays revoked is up
to whoever writes the snapshots: the named operations of the authority never drop a serial
(`EpochStep.revoked_subset`).
-/

namespace Weaver

open Checked Wire Collect Program

variable [Crypto]

/-! ## One configuration -/

structure NetworkConfigV1.Bars (c : NetworkConfigV1) (serial : UInt64) : Prop where
  revoked : serial ∈ c.revokedSerials
  admins : ∀ a, c.ListsAdmin a → a.payload.serial ≠ serial
  members : ∀ m, c.ListsMember m → m.payload.serial ≠ serial

theorem NetworkConfigV1.Acceptable.bars {c : NetworkConfigV1} {root : NetworkRootPublic}
    {network : NetworkId} {nowMs : UInt64} (h : c.Acceptable root network nowMs) {serial : UInt64}
    (hserial : serial ∈ c.revokedSerials) : c.Bars serial := by
  refine ⟨hserial, ?_, ?_⟩
  · intro a ha heq
    rw [← heq] at hserial
    exact (h.admin_verifies ha).unrevoked hserial
  · intro m hm heq
    rw [← heq] at hserial
    exact (h.member_accepted hm).current.unrevoked hserial

theorem ValidatedNetworkConfig.bars (v : ValidatedNetworkConfig) {serial : UInt64}
    (hserial : serial ∈ v.asConfig.revokedSerials) : v.asConfig.Bars serial := by
  obtain ⟨root, network, nowMs, hcheck⟩ := v.validated
  exact (NetworkConfigV1.check_eq_ok.mp hcheck).bars hserial

/-! ## Accepted chains -/

def AcceptsNext (root : NetworkRootPublic) (recipient : MemberEncryptionKeypair)
    (o o' : OpenedNetworkConfig) : Prop :=
  ∃ (e : EncryptedConfigEnvelope) (nowMs : UInt64),
    e.openNextConfig root o.config recipient o.head nowMs = .ok o'

theorem AcceptsNext.signer {root : NetworkRootPublic} {recipient : MemberEncryptionKeypair}
    {o o' : OpenedNetworkConfig} (h : AcceptsNext root recipient o o') :
    ∃ (e : EncryptedConfigEnvelope) (a : AdminCertificate), o'.head = e.head ∧
      o.config.asConfig.ListsAdmin a ∧ a.payload.keyId = e.signerKeyId ∧
      Crypto.verify a.payload.publicKey e.signedBytes e.signature = true ∧
      a.payload.serial ∉ o.config.asConfig.revokedSerials := by
  obtain ⟨e, nowMs, hopen⟩ := h
  obtain ⟨-, ⟨a, ⟨hlisted, hid, hverifies⟩, -, hsignature⟩, -, -, hhead⟩ :=
    EncryptedConfigEnvelope.openNextConfig_eq_ok.mp hopen
  exact ⟨e, a, hhead, hlisted, hid, hsignature, hverifies.unrevoked⟩

/-! ## The authority's chain -/

theorem EpochStep.revoked_subset {Made : AuthorityCall → Prop} {c c' : NetworkConfigV1}
    (h : EpochStep Made c c') : c.revokedSerials ⊆ c'.revokedSerials := by
  cases h with
  | same hsame =>
    rw [hsame.revoked]
    exact List.Subset.refl _
  | added _ _ _ _ _ _ _ hadds =>
    rw [hadds.revoked]
    exact List.Subset.refl _
  | removed _ _ _ _ _ hremoves =>
    exact fun serial hserial =>
      hremoves.revoked.2.symm.subset (List.mem_cons_of_mem _ hserial)

/-- Along every accepted chain, each configuration bars the serials that it revokes, and the signer
of the next one has none of them; and along the chain that an authority commits by named operations,
however its processes interleave, a later configuration bars every serial that an earlier one
revokes. -/
theorem revocation_along_chains (hideal : HpkeIdeal) :
    (∀ (root : NetworkRootPublic) (recipient : MemberEncryptionKeypair)
      (chain : List OpenedNetworkConfig), chain.IsChain (AcceptsNext root recipient) →
      (∀ o ∈ chain, ∀ serial ∈ o.config.asConfig.revokedSerials, o.config.asConfig.Bars serial) ∧
      ∀ i o o', chain[i]? = some o → chain[i + 1]? = some o' →
        ∃ (e : EncryptedConfigEnvelope) (a : AdminCertificate), o'.head = e.head ∧
          o.config.asConfig.ListsAdmin a ∧ a.payload.keyId = e.signerKeyId ∧
          Crypto.verify a.payload.publicKey e.signedBytes e.signature = true ∧
          a.payload.serial ∉ o.config.asConfig.revokedSerials) ∧
    ∀ (options : AuthorityInit) (random : InitRandomness) (manifest : Bytes)
      (init : InitializedAuthority) (w : Stores),
      ( Authority.initialize options random).run serve Stores.empty = (.ok (manifest, init), w) →
      ∀ Made : AuthorityCall → Prop, (∀ c, Made c → c.Named) →
      ∀ P : Pool (authorityApi manifest), Reachable (processesOf manifest Made) w P →
      ∀ e e' c c', Committed init.status.networkId P.world e →
        Committed init.status.networkId P.world e' → e.revision ≤ e'.revision →
        e.Content random.memberEncryption c → e'.Content random.memberEncryption c' →
        ∀ serial ∈ c.revokedSerials, c'.Bars serial := by
  refine ⟨?_, ?_⟩
  · intro root recipient chain hchain
    refine ⟨fun o _ serial hserial => o.config.bars hserial, ?_⟩
    intro i o o' ho ho'
    obtain ⟨hlt, hget⟩ := List.getElem?_eq_some_iff.mp ho'
    obtain ⟨hlt₀, hget₀⟩ := List.getElem?_eq_some_iff.mp ho
    have haccepts := List.isChain_iff_getElem.mp hchain i hlt
    rw [hget, hget₀] at haccepts
    exact haccepts.signer
  · intro options random manifest init w hinit Made hnamed P hP e e' c c' he he' hle hc hc' serial
      hserial
    obtain ⟨g, hg, hnetwork⟩ := initialize_spec hinit
    rw [hnetwork] at he he'
    have harchive := archive_of_reachable hg.describes hg.inv hP
    have hpublished := harchive.published_of_content hideal hg he hc
    have hpublished' := harchive.published_of_content hideal hg he' hc'
    have hsubset : c.revokedSerials ⊆ c'.revokedSerials := by
      refine harchive.related hideal hg (R := fun c c' => c.revokedSerials ⊆ c'.revokedSerials)
        (fun _ => List.Subset.refl _) (fun h h' => List.Subset.trans h h') ?_ he he' hle hpublished
        hpublished'
      intro handle call next nowMs draws hmade hplans _
      exact ((hplans.change (hnamed call hmade)).epochStep hmade).revoked_subset
    exact hpublished'.valid.bars (hsubset hserial)

end Weaver

namespace Weaver.Sample

open Checked Program Transparent

def barring : Option NetworkConfigV1 := do
  let config ← firstConfig
  return { config with revokedSerials := [7] }

def readmitting (config : NetworkConfigV1) (member : MemberCertificate) : NetworkConfigV1 :=
  { nextConfig config with
    revokedSerials := []
    members := config.members ++ [member.toBytes] }

def forgetting : Option (OpenedNetworkConfig × OpenedNetworkConfig × MemberCertificate) := do
  let config ← barring
  let member ← (MemberCertificate.issue root (fill 15) (fill 17) .member 7 1000 2000).toOption
  let current ← (config.validate root.public root.public.networkId 1000).toOption
  let e ← (EncryptedConfigEnvelope.sealNextConfig root.public admin current firstHead
    (readmitting config member) [key.publicBytes, fill 17] 1100 sealing).toOption
  let o ← (e.openNextConfig root.public current key firstHead 1200).toOption
  if member.payload.serial = 7 then some (⟨current, firstHead⟩, o, member) else none

theorem forgetting_isSome : forgetting.isSome = true := by decide +kernel

theorem forgetting_spec : ∃ (o o' : OpenedNetworkConfig) (m : MemberCertificate),
    AcceptsNext root.public key o o' ∧ o.config.asConfig.revokedSerials = [7] ∧
      o'.config.asConfig.revokedSerials = [] ∧ o'.config.asConfig.ListsMember m ∧
      m.payload.serial = 7 := by
  obtain ⟨_, hr⟩ := Option.isSome_iff_exists.mp forgetting_isSome
  unfold forgetting barring at hr
  simp only [Option.bind_eq_bind, Option.bind_eq_some_iff, toOption_eq_some, Option.pure_def,
    Option.some.injEq, Option.ite_none_right_eq_some] at hr
  obtain ⟨_, ⟨config, -, rfl⟩, member, -, current, hcurrent, e, hseal, o, hopen, hserial, -⟩ := hr
  have hasConfig := (NetworkConfigV1.validate_eq_ok.mp hcurrent).2
  obtain ⟨-, -, -, hopens, -⟩ := EncryptedConfigEnvelope.openNextConfig_eq_ok.mp hopen
  have hsealed := EncryptedConfigEnvelope.sealNextConfig_spec hseal
  have hconfig := ((hsealed.seals.opensTo_iff hpkeIdeal _ _ _).mp hopens).2.2
  refine ⟨⟨current, firstHead⟩, o, member, ⟨e, 1200, hopen⟩, ?_, ?_, ?_, hserial⟩
  · show current.asConfig.revokedSerials = [7]
    rw [hasConfig]
  · rw [hconfig]
    rfl
  · unfold NetworkConfigV1.ListsMember
    rw [hconfig]
    exact List.mem_append_right _ (List.mem_singleton.mpr rfl)

/-- A reader of the sample bars the serial while the configuration revokes it, and the sample
authority keeps whatever it has revoked. -/
theorem revocation_along_chains_sample :
    (∃ (o o' : OpenedNetworkConfig) (serial : UInt64), AcceptsNext root.public key o o' ∧
      o.config.asConfig.Bars serial) ∧
    ∃ (init : InitializedAuthority) (P : Pool (authorityApi manifest)), P.log.length = 2 ∧
      ∀ e e' c c', Committed init.status.networkId P.world e →
        Committed init.status.networkId P.world e' → e.revision ≤ e'.revision →
        e.Content key c → e'.Content key c' → ∀ serial ∈ c.revokedSerials, c'.Bars serial := by
  have h := revocation_along_chains hpkeIdeal
  refine ⟨?_, ?_⟩
  · obtain ⟨o, o', m, haccepts, hrevoked, -⟩ := forgetting_spec
    have hchain : [o, o'].IsChain (AcceptsNext root.public key) :=
      .cons_cons haccepts (.singleton o')
    refine ⟨o, o', 7, haccepts, (h.1 _ _ _ hchain).1 o List.mem_cons_self 7 ?_⟩
    rw [hrevoked]
    exact List.mem_singleton.mpr rfl
  · obtain ⟨init, hinit⟩ := initialize_eq_ok
    obtain ⟨_, hr⟩ := Option.isSome_iff_exists.mp redeeming_isSome
    unfold redeeming at hr
    simp only [Option.bind_eq_bind, Option.bind_eq_some_iff, Prod.exists] at hr
    obtain ⟨prepared, -, _, h₁, w₁, hopen, _, h₂, w₂, hregister, -⟩ := hr
    have hopened := Solo.reaches (R := processesOf manifest AuthorityCall.Named) rfl hopen
      fun _ h => by cases h
    have hregistered := hopened.trans (Solo.steps hregister fun _ h => by cases h; trivial)
    exact ⟨init, _, rfl, h.2 _ _ _ _ _ hinit _ (fun _ hnamed => hnamed) _ hregistered⟩

/-- A serial that a configuration revokes is not revoked by the next one, which a reader accepts and
which lists a member with that serial. -/
theorem revocation_dropped : ∃ (o o' : OpenedNetworkConfig) (serial : UInt64)
    (m : MemberCertificate), AcceptsNext root.public key o o' ∧
      serial ∈ o.config.asConfig.revokedSerials ∧ serial ∉ o'.config.asConfig.revokedSerials ∧
      o'.config.asConfig.ListsMember m ∧ m.payload.serial = serial := by
  obtain ⟨o, o', m, haccepts, hrevoked, hdropped, hlisted, hserial⟩ := forgetting_spec
  refine ⟨o, o', 7, m, haccepts, ?_, ?_, hlisted, hserial⟩
  · rw [hrevoked]
    exact List.mem_singleton.mpr rfl
  · rw [hdropped]
    exact List.not_mem_nil

end Weaver.Sample
