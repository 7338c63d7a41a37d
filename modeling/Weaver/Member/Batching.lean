import Mathlib.Algebra.Order.BigOperators.Group.List
import Weaver.Member.Applying

/-!
# Updates in one batch and in two

`apply` validates the envelopes of a batch one after the other and then commits once. A batch that
is applied can also be applied in two parts: the loop passes over the first part and then the
second as it does over both, the parts are within every limit that the batch is, and the second
commit finds the records that the first has left. What it leaves in the end is the same but for the
versions of the records (`apply_in_two`). The two commits use up more versions than the one does,
so that versions have to be left for them (`apply_in_two_exhausted`).
-/

namespace Weaver

open Checked Wire Collect Versioned Program

variable [Crypto]

/-! ## When a batch is applied -/

namespace PersistedConfigState

variable {handle : PersistedConfigState} {es : List EncryptedConfigEnvelope} {w : Stores}

theorem exists_updateBatch {p : UpdateProgress}
    (hparse : ∀ e ∈ es, EncryptedConfigEnvelope.fromBytes e.toBytes = .ok e)
    (hlen : ∀ e ∈ es, e.toBytes.length ≤ maxValueLen)
    (hdistinct : es.Pairwise fun e e' => e.revision ≠ e'.revision)
    (henvelope : p.finalEnvelope.length ≤ maxValueLen)
    (hsigner : p.finalSigner.length ≤ maxValueLen) :
    ∃ batch, handle.updateBatch p (es.map fun e => e.toBytes) = .ok batch := by
  obtain ⟨b₁, hput₁, hkeys₁⟩ := AtomicBatch.exists_put (.new (.member handle.networkId))
    configEnvelopeKey henvelope List.not_mem_nil (.exact handle.envelopeVersion)
  have hhead : (encodeHead p.currentHead).length ≤ maxValueLen := by
    rw [encodeHead_length]
    decide
  have hkeys₁' : b₁.operations.map Operation.key = [configEnvelopeKey] := hkeys₁
  obtain ⟨b₂, hput₂, hkeys₂⟩ := AtomicBatch.exists_put b₁ configHeadKey hhead
    (by rw [hkeys₁']; decide) (.exact handle.headVersion)
  rw [hkeys₁'] at hkeys₂
  obtain ⟨b₃, hput₃, hkeys₃⟩ := AtomicBatch.exists_put b₂ configSignerCertificateKey hsigner
    (by rw [hkeys₂]; decide) (.exact handle.signerVersion)
  rw [hkeys₂] at hkeys₃
  have hnew : ∀ e ∈ es, configHistoryKey e.revision ∉ b₃.operations.map Operation.key := by
    intro e _
    obtain ⟨hne₁, hne₂, hne₃⟩ := configHistoryKey_ne e.revision
    rw [hkeys₃]
    simp only [List.cons_append, List.nil_append, List.mem_cons, List.not_mem_nil, or_false, not_or]
    exact ⟨hne₁, hne₂, hne₃⟩
  obtain ⟨batch, hbatch⟩ := exists_putHistory hparse hlen hnew hdistinct
  refine ⟨batch, ?_⟩
  unfold updateBatch
  rw [hput₁, mapError_ok, ok_bind, hput₂, mapError_ok, ok_bind, hput₃, mapError_ok, ok_bind]
  exact hbatch

theorem pairwise_of_consecutive {n : NetworkId} {revision : UInt64} {previous : Bytes32}
    (h : Consecutive n revision previous es) :
    es.Pairwise (fun e e' => e.revision ≠ e'.revision) ∧
      ∀ e ∈ es, revision.toNat < e.revision.toNat := by
  induction es generalizing revision previous with
  | nil => exact ⟨.nil, by simp⟩
  | cons e rest ih =>
    obtain ⟨-, hrevision, -, hrest⟩ := h
    obtain ⟨hdistinct, hlater⟩ := ih hrest
    refine ⟨List.pairwise_cons.mpr ⟨?_, hdistinct⟩, ?_⟩
    · intro e' he' heq
      have hlt := hlater e' he'
      rw [heq] at hlt
      omega
    · intro e' he'
      rcases List.mem_cons.mp he' with rfl | he'
      · omega
      · have hlt := hlater e' he'
        omega

/-- A batch whose envelopes open one after the other is applied: the handle has cached the records,
the history has none of the revisions, and there is room for the new records. -/
theorem exists_apply {updates : ConfigUpdateBatch} {nowMs : UInt64} {c' : ValidatedNetworkConfig}
    {h' : ConfigHead} (hnetwork : updates.networkId = handle.networkId)
    (hbase : updates.baseHead = handle.head)
    (hraws : updates.envelopes = es.map fun e => e.toBytes) (hne : es ≠ [])
    (hparse : ∀ e ∈ es, EncryptedConfigEnvelope.fromBytes e.toBytes = .ok e)
    (happlied : Applied handle.root handle.encryption nowMs handle.config handle.head es c' h')
    (hnew : ConfigUpdateBatch.new updates.networkId updates.baseHead updates.envelopes =
      .ok updates) (hsmall : updates.encodedLength ≤ maxUpdateBatchBytes)
    (hexact₁ : ∃ b, w.record handle.scope configEnvelopeKey = some ⟨handle.envelopeVersion, b⟩)
    (hexact₂ : ∃ b, w.record handle.scope configHeadKey = some ⟨handle.headVersion, b⟩)
    (hexact₃ : ∃ b, w.record handle.scope configSignerCertificateKey =
      some ⟨handle.signerVersion, b⟩)
    (hmissing : ∀ x ∈ es, w.record handle.scope (configHistoryKey x.revision) = none)
    (hroom : w.state.HasRoom (3 + es.length)) :
    ∃ handle' w', (handle.apply updates nowMs).run serve w = (.ok (h', handle'), w') := by
  have hempty : updates.envelopes ≠ [] := by
    rw [hraws]
    exact fun hnil => hne (List.map_eq_nil_iff.mp hnil)
  have hlen : ∀ e ∈ es, e.toBytes.length ≤ maxValueLen := by
    obtain ⟨-, ⟨_, -, hcheck⟩, -⟩ := ConfigUpdateBatch.new_eq_ok.mp hnew
    intro e he
    refine length_le_of_checkUpdates hcheck e.toBytes ?_
    rw [hraws]
    exact List.mem_map_of_mem he
  obtain ⟨bytes, hbytes, hread⟩ := ConfigUpdateBatch.reread_eq_ok.mpr ⟨rfl, hnew, hsmall⟩
  obtain ⟨p, hloop, -, hcurrent⟩ := exists_applyEnvelopes hparse happlied [] []
  -- the envelope and the certificate that the loop ends with are within the limits
  obtain ⟨henvelope, hsigner⟩ : p.finalEnvelope.length ≤ maxValueLen ∧
      p.finalSigner.length ≤ maxValueLen := by
    obtain ⟨es', hmap, -, -, -, hlast⟩ := applyEnvelopes_spec hloop
    have hne' : es' ≠ [] := by
      intro hnil
      rw [hnil] at hmap
      exact hne (List.map_eq_nil_iff.mp hmap)
    obtain ⟨⟨_, _, a, -, -, -, hcertificate⟩, hfinal⟩ :=
      hlast _ (List.getLast?_eq_getLast_of_ne_nil hne')
    have hmem : (es'.getLast hne').toBytes ∈ es.map fun e => e.toBytes := by
      rw [hmap]
      exact List.mem_map_of_mem (List.getLast_mem hne')
    obtain ⟨x, hx, hxbytes⟩ := List.mem_map.mp hmem
    rw [hfinal, hcertificate, ← hxbytes]
    exact ⟨hlen x hx, a.ticketBlob.2⟩
  obtain ⟨hconsecutive, -, -⟩ := happlied.consecutive
  obtain ⟨batch, hbatch⟩ : ∃ batch, handle.updateBatch p (es.map fun e => e.toBytes) = .ok batch :=
    exists_updateBatch hparse hlen (pairwise_of_consecutive hconsecutive).1 henvelope hsigner
  obtain ⟨hscope, hops⟩ := updateBatch_spec hparse hbatch
  have hvalidate : handle.validateUpdates updates nowMs = .ok (p, batch) := by
    unfold validateUpdates
    rw [hbytes, mapError_ok, ok_bind, hread, mapError_ok, ok_bind, hraws, hloop, ok_bind, hbatch]
    rfl
  -- the records are as the batch expects them
  have hexpected : ∀ op ∈ batch.operations,
      op.expected.Holds (w.state.version (batch.scope, op.key)) := by
    intro op hop
    rw [hops] at hop
    rw [hscope]
    rcases List.mem_append.mp hop with hop | hop
    · simp only [List.mem_cons, List.not_mem_nil, or_false] at hop
      rcases hop with rfl | rfl | rfl
      · exact Stores.exact_of_record hexact₁.choose_spec
      · exact Stores.exact_of_record hexact₂.choose_spec
      · exact Stores.exact_of_record hexact₃.choose_spec
    · obtain ⟨x, hx, rfl⟩ := List.mem_map.mp hop
      exact Stores.missing_of_record (hmissing x hx)
  have hlength : batch.operations.length = 3 + es.length := by
    rw [hops, updateOperations, List.length_append, List.length_map]
    rfl
  rw [← hlength] at hroom
  obtain ⟨version, state, hcommit⟩ := StateStore.exists_commitBatch hexpected hroom
  let w₁ : Stores := { w with state }
  have hcommit₁ : w.state.commitBatch batch = .ok (version, w₁.state) := hcommit
  have hstored := stored_of_commit hscope hops hcommit₁ rfl
  obtain ⟨v₁, hrecord₁⟩ := hstored.envelope
  obtain ⟨v₂, hrecord₂⟩ := hstored.head
  obtain ⟨v₃, hrecord₃⟩ := hstored.signer
  let handle' : PersistedConfigState :=
    { handle with
      config := p.currentConfig
      head := p.currentHead
      envelopeVersion := v₁
      headVersion := v₂
      signerVersion := v₃ }
  rw [← hcurrent]
  refine ⟨handle', w₁, ?_⟩
  unfold PersistedConfigState.apply
  refine Task.run_lift_bind_eq_ok.mpr ⟨(), failIf_neg (by simp [hnetwork, hbase]), ?_⟩
  rw [if_neg hempty]
  refine Task.run_lift_bind_eq_ok.mpr ⟨(p, batch), hvalidate, ?_⟩
  refine commitOr_bind_eq_ok.mpr ⟨version, w₁, hcommit₁, rfl, ?_⟩
  -- what is read back is what was committed
  refine readExistingOr_bind_eq_ok.mpr ⟨_, hrecord₁, ?_⟩
  refine readExistingOr_bind_eq_ok.mpr ⟨_, hrecord₂, ?_⟩
  refine readExistingOr_bind_eq_ok.mpr ⟨_, hrecord₃, ?_⟩
  refine Task.run_lift_bind_eq_ok.mpr ⟨(), failIf_neg (by simp), ?_⟩
  refine Task.run_lift_bind_eq_ok.mpr ⟨p.currentHead, decodeHeadOr_encodeHead _ _, ?_⟩
  exact Task.run_lift_bind_eq_ok.mpr ⟨(), failIf_neg (by simp), rfl⟩

theorem advanced_of_apply {handle' : PersistedConfigState} {updates : ConfigUpdateBatch}
    {nowMs : UInt64} {w' : Stores} {head : ConfigHead}
    (h : (handle.apply updates nowMs).run serve w = (.ok (head, handle'), w'))
    (hne : updates.envelopes ≠ []) :
    updates.networkId = handle.networkId ∧ updates.baseHead = handle.head ∧ head = handle'.head ∧
      ∃ es p, handle.Advanced updates nowMs es p handle' w w' := by
  rcases apply_advanced_cases h with ⟨_, hr, -⟩ | ⟨hnetwork, hbase, hcases⟩
  · cases hr
  rcases hcases with ⟨hempty, -⟩ | ⟨-, es, p, handle₁, hr, hadvanced⟩
  · exact absurd hempty hne
  · obtain ⟨rfl, rfl⟩ := Prod.mk.inj (Except.ok.inj hr)
    exact ⟨hnetwork, hbase, rfl, es, p, hadvanced⟩

end PersistedConfigState

/-! ## A part of a batch -/

theorem ConfigUpdateBatch.part {n : NetworkId} {base base' : ConfigHead}
    {es es' : List EncryptedConfigEnvelope} (hsub : es'.Sublist es)
    (hparse : ∀ e ∈ es', EncryptedConfigEnvelope.fromBytes e.toBytes = .ok e)
    (hnew : ConfigUpdateBatch.new n base (es.map fun e => e.toBytes) =
      .ok ⟨n, base, es.map fun e => e.toBytes⟩)
    (hsmall : ConfigUpdateBatch.encodedLength ⟨n, base, es.map fun e => e.toBytes⟩ ≤
      maxUpdateBatchBytes)
    (hes : Consecutive n base'.revision base'.hash es')
    (hrevision : base'.revision.toNat + es'.length ≤ base.revision.toNat + es.length) :
    ConfigUpdateBatch.new n base' (es'.map fun e => e.toBytes) =
        .ok ⟨n, base', es'.map fun e => e.toBytes⟩ ∧
      ConfigUpdateBatch.encodedLength ⟨n, base', es'.map fun e => e.toBytes⟩ ≤
        maxUpdateBatchBytes := by
  have hroom := ConfigUpdateBatch.room_of_new hnew
  obtain ⟨hcount, -, -⟩ := ConfigUpdateBatch.new_eq_ok.mp hnew
  rw [List.length_map] at hroom hcount
  have hlength : ConfigUpdateBatch.encodedLength ⟨n, base', es'.map fun e => e.toBytes⟩ ≤
      ConfigUpdateBatch.encodedLength ⟨n, base, es.map fun e => e.toBytes⟩ := by
    refine Nat.add_le_add_left ?_ _
    exact ((hsub.map _).map _).sum_le_sum fun _ _ => Nat.zero_le _
  have hbytes : totalBytes es' ≤
      ConfigUpdateBatch.encodedLength ⟨n, base', es'.map fun e => e.toBytes⟩ := by
    unfold totalBytes ConfigUpdateBatch.encodedLength
    rw [List.map_map]
    refine le_trans (List.sum_le_sum fun e _ => ?_) (Nat.le_add_left _ _)
    exact Nat.le_add_left _ _
  rw [ConfigUpdateBatch.new_consecutive hparse hes (by omega),
    if_pos ⟨hsub.length_le.trans hcount, (hbytes.trans hlength).trans hsmall⟩]
  exact ⟨rfl, hlength.trans hsmall⟩

namespace PersistedConfigState

variable {handle handle' handle₁ handle₂ : PersistedConfigState} {n : NetworkId}
  {base : ConfigHead} {raws₁ raws₂ : List Bytes} {nowMs : UInt64}
  {es es₁ es₂ : List EncryptedConfigEnvelope} {p p₁ : UpdateProgress} {w w' w₁ w₂ : Stores}

theorem Advanced.parts
    (h : handle.Advanced ⟨n, base, raws₁ ++ raws₂⟩ nowMs es p handle' w w') (hne : raws₂ ≠ []) :
    ∃ p₁, applyEnvelopes handle.root handle.encryption nowMs ⟨handle.config, handle.head, [], []⟩
        raws₁ = .ok p₁ ∧
      applyEnvelopes handle.root handle.encryption nowMs
        ⟨p₁.currentConfig, p₁.currentHead, [], []⟩ raws₂ = .ok p := by
  have hloop := h.loop
  rw [applyEnvelopes_append] at hloop
  obtain ⟨p₁, hfirst, hsecond⟩ := bind_eq_ok.mp hloop
  refine ⟨p₁, hfirst, ?_⟩
  rw [← hsecond]
  refine applyEnvelopes_congr ?_ ?_ hne
  · rfl
  · rfl

variable {updates : ConfigUpdateBatch}

theorem Advanced.same (h : handle.Advanced updates nowMs es p handle' w w') :
    handle'.root = handle.root ∧ handle'.encryption = handle.encryption ∧
      handle'.config = p.currentConfig ∧ handle'.head = p.currentHead := by
  rw [h.handle]
  exact ⟨rfl, rfl, rfl, rfl⟩

theorem Advanced.scope_eq (h : handle.Advanced updates nowMs es p handle' w w') :
    handle'.scope = handle.scope := by
  unfold scope networkId
  rw [h.same.1]

theorem Advanced.exists_apply {updates₂ : ConfigUpdateBatch}
    (h : handle.Advanced updates nowMs es₁ p₁ handle₁ w w₁) {c' : ValidatedNetworkConfig}
    {h' : ConfigHead} (hnetwork : updates₂.networkId = handle.networkId)
    (hbase : updates₂.baseHead = p₁.currentHead)
    (hraws : updates₂.envelopes = es₂.map fun e => e.toBytes) (hne : es₂ ≠ [])
    (hparse : ∀ e ∈ es₂, EncryptedConfigEnvelope.fromBytes e.toBytes = .ok e)
    (happlied : Applied handle.root handle.encryption nowMs p₁.currentConfig p₁.currentHead es₂
      c' h') (hnew : ConfigUpdateBatch.new updates₂.networkId updates₂.baseHead updates₂.envelopes =
      .ok updates₂) (hsmall : updates₂.encodedLength ≤ maxUpdateBatchBytes)
    (hmissing : ∀ x ∈ es₂, w.record handle.scope (configHistoryKey x.revision) = none)
    (hlater : ∀ e ∈ es₁, ∀ x ∈ es₂, e.revision ≠ x.revision)
    (hroom : w₁.state.HasRoom (3 + es₂.length)) :
    ∃ handle₂ w₂, (handle₁.apply updates₂ nowMs).run serve w₁ = (.ok (h', handle₂), w₂) := by
  obtain ⟨hroot, hencryption, hconfig, hhead⟩ := h.same
  have hscope := h.scope_eq
  rw [← hroot, ← hencryption, ← hconfig, ← hhead] at happlied
  have hrecord₁ := h.envelope
  have hrecord₂ := h.head
  have hrecord₃ := h.signer
  rw [← hscope] at hrecord₁ hrecord₂ hrecord₃
  refine PersistedConfigState.exists_apply ?_ (hbase.trans hhead.symm) hraws hne hparse happlied
    hnew hsmall ⟨_, hrecord₁⟩ ⟨_, hrecord₂⟩ ⟨_, hrecord₃⟩ ?_ hroom
  · rw [hnetwork, networkId, networkId, hroot]
  · -- the first batch has written the history of its own revisions only
    intro x hx
    obtain ⟨hne₁, hne₂, hne₃⟩ := configHistoryKey_ne x.revision
    rw [hscope, h.stored.others _ hne₁ hne₂ hne₃, hmissing x hx]
    intro e he heq
    exact hlater e he x hx (configHistoryKey_injective heq).symm

theorem Advanced.same_bytes {updates₁ updates₂ : ConfigUpdateBatch}
    (h : handle.Advanced updates nowMs (es₁ ++ es₂) p handle' w w')
    (h₁ : handle.Advanced updates₁ nowMs es₁ p₁ handle₁ w w₁)
    (h₂ : handle₁.Advanced updates₂ nowMs es₂ p handle₂ w₁ w₂) (scope : StoreScope)
    (key : StoreKey) :
    (w₂.record scope key).map VersionedBytes.bytes =
      (w'.record scope key).map VersionedBytes.bytes := by
  have hscope := h₁.scope_eq
  by_cases hin : scope = handle.scope
  swap
  · rw [h.stored.scopes scope hin, h₂.stored.scopes scope (by rwa [hscope]),
      h₁.stored.scopes scope hin]
  rw [hin]
  -- the three records are those that the loop ends with
  by_cases hkey₁ : key = configEnvelopeKey
  · rw [hkey₁, h.envelope, ← hscope, h₂.envelope]
    rfl
  by_cases hkey₂ : key = configHeadKey
  · rw [hkey₂, h.head, ← hscope, h₂.head]
    rfl
  by_cases hkey₃ : key = configSignerCertificateKey
  · rw [hkey₃, h.signer, ← hscope, h₂.signer]
    rfl
  -- a record of the history is written by the batch, and by one of its parts
  by_cases hsecond : ∃ e ∈ es₂, key = configHistoryKey e.revision
  · obtain ⟨e, he, rfl⟩ := hsecond
    obtain ⟨v, hrecord⟩ := h.stored.history e (List.mem_append_right _ he)
    obtain ⟨v₂, hrecord₂⟩ := h₂.stored.history e he
    rw [hrecord, ← hscope, hrecord₂]
    rfl
  have hlater : w₂.record handle.scope key = w₁.record handle.scope key := by
    rw [← hscope]
    exact h₂.stored.others key hkey₁ hkey₂ hkey₃ fun e he heq => hsecond ⟨e, he, heq⟩
  by_cases hfirst : ∃ e ∈ es₁, key = configHistoryKey e.revision
  · obtain ⟨e, he, rfl⟩ := hfirst
    obtain ⟨v, hrecord⟩ := h.stored.history e (List.mem_append_left _ he)
    obtain ⟨v₁, hrecord₁⟩ := h₁.stored.history e he
    rw [hrecord, hlater, hrecord₁]
    rfl
  · rw [hlater, h₁.stored.others key hkey₁ hkey₂ hkey₃ fun e he heq => hfirst ⟨e, he, heq⟩,
      h.stored.others key hkey₁ hkey₂ hkey₃ fun e he heq =>
        (List.mem_append.mp he).elim (fun he => hfirst ⟨e, he, heq⟩) fun he =>
          hsecond ⟨e, he, heq⟩]

end PersistedConfigState

/-- When `apply` succeeds on a batch, and the versions of two commits are left, it also succeeds on
the first part of the envelopes and then, from the head that this leads to, on the second part. The
second handle has the head and the configuration that the batch leads to, and the stores hold the
same bytes under every key. -/
theorem apply_in_two {handle handle' : PersistedConfigState} {n : NetworkId} {base head : ConfigHead}
    {raws₁ raws₂ : List Bytes} (hne₁ : raws₁ ≠ []) (hne₂ : raws₂ ≠ []) {nowMs : UInt64}
    {w w' : Stores}
    (h : (handle.apply ⟨n, base, raws₁ ++ raws₂⟩ nowMs).run serve w = (.ok (head, handle'), w'))
    (hrecords : w.state.nextRecord.toNat + (6 + raws₁.length + raws₂.length) < 2^64)
    (hcommits : w.state.nextCommit.toNat + 2 < 2^64) :
    ∃ head₁ handle₁ w₁ handle₂ w₂,
      (handle.apply ⟨n, base, raws₁⟩ nowMs).run serve w = (.ok (head₁, handle₁), w₁) ∧
      (handle₁.apply ⟨n, head₁, raws₂⟩ nowMs).run serve w₁ = (.ok (head, handle₂), w₂) ∧
      handle₂.head = handle'.head ∧ handle₂.config = handle'.config ∧
      ∀ scope key, (w₂.record scope key).map VersionedBytes.bytes =
        (w'.record scope key).map VersionedBytes.bytes := by
  obtain ⟨hnetwork, hbase, hhead, es, p, hadvanced⟩ :=
    PersistedConfigState.advanced_of_apply h (List.append_ne_nil_of_left_ne_nil hne₁ _)
  obtain ⟨p₁, hloop₁, hloop₂⟩ := hadvanced.parts hne₂
  obtain ⟨es₁, rfl, hparse₁, happlied₁, -, -⟩ := applyEnvelopes_spec hloop₁
  obtain ⟨es₂, rfl, hparse₂, happlied₂, -, -⟩ := applyEnvelopes_spec hloop₂
  obtain rfl : es = es₁ ++ es₂ := by
    refine EncryptedConfigEnvelope.eq_of_map_toBytes hadvanced.parses ?_ ?_
    · intro e he
      exact (List.mem_append.mp he).elim (hparse₁ e) (hparse₂ e)
    · rw [List.map_append]
      exact hadvanced.raws.symm
  have hes₁ : es₁ ≠ [] := fun hnil => hne₁ (by rw [hnil]; rfl)
  have hes₂ : es₂ ≠ [] := fun hnil => hne₂ (by rw [hnil]; rfl)
  rw [List.length_map, List.length_map] at hrecords
  dsimp only at happlied₁ happlied₂
  obtain ⟨hconsecutive₁, hrevision₁, -⟩ := happlied₁.consecutive
  obtain ⟨hconsecutive₂, -, -⟩ := happlied₂.consecutive
  have hroot : n = handle.root.networkId := hnetwork
  have hhead₀ : base = handle.head := hbase
  subst hroot hhead₀
  -- both parts are batches
  have hshape := hadvanced.shape
  have hsmall := hadvanced.small
  simp only [← List.map_append] at hshape hsmall
  obtain ⟨hnew₁, hsmall₁⟩ := ConfigUpdateBatch.part (List.sublist_append_left es₁ es₂) hparse₁ hshape
    hsmall hconsecutive₁ (by rw [List.length_append]; omega)
  obtain ⟨hnew₂, hsmall₂⟩ := ConfigUpdateBatch.part (List.sublist_append_right es₁ es₂) hparse₂
    hshape hsmall hconsecutive₂ (by rw [List.length_append, hrevision₁]; omega)
  -- the first part finds the records as the batch does
  obtain ⟨_, _, _, hrecord₁, hrecord₂, hrecord₃⟩ := hadvanced.stored.expected
  obtain ⟨handle₁, w₁, hrun₁⟩ := PersistedConfigState.exists_apply rfl rfl rfl hes₁ hparse₁ happlied₁
    hnew₁ hsmall₁ ⟨_, hrecord₁⟩ ⟨_, hrecord₂⟩ ⟨_, hrecord₃⟩
    (fun x hx => hadvanced.stored.missing x (List.mem_append_left _ hx))
    ⟨by omega, by omega⟩
  obtain ⟨-, -, hhead₁, es₁', p₁', hadvanced₁⟩ := PersistedConfigState.advanced_of_apply hrun₁ hne₁
  obtain rfl := Except.ok.inj (hadvanced₁.loop.symm.trans hloop₁)
  obtain rfl := EncryptedConfigEnvelope.eq_of_map_toBytes hparse₁ hadvanced₁.parses hadvanced₁.raws
  -- the second part comes after the first
  have hlater : ∀ e ∈ es₁, ∀ x ∈ es₂, e.revision ≠ x.revision := by
    have hupdated := hadvanced.updated (List.append_ne_nil_of_left_ne_nil hne₁ _)
    obtain ⟨hall, -, -⟩ := hupdated.applied.consecutive
    exact (List.pairwise_append.mp (PersistedConfigState.pairwise_of_consecutive hall).1).2.2
  have hnext := hadvanced₁.next
  obtain ⟨handle₂, w₂, hrun₂⟩ := hadvanced₁.exists_apply rfl rfl rfl hes₂ hparse₂ happlied₂
    hnew₂ hsmall₂ (fun x hx => hadvanced.stored.missing x (List.mem_append_right _ hx)) hlater
    ⟨by omega, by omega⟩
  obtain ⟨-, -, hhead₂, es₂', p₂, hadvanced₂⟩ := PersistedConfigState.advanced_of_apply hrun₂ hne₂
  obtain rfl := EncryptedConfigEnvelope.eq_of_map_toBytes hparse₂ hadvanced₂.parses hadvanced₂.raws
  -- the loop over the second part ends as the loop over both does
  have hloop := hadvanced₂.loop
  obtain ⟨hroot₁, hencryption₁, hconfig₁, hcurrent₁⟩ := hadvanced₁.same
  rw [hroot₁, hencryption₁, hconfig₁, hcurrent₁] at hloop
  obtain rfl := Except.ok.inj (hloop.symm.trans hloop₂)
  obtain ⟨-, -, hconfig, hcurrent⟩ := hadvanced.same
  obtain ⟨-, -, hconfig₂, hcurrent₂⟩ := hadvanced₂.same
  rw [← hcurrent, ← hhead] at hrun₂
  exact ⟨_, handle₁, w₁, handle₂, w₂, hrun₁, hrun₂, hcurrent₂.trans hcurrent.symm,
    hconfig₂.trans hconfig.symm, hadvanced.same_bytes hadvanced₁ hadvanced₂⟩

end Weaver

namespace Weaver.Sample

open Checked Wire Versioned Program Transparent

/-- A member that holds the sample configuration, in a store with some number of versions used up,
and two revisions after it. -/
def offering (nextRecord : UInt64) : Option (PersistedConfigState × Stores × Bytes × Bytes) := do
  let config ← firstConfig
  let current ← (config.validate root.public root.public.networkId 1000).toOption
  let e ← (EncryptedConfigEnvelope.sealNextConfig root.public admin current firstHead
    (nextConfig config) [key.publicBytes] 1100 sealing).toOption
  let opened ← (e.openNextConfig root.public current key firstHead 1100).toOption
  let e' ← (EncryptedConfigEnvelope.sealNextConfig root.public admin opened.config opened.head
    { nextConfig config with
      revision := opened.head.revision + 1, previousHash := opened.head.hash }
    [key.publicBytes] 1100 sealing).toOption
  let batch ← memberRecords.toOption
  let (_, state) ← (Stores.empty.state.commitBatch batch).toOption
  return (⟨root.public, key, current, firstHead, 1, 2, 3⟩,
    { Stores.empty with state := { state with nextRecord } }, e.toBytes, e'.toBytes)

def applyingBoth (nextRecord : UInt64) : Option (PersistedConfigState × Stores × Bytes × Bytes ×
    ConfigHead × PersistedConfigState × Stores) := do
  let (handle, w, raw, raw') ← offering nextRecord
  match (handle.apply ⟨root.public.networkId, firstHead, [raw] ++ [raw']⟩ 1200).run serve w with
  | (.ok (head, handle'), w') => return (handle, w, raw, raw', head, handle', w')
  | (.error _, _) => none

theorem applyingBoth_eq_some {nextRecord : UInt64} {handle handle' : PersistedConfigState}
    {w w' : Stores} {raw raw' : Bytes} {head : ConfigHead}
    (h : applyingBoth nextRecord = some (handle, w, raw, raw', head, handle', w')) :
    (handle.apply ⟨root.public.networkId, firstHead, [raw] ++ [raw']⟩ 1200).run serve w =
      (.ok (head, handle'), w') := by
  unfold applyingBoth at h
  simp only [Option.bind_eq_bind, Option.bind_eq_some_iff, Prod.exists] at h
  obtain ⟨_, _, _, _, -, h⟩ := h
  split at h
  · next hrun =>
    cases h
    exact hrun
  · cases h

theorem applyingBoth_early : (applyingBoth 4).any (fun r =>
    decide (r.2.1.state.nextRecord = 4 ∧ r.2.1.state.nextCommit = 2)) = true := by
  decide +kernel

/-- The two revisions are applied one by one. -/
theorem apply_in_two_sample : ∃ (handle handle₁ handle₂ : PersistedConfigState) (w w₁ w₂ : Stores)
    (raw raw' : Bytes) (head head₁ : ConfigHead),
    (handle.apply ⟨root.public.networkId, firstHead, [raw]⟩ 1200).run serve w =
        (.ok (head₁, handle₁), w₁) ∧
      (handle₁.apply ⟨root.public.networkId, head₁, [raw']⟩ 1200).run serve w₁ =
        (.ok (head, handle₂), w₂) := by
  obtain ⟨⟨handle, w, raw, raw', head, handle', w'⟩, hr, hnext⟩ :=
    (Option.any_eq_true _ _).mp applyingBoth_early
  obtain ⟨hrecord, hcommit⟩ := of_decide_eq_true hnext
  dsimp only at hrecord hcommit
  obtain ⟨head₁, handle₁, w₁, handle₂, w₂, hfirst, hsecond, -⟩ := apply_in_two
    (List.cons_ne_nil _ _) (List.cons_ne_nil _ _) (applyingBoth_eq_some hr)
    (by rw [hrecord]; exact (show (4 : UInt64).toNat + 8 < 2^64 by decide))
    (by rw [hcommit]; decide)
  exact ⟨handle, handle₁, handle₂, w, w₁, w₂, raw, raw', head, head₁, hfirst, hsecond⟩

def applyingApart (handle : PersistedConfigState) (w : Stores) (raw raw' : Bytes) :
    Option (ConfigHead × PersistedConfigState × Stores × ConfigStateError × Stores) :=
  match (handle.apply ⟨root.public.networkId, firstHead, [raw]⟩ 1200).run serve w with
  | (.ok (head, handle₁), w₁) =>
    match (handle₁.apply ⟨root.public.networkId, head, [raw']⟩ 1200).run serve w₁ with
    | (.error e, w₂) => some (head, handle₁, w₁, e, w₂)
    | (.ok _, _) => none
  | (.error _, _) => none

theorem applyingBoth_late : (applyingBoth (0 - 6)).any (fun r =>
    (applyingApart r.1 r.2.1 r.2.2.1 r.2.2.2.1).isSome) = true := by
  decide +kernel

/-- Two revisions are applied in one batch to a store in which the versions of five records are
left. One by one the second is refused. -/
theorem apply_in_two_exhausted : ∃ (handle handle' handle₁ : PersistedConfigState)
    (w w' w₁ w₂ : Stores) (raw raw' : Bytes) (head head₁ : ConfigHead) (e : ConfigStateError),
    (handle.apply ⟨root.public.networkId, firstHead, [raw] ++ [raw']⟩ 1200).run serve w =
        (.ok (head, handle'), w') ∧
      (handle.apply ⟨root.public.networkId, firstHead, [raw]⟩ 1200).run serve w =
        (.ok (head₁, handle₁), w₁) ∧
      (handle₁.apply ⟨root.public.networkId, head₁, [raw']⟩ 1200).run serve w₁ =
        (.error e, w₂) := by
  obtain ⟨⟨handle, w, raw, raw', head, handle', w'⟩, hr, hapart⟩ :=
    (Option.any_eq_true _ _).mp applyingBoth_late
  obtain ⟨⟨head₁, handle₁, w₁, e, w₂⟩, hsome⟩ := Option.isSome_iff_exists.mp hapart
  unfold applyingApart at hsome
  split at hsome
  · next hfirst =>
    split at hsome
    · next hsecond =>
      cases hsome
      exact ⟨handle, handle', handle₁, w, w', w₁, w₂, raw, raw', head, head₁, e,
        applyingBoth_eq_some hr, hfirst, hsecond⟩
    · cases hsome
  · cases hsome

end Weaver.Sample
