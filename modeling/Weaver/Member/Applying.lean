import Weaver.Authority.Chain
import Weaver.Member.ConfigState

/-!
# What applying updates amounts to

`apply` opens each envelope of a batch on the configuration that the one before it holds
(`Applied`), and replaces the member's three records and adds to its history in one commit
(`Updated`). It fails and changes nothing, or does all of this: with no other writer, what it reads
back after the commit is what it has just committed.
-/

namespace Weaver

open Checked Wire Collect Versioned Program

/-! ## The keys -/

theorem configHistoryKey_length (r : UInt64) : (configHistoryKey r).asBytes.length = 26 := by
  change (configHistoryKeyPrefix ++ be64 r).length = 26
  rw [List.length_append, configHistoryKeyPrefix_length, be64_length]

theorem ne_configHistoryKey {key : StoreKey} (h : key.asBytes.length ≠ 26) (r : UInt64) :
    key ≠ configHistoryKey r := by
  refine StoreKey.ne_of_length ?_
  rw [configHistoryKey_length]
  exact h

theorem configHistoryKey_injective {r s : UInt64} (h : configHistoryKey r = configHistoryKey s) :
    r = s := by
  have hbytes : configHistoryKeyPrefix ++ be64 r = configHistoryKeyPrefix ++ be64 s :=
    congrArg StoreKey.asBytes h
  exact be64_injective (List.append_cancel_left hbytes)

theorem configHistoryKey_ne (r : UInt64) : configHistoryKey r ≠ configEnvelopeKey ∧
    configHistoryKey r ≠ configHeadKey ∧ configHistoryKey r ≠ configSignerCertificateKey :=
  ⟨(ne_configHistoryKey (by decide) r).symm, (ne_configHistoryKey (by decide) r).symm,
    (ne_configHistoryKey (by decide) r).symm⟩

variable [Crypto]

/-! ## The loop over the envelopes -/

theorem signerCertificate_eq_some {v : ValidatedNetworkConfig} {keyId : KeyId} {bytes : Bytes} :
    signerCertificate v keyId = some bytes ↔
      ∃ a, v.asConfig.ListsAdmin a ∧ a.payload.keyId = keyId ∧ bytes = a.toBytes := by
  obtain ⟨search, hsearch, hsome⟩ : ∃ search : AdminKey → Option Bytes,
      signerCertificate v keyId = v.asConfig.adminKeys.findSome? search ∧
      ∀ key ∈ v.asConfig.adminKeys, ∀ b : Bytes, search key = some b ↔
        ∃ a : AdminCertificate, key.certificate = a.toBytes ∧ a.payload.keyId = keyId ∧
          b = a.toBytes := by
    refine ⟨_, rfl, ?_⟩
    intro key hkey b
    obtain ⟨a, ha⟩ := v.admins_parse.1 key hkey
    have hread : AdminCertificate.fromBytes key.certificate = .ok a := Signed.fromBytes_eq_ok.mpr ha
    simp only [hread, Option.ite_none_right_eq_some, Option.some.injEq]
    constructor
    · intro h
      exact ⟨a, ha, h.1, by rw [← h.2, ha]⟩
    · rintro ⟨a', ha', hid, hb⟩
      obtain rfl := Signed.toBytes_injective (ha.symm.trans ha')
      exact ⟨hid, ha.trans hb.symm⟩
  rw [hsearch]
  constructor
  · intro h
    obtain ⟨key, hkey, hfound⟩ := List.exists_of_findSome?_eq_some h
    obtain ⟨a, ha, hid, hbytes⟩ := (hsome key hkey bytes).mp hfound
    refine ⟨a, ?_, hid, hbytes⟩
    unfold NetworkConfigV1.ListsAdmin
    rw [← ha]
    exact hkey
  · rintro ⟨a, hlisted, hid, rfl⟩
    -- whichever certificate the search finds has the identifier, and only one has it
    cases hfind : v.asConfig.adminKeys.findSome? search with
    | none =>
      have hnone := List.findSome?_eq_none_iff.mp hfind _ hlisted
      have hfound := (hsome _ hlisted a.toBytes).mpr ⟨a, rfl, hid, rfl⟩
      exact absurd (hnone.symm.trans hfound) (by simp)
    | some found =>
      obtain ⟨key, hkey, hfound⟩ := List.exists_of_findSome?_eq_some hfind
      obtain ⟨a', ha', hid', rfl⟩ := (hsome key hkey found).mp hfound
      have hlisted' : v.asConfig.ListsAdmin a' := by
        unfold NetworkConfigV1.ListsAdmin
        rw [← ha']
        exact hkey
      rw [ValidatedNetworkConfig.listed_admin_unique hlisted' hlisted (hid'.trans hid.symm)]

/-- The envelopes open one after the other at the time, the first of them on the configuration and
the head, and the last of them to the other configuration and head. -/
inductive Applied (root : NetworkRootPublic) (encryption : MemberEncryptionKeypair)
    (nowMs : UInt64) : ValidatedNetworkConfig → ConfigHead → List EncryptedConfigEnvelope →
      ValidatedNetworkConfig → ConfigHead → Prop
  | nil (c : ValidatedNetworkConfig) (h : ConfigHead) : Applied root encryption nowMs c h [] c h
  /-- The first envelope opens on the configuration, and the others on what it holds. -/
  | cons {c c' : ValidatedNetworkConfig} {h h' : ConfigHead} {e : EncryptedConfigEnvelope}
      {o : OpenedNetworkConfig} {rest : List EncryptedConfigEnvelope} :
      e.openNextConfig root c encryption h nowMs = .ok o →
      Applied root encryption nowMs o.config o.head rest c' h' →
      Applied root encryption nowMs c h (e :: rest) c' h'

section Loop

variable {root : NetworkRootPublic} {encryption : MemberEncryptionKeypair} {nowMs : UInt64}
  {c c' : ValidatedNetworkConfig} {h h' : ConfigHead}

/-- What the last envelope of an application is: it opens, on some configuration, to the one that
the application ends with, and the signer's certificate is listed there. -/
structure LastApplied (root : NetworkRootPublic) (encryption : MemberEncryptionKeypair)
    (nowMs : UInt64) (p : UpdateProgress) (last : EncryptedConfigEnvelope) : Prop where
  opens : ∃ c₀ h₀ a, last.openNextConfig root c₀ encryption h₀ nowMs =
      .ok ⟨p.currentConfig, p.currentHead⟩ ∧ c₀.asConfig.ListsAdmin a ∧
    a.payload.keyId = last.signerKeyId ∧ p.finalSigner = a.toBytes
  envelope : p.finalEnvelope = last.toBytes

variable {p : UpdateProgress} {raws : List Bytes}

theorem applyEnvelopes_spec {p' : UpdateProgress}
    (hloop : applyEnvelopes root encryption nowMs p raws = .ok p') :
    ∃ es : List EncryptedConfigEnvelope, raws = es.map (fun e => e.toBytes) ∧
      (∀ e ∈ es, EncryptedConfigEnvelope.fromBytes e.toBytes = .ok e) ∧
      Applied root encryption nowMs p.currentConfig p.currentHead es p'.currentConfig
        p'.currentHead ∧
      (es = [] → p' = p) ∧
      ∀ last, es.getLast? = some last → LastApplied root encryption nowMs p' last := by
  induction raws generalizing p with
  | nil =>
    obtain rfl := Except.ok.inj hloop
    exact ⟨[], rfl, by simp, .nil _ _, fun _ => rfl, by simp⟩
  | cons raw rest ih =>
    rw [applyEnvelopes] at hloop
    simp only [bind_eq_ok, mapError_eq_ok, okOr_eq_ok] at hloop
    obtain ⟨e, hparse, signer, hsigner, o, hopen, hrest⟩ := hloop
    obtain rfl := EncryptedConfigEnvelope.toBytes_of_fromBytes hparse
    obtain ⟨a, hlisted, hid, hbytes⟩ := signerCertificate_eq_some.mp hsigner
    obtain ⟨es, hraws, hparses, happlied, hempty, hlast⟩ := ih hrest
    refine ⟨e :: es, by rw [List.map_cons, ← hraws], ?_, .cons hopen happlied, by simp, ?_⟩
    · intro x hx
      rcases List.mem_cons.mp hx with rfl | hx
      · exact hparse
      · exact hparses x hx
    · intro last hget
      -- the last envelope is one of the others, or this one when there are no others
      cases hes : es with
      | nil =>
        rw [hes] at hget
        obtain rfl := Option.some.inj hget
        rw [hempty hes]
        exact ⟨⟨p.currentConfig, p.currentHead, a, hopen, hlisted, hid, hbytes⟩, rfl⟩
      | cons x xs =>
        refine hlast last ?_
        rw [hes] at hget ⊢
        rw [← hget, List.getLast?_cons_cons]

variable {es : List EncryptedConfigEnvelope}

theorem exists_applyEnvelopes
    (hparse : ∀ e ∈ es, EncryptedConfigEnvelope.fromBytes e.toBytes = .ok e)
    (happlied : Applied root encryption nowMs c h es c' h') (envelope signer : Bytes) :
    ∃ p', applyEnvelopes root encryption nowMs ⟨c, h, envelope, signer⟩
        (es.map fun e => e.toBytes) = .ok p' ∧
      p'.currentConfig = c' ∧ p'.currentHead = h' := by
  induction happlied generalizing envelope signer with
  | nil c h => exact ⟨_, rfl, rfl, rfl⟩
  | @cons c c' h h' e o rest hopen _ ih =>
    obtain ⟨-, ⟨a, hverifies, -⟩, -⟩ := EncryptedConfigEnvelope.openNextConfig_eq_ok.mp hopen
    have hsigner := signerCertificate_eq_some.mpr ⟨a, hverifies.1, hverifies.2.1, rfl⟩
    obtain ⟨p', hloop, hconfig, hhead⟩ := ih
      (fun x hx => hparse x (List.mem_cons_of_mem e hx)) e.toBytes a.toBytes
    refine ⟨p', ?_, hconfig, hhead⟩
    rw [List.map_cons, applyEnvelopes, hparse e List.mem_cons_self]
    simp only [mapError_ok, ok_bind]
    rw [hsigner, okOr_some, ok_bind, hopen, mapError_ok, ok_bind]
    exact hloop

theorem applyEnvelopes_append (p : UpdateProgress) (raws raws' : List Bytes) :
    applyEnvelopes root encryption nowMs p (raws ++ raws') =
      (applyEnvelopes root encryption nowMs p raws).bind fun p' =>
        applyEnvelopes root encryption nowMs p' raws' := by
  induction raws generalizing p with
  | nil => rfl
  | cons raw rest ih =>
    rw [List.cons_append, applyEnvelopes, applyEnvelopes]
    cases (EncryptedConfigEnvelope.fromBytes raw).mapError ConfigStateError.config with
    | error _ => rfl
    | ok e =>
      simp only [ok_bind]
      cases okOr (signerCertificate p.currentConfig e.signerKeyId)
          ConfigStateError.missingSignerCertificate with
      | error _ => rfl
      | ok signer =>
        simp only [ok_bind]
        cases (e.openNextConfig root p.currentConfig encryption p.currentHead nowMs).mapError
            ConfigStateError.config with
        | error _ => rfl
        | ok o =>
          simp only [ok_bind]
          exact ih _

theorem applyEnvelopes_congr {q : UpdateProgress} (hconfig : p.currentConfig = q.currentConfig)
    (hhead : p.currentHead = q.currentHead) (hne : raws ≠ []) :
    applyEnvelopes root encryption nowMs p raws = applyEnvelopes root encryption nowMs q raws := by
  obtain ⟨raw, rest, rfl⟩ := List.exists_cons_of_ne_nil hne
  rw [applyEnvelopes, applyEnvelopes, hconfig, hhead]

theorem Applied.consecutive (happlied : Applied root encryption nowMs c h es c' h') :
    Consecutive root.networkId h.revision h.hash es ∧
      h'.revision.toNat = h.revision.toNat + es.length ∧ h.epoch ≤ h'.epoch := by
  induction happlied with
  | nil c h => exact ⟨trivial, rfl, le_rfl⟩
  | @cons c c' h h' e o rest hopen _ ih =>
    obtain ⟨⟨hnetwork, -⟩, -, ⟨hrevision, hprevious, hepoch⟩, -, hhead⟩ :=
      EncryptedConfigEnvelope.openNextConfig_eq_ok.mp hopen
    obtain ⟨hrest, hlength, hlater⟩ := ih
    rw [hhead] at hrest hlength hlater
    refine ⟨⟨hnetwork.symm, hrevision, hprevious, hrest⟩, ?_, hepoch.trans hlater⟩
    have hsame : e.head.revision = e.revision := rfl
    rw [hlength, hsame, hrevision, List.length_cons]
    omega

theorem Applied.configs (happlied : Applied root encryption nowMs c h es c' h') :
    ∃ configs : List ValidatedNetworkConfig, configs.length = es.length + 1 ∧
      configs.head? = some c ∧ configs.getLast? = some c' ∧
      ∀ i e before after, es[i]? = some e → configs[i]? = some before →
        configs[i + 1]? = some after →
        e.SignedIn before root nowMs ∧ e.OpensTo root encryption nowMs after.asConfig := by
  induction happlied with
  | nil c h => exact ⟨[c], rfl, rfl, rfl, by simp⟩
  | @cons c c' h h' e o rest hopen _ ih =>
    obtain ⟨-, hsigned, -, hopens, -⟩ := EncryptedConfigEnvelope.openNextConfig_eq_ok.mp hopen
    obtain ⟨configs, hlength, hfirst, hlast, hsteps⟩ := ih
    obtain ⟨x, others, rfl⟩ := List.exists_cons_of_ne_nil (l := configs) (by
      intro hnil
      rw [hnil] at hlength
      cases hlength)
    obtain rfl := Option.some.inj hfirst
    refine ⟨c :: o.config :: others, ?_, rfl, ?_, ?_⟩
    · rw [List.length_cons, hlength, List.length_cons]
    · rw [List.getLast?_cons_cons, hlast]
    · intro i e' before after he hbefore hafter
      cases i with
      | zero =>
        obtain rfl := Option.some.inj he
        obtain rfl := Option.some.inj hbefore
        obtain rfl := Option.some.inj hafter
        exact ⟨hsigned, hopens⟩
      | succ i => exact hsteps i e' before after he hbefore hafter

end Loop

/-! ## The batch that is committed -/

omit [Crypto] in
def historyPut (e : EncryptedConfigEnvelope) : Operation StoreKey Bytes :=
  .put (configHistoryKey e.revision) e.toBytes .missing

variable {batch : AtomicBatch}

omit [Crypto] in
theorem putHistory_spec {b : AtomicBatch} {es : List EncryptedConfigEnvelope}
    (hparse : ∀ e ∈ es, EncryptedConfigEnvelope.fromBytes e.toBytes = .ok e)
    (h : putHistory batch (es.map fun e => e.toBytes) = .ok b) :
    b.scope = batch.scope ∧ b.operations = batch.operations ++ es.map historyPut := by
  induction es generalizing batch with
  | nil =>
    obtain rfl := Except.ok.inj h
    exact ⟨rfl, (List.append_nil _).symm⟩
  | cons e rest ih =>
    rw [List.map_cons, putHistory, hparse e List.mem_cons_self] at h
    simp only [mapError_ok, ok_bind, bind_eq_ok, mapError_eq_ok, AtomicBatch.put_eq_ok] at h
    obtain ⟨batch₁, ⟨-, -, hscope, hops⟩, hrest⟩ := h
    obtain ⟨hscope', hops'⟩ := ih (fun x hx => hparse x (List.mem_cons_of_mem e hx)) hrest
    refine ⟨hscope'.trans hscope, ?_⟩
    rw [hops', hops, List.append_assoc]
    rfl

omit [Crypto] in
theorem exists_putHistory {es : List EncryptedConfigEnvelope}
    (hparse : ∀ e ∈ es, EncryptedConfigEnvelope.fromBytes e.toBytes = .ok e)
    (hlen : ∀ e ∈ es, e.toBytes.length ≤ maxValueLen)
    (hnew : ∀ e ∈ es, configHistoryKey e.revision ∉ batch.operations.map Operation.key)
    (hdistinct : es.Pairwise fun e e' => e.revision ≠ e'.revision) :
    ∃ b, putHistory batch (es.map fun e => e.toBytes) = .ok b := by
  induction es generalizing batch with
  | nil => exact ⟨batch, rfl⟩
  | cons e rest ih =>
    obtain ⟨hfirst, hrest⟩ := List.pairwise_cons.mp hdistinct
    obtain ⟨batch₁, hput, hkeys⟩ := AtomicBatch.exists_put batch _ (hlen e List.mem_cons_self)
      (hnew e List.mem_cons_self) .missing
    have hnew₁ : ∀ x ∈ rest, configHistoryKey x.revision ∉ batch₁.operations.map Operation.key := by
      intro x hx
      rw [hkeys, List.mem_append, List.mem_singleton, not_or]
      exact ⟨hnew x (List.mem_cons_of_mem e hx), fun heq =>
        hfirst x hx (configHistoryKey_injective heq).symm⟩
    obtain ⟨b, hb⟩ := ih (fun x hx => hparse x (List.mem_cons_of_mem e hx))
      (fun x hx => hlen x (List.mem_cons_of_mem e hx)) hnew₁ hrest
    refine ⟨b, ?_⟩
    rw [List.map_cons, putHistory, hparse e List.mem_cons_self]
    simp only [mapError_ok, ok_bind]
    rw [hput, mapError_ok, ok_bind]
    exact hb

namespace PersistedConfigState

def scope (handle : PersistedConfigState) : StoreScope := .member handle.networkId

/-- The writes of `apply`. -/
def updateOperations (handle : PersistedConfigState) (envelope signer : Bytes) (head : ConfigHead)
    (es : List EncryptedConfigEnvelope) : List (Operation StoreKey Bytes) :=
  [.put configEnvelopeKey envelope (.exact handle.envelopeVersion),
    .put configHeadKey (encodeHead head) (.exact handle.headVersion),
    .put configSignerCertificateKey signer (.exact handle.signerVersion)] ++ es.map historyPut

variable {handle : PersistedConfigState} {es : List EncryptedConfigEnvelope}

variable {p : UpdateProgress} {batch : AtomicBatch}

theorem updateBatch_spec (hparse : ∀ e ∈ es, EncryptedConfigEnvelope.fromBytes e.toBytes = .ok e)
    (h : handle.updateBatch p (es.map fun e => e.toBytes) = .ok batch) :
    batch.scope = handle.scope ∧
      batch.operations = handle.updateOperations p.finalEnvelope p.finalSigner p.currentHead es := by
  unfold updateBatch at h
  simp only [bind_eq_ok, mapError_eq_ok, AtomicBatch.put_eq_ok] at h
  obtain ⟨b₁, ⟨-, -, hscope₁, hops₁⟩, b₂, ⟨-, -, hscope₂, hops₂⟩, b₃, ⟨-, -, hscope₃, hops₃⟩,
    hrest⟩ := h
  obtain ⟨hscope, hops⟩ := putHistory_spec hparse hrest
  refine ⟨?_, ?_⟩
  · rw [hscope, hscope₃, hscope₂, hscope₁]
    rfl
  · rw [hops, hops₃, hops₂, hops₁]
    rfl

/-- The handle has cached the member's records: their versions, and the head of the envelope that
they hold with the certificate of its signer. -/
structure Synced (handle : PersistedConfigState) (w : Stores) (e : EncryptedConfigEnvelope)
    (signer : Bytes) : Prop where
  envelope : w.record handle.scope configEnvelopeKey = some ⟨handle.envelopeVersion, e.toBytes⟩
  head_record :
    w.record handle.scope configHeadKey = some ⟨handle.headVersion, encodeHead e.head⟩
  signer_record :
    w.record handle.scope configSignerCertificateKey = some ⟨handle.signerVersion, signer⟩
  head : handle.head = e.head

/-- What the commit of `apply` does to the stores: the records of the handle's versions are
replaced, the history gains the envelopes, and nothing else changes. -/
structure Stored (handle : PersistedConfigState) (es : List EncryptedConfigEnvelope)
    (envelope signer : Bytes) (head : ConfigHead) (w w' : Stores) : Prop where
  envelope : ∃ v, w'.record handle.scope configEnvelopeKey = some ⟨v, envelope⟩
  head : ∃ v, w'.record handle.scope configHeadKey = some ⟨v, encodeHead head⟩
  signer : ∃ v, w'.record handle.scope configSignerCertificateKey = some ⟨v, signer⟩
  expected : ∃ envelope₀ head₀ signer₀,
    w.record handle.scope configEnvelopeKey = some ⟨handle.envelopeVersion, envelope₀⟩ ∧
    w.record handle.scope configHeadKey = some ⟨handle.headVersion, head₀⟩ ∧
    w.record handle.scope configSignerCertificateKey = some ⟨handle.signerVersion, signer₀⟩
  missing : ∀ e ∈ es, w.record handle.scope (configHistoryKey e.revision) = none
  history : ∀ e ∈ es, ∃ v,
    w'.record handle.scope (configHistoryKey e.revision) = some ⟨v, e.toBytes⟩
  others : ∀ key, key ≠ configEnvelopeKey → key ≠ configHeadKey →
    key ≠ configSignerCertificateKey → (∀ e ∈ es, key ≠ configHistoryKey e.revision) →
    w'.record handle.scope key = w.record handle.scope key
  scopes : ∀ scope, scope ≠ handle.scope → ∀ key, w'.record scope key = w.record scope key
  secrets : w'.secrets = w.secrets

variable {w w' : Stores}

theorem stored_of_commit {envelope signer : Bytes} {head : ConfigHead} {version : UInt64}
    (hscope : batch.scope = handle.scope)
    (hops : batch.operations = handle.updateOperations envelope signer head es)
    (hcommit : w.state.commitBatch batch = .ok (version, w'.state))
    (hsecrets : w'.secrets = w.secrets) : handle.Stored es envelope signer head w w' := by
  have hput : ∀ key value expected,
      .put key value expected ∈ handle.updateOperations envelope signer head es →
      (∃ v, w'.record handle.scope key = some ⟨v, value⟩) ∧
        expected.Holds (w.state.version (handle.scope, key)) := by
    intro key value expected hmem
    rw [← hops] at hmem
    have hrecord := Stores.record_of_put hcommit hmem
    have hholds := Stores.expected_of_commit hcommit hmem
    rw [hscope] at hrecord hholds
    exact ⟨hrecord, hholds⟩
  have hhistory : ∀ e ∈ es, historyPut e ∈ handle.updateOperations envelope signer head es :=
    fun e he => List.mem_append_right _ (List.mem_map_of_mem he)
  obtain ⟨henvelope, hversion₁⟩ := hput configEnvelopeKey envelope _ List.mem_cons_self
  obtain ⟨hhead, hversion₂⟩ := hput configHeadKey _ _ (List.mem_cons_of_mem _ List.mem_cons_self)
  obtain ⟨hsigner, hversion₃⟩ := hput configSignerCertificateKey signer _
    (List.mem_cons_of_mem _ (List.mem_cons_of_mem _ List.mem_cons_self))
  obtain ⟨⟨v₁, envelope₀⟩, hold₁, rfl⟩ := Stores.record_of_exact hversion₁
  obtain ⟨⟨v₂, head₀⟩, hold₂, rfl⟩ := Stores.record_of_exact hversion₂
  obtain ⟨⟨v₃, signer₀⟩, hold₃, rfl⟩ := Stores.record_of_exact hversion₃
  refine ⟨henvelope, hhead, hsigner, ⟨envelope₀, head₀, signer₀, hold₁, hold₂, hold₃⟩, ?_, ?_, ?_,
    ?_, hsecrets⟩
  · intro e he
    exact Stores.record_of_missing (hput _ _ _ (hhistory e he)).2
  · intro e he
    exact (hput _ _ _ (hhistory e he)).1
  · intro key hkey₁ hkey₂ hkey₃ hkeys
    rw [← hscope]
    refine Stores.record_of_other hcommit ?_
    intro op hop
    rw [hops] at hop
    rcases List.mem_append.mp hop with hop | hop
    · -- one of the three records
      simp only [List.mem_cons, List.not_mem_nil, or_false] at hop
      rcases hop with rfl | rfl | rfl
      · exact hkey₁.symm
      · exact hkey₂.symm
      · exact hkey₃.symm
    · obtain ⟨e, he, rfl⟩ := List.mem_map.mp hop
      exact (hkeys e he).symm
  · intro scope hne key
    refine Stores.record_of_scope hcommit ?_ key
    rw [hscope]
    exact hne.symm

/-- What a batch with envelopes does: it is within the limits, the loop passes over its envelopes,
the stores keep what the loop ends with, and the new handle has cached the records. -/
structure Advanced (handle : PersistedConfigState) (updates : ConfigUpdateBatch) (nowMs : UInt64)
    (es : List EncryptedConfigEnvelope) (p : UpdateProgress) (handle' : PersistedConfigState)
    (w w' : Stores) : Prop where
  shape : ConfigUpdateBatch.new updates.networkId updates.baseHead updates.envelopes = .ok updates
  small : updates.encodedLength ≤ maxUpdateBatchBytes
  raws : updates.envelopes = es.map fun e => e.toBytes
  parses : ∀ e ∈ es, EncryptedConfigEnvelope.fromBytes e.toBytes = .ok e
  loop : applyEnvelopes handle.root handle.encryption nowMs ⟨handle.config, handle.head, [], []⟩
    updates.envelopes = .ok p
  stored : handle.Stored es p.finalEnvelope p.finalSigner p.currentHead w w'
  next : w'.state.nextRecord.toNat ≤ w.state.nextRecord.toNat + (3 + es.length) ∧
    w'.state.nextCommit.toNat = w.state.nextCommit.toNat + 1
  envelope : w'.record handle.scope configEnvelopeKey =
    some ⟨handle'.envelopeVersion, p.finalEnvelope⟩
  head : w'.record handle.scope configHeadKey =
    some ⟨handle'.headVersion, encodeHead p.currentHead⟩
  signer : w'.record handle.scope configSignerCertificateKey =
    some ⟨handle'.signerVersion, p.finalSigner⟩
  handle : handle' = { handle with
    config := p.currentConfig
    head := p.currentHead
    envelopeVersion := handle'.envelopeVersion
    headVersion := handle'.headVersion
    signerVersion := handle'.signerVersion }

variable {updates : ConfigUpdateBatch}

variable {nowMs : UInt64} {r : Except ConfigStateError (ConfigHead × PersistedConfigState)}

theorem apply_advanced_cases (h : (handle.apply updates nowMs).run serve w = (r, w')) :
    (∃ e, r = .error e ∧ w' = w) ∨
      (updates.networkId = handle.networkId ∧ updates.baseHead = handle.head ∧
        ((updates.envelopes = [] ∧ r = .ok (handle.head, handle) ∧ w' = w) ∨
          updates.envelopes ≠ [] ∧ ∃ es p handle', r = .ok (handle'.head, handle') ∧
            handle.Advanced updates nowMs es p handle' w w')) := by
  unfold PersistedConfigState.apply at h
  rcases Task.run_lift_cases h with herror | ⟨_, hbase, hrun⟩
  · exact .inl herror
  rw [failIf_eq_ok, not_or, Decidable.not_not, Decidable.not_not] at hbase
  by_cases hempty : updates.envelopes = []
  · rw [if_pos hempty] at hrun
    obtain ⟨hr, hw⟩ := Prod.mk.inj hrun
    exact .inr ⟨hbase.1, hbase.2, .inl ⟨hempty, hr.symm, hw.symm⟩⟩
  rw [if_neg hempty] at hrun
  rcases Task.run_lift_cases hrun with herror | ⟨⟨p, batch⟩, hvalid, hrun⟩
  · exact .inl herror
  rcases commitOr_bind_cases hrun with herror | ⟨version, w₁, hcommit, hsecrets, hback⟩
  · exact .inl herror
  unfold validateUpdates at hvalid
  simp only [bind_eq_ok, mapError_eq_ok, pure_eq_ok_iff, Prod.mk.injEq] at hvalid
  obtain ⟨bytes, hbytes, updates', hread, p', hloop, batch', hbatch, rfl, rfl⟩ := hvalid
  -- the batch was read again as it is
  obtain ⟨rfl, hshape, hsmall⟩ := ConfigUpdateBatch.reread_eq_ok.mp ⟨bytes, hbytes, hread⟩
  obtain ⟨es, hraws, hparses, -⟩ := applyEnvelopes_spec hloop
  rw [hraws] at hbatch
  obtain ⟨hscope, hops⟩ := updateBatch_spec hparses hbatch
  have hstored := stored_of_commit hscope hops hcommit hsecrets
  obtain ⟨v₁, hrecord₁⟩ := hstored.envelope
  obtain ⟨v₂, hrecord₂⟩ := hstored.head
  obtain ⟨v₃, hrecord₃⟩ := hstored.signer
  -- what is read back is what was committed
  have hscope' : StoreScope.member handle.networkId = handle.scope := rfl
  rw [hscope', readExistingOr_bind_run hrecord₁, readExistingOr_bind_run hrecord₂,
    readExistingOr_bind_run hrecord₃] at hback
  simp only [VersionedBytes.bytes, ne_eq, not_true_eq_false, failIf_neg, not_false_eq_true,
    decodeConfigHead, decodeHeadOr_encodeHead, Task.run_lift_ok_bind, Task.run_pure] at hback
  obtain ⟨hr, rfl⟩ := Prod.mk.inj hback
  let handle' : PersistedConfigState :=
    { handle with
      config := p'.currentConfig
      head := p'.currentHead
      envelopeVersion := v₁
      headVersion := v₂
      signerVersion := v₃ }
  have hlength : batch'.operations.length = 3 + es.length := by
    rw [hops, updateOperations, List.length_append, List.length_map]
    rfl
  have hnext := StateStore.commitBatch_next hcommit
  rw [hlength] at hnext
  exact .inr ⟨hbase.1, hbase.2, .inr ⟨hempty, es, p', handle', hr.symm, hshape, hsmall, hraws,
    hparses, hloop, hstored, hnext, hrecord₁, hrecord₂, hrecord₃, rfl⟩⟩

/-- What a batch of updates does: the envelopes open one after the other, from the handle's
configuration to that of the new handle, and the stores keep them. -/
structure Updated (handle : PersistedConfigState) (es : List EncryptedConfigEnvelope)
    (nowMs : UInt64) (handle' : PersistedConfigState) (w w' : Stores) : Prop where
  nonempty : es ≠ []
  parses : ∀ e ∈ es, EncryptedConfigEnvelope.fromBytes e.toBytes = .ok e
  applied : Applied handle.root handle.encryption nowMs handle.config handle.head es
    handle'.config handle'.head
  same : handle'.root = handle.root ∧ handle'.encryption = handle.encryption
  /-- The records are those of the last envelope, which opened to the new configuration on one that
  lists the signer, and the new handle has cached them. -/
  last : ∃ last a, es.getLast? = some last ∧
    handle.Stored es last.toBytes a.toBytes last.head w w' ∧ handle'.Synced w' last a.toBytes ∧
    ∃ c₀ h₀, last.openNextConfig handle.root c₀ handle.encryption h₀ nowMs =
      .ok ⟨handle'.config, handle'.head⟩ ∧ c₀.asConfig.ListsAdmin a ∧
      a.payload.keyId = last.signerKeyId

variable {handle' : PersistedConfigState}

theorem Advanced.updated (h : handle.Advanced updates nowMs es p handle' w w')
    (hne : updates.envelopes ≠ []) :
    handle.Updated es nowMs handle' w w' := by
  obtain ⟨es', hraws, hparses, happlied, -, hlast⟩ := applyEnvelopes_spec h.loop
  obtain rfl := EncryptedConfigEnvelope.eq_of_map_toBytes hparses h.parses (hraws.symm.trans h.raws)
  have hes : es' ≠ [] := fun hnil => hne (by rw [h.raws, hnil]; rfl)
  obtain ⟨last, hget⟩ : ∃ last, es'.getLast? = some last :=
    ⟨es'.getLast hes, List.getLast?_eq_getLast_of_ne_nil hes⟩
  obtain ⟨⟨c₀, h₀, a, hopen, hlisted, hid, hsigner⟩, henvelope⟩ := hlast last hget
  have hhead : p.currentHead = last.head :=
    (EncryptedConfigEnvelope.openNextConfig_eq_ok.mp hopen).2.2.2.2
  obtain ⟨hroot, hencryption, hconfig, hhead'⟩ : handle'.root = handle.root ∧
      handle'.encryption = handle.encryption ∧ handle'.config = p.currentConfig ∧
      handle'.head = p.currentHead := by
    rw [h.handle]
    exact ⟨rfl, rfl, rfl, rfl⟩
  have hscope : handle'.scope = handle.scope := by
    unfold scope networkId
    rw [hroot]
  have hstored := h.stored
  have hrecord₁ := h.envelope
  have hrecord₂ := h.head
  have hrecord₃ := h.signer
  rw [henvelope, hsigner, hhead] at hstored
  rw [henvelope, ← hscope] at hrecord₁
  rw [hhead, ← hscope] at hrecord₂
  rw [hsigner, ← hscope] at hrecord₃
  rw [← hconfig, ← hhead'] at happlied hopen
  exact ⟨hes, hparses, happlied, ⟨hroot, hencryption⟩, last, a, hget, hstored,
    ⟨hrecord₁, hrecord₂, hrecord₃, hhead'.trans hhead⟩, c₀, h₀, hopen, hlisted, hid⟩

theorem apply_run_cases (h : (handle.apply updates nowMs).run serve w = (r, w')) :
    (∃ e, r = .error e ∧ w' = w) ∨
      (updates.networkId = handle.networkId ∧ updates.baseHead = handle.head ∧
        ((updates.envelopes = [] ∧ r = .ok (handle.head, handle) ∧ w' = w) ∨
          ∃ es handle', updates.envelopes = es.map (fun e => e.toBytes) ∧
            r = .ok (handle'.head, handle') ∧ handle.Updated es nowMs handle' w w')) := by
  rcases apply_advanced_cases h with herror | ⟨hnetwork, hbase, hcases⟩
  · exact .inl herror
  rcases hcases with hempty | ⟨hne, es, p, handle', hr, hadvanced⟩
  · exact .inr ⟨hnetwork, hbase, .inl hempty⟩
  · exact .inr ⟨hnetwork, hbase, .inr ⟨es, handle', hadvanced.raws, hr, hadvanced.updated hne⟩⟩

theorem applyUpdates_run {r : Except ConfigStateError ConfigHead} :
    (handle.applyUpdates updates nowMs).run serve w = ((r, handle'), w') ↔
      (∃ head, r = .ok head ∧
        (handle.apply updates nowMs).run serve w = (.ok (head, handle'), w')) ∨
      ∃ e, r = .error e ∧ handle' = handle ∧
        (handle.apply updates nowMs).run serve w = (.error e, w') := by
  unfold applyUpdates
  rw [Task.run_then]
  rcases (handle.apply updates nowMs).run serve w with ⟨e | ⟨head, handle₁⟩, w₁⟩
  · simp only [Prog.run_ret, Prod.mk.injEq, Except.error.injEq, reduceCtorEq, false_and, and_false,
      exists_false, false_or]
    constructor
    · intro h
      exact ⟨e, h.1.1.symm, h.1.2.symm, rfl, h.2⟩
    · rintro ⟨e', hr, hhandle, he, hw⟩
      exact ⟨⟨by rw [hr, he], hhandle.symm⟩, hw⟩
  · simp only [Prog.run_ret, Prod.mk.injEq, Except.ok.injEq, reduceCtorEq, false_and, and_false,
      exists_false, or_false]
    constructor
    · intro h
      exact ⟨head, h.1.1.symm, ⟨rfl, h.1.2⟩, h.2⟩
    · rintro ⟨head', hr, ⟨hhead, hhandle⟩, hw⟩
      exact ⟨⟨by rw [hr, hhead], hhandle⟩, hw⟩

end PersistedConfigState

/-- `apply`, with no other writer and no failure of the backend: when it fails, the handle and the
stores are as they were; when it succeeds on a batch with envelopes, the new head is as many
revisions ahead as there are envelopes and in no earlier epoch, each envelope is signed by an
administrator of the configuration right before it, and the stores gained the new records of the
history and the three replaced records, and nothing else. -/
theorem apply_all_or_nothing {handle handle' : PersistedConfigState} {updates : ConfigUpdateBatch}
    {nowMs : UInt64} {w w' : Stores} {r : Except ConfigStateError ConfigHead}
    (h : (handle.applyUpdates updates nowMs).run serve w = ((r, handle'), w')) :
    (∀ e, r = .error e → handle' = handle ∧ w' = w) ∧
    ∀ head, r = .ok head → updates.envelopes ≠ [] →
      handle'.head = head ∧
      head.revision.toNat = handle.head.revision.toNat + updates.envelopes.length ∧
      handle.head.epoch ≤ head.epoch ∧
      ∃ (es : List EncryptedConfigEnvelope) (configs : List ValidatedNetworkConfig)
        (last : EncryptedConfigEnvelope) (signer : AdminCertificate),
        updates.envelopes = es.map (fun e => e.toBytes) ∧
        (∀ e ∈ es, EncryptedConfigEnvelope.fromBytes e.toBytes = .ok e) ∧
        configs.length = es.length + 1 ∧ configs.head? = some handle.config ∧
        configs.getLast? = some handle'.config ∧
        (∀ i e before after, es[i]? = some e → configs[i]? = some before →
          configs[i + 1]? = some after → e.SignedIn before handle.root nowMs ∧
            e.OpensTo handle.root handle.encryption nowMs after.asConfig) ∧
        es.getLast? = some last ∧
        handle.Stored es last.toBytes signer.toBytes head w w' := by
  rcases PersistedConfigState.applyUpdates_run.mp h with ⟨head, rfl, hrun⟩ | ⟨e, rfl, hsame, hrun⟩
  · refine ⟨by simp, ?_⟩
    intro head' hr hne
    obtain rfl := Except.ok.inj hr
    rcases PersistedConfigState.apply_run_cases hrun with ⟨e, he, -⟩ | ⟨-, -, hcases⟩
    · cases he
    rcases hcases with ⟨hempty, -⟩ | ⟨es, handle₁, hraws, hok, hupdated⟩
    · exact absurd hempty hne
    obtain ⟨rfl, rfl⟩ := Prod.mk.inj (Except.ok.inj hok)
    obtain ⟨-, hrevision, hepoch⟩ := hupdated.applied.consecutive
    obtain ⟨configs, hlength, hfirst, hend, hsteps⟩ := hupdated.applied.configs
    obtain ⟨last, a, hget, hstored, hsynced, -⟩ := hupdated.last
    refine ⟨rfl, ?_, hepoch, es, configs, last, a, hraws, hupdated.parses, hlength, hfirst, hend,
      hsteps, hget, ?_⟩
    · rw [hraws, List.length_map]
      exact hrevision
    · rw [hsynced.head]
      exact hstored
  · refine ⟨?_, by simp⟩
    intro _ _
    rcases PersistedConfigState.apply_run_cases hrun with ⟨_, -, hw⟩ | ⟨-, -, hcases⟩
    · exact ⟨hsame, hw⟩
    · rcases hcases with ⟨-, hok, -⟩ | ⟨_, _, -, hok, -⟩
      · cases hok
      · cases hok

end Weaver

namespace Weaver.Sample

open Checked Wire Versioned Program Transparent

def memberRecords : Except StoreError AtomicBatch := do
  let batch ← (AtomicBatch.new (.member root.public.networkId)).put configEnvelopeKey [] .missing
  let batch ← batch.put configHeadKey (encodeHead firstHead) .missing
  batch.put configSignerCertificateKey [] .missing

def applying : Option (PersistedConfigState × ConfigUpdateBatch × Stores × ConfigHead ×
    PersistedConfigState × Stores) := do
  let config ← firstConfig
  let current ← (config.validate root.public root.public.networkId 1000).toOption
  let e ← (EncryptedConfigEnvelope.sealNextConfig root.public admin current firstHead
    (nextConfig config) [key.publicBytes] 1100 sealing).toOption
  let batch ← memberRecords.toOption
  let (_, state) ← (Stores.empty.state.commitBatch batch).toOption
  let w : Stores := { Stores.empty with state }
  let handle : PersistedConfigState := ⟨root.public, key, current, firstHead, 1, 2, 3⟩
  let updates : ConfigUpdateBatch := ⟨root.public.networkId, firstHead, [e.toBytes]⟩
  match (handle.applyUpdates updates 1200).run serve w with
  | ((.ok head, handle'), w') => some (handle, updates, w, head, handle', w')
  | ((.error _, _), _) => none

theorem applying_isSome : applying.isSome = true := by decide +kernel

/-- The sample member moves by one revision, and its store gains the envelope of it. -/
theorem apply_all_or_nothing_sample : ∃ (handle handle' : PersistedConfigState) (w w' : Stores)
    (e : EncryptedConfigEnvelope) (signer : AdminCertificate),
    handle'.head.revision.toNat = handle.head.revision.toNat + 1 ∧
      handle.Stored [e] e.toBytes signer.toBytes handle'.head w w' := by
  obtain ⟨_, hr⟩ := Option.isSome_iff_exists.mp applying_isSome
  unfold applying at hr
  simp only [Option.bind_eq_bind, Option.bind_eq_some_iff, Prod.exists] at hr
  obtain ⟨config, -, current, -, e, -, batch, -, _, state, -, hr⟩ := hr
  split at hr
  · next head handle' w' hrun =>
    obtain ⟨rfl, hrevision, -, es, configs, last, signer, hraws, -, -, -, -, -, hget, hstored⟩ :=
      (apply_all_or_nothing hrun).2 head rfl (by simp)
    -- the batch has one envelope
    obtain ⟨x, rfl⟩ := List.length_eq_one_iff.mp
      (show es.length = 1 by rw [← List.length_map (f := fun e => e.toBytes), ← hraws]; rfl)
    obtain rfl := Option.some.inj hget
    exact ⟨_, handle', _, w', x, signer, hrevision, hstored⟩
  · cases hr

end Weaver.Sample
