import Mathlib.Data.List.Chain
import Weaver.Member.Membership

/-!
# A member's records

What a member's store holds between its calls: a checkpoint of the configuration that it has reached
and, once a handle has been opened, the envelopes of all revisions from the one that it joined with
to that of the checkpoint (`Retains`). `OpenedOn` says what a handle is opened on; `open_run_cases`
and `open_of_openedOn` say that this is exactly when `open` succeeds.
-/

namespace Weaver

open Checked Wire Versioned Program

/-! ## The history -/

structure Retained (n : NetworkId) (w : Stores) (e : EncryptedConfigEnvelope) : Prop where
  parses : EncryptedConfigEnvelope.fromBytes e.toBytes = .ok e
  network : e.networkId = n
  record : ∃ v, w.record (.member n) (configHistoryKey e.revision) = some ⟨v, e.toBytes⟩

variable [Crypto]

variable {e : EncryptedConfigEnvelope} {es : List EncryptedConfigEnvelope}

theorem revision_of_chain {x : EncryptedConfigEnvelope} (h : (e :: es).IsChain Extends) {i : ℕ}
    (hi : (e :: es)[i]? = some x) :
    x.revision.toNat = e.revision.toNat + i := by
  induction es generalizing e i with
  | nil =>
    cases i with
    | zero =>
      obtain rfl := Option.some.inj hi
      rfl
    | succ i => cases hi
  | cons e' rest ih =>
    obtain ⟨hnext, hrest⟩ := List.isChain_cons_cons.mp h
    cases i with
    | zero =>
      obtain rfl := Option.some.inj hi
      rfl
    | succ i =>
      rw [ih hrest hi, hnext.revision]
      omega

/-- The member's history holds the envelopes, each right after the one before it, and nothing
else. -/
structure Retains (n : NetworkId) (w : Stores) (es : List EncryptedConfigEnvelope) : Prop where
  chain : es.IsChain Extends
  stored : ∀ e ∈ es, Retained n w e
  others : ∀ r, (∀ e ∈ es, e.revision ≠ r) → w.record (.member n) (configHistoryKey r) = none

variable {n : NetworkId} {w : Stores}

theorem Retains.revisions {first last : EncryptedConfigEnvelope}
    {rest : List EncryptedConfigEnvelope} (h : Retains n w (first :: rest))
    (hlast : (first :: rest).getLast? = some last) (r : UInt64) :
    (w.record (.member n) (configHistoryKey r)).isSome ↔
      first.revision ≤ r ∧ r ≤ last.revision := by
  have hend : last.revision.toNat = first.revision.toNat + rest.length := by
    rw [List.getLast?_eq_getElem?] at hlast
    rw [revision_of_chain h.chain hlast, List.length_cons]
    omega
  simp only [UInt64.le_iff_toNat_le]
  constructor
  · intro hsome
    -- a record of the history is that of one of the envelopes
    by_contra hout
    have hnone : ∀ e ∈ first :: rest, e.revision ≠ r := by
      intro e he heq
      obtain ⟨i, hi⟩ := List.getElem?_of_mem he
      have hlength := (List.getElem?_eq_some_iff.mp hi).1
      rw [List.length_cons] at hlength
      have hrevision := revision_of_chain h.chain hi
      rw [heq] at hrevision
      omega
    rw [h.others r hnone] at hsome
    cases hsome
  · intro hr
    have hi : r.toNat - first.revision.toNat < (first :: rest).length := by
      rw [List.length_cons]
      omega
    have hget := List.getElem?_eq_getElem hi
    have hrevision := revision_of_chain h.chain hget
    have heq : ((first :: rest)[r.toNat - first.revision.toNat]).revision = r := by
      rw [← UInt64.toNat_inj]
      omega
    obtain ⟨v, hrecord⟩ := (h.stored _ (List.getElem_mem hi)).record
    rw [heq] at hrecord
    rw [hrecord]
    rfl

variable {nowMs : UInt64}

variable {root : NetworkRootPublic} {encryption : MemberEncryptionKeypair}

theorem Applied.chain {c c' : ValidatedNetworkConfig} {h h' : ConfigHead}
    (happlied : Applied root encryption nowMs c h es c' h') {e₀ : EncryptedConfigEnvelope}
    (hhead : h = e₀.head) : (e₀ :: es).IsChain Extends := by
  induction happlied generalizing e₀ with
  | nil c h => exact .singleton e₀
  | @cons c c' h h' e o rest hopen _ ih =>
    obtain ⟨-, -, ⟨hrevision, hprevious, hepoch⟩, -, hnext⟩ :=
      EncryptedConfigEnvelope.openNextConfig_eq_ok.mp hopen
    rw [hhead] at hrevision hprevious hepoch
    exact .cons_cons ⟨hrevision, hprevious, hepoch⟩ (ih hnext)

/-! ## Seeding the history -/

/-- What opening a handle does to the history: it holds the envelope of the checkpoint, or it gains
it. -/
def Seeded (n : NetworkId) (w w' : Stores) (revision : UInt64) (envelope : Bytes) : Prop :=
  ((∃ v, w.record (.member n) (configHistoryKey revision) = some ⟨v, envelope⟩) ∧ w' = w) ∨
    (w.record (.member n) (configHistoryKey revision) = none ∧
      ∃ batch version, (AtomicBatch.new (.member n)).put (configHistoryKey revision) envelope
          .missing = .ok batch ∧
        w.state.commitBatch batch = .ok (version, w'.state) ∧ w'.secrets = w.secrets)

variable {revision : UInt64} {envelope : Bytes} {w' : Stores}

omit [Crypto] in
theorem seedConfigHistory_run_cases {r : Except ConfigStateError Unit}
    (h : (seedConfigHistory (.member n) revision envelope).run serve w = (r, w')) :
    (∃ e, r = .error e ∧ w' = w) ∨ (r = .ok () ∧ Seeded n w w' revision envelope) := by
  unfold seedConfigHistory at h
  rw [readOr_bind_run] at h
  cases hrecord : w.record (.member n) (configHistoryKey revision) with
  | some existing =>
    rw [hrecord] at h
    obtain ⟨hr, rfl⟩ := Prod.mk.inj h
    by_cases hbytes : existing.bytes = envelope
    · rw [failIf_neg (not_not.mpr hbytes)] at hr
      refine .inr ⟨hr.symm, .inl ⟨⟨existing.version, ?_⟩, rfl⟩⟩
      rw [hrecord, ← hbytes]
    · rw [failIf_pos hbytes] at hr
      exact .inl ⟨_, hr.symm, rfl⟩
  | none =>
    rw [hrecord] at h
    rcases Task.run_lift_cases h with herror | ⟨batch, hbatch, hrun⟩
    · exact .inl herror
    rw [mapError_eq_ok] at hbatch
    rw [tryCommit_bind_run] at hrun
    cases hcommit : w.state.commitBatch batch with
    | ok result =>
      obtain ⟨version, state⟩ := result
      rw [Stores.commit_of_ok hcommit] at hrun
      obtain ⟨hr, rfl⟩ := Prod.mk.inj hrun
      exact .inr ⟨hr.symm, .inr ⟨hrecord, batch, version, hbatch, hcommit, rfl⟩⟩
    | error e =>
      -- nothing has changed, so that the record is still missing
      rw [Stores.commit_of_error hcommit] at hrun
      left
      cases e with
      | versionConflict key expected actual =>
        simp only [readOr_bind_run, hrecord] at hrun
        obtain ⟨hr, rfl⟩ := Prod.mk.inj hrun
        exact ⟨_, hr.symm, rfl⟩
      | _ =>
        obtain ⟨hr, rfl⟩ := Prod.mk.inj hrun
        exact ⟨_, hr.symm, rfl⟩

omit [Crypto] in
theorem seedConfigHistory_of_seeded (h : Seeded n w w' revision envelope) :
    (seedConfigHistory (.member n) revision envelope).run serve w = (.ok (), w') := by
  unfold seedConfigHistory
  rw [readOr_bind_run]
  rcases h with ⟨⟨v, hrecord⟩, rfl⟩ | ⟨hrecord, batch, version, hbatch, hcommit, hsecrets⟩
  · rw [hrecord]
    exact Prod.ext (failIf_neg (not_not.mpr rfl)) rfl
  · have hstored := Stores.commit_eq_ok.mpr ⟨hcommit, hsecrets⟩
    rw [hrecord, hbatch]
    simp only [mapError_ok, Task.run_lift_ok_bind]
    rw [tryCommit_bind_run, hstored]
    rfl

omit [Crypto] in
theorem Seeded.record (h : Seeded n w w' revision envelope) :
    ∃ v, w'.record (.member n) (configHistoryKey revision) = some ⟨v, envelope⟩ := by
  rcases h with ⟨hrecord, rfl⟩ | ⟨-, batch, version, hbatch, hcommit, -⟩
  · exact hrecord
  · exact (Stores.create_spec hbatch hcommit).2.1

omit [Crypto] in
theorem Seeded.others (h : Seeded n w w' revision envelope) {key : StoreKey}
    (hkey : key ≠ configHistoryKey revision) :
    w'.record (.member n) key = w.record (.member n) key := by
  rcases h with ⟨-, rfl⟩ | ⟨-, batch, version, hbatch, hcommit, -⟩
  · rfl
  · exact (Stores.create_spec hbatch hcommit).2.2 key hkey

omit [Crypto] in
theorem exists_seeded (hlen : envelope.length ≤ maxValueLen)
    (hmissing : w.record (.member n) (configHistoryKey revision) = none)
    (hroom : w.state.HasRoom 1) : ∃ w', Seeded n w w' revision envelope := by
  obtain ⟨batch, hbatch, -⟩ := AtomicBatch.exists_put (.new (.member n))
    (configHistoryKey revision) hlen (List.not_mem_nil) .missing
  obtain ⟨-, -, hscope, hops⟩ := AtomicBatch.put_eq_ok.mp hbatch
  have hexpected : ∀ op ∈ batch.operations,
      op.expected.Holds (w.state.version (batch.scope, op.key)) := by
    intro op hop
    rw [hops] at hop
    obtain rfl := List.mem_singleton.mp hop
    rw [hscope]
    exact Stores.missing_of_record hmissing
  have hlength : batch.operations.length = 1 := by
    rw [hops]
    rfl
  rw [← hlength] at hroom
  obtain ⟨version, state, hcommit⟩ := StateStore.exists_commitBatch hexpected hroom
  exact ⟨{ w with state }, .inr ⟨hmissing, batch, version, hbatch, hcommit, rfl⟩⟩

/-! ## Opening -/

/-- The handle is what `open` makes of the member's records at the time: the envelope, signed by the
administrator whose certificate is stored, opens to the handle's configuration. -/
structure OpenedOn (handle : PersistedConfigState) (nowMs : UInt64) (w : Stores)
    (e : EncryptedConfigEnvelope) (a : AdminCertificate) : Prop where
  synced : handle.Synced w e a.toBytes
  parses : EncryptedConfigEnvelope.fromBytes e.toBytes = .ok e
  network : e.networkId = handle.root.networkId
  /-- The certificate verifies; nothing that the configuration revokes is looked at. -/
  signer : a.Verifies handle.root handle.root.networkId nowMs []
  signed : e.signerKeyId = a.payload.keyId ∧
    a.payload.permissions &&& adminPermissionConfigWrite ≠ 0 ∧
    Crypto.verify a.payload.publicKey e.signedBytes e.signature = true
  opens : e.OpensTo handle.root handle.encryption nowMs handle.config.asConfig

theorem open_run_cases {r : Except ConfigStateError PersistedConfigState}
    (h : (PersistedConfigState.open root encryption nowMs).run serve w = (r, w')) :
    (∃ e, r = .error e ∧ w' = w) ∨
      ∃ handle e a, r = .ok handle ∧ handle.root = root ∧ handle.encryption = encryption ∧
        OpenedOn handle nowMs w e a ∧ Seeded root.networkId w w' e.revision e.toBytes := by
  unfold PersistedConfigState.open at h
  rcases readExistingOr_bind_cases h with herror | ⟨⟨v₁, b₁⟩, hrecord₁, h₁⟩
  · exact .inl herror
  rcases readExistingOr_bind_cases h₁ with herror | ⟨⟨v₂, b₂⟩, hrecord₂, h₂⟩
  · exact .inl herror
  rcases readExistingOr_bind_cases h₂ with herror | ⟨⟨v₃, b₃⟩, hrecord₃, h₃⟩
  · exact .inl herror
  rcases Task.run_lift_cases h₃ with herror | ⟨e, hparse, h₄⟩
  · exact .inl herror
  rw [mapError_eq_ok] at hparse
  rcases Task.run_lift_cases h₄ with herror | ⟨head, hhead, h₅⟩
  · exact .inl herror
  rcases Task.run_lift_cases h₅ with herror | ⟨a, ha, h₆⟩
  · exact .inl herror
  rw [mapError_eq_ok, Signed.fromBytes_eq_ok] at ha
  rcases Task.run_lift_cases h₆ with herror | ⟨admin, hadmin, h₇⟩
  · exact .inl herror
  rw [mapError_eq_ok, AdminCertificate.verify_eq_ok] at hadmin
  obtain ⟨hverifies, hpayload⟩ := hadmin
  rcases Task.run_lift_cases h₇ with herror | ⟨opened, hopened, h₈⟩
  · exact .inl herror
  rw [mapError_eq_ok, EncryptedConfigEnvelope.openConfigWithVerifiedAdmin_eq_ok, hpayload]
    at hopened
  obtain ⟨⟨hnetwork, -⟩, hsigner, hpermission, hsignature, hchain, hopens, hopenedHead⟩ := hopened
  rcases Task.run_bind_cases h₈ with ⟨err, hseed, hr⟩ | ⟨_, w₁, hseed, h₉⟩
  · rcases seedConfigHistory_run_cases hseed with ⟨_, -, hw⟩ | ⟨hok, -⟩
    · exact .inl ⟨err, hr, hw⟩
    · cases hok
  rcases seedConfigHistory_run_cases hseed with ⟨_, herror, -⟩ | ⟨-, hseeded⟩
  · cases herror
  obtain ⟨hr, rfl⟩ := Prod.mk.inj h₉
  -- the records are those of the envelope, of its head and of the certificate
  obtain rfl := EncryptedConfigEnvelope.toBytes_of_fromBytes hparse
  have hbytes₂ : b₂ = encodeHead e.head := by
    have hdecoded := decodeHeadOr_eq_ok.mp hhead
    rw [show e.head = head from hchain]
    exact hdecoded
  obtain rfl : b₃ = a.toBytes := ha
  rw [hbytes₂] at hrecord₂
  refine .inr ⟨_, e, a, hr.symm, rfl, rfl, ⟨⟨hrecord₁, hrecord₂, hrecord₃, hopenedHead⟩, hparse,
    hnetwork.symm, hverifies, ⟨hsigner, hpermission, hsignature⟩, hopens⟩, ?_⟩
  rw [hopenedHead] at hseeded
  exact hseeded

theorem open_of_openedOn {handle : PersistedConfigState} {a : AdminCertificate}
    (h : OpenedOn handle nowMs w e a)
    (hseeded : Seeded handle.root.networkId w w' e.revision e.toBytes) :
    (PersistedConfigState.open handle.root handle.encryption nowMs).run serve w =
      (.ok handle, w') := by
  unfold PersistedConfigState.open
  refine readExistingOr_bind_eq_ok.mpr ⟨_, h.synced.envelope, ?_⟩
  refine readExistingOr_bind_eq_ok.mpr ⟨_, h.synced.head_record, ?_⟩
  refine readExistingOr_bind_eq_ok.mpr ⟨_, h.synced.signer_record, ?_⟩
  refine Task.run_lift_bind_eq_ok.mpr ⟨e, mapError_eq_ok.mpr h.parses, ?_⟩
  refine Task.run_lift_bind_eq_ok.mpr ⟨e.head, decodeHeadOr_encodeHead _ _, ?_⟩
  refine Task.run_lift_bind_eq_ok.mpr ⟨a, mapError_eq_ok.mpr (Signed.fromBytes_eq_ok.mpr rfl), ?_⟩
  refine Task.run_lift_bind_eq_ok.mpr ⟨⟨a.payload, h.signer.valid_key⟩, mapError_eq_ok.mpr
    (AdminCertificate.verify_eq_ok.mpr ⟨h.signer, rfl⟩), ?_⟩
  refine Task.run_lift_bind_eq_ok.mpr ⟨⟨handle.config, e.head⟩, mapError_eq_ok.mpr ?_, ?_⟩
  · rw [EncryptedConfigEnvelope.openConfigWithVerifiedAdmin_eq_ok]
    exact ⟨⟨h.network.symm, h.signer.network.trans h.network.symm⟩, h.signed.1, h.signed.2.1,
      h.signed.2.2, rfl, h.opens, rfl⟩
  refine Task.run_bind_eq_ok.mpr ⟨(), w', seedConfigHistory_of_seeded hseeded, ?_⟩
  rw [Task.run_pure, ← h.synced.head]

/-! ## Serving updates -/

section Serving

variable {base last : EncryptedConfigEnvelope} {post : List EncryptedConfigEnvelope}

theorem le_of_chain (h : (base :: post).IsChain Extends)
    (hlast : (base :: post).getLast? = some last) :
    last.revision.toNat = base.revision.toNat + post.length ∧ base.epoch ≤ last.epoch := by
  induction post generalizing base with
  | nil =>
    obtain rfl := Option.some.inj hlast
    exact ⟨rfl, le_rfl⟩
  | cons e rest ih =>
    obtain ⟨hnext, hrest⟩ := List.isChain_cons_cons.mp h
    rw [List.getLast?_cons_cons] at hlast
    obtain ⟨hrevision, hepoch⟩ := ih hrest hlast
    refine ⟨?_, hnext.epoch.trans hepoch⟩
    rw [hrevision, hnext.revision, List.length_cons]
    omega

theorem revisionsAfter_of_chain (h : (base :: post).IsChain Extends)
    (hlast : (base :: post).getLast? = some last) :
    revisionsAfter base.revision last.revision = post.map fun e => e.revision := by
  obtain ⟨hrevision, -⟩ := le_of_chain h hlast
  have hcount : last.revision.toNat - base.revision.toNat = post.length := by omega
  unfold revisionsAfter
  rw [hcount]
  refine List.ext_getElem ?_ ?_
  · rw [List.length_map, List.length_map, List.length_range]
  · intro i hi hi'
    rw [List.length_map] at hi'
    rw [List.getElem_map, List.getElem_map, List.getElem_range]
    have hget : (base :: post)[i + 1]? = some post[i] := List.getElem?_eq_getElem hi'
    have hnat := revision_of_chain h hget
    have hlt : base.revision.toNat + 1 + i < UInt64.size := by
      have hsize := post[i].revision.toNat_lt_size
      omega
    rw [← UInt64.toNat_inj, UInt64.toNat_ofNat_of_lt' hlt]
    omega

/-- The head of an envelope passes the checks by which later ones are served. -/
theorem servable_of_chain {head : ConfigHead} (h : (base :: post).IsChain Extends)
    (hlast : (base :: post).getLast? = some last) (hhead : head = last.head) :
    ¬ (head.revision < base.head.revision ∨ head.epoch < base.head.epoch) ∧
      ¬ (base.epoch ≠ base.head.epoch ∨ base.revision ≠ base.head.revision ∨
        base.envelopeHash ≠ base.head.hash) ∧
      revisionsAfter base.head.revision head.revision = post.map fun e => e.revision := by
  obtain ⟨hrevision, hepoch⟩ := le_of_chain h hlast
  rw [hhead]
  refine ⟨?_, by simp [EncryptedConfigEnvelope.head], revisionsAfter_of_chain h hlast⟩
  rw [not_or, not_lt, not_lt, UInt64.le_iff_toNat_le]
  refine ⟨?_, hepoch⟩
  change base.revision.toNat ≤ last.revision.toNat
  omega

theorem consecutive_of_chain (h : (base :: post).IsChain Extends)
    (hnetwork : ∀ e ∈ post, e.networkId = n) :
    Consecutive n base.revision base.envelopeHash post := by
  induction post generalizing base with
  | nil => trivial
  | cons e rest ih =>
    obtain ⟨hnext, hrest⟩ := List.isChain_cons_cons.mp h
    exact ⟨hnetwork e List.mem_cons_self, hnext.revision, hnext.previous,
      ih hrest fun x hx => hnetwork x (List.mem_cons_of_mem e hx)⟩

variable {w : Stores}

omit [Crypto] in
theorem readConfigHistory_run {es : List EncryptedConfigEnvelope} (h : ∀ e ∈ es, Retained n w e) :
    (readConfigHistory (.member n) (es.map fun e => e.revision)).run serve w =
      (.ok (es.map fun e => e.toBytes), w) := by
  induction es with
  | nil => rfl
  | cons e rest ih =>
    obtain ⟨v, hrecord⟩ := (h e List.mem_cons_self).record
    rw [List.map_cons, readConfigHistory]
    refine readExistingOr_bind_eq_ok.mpr ⟨_, hrecord, ?_⟩
    exact Task.run_bind_eq_ok.mpr ⟨_, w, ih fun x hx => h x (List.mem_cons_of_mem e hx), rfl⟩

omit [Crypto] in
theorem readConfigHistory_records {scope : StoreScope} {revisions : List UInt64} {raws : List Bytes}
    (h : (readConfigHistory scope revisions).run serve w = (.ok raws, w')) :
    ∀ raw ∈ raws, ∃ r v, w.record scope (configHistoryKey r) = some ⟨v, raw⟩ := by
  induction revisions generalizing raws w' with
  | nil =>
    obtain ⟨hraws, -⟩ := Prod.mk.inj h
    obtain rfl := Except.ok.inj hraws
    simp
  | cons revision rest ih =>
    unfold readConfigHistory at h
    obtain ⟨⟨v, bytes⟩, hrecord, h⟩ := readExistingOr_bind_eq_ok.mp h
    obtain ⟨raws', w₁, hrest, h⟩ := Task.run_bind_eq_ok.mp h
    obtain ⟨hraws, -⟩ := Prod.mk.inj h
    obtain rfl := Except.ok.inj hraws
    intro raw hraw
    rcases List.mem_cons.mp hraw with rfl | hraw
    · exact ⟨revision, v, hrecord⟩
    · exact ih hrest raw hraw

variable {handle : PersistedConfigState}

theorem updatesAfter_records {base : ConfigHead} {updates : ConfigUpdateBatch}
    (h : (handle.updatesAfter base).run serve w = (.ok updates, w')) :
    ∀ raw ∈ updates.envelopes, ∃ r v,
      w.record (.member handle.networkId) (configHistoryKey r) = some ⟨v, raw⟩ := by
  unfold PersistedConfigState.updatesAfter at h
  obtain ⟨_, -, h⟩ := Task.run_lift_bind_eq_ok.mp h
  obtain ⟨_, -, h⟩ := readExistingOr_bind_eq_ok.mp h
  obtain ⟨_, -, h⟩ := Task.run_lift_bind_eq_ok.mp h
  obtain ⟨_, -, h⟩ := Task.run_lift_bind_eq_ok.mp h
  obtain ⟨raws, w₁, hread, h⟩ := Task.run_bind_eq_ok.mp h
  have hnew := mapError_eq_ok.mp (Prod.mk.inj h).1
  obtain ⟨-, -, rfl⟩ := ConfigUpdateBatch.new_eq_ok.mp hnew
  exact readConfigHistory_records hread

theorem updatesAfter_run (hchain : (base :: post).IsChain Extends)
    (hstored : ∀ e ∈ base :: post, Retained handle.networkId w e)
    (hlast : (base :: post).getLast? = some last) (hhead : handle.head = last.head) :
    (handle.updatesAfter base.head).run serve w =
      ((ConfigUpdateBatch.new handle.networkId base.head
        (post.map fun e => e.toBytes)).mapError .config, w) := by
  have hbase : Retained handle.networkId w base := hstored base List.mem_cons_self
  have hpost : ∀ e ∈ post, Retained handle.networkId w e := fun e he =>
    hstored e (List.mem_cons_of_mem base he)
  obtain ⟨hknown, hsame, hrevisions⟩ := servable_of_chain hchain hlast hhead
  obtain ⟨v, hrecord⟩ : ∃ v, w.record (.member handle.networkId)
      (configHistoryKey base.head.revision) = some ⟨v, base.toBytes⟩ := hbase.record
  unfold PersistedConfigState.updatesAfter
  rw [failIf_neg hknown, Task.run_lift_ok_bind]
  simp only
  rw [readExistingOr_bind_run hrecord]
  simp only [VersionedBytes.bytes, hbase.parses, mapError_ok, Task.run_lift_ok_bind]
  rw [failIf_neg hsame, Task.run_lift_ok_bind, hrevisions, Task.run_bind,
    readConfigHistory_run hpost]
  rfl

end Serving

end Weaver
