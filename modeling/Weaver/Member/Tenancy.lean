import Weaver.Authority.Session
import Weaver.Member.Checkpoint

/-!
# Reopening a member

A member joins and then opens handles on its store and applies updates through any of them, in any
order; `MemberRun` is every state that this reaches. The invariant of such a run is `Tenant`: the
history holds the chain from the revision of the join to that of the checkpoint, and a handle whose
version of the head is still the stored one has the stored head. From it, a handle that is opened
right after a call is the one that the call left (`reopening_member`).
-/

namespace Weaver

open Checked Wire Versioned Program

variable [Crypto]

/-! ## The history along an update -/

variable {root : NetworkRootPublic} {encryption : MemberEncryptionKeypair} {first nowMs : UInt64}
  {hs : List PersistedConfigState} {w w' : Stores}
  {handle handle' : PersistedConfigState} {e : EncryptedConfigEnvelope} {a : AdminCertificate}
  {es : List EncryptedConfigEnvelope}

theorem Applied.networks {c c' : ValidatedNetworkConfig} {h h' : ConfigHead}
    (happlied : Applied root encryption nowMs c h es c' h') :
    ∀ e ∈ es, e.networkId = root.networkId := by
  induction happlied with
  | nil c h => simp
  | @cons c c' h h' e o rest hopen _ ih =>
    obtain ⟨⟨hnetwork, -⟩, -⟩ := EncryptedConfigEnvelope.openNextConfig_eq_ok.mp hopen
    intro x hx
    rcases List.mem_cons.mp hx with rfl | hx
    · exact hnetwork.symm
    · exact ih x hx

variable {new : List EncryptedConfigEnvelope} {envelope signer : Bytes} {head : ConfigHead}

theorem PersistedConfigState.Stored.history_eq (h : handle.Stored new envelope signer head w w')
    {r : UInt64} (hr : ∀ e ∈ new, e.revision ≠ r) :
    w'.record (.member handle.networkId) (configHistoryKey r) =
      w.record (.member handle.networkId) (configHistoryKey r) := by
  obtain ⟨hne₁, hne₂, hne₃⟩ := configHistoryKey_ne r
  exact h.others _ hne₁ hne₂ hne₃
    (fun e he heq => hr e he (configHistoryKey_injective heq).symm)

theorem PersistedConfigState.Stored.retained (h : handle.Stored new envelope signer head w w')
    (he : Retained handle.networkId w e) : Retained handle.networkId w' e := by
  obtain ⟨hparse, hnetwork, v, hrecord⟩ := he
  refine ⟨hparse, hnetwork, v, ?_⟩
  rw [h.history_eq, hrecord]
  intro x hx heq
  have hmissing := h.missing x hx
  rw [heq] at hmissing
  cases hmissing.symm.trans hrecord

theorem Retains.append {last : EncryptedConfigEnvelope} (h : Retains handle.networkId w es)
    (hlast : es.getLast? = some last) (hchain : (last :: new).IsChain Extends)
    (hparse : ∀ e ∈ new, EncryptedConfigEnvelope.fromBytes e.toBytes = .ok e)
    (hnetwork : ∀ e ∈ new, e.networkId = handle.networkId)
    (hstored : handle.Stored new envelope signer head w w') :
    Retains handle.networkId w' (es ++ new) := by
  refine ⟨?_, ?_, ?_⟩
  · rw [List.isChain_append]
    refine ⟨h.chain, hchain.tail, ?_⟩
    intro x hx y hy
    obtain rfl := Option.some.inj (hlast.symm.trans hx)
    cases new with
    | nil => cases hy
    | cons e rest =>
      obtain rfl := Option.some.inj hy
      exact (List.isChain_cons_cons.mp hchain).1
  · intro e he
    rcases List.mem_append.mp he with he | he
    · exact hstored.retained (h.stored e he)
    · exact ⟨hparse e he, hnetwork e he, hstored.history e he⟩
  · intro r hr
    rw [hstored.history_eq fun e he => hr e (List.mem_append_right _ he)]
    exact h.others r fun e he => hr e (List.mem_append_left _ he)

/-! ## Calls -/

/-- The handles that a member has had, and its stores, after it joined in the stores `w₁` and then
opened handles and applied updates through them. A failed call counts as well, and a handle may be
used after another one has moved on. -/
inductive MemberRun (root : NetworkRootPublic) (encryption : MemberEncryptionKeypair)
    (w₁ : Stores) : List PersistedConfigState → Stores → Prop
  | joined : MemberRun root encryption w₁ [] w₁
  /-- `open` was called. -/
  | opened {hs : List PersistedConfigState} {w w' : Stores} {nowMs : UInt64}
      {r : Except ConfigStateError PersistedConfigState} : MemberRun root encryption w₁ hs w →
      (PersistedConfigState.open root encryption nowMs).run serve w = (r, w') →
      MemberRun root encryption w₁ (r.toOption.toList ++ hs) w'
  /-- `apply` was called on one of the handles. -/
  | applied {hs : List PersistedConfigState} {w w' : Stores}
      {handle handle' : PersistedConfigState} {updates : ConfigUpdateBatch} {nowMs : UInt64}
      {r : Except ConfigStateError ConfigHead} : MemberRun root encryption w₁ hs w →
      handle ∈ hs → (handle.applyUpdates updates nowMs).run serve w = ((r, handle'), w') →
      MemberRun root encryption w₁ (handle' :: hs) w'

variable {updates : ConfigUpdateBatch}

theorem applied_run_cases {r : Except ConfigStateError ConfigHead}
    (h : (handle.applyUpdates updates nowMs).run serve w = ((r, handle'), w')) :
    (handle' = handle ∧ w' = w) ∨
      ∃ es, updates.envelopes = es.map (fun e => e.toBytes) ∧
        handle.Updated es nowMs handle' w w' := by
  rcases PersistedConfigState.applyUpdates_run.mp h with ⟨head, -, hok⟩ | ⟨err, -, hsame, herr⟩
  · rcases PersistedConfigState.apply_run_cases hok with ⟨_, hr, -⟩ | ⟨-, -, hcases⟩
    · cases hr
    rcases hcases with ⟨-, hr, hw⟩ | ⟨es, handle₁, hraws, hr, hupdated⟩
    · exact .inl ⟨(Prod.mk.inj (Except.ok.inj hr)).2, hw⟩
    · obtain ⟨-, rfl⟩ := Prod.mk.inj (Except.ok.inj hr)
      exact .inr ⟨es, hraws, hupdated⟩
  · rcases PersistedConfigState.apply_run_cases herr with ⟨_, -, hw⟩ | ⟨-, -, hcases⟩
    · exact .inl ⟨hsame, hw⟩
    rcases hcases with ⟨-, hr, -⟩ | ⟨es, handle₁, -, hr, -⟩
    · cases hr
    · cases hr

def PersistedConfigState.Held (handle : PersistedConfigState) (w : Stores) : Prop :=
  ∃ w₀ : Stores, w₀.state.Sound ∧ w₀.state.Le w.state ∧
    w₀.record handle.scope configHeadKey = some ⟨handle.headVersion, encodeHead handle.head⟩

theorem PersistedConfigState.Held.later (h : handle.Held w) (hlater : w.Later w') :
    handle.Held w' := by
  obtain ⟨w₀, hsound, hle, hrecord⟩ := h
  exact ⟨w₀, hsound, hle.trans hlater.1, hrecord⟩

theorem PersistedConfigState.Held.head_eq (h : handle.Held w) {bytes : Bytes}
    (hrecord : w.record handle.scope configHeadKey = some ⟨handle.headVersion, bytes⟩) :
    bytes = encodeHead handle.head := by
  obtain ⟨w₀, hsound, hle, hrecord₀⟩ := h
  exact congrArg Entry.value (hle.eq_of_version hsound hrecord₀ hrecord rfl)

/-- What holds of a member with a handle: the history is the chain from the revision `first` to that
of the checkpoint, and the handles are held. -/
structure Tenant (root : NetworkRootPublic) (encryption : MemberEncryptionKeypair)
    (first : UInt64) (hs : List PersistedConfigState) (w : Stores) : Prop where
  sound : w.state.Sound
  /-- The history is a chain, from the first revision to that of the stored envelope and head. -/
  history : ∃ e rest last, Retains root.networkId w (e :: rest) ∧ e.revision = first ∧
    (e :: rest).getLast? = some last ∧
    (∃ v, w.record (.member root.networkId) configEnvelopeKey = some ⟨v, last.toBytes⟩) ∧
    ∃ v, w.record (.member root.networkId) configHeadKey = some ⟨v, encodeHead last.head⟩
  handles : ∀ handle ∈ hs, handle.root = root ∧ handle.encryption = encryption ∧ handle.Held w

theorem OpenedOn.held (h : OpenedOn handle nowMs w e a) (hsound : w.state.Sound)
    (hlater : w.Later w') : handle.Held w' := by
  refine ⟨w, hsound, hlater.1, ?_⟩
  rw [h.synced.head]
  exact h.synced.head_record

theorem OpenedOn.seeded (h : OpenedOn handle nowMs w e a)
    (hseeded : Seeded handle.root.networkId w w' e.revision e.toBytes) :
    OpenedOn handle nowMs w' e a := by
  obtain ⟨hne₁, hne₂, hne₃⟩ := configHistoryKey_ne e.revision
  refine ⟨⟨?_, ?_, ?_, h.synced.head⟩, h.parses, h.network, h.signer, h.signed, h.opens⟩
  · exact (hseeded.others hne₁.symm).trans h.synced.envelope
  · exact (hseeded.others hne₂.symm).trans h.synced.head_record
  · exact (hseeded.others hne₃.symm).trans h.synced.signer_record

theorem Tenant.last_of_openedOn (h : Tenant handle.root encryption first hs w)
    (hopened : OpenedOn handle nowMs w e a) :
    ∃ e₀ rest, Retains handle.root.networkId w (e₀ :: rest) ∧ e₀.revision = first ∧
      (e₀ :: rest).getLast? = some e := by
  obtain ⟨e₀, rest, last, hretains, hfirst, hlast, ⟨v, henvelope⟩, -⟩ := h.history
  have hrecord : w.record (.member handle.root.networkId) configEnvelopeKey =
      some ⟨handle.envelopeVersion, e.toBytes⟩ := hopened.synced.envelope
  rw [henvelope] at hrecord
  have hbytes : last.toBytes = e.toBytes := congrArg Entry.value (Option.some.inj hrecord)
  have hparse := (hretains.stored last (List.mem_of_getLast? hlast)).parses
  rw [hbytes, hopened.parses] at hparse
  obtain rfl := Except.ok.inj hparse
  exact ⟨e₀, rest, hretains, hfirst, hlast⟩

theorem Tenant.seeded (h : Tenant handle.root encryption first hs w)
    (hopened : OpenedOn handle nowMs w e a) :
    ∃ v, w.record (.member handle.root.networkId) (configHistoryKey e.revision) =
      some ⟨v, e.toBytes⟩ := by
  obtain ⟨e₀, rest, hretains, -, hlast⟩ := h.last_of_openedOn hopened
  exact (hretains.stored e (List.mem_of_getLast? hlast)).record

theorem Tenant.opened (h : Tenant root encryption first hs w)
    {r : Except ConfigStateError PersistedConfigState}
    (hrun : (PersistedConfigState.open root encryption nowMs).run serve w = (r, w')) :
    Tenant root encryption first (r.toOption.toList ++ hs) w' := by
  rcases open_run_cases hrun with ⟨e, rfl, rfl⟩ | ⟨handle, e, a, rfl, rfl, hkey, hopened, hseeded⟩
  · exact h
  · obtain ⟨v, hrecord⟩ := h.seeded hopened
    obtain rfl : w' = w := by
      rcases hseeded with ⟨-, hw⟩ | ⟨hmissing, -⟩
      · exact hw
      · cases hmissing.symm.trans hrecord
    refine ⟨h.sound, h.history, ?_⟩
    intro x hx
    rcases List.mem_cons.mp hx with rfl | hx
    · exact ⟨rfl, hkey, hopened.held h.sound ⟨.refl _, id⟩⟩
    · exact h.handles x hx

theorem Tenant.updated (h : Tenant root encryption first hs w) (hmem : handle ∈ hs)
    (hlater : w.Later w') (hupdated : handle.Updated es nowMs handle' w w') :
    Tenant root encryption first (handle' :: hs) w' := by
  obtain ⟨rfl, rfl, hheld⟩ := h.handles handle hmem
  obtain ⟨last, a, hget, hstored, hsynced, -⟩ := hupdated.last
  obtain ⟨hroot', hkey'⟩ := hupdated.same
  obtain ⟨e₀, rest, last₀, hretains, hfirst, hlast₀, -, v₀, hhead₀⟩ := h.history
  have hscope' : handle'.scope = handle.scope := by
    unfold PersistedConfigState.scope PersistedConfigState.networkId
    rw [hroot']
  -- the handle's version is the stored one, so that its head is that of the last envelope
  obtain ⟨-, bytes₀, -, -, hexpected, -⟩ := hstored.expected
  have hbytes := hheld.head_eq hexpected
  have hstoredHead : w.record handle.scope configHeadKey = some ⟨v₀, encodeHead last₀.head⟩ := hhead₀
  rw [hstoredHead] at hexpected
  have hsame : encodeHead last₀.head = bytes₀ :=
    congrArg Entry.value (Option.some.inj hexpected)
  have hhead : handle.head = last₀.head := encodeHead_injective (hbytes.symm.trans hsame.symm)
  have happended := hretains.append hlast₀ (hupdated.applied.chain hhead) hupdated.parses
    hupdated.applied.networks hstored
  refine ⟨hlater.2 h.sound, ⟨e₀, rest ++ es, last, happended, hfirst, ?_,
    hstored.envelope, hstored.head⟩, ?_⟩
  · rw [← List.cons_append, List.getLast?_append_of_ne_nil _ hupdated.nonempty, hget]
  · intro x hx
    rcases List.mem_cons.mp hx with rfl | hx
    · refine ⟨hroot', hkey', w', hlater.2 h.sound, .refl _, ?_⟩
      rw [hsynced.head]
      exact hsynced.head_record
    · obtain ⟨hroot, hkey, hheld⟩ := h.handles x hx
      exact ⟨hroot, hkey, hheld.later hlater⟩

theorem Tenant.applied (h : Tenant root encryption first hs w) (hmem : handle ∈ hs)
    {r : Except ConfigStateError ConfigHead}
    (hrun : (handle.applyUpdates updates nowMs).run serve w = ((r, handle'), w')) :
    Tenant root encryption first (handle' :: hs) w' := by
  have hsame : Tenant root encryption first (handle :: hs) w := by
    refine ⟨h.sound, h.history, ?_⟩
    intro x hx
    rcases List.mem_cons.mp hx with rfl | hx
    · exact h.handles x hmem
    · exact h.handles x hx
  have hlater : w.Later w' := by
    have hrun' := run_later (handle.applyUpdates updates nowMs) w
    rw [hrun] at hrun'
    exact hrun'
  rcases applied_run_cases hrun with ⟨rfl, rfl⟩ | ⟨es, -, hupdated⟩
  · exact hsame
  · exact h.updated hmem hlater hupdated

theorem Tenant.of_first (hsound : w.state.Sound)
    (hempty : ∀ r, w.record (.member handle.root.networkId) (configHistoryKey r) = none)
    (hopened : OpenedOn handle nowMs w e a) (hlater : w.Later w')
    (hseeded : Seeded handle.root.networkId w w' e.revision e.toBytes) :
    Tenant handle.root handle.encryption e.revision [handle] w' := by
  have hafter := hopened.seeded hseeded
  refine ⟨hlater.2 hsound, ⟨e, [], e, ⟨.singleton e, ?_, ?_⟩, rfl, rfl,
    ⟨_, hafter.synced.envelope⟩, ⟨_, hafter.synced.head_record⟩⟩, ?_⟩
  · intro x hx
    obtain rfl := List.mem_singleton.mp hx
    exact ⟨hopened.parses, hopened.network, hseeded.record⟩
  · intro r hr
    have hne : configHistoryKey r ≠ configHistoryKey e.revision := fun heq =>
      hr e List.mem_cons_self (configHistoryKey_injective heq).symm
    rw [hseeded.others hne, hempty r]
  · intro x hx
    obtain rfl := List.mem_singleton.mp hx
    exact ⟨rfl, rfl, hopened.held hsound hlater⟩

/-! ## Joining -/

variable {stores : MembershipStores} {ticket : JoinTicket}

theorem join_records (h : (join stores root ticket nowMs).run serve w = (.ok head, w')) :
    ∃ e, EncryptedConfigEnvelope.fromBytes ticket.embeddedConfig = .ok e ∧ head = e.head ∧
      e.toBytes.length ≤ maxValueLen ∧
      w.record (.member root.networkId) configEnvelopeKey = none ∧
      (∃ v, w'.record (.member root.networkId) configEnvelopeKey = some ⟨v, e.toBytes⟩) ∧
      (∃ v, w'.record (.member root.networkId) configHeadKey = some ⟨v, encodeHead e.head⟩) ∧
      (∃ v, w'.record (.member root.networkId) configSignerCertificateKey =
        some ⟨v, ticket.adminCertificate⟩) ∧
      ∀ r, w'.record (.member root.networkId) (configHistoryKey r) =
        w.record (.member root.networkId) (configHistoryKey r) := by
  obtain ⟨-, record, prepared, key, a, m, b, e, c, -, -, hjoins, rfl, batch, version, hbatch,
    hcommit, -⟩ := join_eq_ok.mp h
  obtain ⟨⟨hlen, -, -, -⟩, hscope, hops⟩ := joinBatch_eq_ok.mp hbatch
  have hembedded := EncryptedConfigEnvelope.toBytes_of_fromBytes hjoins.ticket.envelope
  have hparse := hjoins.ticket.envelope
  rw [← hembedded] at hlen
  -- the three records of the checkpoint are among the writes
  have hput : ∀ key value expected,
      .put key value expected ∈ joinOperations ticket e.head record.version →
      (∃ v, w'.record (.member root.networkId) key = some ⟨v, value⟩) ∧
        expected.Holds (w.state.version (.member root.networkId, key)) := by
    intro key value expected hmem
    rw [← hops] at hmem
    have hrecord := Stores.record_of_put hcommit hmem
    have hholds := Stores.expected_of_commit hcommit hmem
    rw [hscope] at hrecord hholds
    exact ⟨hrecord, hholds⟩
  obtain ⟨hrecord₁, hmissing⟩ := hput configEnvelopeKey _ _ List.mem_cons_self
  obtain ⟨hrecord₂, -⟩ := hput configHeadKey _ _ (List.mem_cons_of_mem _ List.mem_cons_self)
  obtain ⟨hrecord₃, -⟩ := hput configSignerCertificateKey _ _
    (List.mem_cons_of_mem _ (List.mem_cons_of_mem _ List.mem_cons_self))
  rw [← hembedded] at hrecord₁
  refine ⟨e, hparse, rfl, hlen, Stores.record_of_missing hmissing, hrecord₁, hrecord₂, hrecord₃, ?_⟩
  intro r
  rw [← hscope]
  refine Stores.record_of_other hcommit ?_
  intro op hop
  rw [hops] at hop
  -- no key of the writes has the length of a history key
  have hkeys : ∀ key ∈ [configEnvelopeKey, configHeadKey, configSignerCertificateKey,
      keyMemberCertificate, keyEndpointBinding, keyPreparedJoin], key.asBytes.length ≠ 26 := by
    decide
  have hmem : op.key ∈ (joinOperations ticket e.head record.version).map Operation.key :=
    List.mem_map_of_mem hop
  exact ne_configHistoryKey (hkeys op.key hmem) r

theorem join_openedOn (hkey : w.secrets.open (memberSecretId root.networkId "member-encryption") =
      .ok encryption.secretBytes.val)
    (h : (join stores root ticket nowMs).run serve w = (.ok head, w')) :
    ∃ handle e a, handle.root = root ∧ handle.encryption = encryption ∧ handle.head = head ∧
      OpenedOn handle nowMs w' e a ∧ ticket.embeddedConfig = e.toBytes ∧
      e.toBytes.length ≤ maxValueLen ∧
      ∀ r, w'.record (.member root.networkId) (configHistoryKey r) =
        w.record (.member root.networkId) (configHistoryKey r) := by
  obtain ⟨e, hparse, rfl, hlen, -, ⟨v₁, hrecord₁⟩, ⟨v₂, hrecord₂⟩, ⟨v₃, hrecord₃⟩, hhistory⟩ :=
    join_records h
  obtain ⟨-, record, prepared, key, a, m, b, e', c, -, -, hjoins, -⟩ := join_eq_ok.mp h
  obtain rfl := Except.ok.inj (hparse.symm.trans hjoins.ticket.envelope)
  obtain rfl : key = encryption := by
    refine MemberEncryptionKeypair.eq_of_secretBytes (Subtype.ext ?_)
    exact Except.ok.inj (hjoins.encryption.1.symm.trans hkey)
  have hembedded := EncryptedConfigEnvelope.toBytes_of_fromBytes hparse
  rw [← hembedded] at hparse
  obtain ⟨hcertificate, hverifies⟩ := hjoins.ticket.admin
  rw [hcertificate] at hrecord₃
  obtain ⟨v, hv⟩ : ∃ v : ValidatedNetworkConfig, v.asConfig = c :=
    ⟨⟨c, root, e.networkId, nowMs, NetworkConfigV1.check_eq_ok.mpr hjoins.opens.valid⟩, rfl⟩
  refine ⟨⟨root, key, v, e.head, v₁, v₂, v₃⟩, e, a, rfl, rfl, rfl, ⟨⟨hrecord₁, hrecord₂, hrecord₃,
    rfl⟩, hparse, hjoins.ticket.header.1, hverifies, hjoins.signer, ?_⟩, hembedded.symm, hlen,
    hhistory⟩
  rw [hv]
  exact hjoins.opens

/-! ## Runs -/

theorem MemberRun.tenant {w₁ : Stores} (hsound : w₁.state.Sound)
    (hempty : ∀ r, w₁.record (.member root.networkId) (configHistoryKey r) = none)
    (hparse : EncryptedConfigEnvelope.fromBytes e.toBytes = .ok e)
    (hrecord : ∃ v, w₁.record (.member root.networkId) configEnvelopeKey = some ⟨v, e.toBytes⟩)
    (h : MemberRun root encryption w₁ hs w) :
    (hs = [] ∧ w = w₁) ∨ Tenant root encryption e.revision hs w := by
  induction h with
  | joined => exact .inl ⟨rfl, rfl⟩
  | @opened hs w w' now r _ hrun ih =>
    rcases ih with ⟨rfl, rfl⟩ | ih
    · have hlater : w.Later w' := by
        have hrun' := run_later (PersistedConfigState.open root encryption now) w
        rw [show Prog.run serve _ w = _ from hrun] at hrun'
        exact hrun'
      rcases open_run_cases hrun with ⟨err, rfl, rfl⟩ |
        ⟨handle', e', a', rfl, rfl, rfl, hopened', hseeded⟩
      · exact .inl ⟨rfl, rfl⟩
      · -- the handle is opened on the stored envelope
        obtain ⟨v, hstored⟩ := hrecord
        have hstored' : w.record (.member handle'.root.networkId) configEnvelopeKey =
            some ⟨handle'.envelopeVersion, e'.toBytes⟩ := hopened'.synced.envelope
        rw [hstored] at hstored'
        have hbytes : e.toBytes = e'.toBytes := congrArg Entry.value (Option.some.inj hstored')
        rw [hbytes, hopened'.parses] at hparse
        obtain rfl := Except.ok.inj hparse
        exact .inr (.of_first hsound hempty hopened' hlater hseeded)
    · exact .inr (ih.opened hrun)
  | @applied hs w w' handle₁ handle' updates now r _ hmem hrun ih =>
    rcases ih with ⟨rfl, -⟩ | ih
    · cases hmem
    · exact .inr (ih.applied hmem hrun)

omit [Crypto] in
theorem Seeded.retained {n : NetworkId} {revision : UInt64} (h : Seeded n w w' revision envelope)
    (he : Retained n w e) :
    Retained n w' e := by
  obtain ⟨hparse, hnetwork, v, hrecord⟩ := he
  refine ⟨hparse, hnetwork, v, ?_⟩
  rcases h with ⟨-, rfl⟩ | ⟨hmissing, hcommit⟩
  · exact hrecord
  · have hne : configHistoryKey e.revision ≠ configHistoryKey revision := by
      intro heq
      rw [heq, hmissing] at hrecord
      cases hrecord
    rw [Seeded.others (.inr ⟨hmissing, hcommit⟩) hne, hrecord]

theorem MemberRun.heads {w₁ : Stores} (h : MemberRun root encryption w₁ hs w) :
    ∀ handle ∈ hs, handle.root = root ∧
      ∃ e, Retained root.networkId w e ∧ handle.head = e.head := by
  induction h with
  | joined => simp
  | @opened hs w w' now r _ hrun ih =>
    rcases open_run_cases hrun with ⟨err, rfl, rfl⟩ | ⟨handle', e, a, rfl, hroot, -, hopened, hseeded⟩
    · exact ih
    intro handle hmem
    rcases List.mem_cons.mp hmem with rfl | hmem
    · refine ⟨hroot, e, ⟨hopened.parses, ?_, hseeded.record⟩, hopened.synced.head⟩
      rw [← hroot]
      exact hopened.network
    · obtain ⟨hroot, x, hx, hhead⟩ := ih handle hmem
      exact ⟨hroot, x, hseeded.retained hx, hhead⟩
  | @applied hs w w' handle₁ handle' updates now r _ hmem hrun ih =>
    have hsame : ∀ handle ∈ handle₁ :: hs, handle.root = root ∧
        ∃ e, Retained root.networkId w e ∧ handle.head = e.head := by
      intro handle hhandle
      rcases List.mem_cons.mp hhandle with rfl | hhandle
      · exact ih handle hmem
      · exact ih handle hhandle
    rcases applied_run_cases hrun with ⟨rfl, rfl⟩ | ⟨es, -, hupdated⟩
    · exact hsame
    · obtain ⟨rfl, -⟩ := ih handle₁ hmem
      obtain ⟨last, a, hget, hstored, hsynced, -⟩ := hupdated.last
      have hlast := List.mem_of_getLast? hget
      intro handle hhandle
      rcases List.mem_cons.mp hhandle with rfl | hhandle
      · exact ⟨hupdated.same.1, last, ⟨hupdated.parses last hlast,
          hupdated.applied.networks last hlast, hstored.history last hlast⟩, hsynced.head⟩
      · obtain ⟨hroot, x, hx, hhead⟩ := ih handle hhandle
        exact ⟨hroot, x, hstored.retained hx, hhead⟩

theorem PersistedConfigState.Updated.openedOn (h : handle.Updated es nowMs handle' w w') :
    ∃ e a, OpenedOn handle' nowMs w' e a := by
  obtain ⟨last, a, hget, -, hsynced, c₀, h₀, hopen, hlisted, hid⟩ := h.last
  obtain ⟨hroot, hkey⟩ := h.same
  obtain ⟨⟨hnetwork, hconfig⟩, ⟨a', hsigner, hpermission, hsignature⟩, -, hopens, -⟩ :=
    EncryptedConfigEnvelope.openNextConfig_eq_ok.mp hopen
  obtain ⟨hlisted', hid', hverifies⟩ := hsigner
  -- the stored certificate is that of the signer
  obtain rfl := ValidatedNetworkConfig.listed_admin_unique hlisted' hlisted (hid'.trans hid.symm)
  have hparse := h.parses last (List.mem_of_getLast? hget)
  have hcurrent : c₀.asConfig.networkId = handle.root.networkId := hconfig.trans hnetwork.symm
  rw [hcurrent] at hverifies
  refine ⟨last, a', hsynced, hparse, ?_, ?_, ⟨hid.symm, hpermission, hsignature⟩, ?_⟩
  · rw [hroot]
    exact hnetwork.symm
  · rw [hroot]
    exact { hverifies with unrevoked := List.not_mem_nil }
  · rw [hroot, hkey]
    exact hopens

/-- Opening at the time returns the handle. In the state that it leaves, the history holds the
revisions from `first` to that of the head, and `updates_after` of the head is empty. -/
def Reopens (root : NetworkRootPublic) (encryption : MemberEncryptionKeypair)
    (first nowMs : UInt64) (w : Stores) (handle : PersistedConfigState) : Prop :=
  ∃ w', (PersistedConfigState.open root encryption nowMs).run serve w = (.ok handle, w') ∧
    (∀ r, (w'.record (.member root.networkId) (configHistoryKey r)).isSome ↔
      first ≤ r ∧ r ≤ handle.head.revision) ∧
    (∀ r record, w'.record (.member root.networkId) (configHistoryKey r) = some record →
      ∃ e, EncryptedConfigEnvelope.fromBytes record.bytes = .ok e ∧
        e.networkId = root.networkId ∧ e.revision = r) ∧
    (handle.head.revision.toNat + 1 < 2^64 →
      (handle.updatesAfter handle.head).run serve w' =
        (.ok ⟨root.networkId, handle.head, []⟩, w'))

theorem Retains.of_record {n : NetworkId} (h : Retains n w es) {r : UInt64}
    {record : VersionedBytes} (hrecord : w.record (.member n) (configHistoryKey r) = some record) :
    ∃ e ∈ es, e.revision = r ∧ record.bytes = e.toBytes := by
  by_contra hnone
  push Not at hnone
  have hother : ∀ e ∈ es, e.revision ≠ r := by
    intro e he heq
    obtain ⟨v, hstored⟩ := (h.stored e he).record
    rw [heq, hrecord] at hstored
    exact hnone e he heq (congrArg Entry.value (Option.some.inj hstored))
  cases (h.others r hother).symm.trans hrecord

theorem Tenant.reopens (h : Tenant handle.root handle.encryption first hs w')
    (hopened : OpenedOn handle nowMs w e a)
    (hseeded : Seeded handle.root.networkId w w' e.revision e.toBytes) :
    Reopens handle.root handle.encryption first nowMs w handle := by
  obtain ⟨e₀, rest, hretains, rfl, hlast⟩ := h.last_of_openedOn (hopened.seeded hseeded)
  have hhead : handle.head = e.head := hopened.synced.head
  refine ⟨w', open_of_openedOn hopened hseeded, ?_, ?_, ?_⟩
  · intro r
    rw [hhead]
    exact hretains.revisions hlast r
  · intro r record hrecord
    obtain ⟨x, hx, hrevision, hbytes⟩ := hretains.of_record hrecord
    rw [hbytes]
    exact ⟨x, (hretains.stored x hx).parses, (hretains.stored x hx).network, hrevision⟩
  · intro hroom
    -- the handle's envelope is in the history, and nothing comes after its head
    have hstored : ∀ x ∈ [e], Retained handle.networkId w' x := by
      intro x hx
      obtain rfl := List.mem_singleton.mp hx
      exact hretains.stored x (List.mem_of_getLast? hlast)
    have hrun := updatesAfter_run (.singleton e) hstored rfl hhead
    rw [hhead] at hroom ⊢
    have hes : Consecutive handle.networkId e.head.revision e.head.hash [] := trivial
    have hnew := ConfigUpdateBatch.new_consecutive (by simp) hes hroom
    rw [hrun]
    change (Except.mapError _ (ConfigUpdateBatch.new handle.networkId e.head
      (List.map (fun x : EncryptedConfigEnvelope => x.toBytes) [])), w') = _
    rw [hnew]
    rfl

/-- Reopening a member, with no other writer and no failure of the backend. A member joins in a store
without a history, with the encryption key that its secret store holds, and then opens handles and
applies updates through them. Right after the join, while one more batch can be committed, opening
at the time of the join returns the head of the join and the configuration of its ticket. Right
after a call that opened a handle, or that applied updates of which there was at least one, opening
at the time of the call returns the handle that the call left. -/
theorem reopening_member {stores : MembershipStores} {root : NetworkRootPublic}
    {ticket : JoinTicket} {joinedMs : UInt64} {joinedHead : ConfigHead} {w₀ w₁ : Stores}
    {encryption : MemberEncryptionKeypair} (hsound : w₀.state.Sound)
    (hempty : ∀ r, w₀.record (.member root.networkId) (configHistoryKey r) = none)
    (hkey : w₀.secrets.open (memberSecretId root.networkId "member-encryption") =
      .ok encryption.secretBytes.val)
    (hjoin : (join stores root ticket joinedMs).run serve w₀ = (.ok joinedHead, w₁)) :
    (w₁.state.HasRoom 1 → ∃ handle e, handle.head = joinedHead ∧
      EncryptedConfigEnvelope.fromBytes ticket.embeddedConfig = .ok e ∧
      e.OpensTo root encryption joinedMs handle.config.asConfig ∧
      Reopens root encryption joinedHead.revision joinedMs w₁ handle) ∧
    ∀ hs w, MemberRun root encryption w₁ hs w →
      (∀ nowMs handle w',
        (PersistedConfigState.open root encryption nowMs).run serve w = (.ok handle, w') →
        Reopens root encryption joinedHead.revision nowMs w' handle) ∧
      ∀ handle ∈ hs, ∀ updates nowMs head handle' w',
        (handle.applyUpdates updates nowMs).run serve w = ((.ok head, handle'), w') →
        updates.envelopes ≠ [] →
        handle'.head = head ∧ Reopens root encryption joinedHead.revision nowMs w' handle' := by
  obtain ⟨handle₁, e₁, a₁, rfl, rfl, rfl, hopened₁, hembedded, hlen, hhistory⟩ :=
    join_openedOn hkey hjoin
  have hlater₁ : w₀.Later w₁ := by
    have hrun := run_later (join stores handle₁.root ticket joinedMs) w₀
    rw [show Prog.run serve _ w₀ = _ from hjoin] at hrun
    exact hrun
  have hempty₁ : ∀ r, w₁.record (.member handle₁.root.networkId) (configHistoryKey r) = none :=
    fun r => (hhistory r).trans (hempty r)
  have hrevision : handle₁.head.revision = e₁.revision := by
    rw [hopened₁.synced.head]
    rfl
  rw [hrevision]
  constructor
  · intro hroom
    obtain ⟨w₂, hseeded⟩ := exists_seeded hlen (hempty₁ e₁.revision) hroom
    have hlater₂ : w₁.Later w₂ := by
      have hrun := run_later (PersistedConfigState.open handle₁.root handle₁.encryption joinedMs) w₁
      rw [show Prog.run serve _ w₁ = _ from open_of_openedOn hopened₁ hseeded] at hrun
      exact hrun
    have htenant := Tenant.of_first (hlater₁.2 hsound) hempty₁ hopened₁ hlater₂ hseeded
    refine ⟨handle₁, e₁, rfl, ?_, hopened₁.opens, htenant.reopens hopened₁ hseeded⟩
    rw [hembedded]
    exact hopened₁.parses
  · intro hs w hrun
    have hinv := hrun.tenant (hlater₁.2 hsound) hempty₁ hopened₁.parses
      ⟨_, hopened₁.synced.envelope⟩
    constructor
    · intro nowMs handle w' hopen
      -- the member is a tenant after the call
      have hafter := (MemberRun.opened hrun hopen).tenant (hlater₁.2 hsound) hempty₁
        hopened₁.parses ⟨_, hopened₁.synced.envelope⟩
      rcases hafter with ⟨hnil, -⟩ | htenant
      · cases hnil
      rcases open_run_cases hopen with ⟨_, hr, -⟩ | ⟨_, e, a, hr, hroot, hkey, hopened, hseeded⟩
      · cases hr
      obtain rfl := Except.ok.inj hr
      rw [← hroot, ← hkey] at htenant ⊢
      rw [← hroot] at hseeded
      exact htenant.reopens (hopened.seeded hseeded) (.inl ⟨hseeded.record, rfl⟩)
    · intro handle hmem updates nowMs head handle' w' happly hne
      rcases hinv with ⟨rfl, -⟩ | htenant
      · cases hmem
      obtain ⟨hroot, hkey, -⟩ := htenant.handles handle hmem
      have htenant' := htenant.applied hmem happly
      obtain ⟨head', hhead', hok⟩ | ⟨_, hr, -⟩ := PersistedConfigState.applyUpdates_run.mp happly
      · obtain rfl := Except.ok.inj hhead'
        rcases PersistedConfigState.apply_run_cases hok with ⟨_, hr, -⟩ | ⟨-, -, hcases⟩
        · cases hr
        rcases hcases with ⟨hnil, -⟩ | ⟨es, _, -, hr, hupdated⟩
        · exact absurd hnil hne
        obtain ⟨rfl, rfl⟩ := Prod.mk.inj (Except.ok.inj hr)
        obtain ⟨e, a, hopened⟩ := hupdated.openedOn
        refine ⟨rfl, ?_⟩
        rw [← hroot, ← hkey, ← hupdated.same.1, ← hupdated.same.2] at htenant' ⊢
        exact htenant'.reopens hopened (.inl ⟨htenant'.seeded hopened, rfl⟩)
      · cases hr

end Weaver

namespace Weaver.Sample

open Checked Wire Versioned Program Transparent

def succeed {ε α : Type} (x : StoreTask ε α) (w : Stores) : Option (α × Stores) :=
  match x.run serve w with
  | (.ok a, w') => some (a, w')
  | (.error _, _) => none

theorem succeed_eq_some {ε α : Type} {x : StoreTask ε α} {w w' : Stores} {a : α} :
    succeed x w = some (a, w') ↔ x.run serve w = (.ok a, w') := by
  unfold succeed
  rcases x.run serve w with ⟨_ | b, w₁⟩ <;> simp

def memberStores : MembershipStores := ⟨true, true, false, false⟩

def memberKey : MemberEncryptionKeypair := ⟨fill 41, fill 41, rfl, rfl⟩

def memberDraws : PrepareRandomness := ⟨some (fill 40), memberKey, fill 42, some (fill 43)⟩

/-- The sample member prepares and joins with the ticket of the sample authority: the ticket, the
stores before the join, the head and the stores after it. -/
def joining : Option (JoinTicket × Stores × ConfigHead × Stores) := do
  let (_, ticket, _) ← inviting
  let (_, w₀) ← succeed (prepareJoin memberStores root.public.networkId .member 50000 memberDraws)
    Stores.empty
  guard (∀ key ∈ w₀.state.records.keys, key.2.asBytes.length ≠ 26)
  guard (w₀.secrets.open (memberSecretId root.public.networkId "member-encryption") =
    .ok memberKey.secretBytes.val)
  let (head, w₁) ← succeed (join memberStores root.public ticket 1100) w₀
  guard (w₁.state.nextRecord.toNat + 1 < 2^64 ∧ w₁.state.nextCommit.toNat + 1 < 2^64)
  return (ticket, w₀, head, w₁)

/-- The sample member opens a handle, and applies no updates once its configuration has expired:
the handle, and the stores before and after it was opened. -/
def lapsing : Option (JoinTicket × Stores × ConfigHead × Stores × PersistedConfigState × Stores) :=
  do
  let (ticket, w₀, head, w₁) ← joining
  let (handle, w) ← succeed (PersistedConfigState.open root.public memberKey 1100) w₁
  guard (((PersistedConfigState.open root.public memberKey 200000).run serve w).1.isOk = false)
  return (ticket, w₀, head, w₁, handle, w)

set_option maxRecDepth 100000 in
theorem lapsing_isSome : lapsing.isSome = true := by decide +kernel

theorem joining_isSome : joining.isSome = true := by
  obtain ⟨_, h⟩ := Option.isSome_iff_exists.mp lapsing_isSome
  unfold lapsing at h
  obtain ⟨_, hjoining, -⟩ := Option.bind_eq_some_iff.mp h
  rw [hjoining]
  rfl

theorem history_eq_none {w : Stores}
    (hkeys : ∀ key ∈ w.state.records.keys, key.2.asBytes.length ≠ 26) (n : NetworkId) (r : UInt64) :
    w.record (.member n) (configHistoryKey r) = none := by
  refine AList.lookup_eq_none.mpr ?_
  intro hmem
  exact hkeys _ (AList.mem_keys.mpr hmem) (configHistoryKey_length r)

theorem joining_spec {ticket : JoinTicket} {w₀ w₁ : Stores} {head : ConfigHead}
    (h : joining = some (ticket, w₀, head, w₁)) :
    w₀.state.Sound ∧
      (∀ r, w₀.record (.member root.public.networkId) (configHistoryKey r) = none) ∧
      w₀.secrets.open (memberSecretId root.public.networkId "member-encryption") =
        .ok memberKey.secretBytes.val ∧
      (join memberStores root.public ticket 1100).run serve w₀ = (.ok head, w₁) ∧
      w₁.state.HasRoom 1 := by
  unfold joining at h
  simp only [Option.bind_eq_bind, Option.bind_eq_some_iff, Prod.exists, succeed_eq_some,
    Option.guard_eq_some', exists_const, Option.pure_def, Option.some.injEq, Prod.mk.injEq] at h
  obtain ⟨_, _, _, _, -, _, _, hprepare, hkeys, hkey, _, _, hjoin, hroom, rfl, rfl, rfl, rfl⟩ := h
  refine ⟨?_, history_eq_none hkeys _, hkey, hjoin, hroom.1, hroom.2⟩
  -- the store before the join comes after the empty one
  have hlater := run_later (prepareJoin memberStores root.public.networkId .member 50000
    memberDraws) Stores.empty
  rw [show Prog.run serve _ Stores.empty = _ from hprepare] at hlater
  refine hlater.2 ?_
  intro key entry hget
  cases (AList.lookup_empty (β := fun _ => Entry Bytes) key).symm.trans hget

/-- The sample member is reopened right after its join. -/
theorem reopening_member_sample : ∃ (ticket : JoinTicket) (w₀ w₁ : Stores) (head : ConfigHead)
    (handle : PersistedConfigState),
    (join memberStores root.public ticket 1100).run serve w₀ = (.ok head, w₁) ∧
      handle.head = head ∧ Reopens root.public memberKey head.revision 1100 w₁ handle := by
  obtain ⟨⟨ticket, w₀, head, w₁⟩, hjoining⟩ := Option.isSome_iff_exists.mp joining_isSome
  obtain ⟨hsound, hempty, hkey, hjoin, hroom⟩ := joining_spec hjoining
  obtain ⟨handle, e, hhead, -, -, hreopens⟩ :=
    (reopening_member hsound hempty hkey hjoin).1 hroom
  exact ⟨ticket, w₀, w₁, head, handle, hjoin, hhead, hreopens⟩

/-- A batch without updates is applied successfully at a time when no handle can be opened. -/
theorem reopening_after_no_updates : ∃ (ticket : JoinTicket) (w₀ w₁ w : Stores) (head : ConfigHead)
    (handle : PersistedConfigState) (updates : ConfigUpdateBatch),
    (join memberStores root.public ticket 1100).run serve w₀ = (.ok head, w₁) ∧
      MemberRun root.public memberKey w₁ [handle] w ∧
      (handle.applyUpdates updates 200000).run serve w = ((.ok handle.head, handle), w) ∧
      ∀ handle' w', (PersistedConfigState.open root.public memberKey 200000).run serve w ≠
        (.ok handle', w') := by
  obtain ⟨_, hlapsing⟩ := Option.isSome_iff_exists.mp lapsing_isSome
  unfold lapsing at hlapsing
  simp only [Option.bind_eq_bind, Option.bind_eq_some_iff, Prod.exists, succeed_eq_some,
    Option.guard_eq_some', exists_const] at hlapsing
  obtain ⟨ticket, w₀, head, w₁, hjoining, handle, w, hopen, hfails, -⟩ := hlapsing
  obtain ⟨-, -, -, hjoin, -⟩ := joining_spec hjoining
  refine ⟨ticket, w₀, w₁, w, head, handle, ⟨handle.networkId, handle.head, []⟩, hjoin,
    .opened .joined hopen, ?_, ?_⟩
  · refine PersistedConfigState.applyUpdates_run.mpr (.inl ⟨handle.head, rfl, ?_⟩)
    unfold PersistedConfigState.apply
    rw [failIf_neg (by simp), Task.run_lift_ok_bind]
    rfl
  · intro handle' w' hrun
    rw [hrun] at hfails
    cases hfails

end Weaver.Sample
