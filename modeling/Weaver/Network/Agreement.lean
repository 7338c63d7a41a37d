import Weaver.Member.Tenancy

/-!
# Agreement of a network

One authority, on whose stores any processes are at work, and any number of members, each with its
own stores. Members join with tickets that the authority has handed out, open handles and apply
batches; a batch comes from the authority, from another member or from an adversary, and is applied
at any later time by anyone. The adversary's bytes are arbitrary but for signatures: what verifies
under a key that the root has certified, the authority has committed (`Unforged`).

`network_agreement` shows that no member ever holds anything but the authority's history. The
invariant has two parts: what is in transit stays unforged, and a member is outside the network or
has, since it joined, retained nothing but committed envelopes (`Belongs`).
-/

namespace Weaver

open Checked Wire Versioned Program

variable [Crypto]

/-! ## Networks -/

inductive HandsOut {manifest : Bytes} (ticket : JoinTicket) : Event (authorityApi manifest) → Prop
  | invited (join : JoinRequest) (binding : EndpointBinding) (roles : MemberRoles)
      (nowMs validForMs : UInt64) (secrets : Option EpochSecrets) (draws : SealRandomness) :
      HandsOut ticket ⟨.call (.inviteMember join binding roles nowMs validForMs secrets draws),
        Except.ok ticket⟩
  | redeemed (invitation : InvitationBundle) (prepared : PreparedJoinRequest)
      (clientAppRoot : AppRootKey) (nowMs : UInt64) (secrets : Option EpochSecrets)
      (draws : SealRandomness) :
      HandsOut ticket ⟨.call (.redeemInvitation invitation prepared clientAppRoot nowMs secrets
        draws), Except.ok ticket⟩
  | redeemedOnline (invitation : InvitationBundle) (prepared : PreparedJoinRequest)
      (nowMs : UInt64) (secrets : Option EpochSecrets) (draws : SealRandomness) :
      HandsOut ticket ⟨.call (.redeemInvitationOnline invitation prepared nowMs secrets draws),
        Except.ok ticket⟩

structure MemberState where
  stores : Stores
  handles : List PersistedConfigState
  joined : Option ConfigHead

structure Network (manifest : Bytes) (ι : Type) where
  authority : Pool (authorityApi manifest)
  members : ι → MemberState
  batches : List ConfigUpdateBatch

section Steps

variable {manifest : Bytes} {ι : Type} [DecidableEq ι]

def Network.setMember (N : Network manifest ι) (i : ι) (m : MemberState) : Network manifest ι :=
  { N with members := Function.update N.members i m }

theorem Network.setMember_self (N : Network manifest ι) (i : ι) (m : MemberState) :
    (N.setMember i m).members i = m := by
  unfold Network.setMember
  exact Function.update_self ..

/-- The bytes are no forgery: if they are an envelope whose signature verifies under a key that the
root has certified at some time, the authority has committed the envelope. -/
def Unforged (root : NetworkRootPublic) (w : Stores) (raw : Bytes) : Prop :=
  ∀ (e : EncryptedConfigEnvelope) (a : AdminCertificate) (nowMs : UInt64),
    EncryptedConfigEnvelope.fromBytes raw = .ok e → a.Verifies root root.networkId nowMs [] →
    Crypto.verify a.payload.publicKey e.signedBytes e.signature = true →
    Committed root.networkId w e

/-- One step of a network whose root is `root` and whose members have the encryption keys. -/
inductive NetworkStep (root : NetworkRootPublic) (keys : ι → MemberEncryptionKeypair)
    (N : Network manifest ι) : Network manifest ι → Prop
  | authority {P : Pool (authorityApi manifest)} : Step (anyProcess manifest) N.authority P →
      NetworkStep root keys N { N with authority := P }
  /-- A member calls `prepare_join`. -/
  | prepares (i : ι) {capabilities : MembershipStores} {roles : MemberRoles}
      {expiresAtMs : UInt64} {random : PrepareRandomness}
      {r : Except MembershipError PreparedJoinRequest} {w : Stores} :
      (prepareJoin capabilities root.networkId roles expiresAtMs random).run serve
        (N.members i).stores = (r, w) →
      NetworkStep root keys N (N.setMember i { N.members i with stores := w })
  /-- A member calls `join` with a ticket that the authority has handed out. -/
  | joins (i : ι) {event : Event (authorityApi manifest)} {ticket : JoinTicket}
      {capabilities : MembershipStores} {nowMs : UInt64} {r : Except MembershipError ConfigHead}
      {w : Stores} : event ∈ N.authority.log → HandsOut ticket event →
      (join capabilities root ticket nowMs).run serve (N.members i).stores = (r, w) →
      NetworkStep root keys N
        (N.setMember i ⟨w, (N.members i).handles, r.toOption.or (N.members i).joined⟩)
  /-- A member calls `open`. -/
  | opens (i : ι) {nowMs : UInt64} {r : Except ConfigStateError PersistedConfigState}
      {w : Stores} :
      (PersistedConfigState.open root (keys i) nowMs).run serve (N.members i).stores = (r, w) →
      NetworkStep root keys N
        (N.setMember i ⟨w, r.toOption.toList ++ (N.members i).handles, (N.members i).joined⟩)
  /-- A member calls `apply` on one of its handles, with a batch in transit. -/
  | applies (i : ι) {handle handle' : PersistedConfigState} {updates : ConfigUpdateBatch}
      {nowMs : UInt64} {r : Except ConfigStateError ConfigHead} {w : Stores} :
      handle ∈ (N.members i).handles → updates ∈ N.batches →
      (handle.applyUpdates updates nowMs).run serve (N.members i).stores = ((r, handle'), w) →
      NetworkStep root keys N
        (N.setMember i ⟨w, handle' :: (N.members i).handles, (N.members i).joined⟩)
  | fetched (base : ConfigHead) {updates : ConfigUpdateBatch} :
      ⟨.call (.configUpdatesAfter base), (.ok updates : Except AuthorityError ConfigUpdateBatch)⟩ ∈
        N.authority.log →
      NetworkStep root keys N { N with batches := updates :: N.batches }
  | served (i : ι) {handle : PersistedConfigState} {base : ConfigHead}
      {updates : ConfigUpdateBatch} {w : Stores} : handle ∈ (N.members i).handles →
      (handle.updatesAfter base).run serve (N.members i).stores = (.ok updates, w) →
      NetworkStep root keys N { N with batches := updates :: N.batches }
  | injected {updates : ConfigUpdateBatch} :
      (∀ raw ∈ updates.envelopes, Unforged root N.authority.world raw) →
      NetworkStep root keys N { N with batches := updates :: N.batches }

structure MemberState.Fresh (n : NetworkId) (m : MemberState) : Prop where
  sound : m.stores.state.Sound
  envelope : m.stores.record (.member n) configEnvelopeKey = none
  head : m.stores.record (.member n) configHeadKey = none
  history : ∀ r, m.stores.record (.member n) (configHistoryKey r) = none
  handles : m.handles = []
  joined : m.joined = none

structure Network.Initial (root : NetworkRootPublic) (w : Stores) (N : Network manifest ι) :
    Prop where
  authority : N.authority = Pool.initial _ w
  members : ∀ i, (N.members i).Fresh root.networkId
  batches : N.batches = []

end Steps

/-! ## Forgeries -/

section Unforged

variable {root : NetworkRootPublic} {w : Stores} {raw : Bytes}

theorem Committed.unforged {e : EncryptedConfigEnvelope} (h : Committed root.networkId w e) :
    Unforged root w e.toBytes := by
  intro e' a nowMs hparse _ _
  obtain rfl := Except.ok.inj (h.1.symm.trans hparse)
  exact h

theorem Unforged.later {w' : Stores} (h : Unforged root w raw)
    (hle : ∀ e, Committed root.networkId w e → Committed root.networkId w' e) :
    Unforged root w' raw :=
  fun e a nowMs hparse ha hsigned => hle e (h e a nowMs hparse ha hsigned)

theorem Applied.committed {encryption : MemberEncryptionKeypair} {nowMs : UInt64}
    {c c' : ValidatedNetworkConfig} {h h' : ConfigHead} {es : List EncryptedConfigEnvelope}
    (happlied : Applied root encryption nowMs c h es c' h')
    (hparses : ∀ e ∈ es, EncryptedConfigEnvelope.fromBytes e.toBytes = .ok e)
    (hunforged : ∀ e ∈ es, Unforged root w e.toBytes) :
    ∀ e ∈ es, Committed root.networkId w e := by
  induction happlied with
  | nil c h => simp
  | @cons c c' h h' e o rest hopen _ ih =>
    intro x hx
    rcases List.mem_cons.mp hx with rfl | hx
    · -- the signer is an administrator of the configuration before it, whom the root certified
      obtain ⟨⟨hnetwork, hcurrent⟩, ⟨a, hsigner, -, hsigned⟩, -⟩ :=
        EncryptedConfigEnvelope.openNextConfig_eq_ok.mp hopen
      have hverifies := hsigner.2.2.mono
      rw [hcurrent, ← hnetwork] at hverifies
      exact hunforged x hx x a nowMs (hparses x hx) hverifies hsigned
    · exact ih (fun e he => hparses e (List.mem_cons_of_mem _ he))
        (fun e he => hunforged e (List.mem_cons_of_mem _ he)) x hx

theorem HandsOut.genuine {manifest : Bytes} {I : Identity} {ticket : JoinTicket}
    {event : Event (authorityApi manifest)} (h : HandsOut ticket event)
    (hrecords : ∀ value, event.reply = .ok value →
      AuthorityRequest.Recorded I event.call value w) :
    Genuine I w ticket.embeddedConfig := by
  cases h with
  | invited _ _ _ _ _ _ _ => exact hrecords ticket rfl
  | redeemed _ _ _ _ _ _ => exact (hrecords ticket rfl).1.genuine
  | redeemedOnline _ _ _ _ _ => exact Redeemed.genuine (hrecords ticket rfl)

end Unforged

/-! ## One member -/

/-- What holds of a member that joined with the envelope `e`, which left the stores `w₁`: all that it
has retained since then, the authority has committed. -/
structure MemberState.Inside (root : NetworkRootPublic) (key : MemberEncryptionKeypair)
    (w : Stores) (m : MemberState) (e : EncryptedConfigEnvelope) (w₁ : Stores) : Prop where
  sound : w₁.state.Sound
  empty : ∀ r, w₁.record (.member root.networkId) (configHistoryKey r) = none
  envelope : ∃ v, w₁.record (.member root.networkId) configEnvelopeKey = some ⟨v, e.toBytes⟩
  head : ∃ v, w₁.record (.member root.networkId) configHeadKey = some ⟨v, encodeHead e.head⟩
  joined : m.joined = some e.head
  run : MemberRun root key w₁ m.handles m.stores
  committed : Committed root.networkId w e
  retained : ∀ x, Retained root.networkId m.stores x → Committed root.networkId w x

def MemberState.Belongs (root : NetworkRootPublic) (key : MemberEncryptionKeypair) (w : Stores)
    (m : MemberState) : Prop :=
  m.Fresh root.networkId ∨ ∃ e w₁, m.Inside root key w e w₁

section Member

variable {root : NetworkRootPublic} {key : MemberEncryptionKeypair} {w w' w₁ : Stores}
  {m : MemberState} {e : EncryptedConfigEnvelope} {nowMs : UInt64}

theorem MemberState.Inside.tenant (h : m.Inside root key w e w₁) :
    (m.handles = [] ∧ m.stores = w₁) ∨ Tenant root key e.revision m.handles m.stores :=
  h.run.tenant h.sound h.empty h.committed.1 h.envelope

theorem MemberState.Inside.checkpoint (h : m.Inside root key w e w₁) :
    ∃ last, Committed root.networkId w last ∧
      (∃ v, m.stores.record (.member root.networkId) configEnvelopeKey =
        some ⟨v, last.toBytes⟩) ∧
      ∃ v, m.stores.record (.member root.networkId) configHeadKey =
        some ⟨v, encodeHead last.head⟩ := by
  rcases h.tenant with ⟨-, hstores⟩ | htenant
  · rw [hstores]
    exact ⟨e, h.committed, h.envelope, h.head⟩
  · obtain ⟨_, _, last, hretains, -, hlast, henvelope, hhead⟩ := htenant.history
    have hstored := hretains.stored last (List.mem_of_getLast? hlast)
    exact ⟨last, h.retained last hstored, henvelope, hhead⟩

theorem MemberState.Inside.history (h : m.Inside root key w e w₁) {r : UInt64}
    {record : VersionedBytes}
    (hrecord : m.stores.record (.member root.networkId) (configHistoryKey r) = some record) :
    ∃ x, Committed root.networkId w x ∧ x.revision = r ∧ record.bytes = x.toBytes := by
  rcases h.tenant with ⟨-, hstores⟩ | htenant
  · rw [hstores, h.empty r] at hrecord
    cases hrecord
  · obtain ⟨_, _, _, hretains, -⟩ := htenant.history
    by_contra hnone
    -- were no envelope of the chain of this revision, there would be no record
    have hother := hretains.others r ?_
    · cases hother.symm.trans hrecord
    · intro x hx hr
      have hx := hretains.stored x hx
      obtain ⟨v, hv⟩ := hx.record
      rw [hr, hrecord] at hv
      exact hnone ⟨x, h.retained x hx, hr, congrArg Entry.value (Option.some.inj hv)⟩

theorem MemberState.Belongs.later (h : m.Belongs root key w)
    (hle : ∀ x, Committed root.networkId w x → Committed root.networkId w' x) :
    m.Belongs root key w' := by
  rcases h with h | ⟨e, w₁, h⟩
  · exact .inl h
  · exact .inr ⟨e, w₁, { h with
      committed := hle e h.committed
      retained := fun x hx => hle x (h.retained x hx) }⟩

theorem MemberState.Belongs.prepares (h : m.Belongs root key w) {capabilities : MembershipStores}
    {roles : MemberRoles} {expiresAtMs : UInt64} {random : PrepareRandomness}
    {r : Except MembershipError PreparedJoinRequest}
    (hrun : (prepareJoin capabilities root.networkId roles expiresAtMs random).run serve m.stores =
      (r, w')) : MemberState.Belongs root key w { m with stores := w' } := by
  rcases h with h | ⟨e, w₁, h⟩
  · have hlater := run_later (prepareJoin capabilities root.networkId roles expiresAtMs random)
      m.stores
    rw [show Prog.run serve _ m.stores = _ from hrun] at hlater
    have hsame : ∀ key ≠ keyPreparedJoin, w'.record (.member root.networkId) key =
        m.stores.record (.member root.networkId) key := by
      intro key hne
      have hrecord := record_of_writesOnly (prepareJoin_only capabilities root.networkId roles
        expiresAtMs random) hne (.member root.networkId) m.stores
      rw [show Prog.run serve _ m.stores = _ from hrun] at hrecord
      exact hrecord
    refine .inl ⟨hlater.2 h.sound, ?_, ?_, ?_, h.handles, h.joined⟩
    · rw [hsame _ (by decide), h.envelope]
    · rw [hsame _ (by decide), h.head]
    · intro r
      rw [hsame _ (ne_configHistoryKey (by decide) r).symm, h.history r]
  · -- there is a head, so that the call changes nothing
    obtain ⟨_, -, -, v, hhead⟩ := h.checkpoint
    rw [prepareJoin_run_joined hhead hrun]
    exact .inr ⟨e, w₁, h⟩

theorem MemberState.Belongs.joins (h : m.Belongs root key w) {capabilities : MembershipStores}
    {ticket : JoinTicket} {r : Except MembershipError ConfigHead}
    (hticket : ∃ e, Committed root.networkId w e ∧ ticket.embeddedConfig = e.toBytes)
    (hrun : (join capabilities root ticket nowMs).run serve m.stores = (r, w')) :
    MemberState.Belongs root key w ⟨w', m.handles, r.toOption.or m.joined⟩ := by
  rcases join_run_cases hrun with ⟨err, rfl, rfl⟩ | ⟨head, rfl⟩
  · exact h
  obtain ⟨e, hcommitted, hembedded⟩ := hticket
  obtain ⟨e', hparse, rfl, -, hmissing, henvelope, hhead, -, hhistory⟩ := join_records hrun
  rw [hembedded, hcommitted.1] at hparse
  obtain rfl := Except.ok.inj hparse
  rcases h with h | ⟨_, _, h⟩
  · have hempty : ∀ r, w'.record (.member root.networkId) (configHistoryKey r) = none := by
      intro r
      rw [hhistory r, h.history r]
    have hlater := run_later (join capabilities root ticket nowMs) m.stores
    rw [show Prog.run serve _ m.stores = _ from hrun] at hlater
    refine .inr ⟨e, w', hlater.2 h.sound, hempty, henvelope, hhead, rfl, ?_, hcommitted, ?_⟩
    · rw [h.handles]
      exact .joined
    · intro x hx
      obtain ⟨v, hv⟩ := hx.record
      cases (hempty _).symm.trans hv
  · -- a member that is inside has an envelope already
    obtain ⟨_, -, ⟨v, hv⟩, -⟩ := h.checkpoint
    cases hmissing.symm.trans hv

theorem MemberState.Belongs.opens (h : m.Belongs root key w)
    {r : Except ConfigStateError PersistedConfigState}
    (hrun : (PersistedConfigState.open root key nowMs).run serve m.stores = (r, w')) :
    MemberState.Belongs root key w ⟨w', r.toOption.toList ++ m.handles, m.joined⟩ := by
  rcases open_run_cases hrun with ⟨err, rfl, rfl⟩ | ⟨handle, e', a, rfl, hroot, -, hopened, hseeded⟩
  · exact h
  have hstored : m.stores.record (.member root.networkId) configEnvelopeKey =
      some ⟨handle.envelopeVersion, e'.toBytes⟩ := by
    rw [← hroot]
    exact hopened.synced.envelope
  rcases h with h | ⟨e, w₁, h⟩
  · cases h.envelope.symm.trans hstored
  · refine .inr ⟨e, w₁, { h with run := h.run.opened hrun, retained := ?_ }⟩
    -- the handle is opened on the stored envelope, which is committed
    obtain ⟨last, hlast, ⟨v, hv⟩, -⟩ := h.checkpoint
    rw [hv] at hstored
    have hbytes : last.toBytes = e'.toBytes := congrArg Entry.value (Option.some.inj hstored)
    have hparse := hlast.1
    rw [hbytes, hopened.parses] at hparse
    obtain rfl := Except.ok.inj hparse
    intro x hx
    by_cases hr : x.revision = e'.revision
    · obtain ⟨u, hu⟩ := hx.record
      obtain ⟨u', hu'⟩ := hseeded.record
      rw [hr, hu'] at hu
      have hbytes : e'.toBytes = x.toBytes := congrArg Entry.value (Option.some.inj hu)
      have hparse := hx.parses
      rw [← hbytes, hlast.1] at hparse
      obtain rfl := Except.ok.inj hparse
      exact hlast
    · refine h.retained x ⟨hx.parses, hx.network, ?_⟩
      have hne : configHistoryKey x.revision ≠ configHistoryKey e'.revision :=
        fun heq => hr (configHistoryKey_injective heq)
      rw [← hseeded.others hne]
      exact hx.record

theorem MemberState.Belongs.applies (h : m.Belongs root key w)
    {handle handle' : PersistedConfigState} {updates : ConfigUpdateBatch}
    {r : Except ConfigStateError ConfigHead} (hmem : handle ∈ m.handles)
    (hunforged : ∀ raw ∈ updates.envelopes, Unforged root w raw)
    (hrun : (handle.applyUpdates updates nowMs).run serve m.stores = ((r, handle'), w')) :
    MemberState.Belongs root key w ⟨w', handle' :: m.handles, m.joined⟩ := by
  rcases h with h | ⟨e, w₁, h⟩
  · rw [h.handles] at hmem
    cases hmem
  refine .inr ⟨e, w₁, { h with run := h.run.applied hmem hrun, retained := ?_ }⟩
  rcases applied_run_cases hrun with ⟨-, rfl⟩ | ⟨es, hraws, hupdated⟩
  · exact h.retained
  obtain ⟨hroot, -⟩ := h.run.heads handle hmem
  obtain ⟨_, _, -, hstored, -⟩ := hupdated.last
  have happlied := hupdated.applied
  rw [hroot] at happlied
  have hcommitted := happlied.committed hupdated.parses fun x hx =>
    hunforged x.toBytes (hraws ▸ List.mem_map_of_mem hx)
  have hnetwork : handle.networkId = root.networkId := congrArg NetworkRootPublic.networkId hroot
  intro x hx
  by_cases hnew : ∃ y ∈ es, y.revision = x.revision
  · obtain ⟨y, hy, hr⟩ := hnew
    obtain ⟨u, hu⟩ := hx.record
    obtain ⟨u', hu'⟩ := hstored.history y hy
    rw [PersistedConfigState.scope, hnetwork, hr, hu] at hu'
    have hbytes : x.toBytes = y.toBytes := congrArg Entry.value (Option.some.inj hu')
    have hparse := hx.parses
    rw [hbytes, hupdated.parses y hy] at hparse
    obtain rfl := Except.ok.inj hparse
    exact hcommitted y hy
  · refine h.retained x ⟨hx.parses, hx.network, ?_⟩
    have hsame := hstored.history_eq (r := x.revision) fun y hy hr => hnew ⟨y, hy, hr⟩
    rw [hnetwork] at hsame
    rw [← hsame]
    exact hx.record

end Member

/-! ## The network -/

structure Network.Inv {manifest : Bytes} {ι : Type} {R : Rules (authorityApi manifest)}
    (V : Verified R) (root : NetworkRootPublic) (keys : ι → MemberEncryptionKeypair)
    (N : Network manifest ι) : Prop where
  authority : V.Good N.authority
  members : ∀ i, (N.members i).Belongs root (keys i) N.authority.world
  batches : ∀ updates ∈ N.batches, ∀ raw ∈ updates.envelopes,
    Unforged root N.authority.world raw

section Network

variable {manifest : Bytes} {ι : Type} [DecidableEq ι] {I : Identity}
  {hI : I.Describes manifest} {root : NetworkRootPublic} {keys : ι → MemberEncryptionKeypair}
  {N N' : Network manifest ι}

abbrev networkVerified (hI : I.Describes manifest) : Verified (anyProcess manifest) :=
  authorityVerified hI (anyProcess manifest) fun _ _ h => h

theorem Network.Inv.setMember (h : N.Inv (networkVerified hI) root keys) {i : ι} {m : MemberState}
    (hm : m.Belongs root (keys i) N.authority.world) :
    (N.setMember i m).Inv (networkVerified hI) root keys := by
  refine ⟨h.authority, ?_, h.batches⟩
  intro j
  change MemberState.Belongs root (keys j) _ (Function.update N.members i m j)
  by_cases hij : j = i
  · subst hij
    rw [Function.update_self]
    exact hm
  · rw [Function.update_of_ne hij]
    exact h.members j

omit [DecidableEq ι] in
theorem Network.Inv.transit (h : N.Inv (networkVerified hI) root keys) {updates : ConfigUpdateBatch}
    (hunforged : ∀ raw ∈ updates.envelopes, Unforged root N.authority.world raw) :
    Network.Inv (networkVerified hI) root keys { N with batches := updates :: N.batches } := by
  refine ⟨h.authority, h.members, ?_⟩
  intro updates' hmem
  rcases List.mem_cons.mp hmem with rfl | hmem
  · exact hunforged
  · exact h.batches updates' hmem

theorem Network.Inv.step (hroot : root.networkId = I.network)
    (h : N.Inv (networkVerified hI) root keys) (hstep : NetworkStep root keys N N') :
    N'.Inv (networkVerified hI) root keys := by
  cases hstep with
  | @authority P hact =>
    obtain ⟨hgood, hle⟩ := h.authority.steps (.single hact)
    have hcommitted : ∀ e, Committed root.networkId N.authority.world e →
        Committed root.networkId P.world e := by
      intro e he
      rw [hroot] at he ⊢
      exact AuthorityLe.committed hle he
    exact ⟨hgood, fun i => (h.members i).later hcommitted,
      fun updates hmem raw hraw => (h.batches updates hmem raw hraw).later hcommitted⟩
  | prepares i hrun => exact h.setMember ((h.members i).prepares hrun)
  | joins i hevent hhands hrun =>
    have hgenuine := hhands.genuine (h.authority.log _ hevent)
    unfold Genuine at hgenuine
    rw [← hroot] at hgenuine
    exact h.setMember ((h.members i).joins hgenuine hrun)
  | opens i hrun => exact h.setMember ((h.members i).opens hrun)
  | applies i hmem hbatch hrun =>
    exact h.setMember ((h.members i).applies hmem (h.batches _ hbatch) hrun)
  | fetched base hevent =>
    refine h.transit ?_
    intro raw hraw
    obtain ⟨e, he, rfl⟩ := (h.authority.log _ hevent) _ rfl raw hraw
    rw [← hroot] at he
    exact he.unforged
  | @served i handle base updates w hmem hrun =>
    refine h.transit ?_
    intro raw hraw
    obtain ⟨r, v, hrecord⟩ := updatesAfter_records hrun raw hraw
    rcases h.members i with hfresh | ⟨_, _, hinside⟩
    · rw [hfresh.handles] at hmem
      cases hmem
    · obtain ⟨hroot', -⟩ := hinside.run.heads handle hmem
      rw [PersistedConfigState.networkId, hroot'] at hrecord
      obtain ⟨x, hx, -, hbytes⟩ := hinside.history hrecord
      have hunforged := hx.unforged
      rw [← hbytes] at hunforged
      exact hunforged
  | injected hunforged => exact h.transit hunforged

omit [DecidableEq ι] in
theorem NetworkStep.authority_steps [DecidableEq ι] {P : Pool (authorityApi manifest)}
    (h : Steps (anyProcess manifest) N.authority P) :
    Relation.ReflTransGen (NetworkStep root keys) N { N with authority := P } := by
  induction h with
  | refl => exact .refl
  | tail _ hstep ih => exact ih.tail (.authority hstep)

/-- What the authority's history says of a member: `network_agreement` shows it in every reachable
network. -/
structure Agrees (n : NetworkId) (w : Stores) (m : MemberState) : Prop where
  stored : ∀ record, m.stores.record (.member n) configHeadKey = some record →
    ∃ e, Committed n w e ∧ record.bytes = encodeHead e.head
  heads : ∀ handle ∈ m.handles, ∃ e, Committed n w e ∧ handle.head = e.head
  /-- Every history record is, byte for byte, the authority's record of the revision. -/
  history : ∀ r record, m.stores.record (.member n) (configHistoryKey r) = some record →
    ∃ v, w.record (.authority n) (historyKey r) = some ⟨v, record.bytes⟩
  /-- Once a handle has been opened, the history has exactly the revisions from that of the join to
  that of the stored head, and no handle is ahead of the stored head. -/
  covers : m.handles ≠ [] → ∃ (first last : ConfigHead) (v : UInt64), m.joined = some first ∧
    m.stores.record (.member n) configHeadKey = some ⟨v, encodeHead last⟩ ∧
    (∀ r, (m.stores.record (.member n) (configHistoryKey r)).isSome ↔
      first.revision ≤ r ∧ r ≤ last.revision) ∧
    ∀ handle ∈ m.handles, first.revision ≤ handle.head.revision ∧
      handle.head.revision ≤ last.revision

omit [DecidableEq ι] in
theorem MemberState.Belongs.agrees {key : MemberEncryptionKeypair} {w : Stores} {m : MemberState}
    (h : m.Belongs root key w) : Agrees root.networkId w m := by
  rcases h with h | ⟨e, w₁, h⟩
  · refine ⟨?_, ?_, ?_, ?_⟩
    · intro record hrecord
      cases h.head.symm.trans hrecord
    · simp [h.handles]
    · intro r record hrecord
      cases (h.history r).symm.trans hrecord
    · simp [h.handles]
  · have hheads : ∀ handle ∈ m.handles, ∃ x, Retained root.networkId m.stores x ∧
        handle.head = x.head := fun handle hmem => (h.run.heads handle hmem).2
    refine ⟨?_, ?_, ?_, ?_⟩
    · intro record hrecord
      obtain ⟨last, hlast, -, v, hv⟩ := h.checkpoint
      rw [hv] at hrecord
      exact ⟨last, hlast, congrArg Entry.value (Option.some.inj hrecord).symm⟩
    · intro handle hmem
      obtain ⟨x, hx, hhead⟩ := hheads handle hmem
      exact ⟨x, h.retained x hx, hhead⟩
    · intro r record hrecord
      obtain ⟨x, hx, rfl, hbytes⟩ := h.history hrecord
      rw [hbytes]
      exact hx.2
    · intro hne
      rcases h.tenant with ⟨hnil, -⟩ | htenant
      · exact absurd hnil hne
      obtain ⟨first, rest, last, hretains, hfirst, hlast, -, v, hv⟩ := htenant.history
      have hcovers := hretains.revisions hlast
      rw [hfirst] at hcovers
      refine ⟨e.head, last.head, v, h.joined, hv, hcovers, ?_⟩
      intro handle hmem
      obtain ⟨x, hx, hhead⟩ := hheads handle hmem
      obtain ⟨u, hu⟩ := hx.record
      rw [hhead]
      refine (hcovers x.revision).mp ?_
      rw [hu]
      rfl

/-- In every reachable network, whatever the authority's processes, the members and the adversary
have done, every member agrees with the authority's history. -/
theorem network_agreement {options : AuthorityInit} {random : InitRandomness}
    {init : InitializedAuthority} {w : Stores}
    (hinit : ( Authority.initialize options random).run serve Stores.empty =
      (.ok (manifest, init), w))
    (hroot : root.networkId = init.status.networkId) {N₀ N : Network manifest ι}
    (hN₀ : N₀.Initial root w) (hN : Relation.ReflTransGen (NetworkStep root keys) N₀ N) (i : ι) :
    Agrees root.networkId N.authority.world (N.members i) := by
  obtain ⟨g, hg, hnetwork⟩ := initialize_spec hinit
  have hinv : N.Inv (networkVerified hg.describes) root keys := by
    induction hN with
    | refl =>
      refine ⟨?_, fun i => .inl (hN₀.members i), ?_⟩
      · rw [hN₀.authority]
        exact Verified.good hg.inv .refl
      · rw [hN₀.batches]
        simp
    | tail _ hstep ih => exact ih.step (hroot.trans hnetwork) hstep
  exact (hinv.members i).agrees

end Network

end Weaver

namespace Weaver.Sample

open Checked Wire Versioned Program Transparent

/-- The sample authority invites the sample member, which prepares, joins with the ticket and opens a
handle. -/
theorem network_agreement_sample : ∃ N₀ N : Network manifest Unit,
    N₀.Initial root.public stores ∧
    Relation.ReflTransGen (NetworkStep root.public fun _ => memberKey) N₀ N ∧
    (∃ handle, (N.members ()).handles = [handle]) ∧
    Agrees root.public.networkId N.authority.world (N.members ()) := by
  obtain ⟨init, hinit⟩ := initialize_eq_ok
  obtain ⟨_, hlapsing⟩ := Option.isSome_iff_exists.mp lapsing_isSome
  unfold lapsing joining inviting at hlapsing
  simp only [Option.bind_eq_bind, Option.bind_eq_some_iff, Prod.exists, succeed_eq_some,
    toOption_eq_some, Option.guard_eq_some', exists_const, Option.pure_def, Option.some.injEq,
    Prod.mk.injEq] at hlapsing
  obtain ⟨_, _, _, _, ⟨_, _, _, _, ⟨prepared, -, _, h₁, w₁, hopened, ticket, h₂, w₂, hinvited,
    rfl, rfl, rfl, rfl⟩, _, w₃, hprepare, -, -, head, w₄, hjoin, -, rfl, rfl, rfl, rfl⟩, handle, w₅,
    hopen, -⟩ := hlapsing
  obtain ⟨N₀, hN₀, hmember₀⟩ : ∃ N₀ : Network manifest Unit, N₀.Initial root.public stores ∧
      N₀.members () = ⟨Stores.empty, [], none⟩ := by
    refine ⟨⟨Pool.initial _ stores, fun _ => ⟨Stores.empty, [], none⟩, []⟩, ⟨rfl, ?_, rfl⟩, rfl⟩
    intro i
    refine ⟨?_, rfl, rfl, fun _ => rfl, rfl, rfl⟩
    intro key entry hget
    cases (AList.lookup_empty (β := fun _ => Entry Bytes) key).symm.trans hget
  -- the authority opens a handle and invites the member
  obtain ⟨P, hpool, event, hevent, hhands⟩ : ∃ P, Reachable (anyProcess manifest) stores P ∧
      ∃ event ∈ P.log, HandsOut ticket event := by
    have hopens := Solo.reaches (R := anyProcess manifest) rfl hopened trivial
    exact ⟨_, hopens.trans (Solo.steps hinvited trivial), _,
      List.mem_append_right _ List.mem_cons_self, .invited _ _ _ _ _ _ _⟩
  obtain ⟨N₁, hmember₁, hlog₁, hstep₁⟩ : ∃ N₁, N₁.members () = ⟨Stores.empty, [], none⟩ ∧
      N₁.authority = P ∧
      Relation.ReflTransGen (NetworkStep root.public fun _ => memberKey) N₀ N₁ := by
    refine ⟨{ N₀ with authority := P }, hmember₀, rfl, NetworkStep.authority_steps ?_⟩
    rw [hN₀.authority]
    exact hpool
  -- the member prepares, joins and opens a handle
  obtain ⟨N₂, hmember₂, hlog₂, hstep₂⟩ : ∃ N₂, N₂.members () = ⟨w₃, [], none⟩ ∧ N₂.authority = P ∧
      NetworkStep root.public (fun _ => memberKey) N₁ N₂ := by
    have hstores : (N₁.members ()).stores = Stores.empty := congrArg MemberState.stores hmember₁
    rw [← hstores] at hprepare
    refine ⟨N₁.setMember () { N₁.members () with stores := w₃ }, ?_, hlog₁, .prepares () hprepare⟩
    rw [Network.setMember_self, hmember₁]
  obtain ⟨N₃, hmember₃, hstep₃⟩ : ∃ N₃, N₃.members () = ⟨w₄, [], some head⟩ ∧
      NetworkStep root.public (fun _ => memberKey) N₂ N₃ := by
    have hstores : (N₂.members ()).stores = w₃ := congrArg MemberState.stores hmember₂
    rw [← hstores] at hjoin
    rw [← hlog₂] at hevent
    refine ⟨_, ?_, .joins () hevent hhands hjoin⟩
    rw [Network.setMember_self, hmember₂]
    rfl
  obtain ⟨N₄, hmember₄, hstep₄⟩ : ∃ N₄, N₄.members () = ⟨w₅, [handle], some head⟩ ∧
      NetworkStep root.public (fun _ => memberKey) N₃ N₄ := by
    have hstores : (N₃.members ()).stores = w₄ := congrArg MemberState.stores hmember₃
    rw [← hstores] at hopen
    refine ⟨_, ?_, .opens () hopen⟩
    rw [Network.setMember_self, hmember₃]
    rfl
  have hsteps := ((hstep₁.tail hstep₂).tail hstep₃).tail hstep₄
  exact ⟨N₀, N₄, hN₀, hsteps, ⟨handle, congrArg MemberState.handles hmember₄⟩,
    network_agreement hinit (initialized_network hinit) hN₀ hsteps ()⟩

end Weaver.Sample
