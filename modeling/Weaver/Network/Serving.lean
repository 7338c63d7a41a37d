import Weaver.Authority.Progress
import Weaver.Member.Joinable

/-!
# Serving updates

The authority (`config_updates_after`) and every member (`updates_after`) serve the envelopes that
follow a head: all of them up to their own head, in one batch. `ServesAfter` says what that comes
to, for a history that holds the envelopes of all revisions in question: the reply is the whole rest
of the chain, and there is one only if the rest fits into a batch. `catch_up_served` shows it of
every session of the authority and of every run of a member.
-/

namespace Weaver

open Checked Wire Versioned Program

variable [Crypto]

/-! ## What fits into a batch -/

omit [Crypto] in
/-- The envelopes after the base fit into one batch: they are not too many and not too long, and
there is a revision after the last one. -/
def FitsBatch (base : EncryptedConfigEnvelope) (post : List EncryptedConfigEnvelope) : Prop :=
  post.length ≤ maxUpdateEnvelopes ∧ totalBytes post ≤ maxUpdateBatchBytes ∧
    base.revision.toNat + post.length + 1 < 2^64

theorem new_eq_ok_of_chain {n : NetworkId} {base : EncryptedConfigEnvelope}
    {post : List EncryptedConfigEnvelope} (hchain : (base :: post).IsChain Extends)
    (hparse : ∀ e ∈ post, EncryptedConfigEnvelope.fromBytes e.toBytes = .ok e)
    (hnetwork : ∀ e ∈ post, e.networkId = n) {b : ConfigUpdateBatch} :
    ConfigUpdateBatch.new n base.head (post.map fun e => e.toBytes) = .ok b ↔
      FitsBatch base post ∧ b = ⟨n, base.head, post.map fun e => e.toBytes⟩ := by
  have hes : Consecutive n base.head.revision base.head.hash post :=
    consecutive_of_chain hchain hnetwork
  by_cases hroom : base.head.revision.toNat + post.length + 1 < 2^64
  · rw [ConfigUpdateBatch.new_consecutive hparse hes hroom]
    unfold FitsBatch
    constructor
    · intro h
      split at h
      · next hfits => exact ⟨⟨hfits.1, hfits.2, hroom⟩, (Except.ok.inj h).symm⟩
      · cases h
    · rintro ⟨⟨hcount, hbytes, -⟩, rfl⟩
      rw [if_pos ⟨hcount, hbytes⟩]
  · -- the revision after the last one overflows, with which `new` fails
    constructor
    · intro h
      have hlt := ConfigUpdateBatch.room_of_new h
      rw [List.length_map] at hlt
      exact absurd hlt hroom
    · intro h
      exact absurd h.1.2.2 hroom

/-! ## What is served -/

/-- For every revision between the two, the history has an envelope of it and envelopes after it up
to the last one; serving after its head succeeds exactly when the envelopes after it fit into a
batch, with the batch of all of them. -/
def ServesAfter {ε : Type} (n : NetworkId) (Has : EncryptedConfigEnvelope → Prop)
    (updatesAfter : ConfigHead → StoreTask ε ConfigUpdateBatch) (w : Stores)
    (first last : UInt64) : Prop :=
  ∀ r, first ≤ r → r ≤ last → ∃ base post, Has base ∧ base.revision = r ∧
    (∀ e ∈ post, Has e) ∧ (base :: post).IsChain Extends ∧
    r.toNat + post.length = last.toNat ∧
    ∀ b, ((updatesAfter base.head).run serve w).1 = .ok b ↔
      FitsBatch base post ∧ b = ⟨n, base.head, post.map fun e => e.toBytes⟩

/-! ## The authority -/

section Authority

variable {n : NetworkId} {w : Stores} {base last : EncryptedConfigEnvelope}
  {post : List EncryptedConfigEnvelope}

theorem Chain.exists_after (h : Chain n w last) (hbase : Committed n w base) :
    ∃ post, (base :: post).IsChain Extends ∧ (base :: post).getLast? = some last ∧
      ∀ e ∈ post, Committed n w e := by
  have hle := h.revision_le hbase
  rw [UInt64.le_iff_toNat_le] at hle
  -- by induction on the number of revisions that are left
  obtain ⟨k, hk⟩ : ∃ k, last.revision.toNat = base.revision.toNat + k :=
    Nat.exists_eq_add_of_le hle
  induction k generalizing base with
  | zero =>
    obtain rfl := hbase.unique h.committed (UInt64.toNat_inj.mp hk.symm)
    exact ⟨[], .singleton base, rfl, by simp⟩
  | succ k ih =>
    have hlt : base.revision.toNat + 1 < UInt64.size := by
      have hsize := last.revision.toNat_lt_size
      omega
    have hnat : (UInt64.ofNat (base.revision.toNat + 1)).toNat = base.revision.toNat + 1 :=
      UInt64.toNat_ofNat_of_lt' hlt
    obtain ⟨e, he, hrevision⟩ := h.present (UInt64.ofNat (base.revision.toNat + 1))
      (by rw [UInt64.le_iff_toNat_le]; omega)
    have hnext : e.revision.toNat = base.revision.toNat + 1 := by rw [hrevision, hnat]
    obtain ⟨post, hchain, hlast, hcommitted⟩ := ih he (by omega) (by omega)
    refine ⟨e :: post, ?_, ?_, ?_⟩
    · exact List.isChain_cons_cons.mpr ⟨h.linked base e hbase he hnext, hchain⟩
    · rw [List.getLast?_cons_cons]
      exact hlast
    · intro x hx
      rcases List.mem_cons.mp hx with rfl | hx
      · exact he
      · exact hcommitted x hx

omit [Crypto] in
theorem readHistory_run {es : List EncryptedConfigEnvelope} (h : ∀ e ∈ es, Committed n w e) :
    (readHistory (.authority n) (es.map fun e => e.revision)).run serve w =
      (.ok (es.map fun e => e.toBytes), w) := by
  induction es with
  | nil => rfl
  | cons e rest ih =>
    obtain ⟨-, v, hrecord⟩ := h e List.mem_cons_self
    rw [List.map_cons, readHistory, Task.run_bind, readExisting_run, hrecord]
    simp only [okOr_some]
    exact Task.run_bind_eq_ok.mpr ⟨_, w, ih fun x hx => h x (List.mem_cons_of_mem e hx), rfl⟩

theorem configUpdatesAfter_run {handle : Authority} (hscope : handle.status.networkId = n)
    (hchain : (base :: post).IsChain Extends) (hcommitted : ∀ e ∈ base :: post, Committed n w e)
    (hlast : (base :: post).getLast? = some last) (hhead : handle.status.head = last.head) :
    (handle.configUpdatesAfter base.head).run serve w =
      ((ConfigUpdateBatch.new n base.head (post.map fun e => e.toBytes)).mapError .config, w) := by
  obtain ⟨hparse, v, hrecord⟩ := hcommitted base List.mem_cons_self
  have hpost : ∀ e ∈ post, Committed n w e := fun e he =>
    hcommitted e (List.mem_cons_of_mem base he)
  obtain ⟨hknown, hsame, hrevisions⟩ := servable_of_chain hchain hlast hhead
  have hscope' : handle.scope = .authority n := by
    rw [← hscope]
    rfl
  have hrecord' : w.record handle.scope (historyKey base.head.revision) = some ⟨v, base.toBytes⟩ := by
    rw [hscope']
    exact hrecord
  unfold Authority.configUpdatesAfter
  rw [failIf_neg hknown, Task.run_lift_ok_bind, Task.run_bind, readExisting_run, hrecord']
  simp only [okOr_some, VersionedBytes.bytes, hparse, mapError_ok, Task.run_lift_ok_bind]
  rw [failIf_neg hsame, Task.run_lift_ok_bind, hrevisions, hscope', Task.run_bind,
    readHistory_run hpost, hscope]
  rfl

theorem Chain.servesAfter {handle : Authority} (h : Chain n w last)
    (hnetwork : ∀ e, Committed n w e → e.networkId = n) (hscope : handle.status.networkId = n)
    (hhead : handle.status.head = last.head) :
    ServesAfter n (Committed n w) handle.configUpdatesAfter w 0 last.revision := by
  intro r _ hr
  obtain ⟨base, hbase, hrevision⟩ := h.present r hr
  obtain ⟨post, hchain, hlast, hpost⟩ := h.exists_after hbase
  have hcommitted : ∀ e ∈ base :: post, Committed n w e := by
    intro e he
    rcases List.mem_cons.mp he with rfl | he
    · exact hbase
    · exact hpost e he
  refine ⟨base, post, hbase, hrevision, hpost, hchain, ?_, ?_⟩
  · rw [(le_of_chain hchain hlast).1, hrevision]
  · intro b
    rw [configUpdatesAfter_run hscope hchain hcommitted hlast hhead, mapError_eq_ok]
    exact new_eq_ok_of_chain hchain (fun e he => (hpost e he).1)
      fun e he => hnetwork e (hpost e he)

end Authority

/-! ## The members -/

omit [Crypto] in
theorem exists_segment {α : Type} {l : List α} {i j : ℕ} (hij : i ≤ j) {a b : α}
    (ha : l[i]? = some a) (hb : l[j]? = some b) :
    ∃ post, (l.drop i).take (j - i + 1) = a :: post ∧ (a :: post).getLast? = some b ∧
      post.length = j - i := by
  obtain ⟨hi, rfl⟩ := List.getElem?_eq_some_iff.mp ha
  obtain ⟨hj, rfl⟩ := List.getElem?_eq_some_iff.mp hb
  have hsegment : (l.drop i).take (j - i + 1) = l[i] :: (l.drop (i + 1)).take (j - i) := by
    rw [List.drop_eq_getElem_cons hi, List.take_succ_cons]
  refine ⟨(l.drop (i + 1)).take (j - i), hsegment, ?_, ?_⟩
  · rw [← hsegment, List.getLast?_take, if_neg (Nat.succ_ne_zero _), Nat.add_sub_cancel,
      List.getElem?_drop, Nat.add_sub_cancel' hij, List.getElem?_eq_getElem hj]
    rfl
  · rw [List.length_take, List.length_drop]
    omega

theorem Retains.servesAfter {handle : PersistedConfigState} {w : Stores}
    {first e : EncryptedConfigEnvelope} {rest : List EncryptedConfigEnvelope}
    (h : Retains handle.networkId w (first :: rest)) (he : Retained handle.networkId w e)
    (hhead : handle.head = e.head) :
    first.revision ≤ e.revision ∧
      ServesAfter handle.networkId (Retained handle.networkId w) handle.updatesAfter w
        first.revision e.revision := by
  -- the envelope of the handle's head is one of the history's
  obtain ⟨v, hrecord⟩ := he.record
  obtain ⟨x, hx, -, hbytes⟩ := h.of_record hrecord
  have hparse := he.parses
  rw [show e.toBytes = x.toBytes from hbytes, (h.stored x hx).parses] at hparse
  obtain rfl := Except.ok.inj hparse
  obtain ⟨j, hj⟩ := List.mem_iff_getElem?.mp hx
  have hend := revision_of_chain h.chain hj
  refine ⟨?_, ?_⟩
  · rw [UInt64.le_iff_toNat_le]
    omega
  intro r hfirst hlast
  rw [UInt64.le_iff_toNat_le] at hfirst hlast
  obtain ⟨i, hi⟩ := Nat.exists_eq_add_of_le hfirst
  have hij : i ≤ j := by omega
  have hbound : i < (first :: rest).length := by
    obtain ⟨hlt, -⟩ := List.getElem?_eq_some_iff.mp hj
    omega
  have hbase := List.getElem?_eq_getElem hbound
  obtain ⟨post, hsegment, hget, hlength⟩ := exists_segment hij hbase hj
  have hstored : ∀ y ∈ (first :: rest)[i] :: post, Retained handle.networkId w y := by
    intro y hy
    rw [← hsegment] at hy
    exact h.stored y (List.mem_of_mem_drop (List.mem_of_mem_take hy))
  have hchain : ((first :: rest)[i] :: post).IsChain Extends := by
    rw [← hsegment]
    exact (h.chain.drop i).take _
  have hpost : ∀ y ∈ post, Retained handle.networkId w y := fun y hy =>
    hstored y (List.mem_cons_of_mem _ hy)
  have hrevision := revision_of_chain h.chain hbase
  refine ⟨(first :: rest)[i], post, hstored _ List.mem_cons_self, ?_, hpost, hchain, ?_, ?_⟩
  · rw [← UInt64.toNat_inj]
    omega
  · omega
  · intro b
    rw [updatesAfter_run hchain hstored hget hhead, mapError_eq_ok]
    exact new_eq_ok_of_chain hchain (fun y hy => (hpost y hy).parses)
      fun y hy => (hpost y hy).network

theorem Session.servesAfter {options : AuthorityInit} {random : InitRandomness} {g : Genesis}
    {manifest : Bytes} {w w' : Stores} (hg : Initialized options random g manifest w)
    {log : List (Event (authorityApi manifest))} {handle : Authority}
    (hsession : Session manifest none w log (some handle) w') :
    ServesAfter handle.status.networkId (Committed handle.status.networkId w')
      handle.configUpdatesAfter w' 0 handle.status.head.revision := by
  have hstart : AtWork (g.identity random) none w := AtWork.start hg.inv
  obtain ⟨hwork, -⟩ := hsession.atWork hg.describes hstart
  have harchive := hsession.archive hg.describes hstart
  have hs := hwork.sound handle rfl
  obtain ⟨last, hchain⟩ := hwork.inv.chain
  have hhead := (hwork.synced handle last rfl hchain).head
  rw [hs.network, hhead]
  exact hchain.servesAfter (fun e he => harchive.network hg he) hs.network hhead

/-- Who serves updates, and from where. In a session of an authority, its handle serves the updates
after every revision that the authority has committed. A member that joins in a store without a
history, with the encryption key that its secret store holds, and then opens handles and applies
updates through them, serves with each of its handles the updates after every revision from that of
the join to that of the handle. What is served is the whole rest of the chain, in one batch; nothing
is served when that does not fit into a batch. -/
theorem catch_up_served {options : AuthorityInit} {random : InitRandomness} {manifest : Bytes}
    {init : InitializedAuthority} {w w' : Stores}
    (hinit : ( Authority.initialize options random).run serve Stores.empty =
      (.ok (manifest, init), w))
    {log : List (Event (authorityApi manifest))} {handle : Authority}
    (hsession : Session manifest none w log (some handle) w') :
    ServesAfter handle.status.networkId (Committed handle.status.networkId w')
      handle.configUpdatesAfter w' 0 handle.status.head.revision ∧
    ∀ (stores : MembershipStores) (root : NetworkRootPublic) (ticket : JoinTicket)
      (joinedMs : UInt64) (joinedHead : ConfigHead) (w₀ w₁ : Stores)
      (encryption : MemberEncryptionKeypair), w₀.state.Sound →
      (∀ r, w₀.record (.member root.networkId) (configHistoryKey r) = none) →
      w₀.secrets.open (memberSecretId root.networkId "member-encryption") =
        .ok encryption.secretBytes.val →
      (join stores root ticket joinedMs).run serve w₀ = (.ok joinedHead, w₁) →
      ∀ hs v, MemberRun root encryption w₁ hs v → ∀ member ∈ hs,
        joinedHead.revision ≤ member.head.revision ∧
        ServesAfter root.networkId (Retained root.networkId v) member.updatesAfter v
          joinedHead.revision member.head.revision := by
  obtain ⟨g, hg, -⟩ := initialize_spec hinit
  refine ⟨hsession.servesAfter hg, ?_⟩
  intro stores root ticket joinedMs joinedHead w₀ w₁ encryption hsound hempty hkey hjoin hs v hrun
    member hmem
  obtain ⟨handle₁, e₁, a₁, rfl, rfl, rfl, hopened₁, -, -, hhistory⟩ := join_openedOn hkey hjoin
  have hlater₁ : w₀.Later w₁ := by
    have hlater := run_later (join stores handle₁.root ticket joinedMs) w₀
    rw [show Prog.run serve _ w₀ = _ from hjoin] at hlater
    exact hlater
  have hempty₁ : ∀ r, w₁.record (.member handle₁.root.networkId) (configHistoryKey r) = none :=
    fun r => (hhistory r).trans (hempty r)
  rcases hrun.tenant (hlater₁.2 hsound) hempty₁ hopened₁.parses
    ⟨_, hopened₁.synced.envelope⟩ with ⟨rfl, -⟩ | htenant
  · cases hmem
  · obtain ⟨e₀, rest, -, hretains, hfirst, -⟩ := htenant.history
    obtain ⟨hroot, e, he, hhead⟩ := hrun.heads member hmem
    rw [← hroot] at hretains he
    have hrevision : handle₁.head.revision = e₀.revision := by
      rw [hopened₁.synced.head, hfirst]
      rfl
    rw [← hroot, hhead, hrevision]
    exact hretains.servesAfter he hhead

end Weaver

namespace Weaver.Sample

open Checked Wire Versioned Program Transparent

/-- The sample authority is opened, and its configuration is one that can be sealed again: the
handle, the stores, the recipients, the bytes of the configuration and the administrator. -/
def reissuing : Option (Authority × Stores × List Bytes32 × Bytes × VerifiedAdmin) := do
  let (_, handle, w) ← Solo.perform (none, stores) (.open 1000)
  let self ← handle
  let c := self.config.asConfig
  guard (c.check self.rootPublic self.rootPublic.networkId c.issuedAtMs = .ok ())
  let recipients ← (activeRecipientKeys c).toOption
  guard (validateRecipientSet c recipients = .ok ())
  guard (recipients ≠ [] ∧ recipients.length ≤ maxKeyWraps)
  guard (self.memberEncryption.publicBytes ∈ recipients)
  let bytes ← c.toBytes.toOption
  guard (bytes.length ≤ maxConfigPlaintext)
  guard (c.revision = self.status.head.revision ∧ c.epoch = self.status.head.epoch)
  let verified ← (self.config.verifiedAdmin self.rootPublic self.onlineAdmin.keyId
    c.issuedAtMs).toOption
  guard (verified.payload.publicKey = self.onlineAdmin.publicBytes ∧
    verified.payload.permissions &&& adminPermissionConfigWrite ≠ 0)
  guard (self.status.head.revision = 0 ∧ w.state.nextRecord.toNat + 3 * 1025 < 2^64 ∧
    w.state.nextCommit.toNat + 1025 < 2^64)
  return (self, w, recipients, bytes, verified)

theorem reissuing_isSome : reissuing.isSome = true := by decide +kernel

theorem reissuing_spec {self : Authority} {w : Stores} {recipients : List Bytes32} {bytes : Bytes}
    {verified : VerifiedAdmin} (h : reissuing = some (self, w, recipients, bytes, verified)) :
    (∃ log, Session manifest none stores log (some self) w) ∧ self.CanReissue recipients ∧
      self.status.head.revision = 0 ∧ w.state.nextRecord.toNat + 3 * 1025 < 2^64 ∧
      w.state.nextCommit.toNat + 1025 < 2^64 := by
  unfold reissuing at h
  simp only [Option.bind_eq_bind, Option.bind_eq_some_iff, toOption_eq_some, Prod.exists,
    Option.guard_eq_some', exists_const, Option.pure_def, Option.some.injEq, Prod.mk.injEq] at h
  obtain ⟨_, handle, _, hopen, _, rfl, hvalid, _, hkeys, hmembers, hcount, hown, _, hbytes, hlen,
    hcurrent, _, hverified, hadmin, hstart, rfl, rfl, rfl, rfl, rfl⟩ := h
  obtain ⟨a, ha, hpayload⟩ := ValidatedNetworkConfig.verifiedAdmin_eq_ok.mp hverified
  rw [hpayload] at hadmin
  exact ⟨⟨_, Solo.session .nil hopen⟩, ⟨⟨hvalid, hmembers, hcount, fun _ _ => rfl, _, hbytes, hlen⟩,
    hkeys, hown, hcurrent, a, ha, hadmin⟩, hstart⟩

/-- The sample authority has invited the sample member, which has joined and opened a handle; both
serve from their histories. -/
theorem catch_up_served_sample : ∃ (prepared : PreparedJoinRequest) (ticket : JoinTicket)
    (authority : Authority) (w w₀ w₁ v : Stores) (head : ConfigHead)
    (member : PersistedConfigState),
    inviting = some (prepared, ticket, some authority, w) ∧
    lapsing = some (ticket, w₀, head, w₁, member, v) ∧
    ServesAfter authority.status.networkId (Committed authority.status.networkId w)
      authority.configUpdatesAfter w 0 authority.status.head.revision ∧
    ServesAfter root.public.networkId (Retained root.public.networkId v) member.updatesAfter v
      head.revision member.head.revision := by
  obtain ⟨init, hinit⟩ := initialize_eq_ok
  obtain ⟨⟨ticket, w₀, head, w₁, member, v⟩, hlapsing⟩ :=
    Option.isSome_iff_exists.mp lapsing_isSome
  have hparts := hlapsing
  unfold lapsing at hparts
  simp only [Option.bind_eq_bind, Option.bind_eq_some_iff, Prod.exists, succeed_eq_some,
    Option.guard_eq_some', exists_const, Option.pure_def, Option.some.injEq, Prod.mk.injEq] at hparts
  obtain ⟨_, _, _, _, hjoining, _, _, hopen, -, rfl, rfl, rfl, rfl, rfl, rfl⟩ := hparts
  obtain ⟨hsound, hempty, hkey, hjoin, -⟩ := joining_spec hjoining
  unfold joining at hjoining
  simp only [Option.bind_eq_bind, Option.bind_eq_some_iff, Prod.exists, Option.guard_eq_some',
    exists_const, Option.pure_def, Option.some.injEq, Prod.mk.injEq] at hjoining
  obtain ⟨prepared, _, handle, w, hinviting, -, -, -, -, -, -, -, -, -, rfl, -⟩ := hjoining
  obtain ⟨-, log, hsession, -⟩ := inviting_session hinviting
  obtain ⟨authority, rfl⟩ : ∃ authority, handle = some authority := by
    unfold inviting at hinviting
    simp only [Option.bind_eq_bind, Option.bind_eq_some_iff, Prod.exists, toOption_eq_some,
      Option.pure_def, Option.some.injEq, Prod.mk.injEq] at hinviting
    obtain ⟨_, -, _, _, _, -, _, _, _, hinvite, -, -, rfl, -⟩ := hinviting
    obtain ⟨_, authority, -, hauthority, -⟩ :=
      authorityBody_call_eq_ok.mp (Solo.perform_eq_some.mp hinvite)
    exact ⟨authority, hauthority⟩
  obtain ⟨hauthority, hmember⟩ := catch_up_served hinit hsession
  exact ⟨prepared, _, authority, w, _, _, _, _, _, hinviting, hlapsing, hauthority,
    (hmember memberStores root.public _ 1100 _ _ _ memberKey hsound hempty hkey hjoin _ _
      (.opened .joined hopen) _ List.mem_cons_self).2⟩

/-- The sample authority commits 1025 revisions, and serves nothing after the genesis. -/
theorem catch_up_beyond_limit : ∃ (log : List (Event (authorityApi manifest)))
    (handle : Authority) (w : Stores) (base : EncryptedConfigEnvelope),
    Session manifest none stores log (some handle) w ∧
    Committed handle.status.networkId w base ∧ base.revision = 0 ∧
    handle.status.head.revision = 1025 ∧
    ∀ b, ((handle.configUpdatesAfter base.head).run serve w).1 ≠ .ok b := by
  obtain ⟨⟨self, w, recipients, bytes, verified⟩, hreissuing⟩ :=
    Option.isSome_iff_exists.mp reissuing_isSome
  obtain ⟨⟨log, hsession⟩, hcan, hzero, hrecords, hcommits⟩ := reissuing_spec hreissuing
  obtain ⟨init, hinit⟩ := initialize_eq_ok
  obtain ⟨g, hg, -⟩ := initialize_spec hinit
  have hstart : self.status.head.revision.toNat = 0 := by
    rw [hzero]
    rfl
  have hrandom : sealing.Complete := ⟨⟨_, rfl⟩, ⟨_, rfl⟩, fun _ => ⟨_, rfl⟩⟩
  obtain ⟨log', handle, w', hsession', -, hrevision, -, -⟩ :=
    AtWork.reissues hpkeIdeal sealsAlways hrandom hg.describes (AtWork.start hg.inv) hsession hcan
      1025 (by omega) hrecords hcommits
  rw [hstart, Nat.zero_add] at hrevision
  obtain ⟨base, post, hbase, hbaseRevision, -, -, hlength, hserves⟩ :=
    hsession'.servesAfter hg 0 le_rfl (by rw [UInt64.le_iff_toNat_le, hrevision]; decide)
  refine ⟨log', handle, w', base, hsession', hbase, hbaseRevision, ?_, ?_⟩
  · rw [← UInt64.toNat_inj, hrevision]
    rfl
  · intro b hb
    -- there are more envelopes after the genesis than a batch may have
    obtain ⟨⟨hcount, -⟩, -⟩ := (hserves b).mp hb
    have hzero' : (0 : UInt64).toNat = 0 := rfl
    unfold maxUpdateEnvelopes at hcount
    omega

end Weaver.Sample
