import Weaver.Authority.History

/-!
# Who committed which configuration

Every step of a request leaves the chain of envelopes alone, or commits the configuration that its
call plans on the last envelope (`Guarantee.chain_cases`). So each pair of consecutive envelopes of
the history has a call that committed the second one on the first (`Ledger`), whatever processes
are at work and however their steps interleave. Results about consecutive configurations follow from
what the calls plan.
-/

namespace Weaver

open Checked Wire Versioned Program

variable [Crypto]

/-! ## What a step does to the chain -/

structure SameChain (I : Identity) (w w' : Stores) : Prop where
  envelope : w'.record I.scope keyEnvelope = w.record I.scope keyEnvelope
  head : w'.record I.scope keyHead = w.record I.scope keyHead
  history : ∀ r, w'.record I.scope (historyKey r) = w.record I.scope (historyKey r)

section Chain

variable {I : Identity} {manifest : Bytes} {w w' w'' : Stores}

theorem SameChain.refl (I : Identity) (w : Stores) : SameChain I w w := ⟨rfl, rfl, fun _ => rfl⟩

theorem SameChain.symm (h : SameChain I w w') : SameChain I w' w :=
  ⟨h.envelope.symm, h.head.symm, fun r => (h.history r).symm⟩

theorem SameChain.trans (h : SameChain I w w') (h' : SameChain I w' w'') : SameChain I w w'' :=
  ⟨h'.envelope.trans h.envelope, h'.head.trans h.head, fun r => (h'.history r).trans (h.history r)⟩

theorem SameChain.committed (h : SameChain I w w') (e : EncryptedConfigEnvelope) :
    Committed I.network w' e ↔ Committed I.network w e := by
  have hhistory := h.history e.revision
  unfold Identity.scope at hhistory
  unfold Committed
  rw [hhistory]

variable {last : EncryptedConfigEnvelope}

theorem SameChain.chain (h : SameChain I w w') (hchain : Chain I.network w last) :
    Chain I.network w' last :=
  hchain.of_same h.envelope h.head h.history

/-- The chain has one envelope more, `e'` after `e`, and the records are those of the new chain. -/
structure Grows (I : Identity) (w w' : Stores) (e e' : EncryptedConfigEnvelope) : Prop where
  before : Chain I.network w e
  after : Chain I.network w' e'
  follows : Extends e e'
  committed : ∀ x, Committed I.network w' x ↔ x = e' ∨ Committed I.network w x

theorem RevisionBatch.grows {batch : AtomicBatch} {version : UInt64}
    {e e' : EncryptedConfigEnvelope} {rest : List (Operation StoreKey Bytes)}
    (h : RevisionBatch I w batch e e' rest) (hinv : AuthorityInv I w)
    (hcommit : w.state.commitBatch batch = .ok (version, w'.state)) : Grows I w w' e e' := by
  obtain ⟨last, hchain⟩ := hinv.chain
  have hadvance := h.advance hcommit
  obtain ⟨rfl, hchain'⟩ := hadvance.chain hchain h.parent h.follows h.parses
  exact ⟨hchain, hchain', h.follows, hadvance.committed_iff h.parses⟩

variable {request : AuthorityRequest}

theorem sameChain_of_invitation (id : Bytes32)
    (h : ∀ {key}, invitationKey id ≠ key → w'.record I.scope key = w.record I.scope key) :
    SameChain I w w' :=
  ⟨h (invitationKey_ne_keyEnvelope id), h (invitationKey_ne_keyHead id),
    fun r => h (invitationKey_ne_historyKey id r)⟩

theorem Guarantee.chain_cases (h : Guarantee I request w w') (hinv : AuthorityInv I w) :
    SameChain I w w' ∨ ∃ e e', Grows I w w' e e' ∧ request.Commits I e e' := by
  cases h with
  | stay heq =>
    rw [heq]
    exact .inl (SameChain.refl I w)
  | commit batch version hwrites hcommit _ =>
    cases hwrites with
    | revision e e' _ hrevision hcommits => exact .inr ⟨e, e', hrevision.grows hinv hcommit, hcommits⟩
    | redemption _ _ _ e e' _ _ _ hredemption hcommits =>
      exact .inr ⟨e, e', hredemption.revision.grows hinv hcommit, hcommits⟩
    | creation id bytes _ _ hscope hops =>
      exact .inl (sameChain_of_invitation id (record_of_invitation_op hcommit hscope hops rfl))
    | revocation id pending _ _ _ hscope hops =>
      exact .inl (sameChain_of_invitation id (record_of_invitation_op hcommit hscope hops rfl))
  | secret id plaintext _ hstate _ =>
    have hrecord : ∀ scope key, w'.record scope key = w.record scope key := by
      intro scope key
      unfold Stores.record
      rw [hstate]
    exact .inl ⟨hrecord _ _, hrecord _ _, fun r => hrecord _ _⟩

theorem sameChain_of_steps (h : Relation.ReflTransGen (Guarantee I request) w w')
    (hinv : AuthorityInv I w) (hquiet : ∀ e e', ¬ request.Commits I e e') :
    SameChain I w w' ∧ AuthorityInv I w' := by
  induction h with
  | refl => exact ⟨SameChain.refl I w, hinv⟩
  | tail _ hstep ih =>
    obtain ⟨hsame, hinv₁⟩ := ih
    refine ⟨?_, (guarantee_allows I request _ _ hinv₁ hstep).1⟩
    rcases hstep.chain_cases hinv₁ with hsame₁ | ⟨e, e', -, hcommits⟩
    · exact hsame.trans hsame₁
    · exact absurd hcommits (hquiet e e')

/-! ## The ledger -/

/-- Every envelope that was committed after `w` was committed by one of the calls, on the envelope
before it. -/
def Ledger (I : Identity) (Made : AuthorityCall → Prop) (w w' : Stores) : Prop :=
  ∀ e e', Committed I.network w' e → Committed I.network w' e' →
    e'.revision.toNat = e.revision.toNat + 1 → ¬ Committed I.network w e' →
    ∃ (handle : Authority) (c : AuthorityCall) (next : NetworkConfigV1) (nowMs : UInt64),
      Made c ∧ handle.Commits I c next nowMs e e'

variable {Made : AuthorityCall → Prop}

theorem Ledger.refl (I : Identity) (Made : AuthorityCall → Prop) (w : Stores) :
    Ledger I Made w w := by
  intro e e' _ he' _ hnew
  exact absurd he' hnew

theorem Ledger.mono (h : Ledger I Made w w') {Made' : AuthorityCall → Prop}
    (hmade : ∀ c, Made c → Made' c) : Ledger I Made' w w' := by
  intro e e' he he' hrevision hnew
  obtain ⟨handle, c, next, nowMs, hc, hcommits⟩ := h e e' he he' hrevision hnew
  exact ⟨handle, c, next, nowMs, hmade c hc, hcommits⟩

theorem Ledger.same (h : Ledger I Made w w') (hsame : SameChain I w' w'') :
    Ledger I Made w w'' := by
  intro e e' he he'
  exact h e e' ((hsame.committed e).mp he) ((hsame.committed e').mp he')

variable {c : AuthorityCall}

theorem Ledger.grows (h : Ledger I Made w w') {new : EncryptedConfigEnvelope}
    (hgrows : Grows I w' w'' last new) {handle : Authority} {next : NetworkConfigV1}
    {nowMs : UInt64} (hmade : Made c) (hcommits : handle.Commits I c next nowMs last new) :
    Ledger I Made w w'' := by
  intro e e' he he' hrevision hnew
  have hfollows := hgrows.follows.revision
  rcases (hgrows.committed e').mp he' with rfl | he'
  · -- the new envelope: the one before it is the last one
    have hlast : e = last := by
      rcases (hgrows.committed e).mp he with rfl | he
      · omega
      · exact he.unique hgrows.before.committed (UInt64.toNat_inj.mp (by omega))
    rw [hlast]
    exact ⟨handle, c, next, nowMs, hmade, hcommits⟩
  · rcases (hgrows.committed e).mp he with rfl | he
    · -- nothing committed earlier comes after the new envelope
      have hle := hgrows.before.revision_le he'
      rw [UInt64.le_iff_toNat_le] at hle
      omega
    · exact h e e' he he' hrevision hnew

theorem Guarantee.ledger (h : Guarantee I request w' w'') (hinv : AuthorityInv I w')
    (hmade : ∀ c, request = .call c → Made c) (hledger : Ledger I Made w w') :
    Ledger I Made w w'' := by
  rcases h.chain_cases hinv with hsame | ⟨e, e', hgrows, handle, c, next, nowMs, hcall, hcommits⟩
  · exact hledger.same hsame
  · exact hledger.grows hgrows (hmade c hcall) hcommits

/-! ## Processes -/

def processesOf (manifest : Bytes) (Made : AuthorityCall → Prop) :
    Rules (authorityApi manifest) where
  Spawn _ handle := handle = none
  Start _ _ request := ∀ c, request = .call c → Made c

variable {P : Pool (authorityApi manifest)}

theorem made_of_busy (hP : Reachable (processesOf manifest Made) w P) {i : ℕ} {p : Prog _ _}
    (hi : P.processes[i]? = some (.busy request p)) (hcall : request = .call c) : Made c := by
  induction hP generalizing p with
  | refl => cases hi
  | tail _ hstep ih =>
    rcases hstep.busy_before hi with ⟨p₀, hi₀, -⟩ | ⟨_, -, hstart, -, -⟩
    · exact ih hi₀
    · exact hstart c hcall

theorem ledger_of_reachable (hI : I.Describes manifest) (hinv : AuthorityInv I w)
    (hP : Reachable (processesOf manifest Made) w P) :
    Ledger I Made w P.world := by
  let V := authorityVerified hI (processesOf manifest Made) fun _ _ h => h
  induction hP with
  | refl => exact Ledger.refl I Made w
  | @tail P P' hreach hstep ih =>
    have hgood : V.Good P := Verified.good hinv hreach
    rcases (hgood.step hstep).2 with heq | ⟨request, hacts, hguarantee⟩
    · rw [heq]
      exact ih
    · obtain ⟨i, r, k, ans, w', hi, -, -⟩ := hacts
      exact Guarantee.ledger hguarantee hgood.inv (fun c => made_of_busy hreach hi) ih

end Chain

/-! ## The committed configurations -/

theorem EncryptedConfigEnvelope.Content.unique {e : EncryptedConfigEnvelope}
    {key : MemberEncryptionKeypair} {c c' : NetworkConfigV1} (h : e.Content key c)
    (h' : e.Content key c') : c = c' := by
  obtain ⟨plaintext, ⟨contentKey, hkey, hdecrypt, -⟩, hread⟩ := h
  obtain ⟨plaintext', ⟨contentKey', hkey', hdecrypt', -⟩, hread'⟩ := h'
  rw [hkey] at hkey'
  obtain rfl := Option.some.inj hkey'
  rw [hdecrypt] at hdecrypt'
  obtain rfl := Option.some.inj hdecrypt'
  rw [hread] at hread'
  exact Except.ok.inj hread'

/-- The envelope is the configuration, sealed for its members and for the authority among them, and
valid when it was issued. -/
structure Published (I : Identity) (e : EncryptedConfigEnvelope) (c : NetworkConfigV1) : Prop where
  seals : e.Seals I.root c
  valid : c.Acceptable I.root I.root.networkId c.issuedAtMs
  recipient : c.HasRecipient I.encryption.publicBytes

section Published

variable {I : Identity} {Made : AuthorityCall → Prop} {w w' : Stores}

variable {e : EncryptedConfigEnvelope}

theorem Published.content_iff (hideal : HpkeIdeal) {c c' : NetworkConfigV1} (h : Published I e c) :
    e.Content I.encryption c' ↔ c' = c := by
  have hiff := h.seals.content_iff hideal I.encryption c'
  constructor
  · intro hcontent
    exact (hiff.mp hcontent).2
  · intro heq
    exact hiff.mpr ⟨h.recipient, heq⟩

theorem Authority.Commits.published (hideal : HpkeIdeal) {handle : Authority} {c : AuthorityCall}
    {next : NetworkConfigV1} {nowMs : UInt64} {e' : EncryptedConfigEnvelope}
    (h : handle.Commits I c next nowMs e e') :
    Published I e' next ∧ next.Acceptable I.root I.root.networkId nowMs := by
  obtain ⟨config, hopens⟩ := h.opens
  obtain ⟨hrecipient, hvalid, -⟩ := (h.sealed.seals.opensTo_iff hideal _ _ _).mp hopens
  exact ⟨⟨h.sealed.seals, h.sealed.next_valid, hrecipient⟩, hvalid⟩

/-- What the calls left in the stores since `w`: the contract holds, what was there stays, and the
calls committed the rest. -/
structure Archive (I : Identity) (Made : AuthorityCall → Prop) (w w' : Stores) : Prop where
  inv : AuthorityInv I w'
  le : AuthorityLe I w w'
  ledger : Ledger I Made w w'

theorem archive_of_reachable {manifest : Bytes} (hI : I.Describes manifest)
    (hinv : AuthorityInv I w) {P : Pool (authorityApi manifest)}
    (hP : Reachable (processesOf manifest Made) w P) : Archive I Made w P.world := by
  let V := authorityVerified hI (processesOf manifest Made) fun _ _ h => h
  have hstart : V.Good (Pool.initial _ w) := Verified.good hinv .refl
  obtain ⟨hgood, hle⟩ := hstart.steps hP
  exact ⟨hgood.inv, hle, ledger_of_reachable hI hinv hP⟩

/-- What holds of an envelope, and of each one that a call commits if it holds of the one before,
holds of every later one. The induction is on the number of revisions between the two. -/
theorem Archive.induction (h : Archive I Made w w') {last : EncryptedConfigEnvelope}
    (hchain : Chain I.network w last) {e₀ : EncryptedConfigEnvelope}
    (he₀ : Committed I.network w' e₀) (hle₀ : last.revision ≤ e₀.revision)
    {Q : EncryptedConfigEnvelope → Prop} (base : Q e₀)
    (step : ∀ (handle : Authority) (c : AuthorityCall) (next : NetworkConfigV1) (nowMs : UInt64)
      (e e' : EncryptedConfigEnvelope), Made c → Committed I.network w' e →
      handle.Commits I c next nowMs e e' → Q e → Q e') (he : Committed I.network w' e)
    (hle : e₀.revision ≤ e.revision) : Q e := by
  obtain ⟨last', hchain'⟩ := h.inv.chain
  rw [UInt64.le_iff_toNat_le] at hle hle₀
  obtain ⟨n, hn⟩ : ∃ n, e.revision.toNat = e₀.revision.toNat + n := Nat.exists_eq_add_of_le hle
  induction n generalizing e with
  | zero =>
    obtain rfl := he.unique he₀ (UInt64.toNat_inj.mp hn)
    exact base
  | succ n ih =>
    obtain ⟨e₁, he₁, hrevision₁⟩ := hchain'.predecessor (k := e₀.revision.toNat + n) he hn
    -- the envelope is new, so that a call committed it on the one before
    have hnew : ¬ Committed I.network w e := by
      intro hold
      have hbefore := hchain.revision_le hold
      rw [UInt64.le_iff_toNat_le] at hbefore
      omega
    obtain ⟨handle, c, next, nowMs, hmade, hcommits⟩ := h.ledger e₁ e he₁ he (by omega) hnew
    exact step handle c next nowMs e₁ e hmade he₁ hcommits (ih he₁ (by omega) hrevision₁)

end Published

section Initialized

variable {options : AuthorityInit} {random : InitRandomness} {g : Genesis} {manifest : Bytes}
  {Made : AuthorityCall → Prop} {w w' : Stores}

theorem Initialized.published (h : Initialized options random g manifest w) :
    Published (g.identity random) g.envelope g.config := by
  refine ⟨h.planned.envelope.seals, h.planned.envelope.valid, g.member, ?_, h.planned.member.1⟩
  unfold NetworkConfigV1.ListsMember
  rw [h.planned.lists.2.1]
  exact List.mem_singleton.mpr rfl

theorem Initialized.revision_zero (h : Initialized options random g manifest w) :
    g.envelope.revision = 0 :=
  h.planned.envelope.seals.header.2.2.1.trans h.planned.start.2.1

theorem Initialized.committed_iff (h : Initialized options random g manifest w)
    (e : EncryptedConfigEnvelope) :
    Committed (g.identity random).network w e ↔ e = g.envelope := by
  have hgenesis : Committed (g.identity random).network w g.envelope := h.chain.committed
  constructor
  · intro he
    have hle := h.chain.revision_le he
    rw [h.revision_zero, UInt64.le_iff_toNat_le] at hle
    refine he.unique hgenesis ?_
    rw [h.revision_zero]
    exact UInt64.toNat_inj.mp (Nat.le_antisymm hle (Nat.zero_le _))
  · intro heq
    rw [heq]
    exact hgenesis

variable {e e' : EncryptedConfigEnvelope} {c c' : NetworkConfigV1}

theorem Initialized.revision_le (hg : Initialized options random g manifest w) :
    g.envelope.revision ≤ e.revision := by
  rw [hg.revision_zero]
  exact UInt64.zero_le

variable (hideal : HpkeIdeal) (hg : Initialized options random g manifest w)
  (h : Archive (g.identity random) Made w w')

include hg h

theorem Archive.genesis : Committed (g.identity random).network w' g.envelope :=
  h.le.committed ((hg.committed_iff g.envelope).mpr rfl)

theorem Archive.consecutive (he : Committed (g.identity random).network w' e)
    (he' : Committed (g.identity random).network w' e')
    (hrevision : e'.revision.toNat = e.revision.toNat + 1) :
    ∃ (handle : Authority) (c : AuthorityCall) (next : NetworkConfigV1) (nowMs : UInt64),
      Made c ∧ handle.Commits (g.identity random) c next nowMs e e' := by
  refine h.ledger e e' he he' hrevision ?_
  intro hold
  rw [hg.committed_iff] at hold
  rw [hold, hg.revision_zero] at hrevision
  exact absurd hrevision.symm (Nat.succ_ne_zero _)

theorem Archive.committed_cases (he : Committed (g.identity random).network w' e) :
    e = g.envelope ∨ ∃ (handle : Authority) (c : AuthorityCall) (next : NetworkConfigV1)
      (nowMs : UInt64) (e₀ : EncryptedConfigEnvelope),
      Made c ∧ handle.Commits (g.identity random) c next nowMs e₀ e := by
  obtain ⟨last, hchain⟩ := h.inv.chain
  by_cases hzero : e.revision.toNat = 0
  · refine .inl (he.unique (h.genesis hg) (UInt64.toNat_inj.mp ?_))
    rw [hzero, hg.revision_zero]
    rfl
  · -- a later envelope has one before it, on which a call committed it
    obtain ⟨k, hk⟩ := Nat.exists_eq_succ_of_ne_zero hzero
    obtain ⟨e₀, he₀, hrevision⟩ := hchain.predecessor he hk
    obtain ⟨handle, c, next, nowMs, hmade, hcommits⟩ := h.consecutive hg he₀ he (by omega)
    exact .inr ⟨handle, c, next, nowMs, e₀, hmade, hcommits⟩

include hideal in
theorem Archive.published (he : Committed (g.identity random).network w' e) :
    ∃ c, Published (g.identity random) e c := by
  rcases h.committed_cases hg he with rfl | ⟨handle, c, next, nowMs, e₀, -, hcommits⟩
  · exact ⟨g.config, hg.published⟩
  · exact ⟨next, (hcommits.published hideal).1⟩

include hideal in
theorem Archive.published_of_content (he : Committed (g.identity random).network w' e)
    (hc : e.Content random.memberEncryption c) : Published (g.identity random) e c := by
  obtain ⟨c', hc'⟩ := h.published hideal hg he
  obtain rfl := (hc'.content_iff hideal).mp hc
  exact hc'

theorem Archive.later {Q : EncryptedConfigEnvelope → Prop}
    (step : ∀ (handle : Authority) (c : AuthorityCall) (next : NetworkConfigV1) (nowMs : UInt64)
      (e e' : EncryptedConfigEnvelope), Made c → Committed (g.identity random).network w' e →
      handle.Commits (g.identity random) c next nowMs e e' → Q e → Q e')
    (he : Committed (g.identity random).network w' e)
    (he' : Committed (g.identity random).network w' e') (hle : e.revision ≤ e'.revision)
    (base : Q e) : Q e' :=
  h.induction hg.chain he hg.revision_le base step he' hle

include hideal in
theorem Archive.related {R : NetworkConfigV1 → NetworkConfigV1 → Prop}
    (hrefl : ∀ c, R c c) (htrans : ∀ {c c' c''}, R c c' → R c' c'' → R c c'')
    (step : ∀ (handle : Authority) (call : AuthorityCall) (next : NetworkConfigV1) (nowMs : UInt64)
      (draws : SealRandomness), Made call → handle.Plans call next nowMs draws →
      next.Acceptable (g.identity random).root (g.identity random).root.networkId nowMs →
      R handle.config.asConfig next) (he : Committed (g.identity random).network w' e)
    (he' : Committed (g.identity random).network w' e') (hle : e.revision ≤ e'.revision)
    (hc : Published (g.identity random) e c) (hc' : Published (g.identity random) e' c') :
    R c c' := by
  refine h.later hg (Q := fun e' => ∀ c', Published (g.identity random) e' c' → R c c') ?_ he he'
    hle ?_ c' hc'
  · intro handle call next nowMs e₁ e₂ hmade he₁ hcommits hbefore c₂ hc₂
    obtain ⟨draws, hplans⟩ := hcommits.plans
    obtain ⟨hpublished, hvalid⟩ := hcommits.published hideal
    obtain rfl := (hpublished.content_iff hideal).mp ((hc₂.content_iff hideal).mpr rfl)
    -- the handle's configuration is that of the envelope before
    obtain ⟨c₁, hc₁⟩ := h.published hideal hg he₁
    have heq := (hc₁.content_iff hideal).mp hcommits.content
    rw [← heq] at hc₁
    exact htrans (hbefore _ hc₁) (step handle call c₂ nowMs draws hmade hplans hvalid)
  · intro c'' hc''
    obtain rfl := (hc.content_iff hideal).mp ((hc''.content_iff hideal).mpr rfl)
    exact hrefl _

include hideal in
theorem Archive.invariant {P : NetworkConfigV1 → Prop} (base : P g.config)
    (step : ∀ (handle : Authority) (call : AuthorityCall) (next : NetworkConfigV1) (nowMs : UInt64)
      (draws : SealRandomness), Made call → handle.Plans call next nowMs draws →
      next.Acceptable (g.identity random).root (g.identity random).root.networkId nowMs →
      P handle.config.asConfig → P next) (he : Committed (g.identity random).network w' e)
    (hc : Published (g.identity random) e c) : P c :=
  h.related hideal hg (R := fun c c' => P c → P c') (fun _ => id) (fun h h' hc => h' (h hc)) step
    (h.genesis hg) he hg.revision_le hg.published hc base

include hideal in
theorem Archive.planned (he : Committed (g.identity random).network w' e)
    (he' : Committed (g.identity random).network w' e')
    (hrevision : e'.revision.toNat = e.revision.toNat + 1)
    (hc : e.Content random.memberEncryption c) (hc' : e'.Content random.memberEncryption c') :
    ∃ (handle : Authority) (call : AuthorityCall) (nowMs : UInt64) (draws : SealRandomness),
      Made call ∧ handle.config.asConfig = c ∧ handle.Plans call c' nowMs draws := by
  obtain ⟨handle, call, next, nowMs, hmade, hcommits⟩ := h.consecutive hg he he' hrevision
  obtain ⟨draws, hplans⟩ := hcommits.plans
  obtain rfl := hcommits.content.unique hc
  obtain rfl := ((hcommits.published hideal).1.content_iff hideal).mp hc'
  exact ⟨handle, call, nowMs, draws, hmade, rfl, hplans⟩

theorem Archive.network (he : Committed (g.identity random).network w' e) :
    e.networkId = (g.identity random).network := by
  rcases h.committed_cases hg he with rfl | ⟨handle, c, next, nowMs, e₀, -, hcommits⟩
  · exact hg.planned.envelope.seals.header.1
  · exact hcommits.sealed.seals.header.1

end Initialized

end Weaver
