import Weaver.Member.Batching
import Weaver.Network.Serving

/-!
# Catching up

A member that was offline fetches the batch of all revisions after its own and applies it. Each
revision is opened at the time of the call, and not at the time at which it was issued: the update
from one revision to the next passes while the certificate of its signer verifies in the earlier
configuration and the later one is valid (`Passes`). The batch is applied exactly if every update of
it passes (`catch_up_iff`), so that an entry which existed only in between, and has expired since,
keeps the member from the current configuration.
-/

namespace Weaver

open Checked Wire Versioned Program

variable [Crypto]

/-! ## From one revision to the next -/

/-- At the time, an update passes from the configuration `c` to the envelope `e'` of the
configuration `c'`: the certificate that the first lists for the signer verifies, and the second is
valid. -/
structure Passes (root : NetworkRootPublic) (nowMs : UInt64) (c : NetworkConfigV1)
    (e' : EncryptedConfigEnvelope) (c' : NetworkConfigV1) : Prop where
  signer : ∃ a, c.ListsAdmin a ∧ a.payload.keyId = e'.signerKeyId ∧
    a.Verifies root root.networkId nowMs c.revokedSerials
  valid : c'.Acceptable root root.networkId nowMs

def Follows (root : NetworkRootPublic) (conf : EncryptedConfigEnvelope → NetworkConfigV1)
    (e e' : EncryptedConfigEnvelope) : Prop :=
  ∃ (admin : OnlineAdminKey) (current : ValidatedNetworkConfig) (nowMs : UInt64),
    current.asConfig = conf e ∧ e'.SealedNext root admin current e.head (conf e') nowMs

section Follows

variable {root : NetworkRootPublic} {conf : EncryptedConfigEnvelope → NetworkConfigV1}
  {base e e' : EncryptedConfigEnvelope} {post : List EncryptedConfigEnvelope}
  {key : MemberEncryptionKeypair} {v : ValidatedNetworkConfig} {nowMs : UInt64}

theorem Follows.open_iff (hideal : HpkeIdeal) (h : Follows root conf e e')
    (hkey : (conf e').HasRecipient key.publicBytes) (hv : v.asConfig = conf e)
    (o : OpenedNetworkConfig) :
    e'.openNextConfig root v key e.head nowMs = .ok o ↔
      Passes root nowMs (conf e) e' (conf e') ∧ o.config.asConfig = conf e' ∧
        o.head = e'.head := by
  obtain ⟨admin, current, sealedMs, hcurrent, hsealed⟩ := h
  obtain rfl : current = v := ValidatedNetworkConfig.ext_config (hcurrent.trans hv.symm)
  have hnetwork : current.asConfig.networkId = root.networkId := hsealed.current_network
  rw [EncryptedConfigEnvelope.openNextConfig_eq_ok, hsealed.signedIn_iff,
    hsealed.seals.opensTo_iff hideal, hsealed.seals.header.1]
  have hsigner : (∃ a, current.SignerVerifies root admin.keyId nowMs a) ↔
      ∃ a, (conf e).ListsAdmin a ∧ a.payload.keyId = e'.signerKeyId ∧
        a.Verifies root root.networkId nowMs (conf e).revokedSerials := by
    unfold ValidatedNetworkConfig.SignerVerifies
    rw [hnetwork, hcurrent, hsealed.signed.1]
  rw [hsigner]
  constructor
  · rintro ⟨-, hverifies, -, ⟨-, hvalid, hconfig⟩, hhead⟩
    exact ⟨⟨hverifies, hvalid⟩, hconfig, hhead⟩
  · rintro ⟨hpasses, hconfig, hhead⟩
    exact ⟨⟨rfl, hnetwork⟩, hpasses.signer, hsealed.chainHolds, ⟨hkey, hpasses.valid, hconfig⟩,
      hhead⟩

theorem Applied.head_eq {c c' : ValidatedNetworkConfig} {h h' : ConfigHead}
    {es : List EncryptedConfigEnvelope} (happlied : Applied root key nowMs c h es c' h') :
    ∀ last, es.getLast? = some last → h' = last.head := by
  induction happlied with
  | nil c h => simp
  | @cons c c' h h' e o rest hopen hrest ih =>
    intro last hlast
    cases rest with
    | nil =>
      obtain rfl := Option.some.inj hlast
      cases hrest
      exact (EncryptedConfigEnvelope.openNextConfig_eq_ok.mp hopen).2.2.2.2
    | cons x xs =>
      rw [List.getLast?_cons_cons] at hlast
      exact ih last hlast

theorem applied_iff (hideal : HpkeIdeal) (hfollows : (base :: post).IsChain (Follows root conf))
    (hkey : ∀ e ∈ post, (conf e).HasRecipient key.publicBytes) (hv : v.asConfig = conf base) :
    (∃ v' h', Applied root key nowMs v base.head post v' h') ↔
      (base :: post).IsChain fun e e' => Passes root nowMs (conf e) e' (conf e') := by
  induction post generalizing base v with
  | nil => exact ⟨fun _ => .singleton base, fun _ => ⟨v, base.head, .nil v base.head⟩⟩
  | cons e rest ih =>
    obtain ⟨hfirst, hrest⟩ := List.isChain_cons_cons.mp hfollows
    have hopen : ∀ o, e.openNextConfig root v key base.head nowMs = .ok o ↔
        Passes root nowMs (conf base) e (conf e) ∧ o.config.asConfig = conf e ∧
          o.head = e.head := hfirst.open_iff hideal (hkey e List.mem_cons_self) hv
    have hkey' : ∀ x ∈ rest, (conf x).HasRecipient key.publicBytes :=
      fun x hx => hkey x (List.mem_cons_of_mem e hx)
    rw [List.isChain_cons_cons]
    constructor
    · rintro ⟨v', h', happlied⟩
      cases happlied with
      | @cons _ _ _ _ _ o _ hopened happlied =>
        obtain ⟨hpasses, hconfig, hhead⟩ := (hopen o).mp hopened
        rw [hhead] at happlied
        exact ⟨hpasses, (ih hrest hkey' hconfig).mp ⟨v', h', happlied⟩⟩
    · rintro ⟨hpasses, hothers⟩
      let v₁ : ValidatedNetworkConfig :=
        ⟨conf e, root, root.networkId, nowMs, NetworkConfigV1.check_eq_ok.mpr hpasses.valid⟩
      have hopened := (hopen ⟨v₁, e.head⟩).mpr ⟨hpasses, rfl, rfl⟩
      have hconfig : v₁.asConfig = conf e := rfl
      obtain ⟨v', h', happlied⟩ := (ih hrest hkey' hconfig).mpr hothers
      exact ⟨v', h', .cons hopened happlied⟩

end Follows

variable {last : EncryptedConfigEnvelope}

/-- What holds of all neighbours in the chain from a committed envelope to the last one holds of all
committed envelopes of consecutive revisions from its own on. -/
theorem Chain.neighbours_iff {n : NetworkId} {w : Stores} {base : EncryptedConfigEnvelope}
    {post : List EncryptedConfigEnvelope} (h : Chain n w last)
    (hchain : (base :: post).IsChain Extends) (hlast : (base :: post).getLast? = some last)
    (hcommitted : ∀ e ∈ base :: post, Committed n w e)
    (R : EncryptedConfigEnvelope → EncryptedConfigEnvelope → Prop) :
    (base :: post).IsChain R ↔ ∀ e e', Committed n w e → Committed n w e' →
      base.revision ≤ e.revision → e'.revision.toNat = e.revision.toNat + 1 → R e e' := by
  have hlength := (le_of_chain hchain hlast).1
  constructor
  · intro hR e e' he he' hle hnext
    have hend := h.revision_le he'
    rw [UInt64.le_iff_toNat_le] at hle hend
    obtain ⟨i, hi⟩ := Nat.exists_eq_add_of_le hle
    have hbound : i + 1 < (base :: post).length := by
      rw [List.length_cons]
      omega
    -- the envelopes of these revisions are the ones in the chain
    have hat : ∀ j (hj : j < (base :: post).length) x, Committed n w x →
        x.revision.toNat = base.revision.toNat + j → (base :: post)[j] = x := by
      intro j hj x hx hrevision
      have hget := List.getElem?_eq_getElem hj
      refine (hcommitted _ (List.getElem_mem hj)).unique hx (UInt64.toNat_inj.mp ?_)
      rw [revision_of_chain hchain hget, hrevision]
    have hpair := List.isChain_iff_getElem.mp hR i hbound
    rw [hat i (by omega) e he hi, hat (i + 1) hbound e' he' (by omega)] at hpair
    exact hpair
  · intro hall
    refine hchain.imp_of_mem_imp ?_
    intro e e' he he' hext
    refine hall e e' (hcommitted e he) (hcommitted e' he') ?_ hext.revision
    obtain ⟨i, hi⟩ := List.getElem?_of_mem he
    rw [UInt64.le_iff_toNat_le, revision_of_chain hchain hi]
    omega

variable {handle : PersistedConfigState} {updates : ConfigUpdateBatch}

theorem encodedLength_of_apply {handle' : PersistedConfigState} {nowMs : UInt64} {w w' : Stores}
    {head : ConfigHead} (hne : updates.envelopes ≠ [])
    (h : (handle.apply updates nowMs).run serve w = (.ok (head, handle'), w')) :
    updates.encodedLength ≤ maxUpdateBatchBytes := by
  rcases PersistedConfigState.apply_advanced_cases h with ⟨_, hr, -⟩ | ⟨-, -, hcases⟩
  · cases hr
  rcases hcases with ⟨hempty, -⟩ | ⟨-, es, p, handle₁, -, hadvanced⟩
  · exact absurd hempty hne
  · exact hadvanced.small

/-! ## The batch of a chain -/

variable {a : AdminCertificate}

theorem PersistedConfigState.applyUpdates_iff (hideal : HpkeIdeal) {openedMs nowMs : UInt64}
    {w : Stores} {e : EncryptedConfigEnvelope} {post : List EncryptedConfigEnvelope}
    {conf : EncryptedConfigEnvelope → NetworkConfigV1} (hopened : OpenedOn handle openedMs w e a)
    (hconfig : handle.config.asConfig = conf e) (hlast : (e :: post).getLast? = some last)
    (hfollows : (e :: post).IsChain (Follows handle.root conf))
    (hkey : ∀ x ∈ post, (conf x).HasRecipient handle.encryption.publicBytes)
    (hparse : ∀ x ∈ post, EncryptedConfigEnvelope.fromBytes x.toBytes = .ok x)
    (hmissing : ∀ x ∈ post, w.record handle.scope (configHistoryKey x.revision) = none)
    (hupdates : updates = ⟨handle.networkId, e.head, post.map fun x => x.toBytes⟩)
    (hnew : ConfigUpdateBatch.new updates.networkId updates.baseHead updates.envelopes =
      .ok updates) (hroom : w.state.HasRoom (3 + updates.envelopes.length)) :
    (∃ handle' w', (handle.applyUpdates updates nowMs).run serve w =
        ((.ok last.head, handle'), w')) ↔
      (updates.envelopes ≠ [] → updates.encodedLength ≤ maxUpdateBatchBytes) ∧
        (e :: post).IsChain fun x x' => Passes handle.root nowMs (conf x) x' (conf x') := by
  have hhead : handle.head = e.head := hopened.synced.head
  have hraws : updates.envelopes = post.map fun x => x.toBytes := by rw [hupdates]
  have hnetwork : updates.networkId = handle.networkId := by rw [hupdates]
  have hbase : updates.baseHead = handle.head := by rw [hupdates, hhead]
  have happlied : (∃ c' h', Applied handle.root handle.encryption nowMs handle.config e.head post
      c' h') ↔ _ := applied_iff hideal hfollows hkey hconfig
  rw [hraws, List.length_map] at hroom
  constructor
  · rintro ⟨handle', w', hrun⟩
    rcases applyUpdates_run.mp hrun with ⟨head, -, hok⟩ | ⟨err, hr, -⟩
    · refine ⟨fun hne => encodedLength_of_apply hne hok, happlied.mp ?_⟩
      rcases apply_run_cases hok with ⟨_, hr, -⟩ | ⟨-, -, hcases⟩
      · cases hr
      rcases hcases with ⟨hempty, -⟩ | ⟨es, handle₁, hes, -, hupdated⟩
      · rw [hraws, List.map_eq_nil_iff] at hempty
        rw [hempty]
        exact ⟨handle.config, e.head, .nil _ _⟩
      · -- the envelopes that were applied are those of the chain
        have hsame : es = post := by
          refine EncryptedConfigEnvelope.eq_of_map_toBytes hupdated.parses hparse ?_
          rw [← hes, hraws]
        rw [← hhead, ← hsame]
        exact ⟨_, _, hupdated.applied⟩
    · cases hr
  · rintro ⟨hsmall, hpasses⟩
    cases hpost : post with
    | nil =>
      rw [hpost] at hlast
      have hend : e = last := Option.some.inj hlast
      refine ⟨handle, w, applyUpdates_run.mpr (.inl ⟨_, rfl, ?_⟩)⟩
      have hempty : updates.envelopes = [] := by rw [hraws, hpost, List.map_nil]
      unfold PersistedConfigState.apply
      refine Task.run_lift_bind_eq_ok.mpr ⟨(), failIf_neg (by simp [hnetwork, hbase]), ?_⟩
      rw [if_pos hempty, ← hend, ← hhead]
      rfl
    | cons x rest =>
      have hne : post ≠ [] := by simp [hpost]
      obtain ⟨c', h', happlied⟩ := happlied.mpr hpasses
      have hend : h' = last.head := by
        refine happlied.head_eq last ?_
        rw [hpost, List.getLast?_cons_cons] at hlast
        rw [hpost]
        exact hlast
      rw [← hhead] at happlied
      have hraws' : updates.envelopes ≠ [] := by
        rw [hraws]
        exact fun hnil => hne (List.map_eq_nil_iff.mp hnil)
      obtain ⟨handle', w', hrun⟩ := exists_apply hnetwork hbase hraws hne hparse happlied hnew
        (hsmall hraws') ⟨_, hopened.synced.envelope⟩ ⟨_, hopened.synced.head_record⟩
        ⟨_, hopened.synced.signer_record⟩ hmissing hroom
      rw [hend] at hrun
      exact ⟨handle', w', applyUpdates_run.mpr (.inl ⟨_, rfl, hrun⟩)⟩

/-! ## The authority and the member -/

theorem Tenant.missing_after {encryption : MemberEncryptionKeypair} {first nowMs : UInt64}
    {hs : List PersistedConfigState} {w : Stores} {e : EncryptedConfigEnvelope}
    (h : Tenant handle.root encryption first hs w) (hopened : OpenedOn handle nowMs w e a)
    {r : UInt64} (hr : e.revision < r) : w.record handle.scope (configHistoryKey r) = none := by
  obtain ⟨e₀, rest, hretains, -, hlast⟩ := h.last_of_openedOn hopened
  refine Option.not_isSome_iff_eq_none.mp ?_
  rw [show handle.scope = .member handle.root.networkId from rfl, hretains.revisions hlast]
  exact fun hwithin => absurd hwithin.2 (not_le.mpr hr)

theorem lt_of_chain {e x : EncryptedConfigEnvelope} {post : List EncryptedConfigEnvelope}
    (h : (e :: post).IsChain Extends) (hx : x ∈ post) : e.revision < x.revision := by
  obtain ⟨i, hi⟩ := List.getElem?_of_mem hx
  have hrevision := revision_of_chain h (i := i + 1) hi
  rw [UInt64.lt_iff_toNat_lt]
  omega

section Archive

variable {options : AuthorityInit} {random : InitRandomness} {g : Genesis} {manifest : Bytes}
  {Made : AuthorityCall → Prop} {w w' : Stores}

theorem Archive.exists_conf (hideal : HpkeIdeal) (hg : Initialized options random g manifest w)
    (h : Archive (g.identity random) Made w w') :
    ∃ conf : EncryptedConfigEnvelope → NetworkConfigV1,
      ∀ e, Committed (g.identity random).network w' e → Published (g.identity random) e (conf e) ∧
        ∀ c, e.Seals (g.identity random).root c → c = conf e := by
  have : Nonempty NetworkConfigV1 := ⟨g.config⟩
  choose! conf hconf using fun e (he : Committed (g.identity random).network w' e) =>
    h.published hideal hg he
  refine ⟨conf, ?_⟩
  intro e he
  refine ⟨hconf e he, ?_⟩
  intro c hseals
  have hcontent := ((hconf e he).content_iff hideal).mpr rfl
  exact ((hseals.content_iff hideal _ _).mp hcontent).2.symm

theorem Archive.follows (hideal : HpkeIdeal) (hg : Initialized options random g manifest w)
    (h : Archive (g.identity random) Made w w') {conf : EncryptedConfigEnvelope → NetworkConfigV1}
    (hconf : ∀ e, Committed (g.identity random).network w' e →
      Published (g.identity random) e (conf e) ∧
        ∀ c, e.Seals (g.identity random).root c → c = conf e)
    {e e' : EncryptedConfigEnvelope} (he : Committed (g.identity random).network w' e)
    (he' : Committed (g.identity random).network w' e')
    (hrevision : e'.revision.toNat = e.revision.toNat + 1) :
    Follows (g.identity random).root conf e e' := by
  obtain ⟨handle, c, next, nowMs, -, hcommits⟩ := h.consecutive hg he he' hrevision
  have hnext := (hconf e' he').2 next hcommits.sealed.seals
  have hcurrent := ((hconf e he).1.content_iff hideal).mp hcommits.content
  refine ⟨handle.onlineAdmin, handle.config, nowMs, hcurrent, ?_⟩
  rw [← hnext]
  exact hcommits.sealed

end Archive

/-- When catching up succeeds. A member that joined the authority's network in a store without a
history holds the head of a committed revision, and is listed in every revision from it on. It
applies the batch that the authority serves after its head, and comes to the authority's head,
exactly if the batch is within the limit on the wire and every update in it passes at the time: the
configuration before it lists a certificate of its signer that verifies, and its own configuration
is valid, also where it is not the current one. -/
theorem catch_up_iff (hideal : HpkeIdeal) {options : AuthorityInit} {random : InitRandomness}
    {manifest : Bytes} {init : InitializedAuthority} {w A : Stores}
    (hinit : ( Authority.initialize options random).run serve Stores.empty =
      (.ok (manifest, init), w))
    {log : List (Event (authorityApi manifest))} {self : Authority}
    (hsession : Session manifest none w log (some self) A)
    {stores : MembershipStores} {ticket : JoinTicket} {joinedMs : UInt64} {joinedHead : ConfigHead}
    {w₀ w₁ v : Stores} (hsound : w₀.state.Sound)
    (hempty : ∀ r, w₀.record (.member self.rootPublic.networkId) (configHistoryKey r) = none)
    (hjoin : (join stores self.rootPublic ticket joinedMs).run serve w₀ = (.ok joinedHead, w₁))
    {key : MemberEncryptionKeypair} {hs : List PersistedConfigState}
    (hrun : MemberRun self.rootPublic key w₁ hs v) {handle : PersistedConfigState}
    (hmem : handle ∈ hs) {openedMs : UInt64} {e : EncryptedConfigEnvelope} {a : AdminCertificate}
    (hopened : OpenedOn handle openedMs v e a) (he : Committed self.status.networkId A e)
    (hlisted : ∀ e' c', Committed self.status.networkId A e' → e.revision ≤ e'.revision →
      e'.Seals self.rootPublic c' → c'.HasRecipient key.publicBytes)
    {updates : ConfigUpdateBatch}
    (hserved : ((self.configUpdatesAfter handle.head).run serve A).1 = .ok updates)
    (hroom : v.state.HasRoom (3 + updates.envelopes.length)) (nowMs : UInt64) :
    (∃ handle' v', (handle.applyUpdates updates nowMs).run serve v =
        ((.ok self.status.head, handle'), v')) ↔
      (updates.envelopes ≠ [] → updates.encodedLength ≤ maxUpdateBatchBytes) ∧
        ∀ e₁ e₂ c₁ c₂, Committed self.status.networkId A e₁ →
          Committed self.status.networkId A e₂ → e.revision ≤ e₁.revision →
          e₂.revision.toNat = e₁.revision.toNat + 1 → e₁.Seals self.rootPublic c₁ →
          e₂.Seals self.rootPublic c₂ → Passes self.rootPublic nowMs c₁ e₂ c₂ := by
  obtain ⟨g, hg, -⟩ := initialize_spec hinit
  have hstart : AtWork (g.identity random) none w := AtWork.start hg.inv
  obtain ⟨hwork, -⟩ := hsession.atWork hg.describes hstart
  have harchive := hsession.archive hg.describes hstart
  have hself := hwork.sound self rfl
  obtain ⟨last, hchain⟩ := hwork.inv.chain
  have hhead : self.status.head = last.head := (hwork.synced self last rfl hchain).head
  rw [hself.network] at he hlisted ⊢
  rw [hself.root] at hempty hjoin hrun hlisted ⊢
  obtain ⟨conf, hconf⟩ := harchive.exists_conf hideal hg
  obtain ⟨post, hextends, hlast, hpost⟩ := hchain.exists_after he
  have hall : ∀ x ∈ e :: post, Committed (g.identity random).network A x :=
    List.forall_mem_cons.mpr ⟨he, hpost⟩
  -- the member has the records of the envelope, and none of the later revisions
  obtain ⟨e₀, hparse₀, -, -, -, hrecord₀, -, -, hhistory⟩ := join_records hjoin
  have hparse₀' := EncryptedConfigEnvelope.toBytes_of_fromBytes hparse₀
  rw [← hparse₀'] at hparse₀
  have hsound₁ : w₁.state.Sound := by
    have hlater := run_later (join stores (g.identity random).root ticket joinedMs) w₀
    rw [show Prog.run serve _ w₀ = _ from hjoin] at hlater
    exact hlater.2 hsound
  have hempty₁ : ∀ r, w₁.record (.member (g.identity random).root.networkId)
      (configHistoryKey r) = none := fun r => (hhistory r).trans (hempty r)
  rcases hrun.tenant hsound₁ hempty₁ hparse₀ hrecord₀ with ⟨rfl, -⟩ | htenant
  · cases hmem
  obtain ⟨hroot, rfl, -⟩ := htenant.handles handle hmem
  rw [← hroot] at htenant
  have hmissing : ∀ x ∈ post, v.record handle.scope (configHistoryKey x.revision) = none :=
    fun x hx => htenant.missing_after hopened (lt_of_chain hextends hx)
  have hfollows : (e :: post).IsChain (Follows handle.root conf) := by
    rw [hroot]
    exact hextends.imp_of_mem_imp fun x x' hx hx' hext =>
      harchive.follows hideal hg hconf (hall x hx) (hall x' hx') hext.revision
  have hkey : ∀ x ∈ post, (conf x).HasRecipient handle.encryption.publicBytes := fun x hx =>
    hlisted x (conf x) (hpost x hx) (lt_of_chain hextends hx).le (hconf x (hpost x hx)).1.seals
  have hconfig : handle.config.asConfig = conf e := by
    have hopens := hopened.opens
    rw [hroot, (hconf e he).1.seals.opensTo_iff hideal] at hopens
    exact hopens.2.2
  -- the batch is the rest of the chain
  have hparse : ∀ x ∈ post, EncryptedConfigEnvelope.fromBytes x.toBytes = .ok x :=
    fun x hx => (hpost x hx).1
  have hnetwork : ∀ x ∈ post, x.networkId = handle.networkId := by
    intro x hx
    rw [harchive.network hg (hpost x hx), ← hself.root_network, ← hroot]
    rfl
  have hnew : ConfigUpdateBatch.new handle.networkId e.head (post.map fun x => x.toBytes) =
      .ok updates := by
    rw [hopened.synced.head, configUpdatesAfter_run hself.network hextends hall hlast hhead,
      mapError_eq_ok, ← hself.root_network, ← hroot] at hserved
    exact hserved
  obtain ⟨-, hupdates⟩ := (new_eq_ok_of_chain hextends hparse hnetwork).mp hnew
  have hnew' : ConfigUpdateBatch.new updates.networkId updates.baseHead updates.envelopes =
      .ok updates := by
    rw [hupdates] at hnew ⊢
    exact hnew
  rw [hhead, PersistedConfigState.applyUpdates_iff hideal hopened hconfig hlast hfollows hkey hparse
    hmissing hupdates hnew' hroom, hroot, hchain.neighbours_iff hextends hlast hall]
  refine and_congr_right fun _ => ?_
  constructor
  · intro hpasses e₁ e₂ c₁ c₂ he₁ he₂ hle hrevision hc₁ hc₂
    rw [(hconf e₁ he₁).2 c₁ hc₁, (hconf e₂ he₂).2 c₂ hc₂]
    exact hpasses e₁ e₂ he₁ he₂ hle hrevision
  · intro hpasses e₁ e₂ he₁ he₂ hle hrevision
    exact hpasses e₁ e₂ _ _ he₁ he₂ hle hrevision (hconf e₁ he₁).1.seals (hconf e₂ he₂).1.seals

end Weaver

namespace Weaver.Sample

open Checked Wire Versioned Program Transparent

def wrapped (w : Stores) (r : UInt64) : Bool :=
  match w.record (.authority root.public.networkId) (historyKey r) with
  | none => false
  | some record =>
    match EncryptedConfigEnvelope.fromBytes record.bytes with
    | .error _ => false
    | .ok e => (e.memberKeyWraps.findSome? fun wrap => unwrapContentKey memberKey wrap e.aad).isSome

/-- The sample member joins and opens a handle. Then the sample authority registers a relay that
expires early, and removes it. At an early time the member applies the batch of the updates. After
the relay has expired it does not, while the authority's configuration, which has no relay, is
valid. -/
def skipping : Option (Authority × Stores × JoinTicket × Stores × ConfigHead × Stores ×
    PersistedConfigState × Stores × ConfigUpdateBatch) := do
  let (_, _, s) ← inviting
  let (ticket, w₀, head, w₁) ← joining
  let (handle, v) ← succeed (PersistedConfigState.open root.public memberKey 1100) w₁
  let (_, s) ← s.perform (.call (.registerRelay ⟨fill 8, valid_eight⟩ "https://brief" .dataRelay 1200
    1100 sealing))
  let (_, s) ← s.perform (.call (.removeRelay ⟨fill 8, valid_eight⟩ 1100 sealing))
  let self ← s.1
  let first ← s.2.record (.authority root.public.networkId) (historyKey 1)
  guard (first.bytes = ticket.embeddedConfig)
  guard (self.rootPublic.verifyingKey = root.public.verifyingKey ∧
    self.status.networkId = root.public.networkId)
  guard (handle.head.revision = 1 ∧ self.status.head.revision = 3 ∧ wrapped s.2 1 ∧
    wrapped s.2 2 ∧ wrapped s.2 3)
  let (updates, _) ← succeed (self.configUpdatesAfter handle.head) s.2
  guard (v.state.nextRecord.toNat + (3 + updates.envelopes.length) < 2^64 ∧
    v.state.nextCommit.toNat + 1 < 2^64)
  guard (((handle.applyUpdates updates 1100).run serve v).1.1 = .ok self.status.head)
  guard (((handle.applyUpdates updates 1300).run serve v).1.1.isOk = false)
  guard ((self.config.asConfig.check root.public root.public.networkId 1300).isOk = true)
  return (self, s.2, ticket, w₀, head, w₁, handle, v, updates)

set_option maxRecDepth 100000 in
theorem skipping_isSome : skipping.isSome = true := by decide +kernel

variable {e : EncryptedConfigEnvelope}

theorem recipient_of_wrapped {w : Stores} {c : NetworkConfigV1} (h : wrapped w e.revision = true)
    (he : Committed root.public.networkId w e) (hseals : e.Seals root.public c) :
    c.HasRecipient memberKey.publicBytes := by
  obtain ⟨hparse, v, hrecord⟩ := he
  unfold wrapped at h
  simp only [hrecord, VersionedBytes.bytes, hparse] at h
  obtain ⟨contentKey, hfound⟩ := Option.isSome_iff_exists.mp h
  exact hseals.recipient_of_find hpkeIdeal hfound

/-- The sample member is behind the sample authority: the authority is at work, the member joined
and opened a handle on a committed envelope, it is listed from then on, and the batch is served. -/
structure Skips (log : List (Event (authorityApi manifest))) (authority : Authority) (A : Stores)
    (ticket : JoinTicket) (head : ConfigHead) (w₀ w₁ : Stores) (handle : PersistedConfigState)
    (v : Stores) (updates : ConfigUpdateBatch) (e : EncryptedConfigEnvelope)
    (a : AdminCertificate) : Prop where
  session : Session manifest none stores log (some authority) A
  named : NamedOnly log
  sound : w₀.state.Sound
  empty : ∀ r, w₀.record (.member authority.rootPublic.networkId) (configHistoryKey r) = none
  join : (join memberStores authority.rootPublic ticket 1100).run serve w₀ = (.ok head, w₁)
  run : MemberRun authority.rootPublic memberKey w₁ [handle] v
  opened : OpenedOn handle 1100 v e a
  committed : Committed authority.status.networkId A e
  listed : ∀ e' c', Committed authority.status.networkId A e' → e.revision ≤ e'.revision →
    e'.Seals authority.rootPublic c' → c'.HasRecipient memberKey.publicBytes
  served : ((authority.configUpdatesAfter handle.head).run serve A).1 = .ok updates
  room : v.state.HasRoom (3 + updates.envelopes.length)

variable {self : Authority}

theorem committed_le {log : List (Event (authorityApi manifest))} {A : Stores}
    (hsession : Session manifest none stores log (some self) A)
    (he : Committed self.status.networkId A e) : e.revision ≤ self.status.head.revision := by
  obtain ⟨init, hinit⟩ := initialize_eq_ok
  obtain ⟨g, hg, -⟩ := initialize_spec hinit
  obtain ⟨hwork, -⟩ := hsession.atWork hg.describes (AtWork.start hg.inv)
  obtain ⟨last, hchain⟩ := hwork.inv.chain
  rw [(hwork.sound self rfl).network] at he
  rw [(hwork.synced self last rfl hchain).head]
  exact hchain.revision_le he

theorem skipping_spec {A w₀ w₁ v : Stores} {ticket : JoinTicket} {head : ConfigHead}
    {handle : PersistedConfigState} {updates : ConfigUpdateBatch}
    (h : skipping = some (self, A, ticket, w₀, head, w₁, handle, v, updates)) :
    (∃ log e a, Skips log self A ticket head w₀ w₁ handle v updates e a) ∧
    ((handle.applyUpdates updates 1100).run serve v).1.1 = .ok self.status.head ∧
    ((handle.applyUpdates updates 1300).run serve v).1.1.isOk = false ∧
    self.config.asConfig.Acceptable self.rootPublic self.status.networkId 1300 := by
  unfold skipping at h
  simp only [Option.bind_eq_bind, Option.bind_eq_some_iff, Prod.exists,
    Option.guard_eq_some', exists_const, Option.pure_def, succeed_eq_some, Option.some.injEq,
    Prod.mk.injEq] at h
  obtain ⟨prepared, _, h₁, w₂, hinviting, ticket, w₀, head, w₁, hjoining, handle, v, hopen, _, h₃,
    w₃, hrelay, _, h₄, A, hremove, self, rfl, ⟨u, bytes⟩, hfirst, hbytes, ⟨hverifying, hnetwork⟩,
    ⟨hrevision, hlast, hwrap₁, hwrap₂, hwrap₃⟩, updates, _, hserved, hroom, hearly, hlate, hvalid,
    rfl, rfl, rfl, rfl, rfl, rfl, rfl, rfl, rfl⟩ := h
  have hroot := NetworkRootPublic.ext_key hverifying
  obtain ⟨-, log, hsession, hnamed, -⟩ := inviting_session hinviting
  obtain ⟨hsound, hempty, -, hjoin, -⟩ := joining_spec hjoining
  have hsession' := Solo.session (Solo.session hsession hrelay) hremove
  rcases open_run_cases hopen with ⟨_, hr, -⟩ | ⟨_, e, a, hr, hroot', -, hopened, hseeded⟩
  · cases hr
  obtain rfl := Except.ok.inj hr
  -- the handle is opened on the envelope of the ticket
  obtain ⟨e₀, hparse, -, -, -, ⟨v₀, hrecord⟩, -⟩ := join_records hjoin
  have hstored := hopened.synced.envelope
  rw [PersistedConfigState.scope, PersistedConfigState.networkId, hroot', hrecord] at hstored
  have hticket : ticket.embeddedConfig = e.toBytes :=
    (EncryptedConfigEnvelope.toBytes_of_fromBytes hparse).symm.trans
      (congrArg Entry.value (Option.some.inj hstored))
  have hfirst' : e.revision = 1 := by
    rw [← hrevision, hopened.synced.head]
    rfl
  rw [← hroot'] at hseeded
  refine ⟨⟨_, e, a, hsession', ?_, hsound, ?_, ?_, ?_, hopened.seeded hseeded, ?_, ?_, ?_, ?_⟩,
    hearly, hlate, ?_⟩
  · intro event hmem c hcall
    rcases List.mem_cons.mp hmem with rfl | hmem
    · cases hcall
      trivial
    rcases List.mem_cons.mp hmem with rfl | hmem
    · cases hcall
      trivial
    · exact hnamed event hmem c hcall
  · rw [hroot]
    exact hempty
  · rw [hroot]
    exact hjoin
  · rw [hroot]
    exact .opened .joined hopen
  · refine ⟨hopened.parses, u, ?_⟩
    rw [hnetwork, hfirst', hfirst, ← hticket, ← hbytes]
  · intro e' c' he' hle hseals
    rw [hnetwork] at he'
    rw [hroot] at hseals
    have hend := committed_le hsession' (hnetwork.symm ▸ he')
    rw [hfirst', UInt64.le_iff_toNat_le] at hle
    rw [hlast, UInt64.le_iff_toNat_le] at hend
    -- the revision is one of the three
    have hcases : e'.revision = 1 ∨ e'.revision = 2 ∨ e'.revision = 3 := by
      simp only [← UInt64.toNat_inj]
      change 1 ≤ _ at hle
      change _ ≤ 3 at hend
      change _ = 1 ∨ _ = 2 ∨ _ = 3
      omega
    refine recipient_of_wrapped ?_ he' hseals
    rcases hcases with hr | hr | hr
    · rw [hr]
      exact hwrap₁
    · rw [hr]
      exact hwrap₂
    · rw [hr]
      exact hwrap₃
  · rw [hserved]
  · exact ⟨hroom.1, hroom.2⟩
  · rw [hroot, hnetwork]
    cases hcheck : self.config.asConfig.check root.public root.public.networkId 1300 with
    | error err =>
      rw [hcheck] at hvalid
      cases hvalid
    | ok u => exact NetworkConfigV1.check_eq_ok.mp hcheck

/-- Before the relay expires the sample member catches up, and every update passes. -/
theorem catch_up_iff_sample : ∃ (self : Authority) (A w₀ w₁ v v' : Stores) (ticket : JoinTicket)
    (head : ConfigHead) (handle handle' : PersistedConfigState) (updates : ConfigUpdateBatch),
    skipping = some (self, A, ticket, w₀, head, w₁, handle, v, updates) ∧
    (handle.applyUpdates updates 1100).run serve v = ((.ok self.status.head, handle'), v') ∧
    ∀ e₁ e₂ c₁ c₂, Committed self.status.networkId A e₁ → Committed self.status.networkId A e₂ →
      handle.head.revision ≤ e₁.revision → e₂.revision.toNat = e₁.revision.toNat + 1 →
      e₁.Seals self.rootPublic c₁ → e₂.Seals self.rootPublic c₂ →
      Passes self.rootPublic 1100 c₁ e₂ c₂ := by
  obtain ⟨init, hinit⟩ := initialize_eq_ok
  obtain ⟨⟨self, A, ticket, w₀, head, w₁, handle, v, updates⟩, hskipping⟩ :=
    Option.isSome_iff_exists.mp skipping_isSome
  obtain ⟨⟨log, e, a, h⟩, hearly, -⟩ := skipping_spec hskipping
  have hiff := catch_up_iff hpkeIdeal hinit h.session h.sound h.empty h.join h.run
    (List.mem_singleton.mpr rfl) h.opened h.committed h.listed h.served h.room 1100
  rcases hrun : (handle.applyUpdates updates 1100).run serve v with ⟨⟨r, handle'⟩, v'⟩
  rw [hrun] at hearly
  obtain rfl : r = .ok self.status.head := hearly
  obtain ⟨-, hpasses⟩ := hiff.mp ⟨handle', v', hrun⟩
  rw [show e.revision = handle.head.revision by rw [h.opened.synced.head]; rfl] at hpasses
  exact ⟨self, A, w₀, w₁, v, v', ticket, head, handle, handle', updates, hskipping, hrun, hpasses⟩

/-- After the relay has expired the sample member does not catch up, although the authority's
configuration is valid. -/
theorem left_behind_by_lapse : ∃ (log : List (Event (authorityApi manifest))) (self : Authority)
    (A w₀ w₁ v : Stores) (ticket : JoinTicket) (head : ConfigHead) (handle : PersistedConfigState)
    (updates : ConfigUpdateBatch) (e : EncryptedConfigEnvelope) (a : AdminCertificate),
    Skips log self A ticket head w₀ w₁ handle v updates e a ∧
    self.config.asConfig.Acceptable self.rootPublic self.status.networkId 1300 ∧
    ∀ head' handle' v', (handle.applyUpdates updates 1300).run serve v ≠
      ((.ok head', handle'), v') := by
  obtain ⟨⟨self, A, ticket, w₀, head, w₁, handle, v, updates⟩, hskipping⟩ :=
    Option.isSome_iff_exists.mp skipping_isSome
  obtain ⟨⟨log, e, a, h⟩, -, hlate, hvalid⟩ := skipping_spec hskipping
  refine ⟨log, self, A, w₀, w₁, v, ticket, head, handle, updates, e, a, h, hvalid, ?_⟩
  intro head' handle' v' hrun
  rw [hrun] at hlate
  cases hlate

end Weaver.Sample
