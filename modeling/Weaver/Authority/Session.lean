import Weaver.Authority.Ledger
import Weaver.Authority.Reopening

/-!
# One administrator at work

A session is one process on an authority's stores that no other process touches and that do not
fail: it opens a handle, calls methods on it one after the other, and may open a new one at any time.
`Turn` says what one request does: it commits no envelope, or it commits the configuration that its
call plans, and then the handle is that of the new envelope. Results about whole sessions follow
from what a turn does.
-/

namespace Weaver

open Checked Wire Versioned Program

variable [Crypto]

/-! ## Committing, without other processes -/

/-- The handle has committed the configuration: what it sealed, what it wrote, and the handle that
it has become. -/
structure Authority.Moved (handle : Authority) (next : NetworkConfigV1) (nowMs : UInt64)
    (random : SealRandomness) (rest : List (Operation StoreKey Bytes)) (w : Stores)
    (e : EncryptedConfigEnvelope) (opened : OpenedNetworkConfig) (handle' : Authority)
    (w' : Stores) : Prop where
  seals : handle.sealNext next nowMs random = .ok (e, opened)
  /-- The batch of the revision was committed, with the operations `rest`. -/
  batch : ∃ batch version, batch.scope = handle.scope ∧
    batch.operations =
      revisionOperations handle.envelopeRecordVersion handle.headRecordVersion e ++ rest ∧
    w.state.commitBatch batch = .ok (version, w'.state)
  size : e.toBytes.length ≤ maxValueLen
  secrets : w'.secrets = w.secrets
  envelope : w'.record handle.scope keyEnvelope =
    some ⟨handle'.envelopeRecordVersion, e.toBytes⟩
  head : w'.record handle.scope keyHead = some ⟨handle'.headRecordVersion, encodeHead e.head⟩
  /-- The rest of the handle is as it was, but for its configuration and its status. -/
  handle : handle' = { handle with
    envelopeRecordVersion := handle'.envelopeRecordVersion
    headRecordVersion := handle'.headRecordVersion
    config := opened.config
    status := { handle.status with head := e.head, relayUrl := handle'.status.relayUrl } }

section Run

variable {self : Authority} {next : NetworkConfigV1} {nowMs : UInt64} {random : SealRandomness}
  {w w' : Stores}

theorem Authority.commitConfig_of_commit {e : EncryptedConfigEnvelope}
    {opened : OpenedNetworkConfig} {batch : AtomicBatch} {version : UInt64}
    (hseal : self.sealNext next nowMs random = .ok (e, opened))
    (hbatch : self.revisionBatch e.toBytes e.head = .ok batch)
    (hcommit : w.state.commitBatch batch = .ok (version, w'.state))
    (hsecrets : w'.secrets = w.secrets) :
    ∃ self', (self.commitConfig next nowMs random).run serve w = (.ok (self'.status, self'), w') ∧
      self.Moved next nowMs random [] w e opened self' w' ∧
      self'.status.relayUrl = firstRelayUrl opened.config.asConfig := by
  obtain ⟨-, -, hhead⟩ := Authority.sealNext_spec hseal
  obtain ⟨hscope, hops, hlen⟩ := Authority.revisionBatch_spec hbatch
  have henvelope : .put keyEnvelope e.toBytes (.exact self.envelopeRecordVersion) ∈
      batch.operations := by simp [hops, revisionOperations]
  have hheadop : .put keyHead (encodeHead e.head) (.exact self.headRecordVersion) ∈
      batch.operations := by simp [hops, revisionOperations]
  -- nobody else writes, so what is read back is what was written
  obtain ⟨v, hv⟩ := Stores.record_of_put hcommit henvelope
  obtain ⟨v', hv'⟩ := Stores.record_of_put hcommit hheadop
  rw [hscope] at hv hv'
  have hdecode : decodeHead (encodeHead e.head) = .ok e.head := decodeHeadOr_encodeHead _ _
  have hrun := commitRecords_run.mpr ⟨hcommit, hsecrets⟩
  refine ⟨{ self with
    envelopeRecordVersion := v
    headRecordVersion := v'
    config := opened.config
    status := { self.status with
      head := opened.head, relayUrl := firstRelayUrl opened.config.asConfig } }, ?_, ?_, rfl⟩
  · unfold Authority.commitConfig
    rw [hseal, Task.run_lift_ok_bind]
    simp only [hhead]
    rw [hbatch, mapError_ok, Task.run_lift_ok_bind, Task.run_bind, hrun]
    simp only
    rw [Task.run_bind, readExisting_run, hv]
    simp only [okOr_some]
    rw [Task.run_bind, readExisting_run, hv']
    simp only [okOr_some, VersionedBytes.bytes]
    rw [failIf_neg (by simp), Task.run_lift_ok_bind, hdecode, Task.run_lift_ok_bind,
      failIf_neg (by simp), Task.run_lift_ok_bind]
    rfl
  · refine ⟨hseal, ⟨batch, version, hscope, ?_, hcommit⟩, hlen, hsecrets, hv, hv', ?_⟩
    · rw [hops, List.append_nil]
    · rw [hhead]

variable {r : Except AuthorityError (AuthorityStatus × Authority)}

theorem Authority.commitConfig_run
    (h : (self.commitConfig next nowMs random).run serve w = (r, w')) :
    (∃ e, r = .error e ∧ w' = w) ∨
      ∃ e opened self', r = .ok (self'.status, self') ∧
        self.Moved next nowMs random [] w e opened self' w' ∧
        self'.status.relayUrl = firstRelayUrl opened.config.asConfig := by
  have hrun := h
  unfold Authority.commitConfig at h
  rcases Task.run_lift_cases h with herror | ⟨⟨e, opened⟩, hseal, h⟩
  · exact .inl herror
  rcases Task.run_lift_cases h with herror | ⟨batch, hbatch, h⟩
  · exact .inl herror
  obtain ⟨-, -, hhead⟩ := Authority.sealNext_spec hseal
  rw [mapError_eq_ok] at hbatch
  simp only [hhead] at hbatch
  rcases Task.run_bind_cases h with ⟨error, hcommit, hr⟩ | ⟨version, w₁, hcommit, -⟩
  · rcases commitRecords_run_cases hcommit with ⟨e', -, hw⟩ | ⟨version, hok, -⟩
    · exact .inl ⟨error, hr, hw⟩
    · cases hok
  obtain ⟨hcommitted, hsecrets⟩ := commitRecords_run.mp hcommit
  obtain ⟨self', hok, hmoved, hrelay⟩ :=
    Authority.commitConfig_of_commit hseal hbatch hcommitted hsecrets
  rw [hok] at hrun
  obtain ⟨rfl, rfl⟩ := Prod.mk.inj hrun
  exact .inr ⟨e, opened, self', rfl, hmoved, hrelay⟩

theorem Authority.commitPlan_run {plan : Except AuthorityError NetworkConfigV1}
    (h : (self.commitPlan plan nowMs random).run serve w = (r, w')) :
    (∃ e, r = .error e ∧ w' = w) ∨
      ∃ next e opened self', plan = .ok next ∧ r = .ok (self'.status, self') ∧
        self.Moved next nowMs random [] w e opened self' w' ∧
        self'.status.relayUrl = firstRelayUrl opened.config.asConfig := by
  unfold Authority.commitPlan at h
  rcases Task.run_lift_cases h with herror | ⟨next, hplan, h⟩
  · exact .inl herror
  rcases Authority.commitConfig_run h with herror | ⟨e, opened, self', hr, hmoved, hrelay⟩
  · exact .inl herror
  · exact .inr ⟨next, e, opened, self', hplan, hr, hmoved, hrelay⟩

theorem Authority.registerApp_run {request : AppRegistrationRequest}
    {r : Except AuthorityError (RegisteredApp × Authority)}
    (h : (self.registerApp request nowMs random).run serve w = (r, w')) :
    (∃ e, r = .error e ∧ w' = w) ∨
      ∃ planned e opened self' value, self.planRegisterApp request nowMs = .ok planned ∧
        r = .ok (value, self') ∧ self.Moved planned.1 nowMs random [] w e opened self' w' ∧
        self'.status.relayUrl = firstRelayUrl opened.config.asConfig := by
  unfold Authority.registerApp at h
  rcases Task.run_lift_cases h with herror | ⟨⟨next, registration⟩, hplan, h⟩
  · exact .inl herror
  rcases Task.run_bind_cases h with ⟨error, hcommit, hr⟩ | ⟨⟨status, self'⟩, w₁, hcommit, h⟩
  · rcases Authority.commitConfig_run hcommit with ⟨_, -, hw⟩ | ⟨_, _, _, hok, -⟩
    · exact .inl ⟨error, hr, hw⟩
    · cases hok
  · rcases Authority.commitConfig_run hcommit with ⟨_, herror, -⟩ | ⟨e, opened, _, hok, hmoved, hrelay⟩
    · cases herror
    · obtain ⟨-, rfl⟩ := Prod.mk.inj (Except.ok.inj hok)
      rw [Task.run_pure] at h
      obtain ⟨rfl, rfl⟩ := Prod.mk.inj h
      exact .inr ⟨(next, registration), e, opened, _, _, hplan, rfl, hmoved, hrelay⟩

variable {secrets : Option EpochSecrets}

theorem Authority.inviteMember_run {request : JoinRequest} {binding : EndpointBinding}
    {roles : MemberRoles} {validForMs : UInt64} {r : Except AuthorityError JoinTicket}
    {self' : Authority}
    (h : (self.inviteMember request binding roles nowMs validForMs secrets random).run serve w =
      ((r, self'), w')) :
    (∃ e, r = .error e ∧ self' = self ∧ w' = w) ∨
      ∃ a e opened,
        self.planInvite request binding roles nowMs validForMs secrets = .ok a ∧
        self.Moved a.next nowMs random [] w e opened self' w' ∧
        self'.status.relayUrl = firstRelayUrl opened.config.asConfig ∧
        r = JoinTicket.issue self.onlineAdmin self.status.networkId a.nonce a.expiresAtMs e.head
          self.adminCertificate a.member.toBytes binding.toBytes e.toBytes := by
  unfold Authority.inviteMember at h
  split at h
  · obtain ⟨hpair, rfl⟩ := Prod.mk.inj h
    obtain ⟨rfl, rfl⟩ := Prod.mk.inj hpair
    exact .inl ⟨_, rfl, rfl, rfl⟩
  · next a hplan =>
    rw [Task.run_then] at h
    rcases hcommit : (self.commitConfig a.next nowMs random).run serve w with ⟨result, w₁⟩
    rw [hcommit] at h
    rcases Authority.commitConfig_run hcommit with
      ⟨error, rfl, rfl⟩ | ⟨e, opened, moved, rfl, hmoved, hrelay⟩
    · obtain ⟨hpair, rfl⟩ := Prod.mk.inj h
      obtain ⟨rfl, rfl⟩ := Prod.mk.inj hpair
      exact .inl ⟨_, rfl, rfl, rfl⟩
    · -- the ticket carries the envelope that was just committed
      have hscope : moved.scope = self.scope := by
        rw [hmoved.handle]
        rfl
      have hhead : moved.status.head = e.head := by
        rw [hmoved.handle]
      simp only at h
      rw [Task.run_then] at h
      unfold Authority.inviteTicket at h
      rw [Task.run_bind, readExisting_run, hscope, hmoved.envelope] at h
      simp only [okOr_some, Task.run_lift, Prog.run_ret, hhead, VersionedBytes.bytes] at h
      obtain ⟨hpair, rfl⟩ := Prod.mk.inj h
      obtain ⟨rfl, rfl⟩ := Prod.mk.inj hpair
      refine .inr ⟨a, e, opened, hplan, hmoved, hrelay, ?_⟩
      rw [hmoved.handle]

/-- A redemption that was committed: the pending record that it found, the admission that it
planned, and the ticket that it issued and stored. -/
structure Authority.Redeemed (handle : Authority) (invitation : InvitationBundle)
    (prepared : PreparedJoinRequest) (clientAppRoot : AppRootKey) (nowMs : UInt64)
    (secrets : Option EpochSecrets) (w : Stores) (redemption : Redemption)
    (e : EncryptedConfigEnvelope) (ticket : JoinTicket) (pending : VersionedBytes)
    (consumed : Bytes) : Prop where
  checked : handle.checkRedeem invitation prepared clientAppRoot nowMs = .ok ()
  pending : w.record handle.scope (invitationKey invitation.invitationId) = some pending
  planned : handle.planRedeem invitation prepared clientAppRoot nowMs secrets = .ok redemption
  issued : JoinTicket.issue handle.onlineAdmin handle.status.networkId redemption.nonce
    redemption.expiresAtMs e.head handle.adminCertificate redemption.member.toBytes
    prepared.endpointBinding.toBytes e.toBytes = .ok ticket
  consumed : encodeConsumed (hash prepared.toBytes) ticket = .ok consumed

theorem Authority.redeemInvitation_cases {invitation : InvitationBundle}
    {prepared : PreparedJoinRequest} {clientAppRoot : AppRootKey}
    {r : Except AuthorityError (JoinTicket × Authority)}
    (h : (self.redeemInvitation invitation prepared clientAppRoot nowMs secrets random).run serve w =
      (r, w')) :
    (∃ e, r = .error e ∧ w' = w) ∨
      (∃ record ticket, self.checkRedeem invitation prepared clientAppRoot nowMs = .ok () ∧
        w.record self.scope (invitationKey invitation.invitationId) = some record ∧
        decodeConsumed record.bytes (hash prepared.toBytes) = .ok ticket ∧
        r = .ok (ticket, self) ∧ w' = w) ∨
      ∃ redemption e opened ticket pending consumed self',
        self.Redeemed invitation prepared clientAppRoot nowMs secrets w redemption e ticket pending
          consumed ∧
        self.Moved redemption.next nowMs random
          [.put (invitationKey invitation.invitationId) consumed (.exact pending.version)] w e
          opened self' w' ∧
        self'.status.relayUrl = self.status.relayUrl ∧ r = .ok (ticket, self') := by
  unfold Authority.redeemInvitation at h
  rcases Task.run_lift_cases h with herror | ⟨_, hcheck, h⟩
  · exact .inl herror
  rw [Task.run_bind, readExisting_run] at h
  cases hrecord : w.record self.scope (invitationKey invitation.invitationId) with
  | none =>
    rw [hrecord] at h
    obtain ⟨rfl, rfl⟩ := Prod.mk.inj h
    exact .inl ⟨_, rfl, rfl⟩
  | some record =>
    rw [hrecord] at h
    simp only [okOr_some] at h
    split at h
    · -- the invitation is consumed, and the record answers
      rcases Task.run_lift_cases h with herror | ⟨ticket, hdecode, h⟩
      · exact .inl herror
      rw [Task.run_pure] at h
      obtain ⟨rfl, rfl⟩ := Prod.mk.inj h
      exact .inr (.inl ⟨record, ticket, hcheck, rfl, hdecode, rfl, rfl⟩)
    rcases Task.run_lift_cases h with herror | ⟨_, -, h⟩
    · exact .inl herror
    rcases Task.run_lift_cases h with herror | ⟨⟨batch, opened, ticket⟩, hseal, h⟩
    · exact .inl herror
    unfold Authority.sealRedeem at hseal
    simp only [bind_eq_ok, pure_eq_ok_iff, Prod.mk.injEq] at hseal
    obtain ⟨redemption, hplan, ⟨e, o⟩, hnext, t, hissue, b, hbatch, rfl, rfl, rfl⟩ := hseal
    obtain ⟨-, -, hhead⟩ := Authority.sealNext_spec hnext
    simp only [hhead] at hissue hbatch
    obtain ⟨consumed, hconsumed, hscope, hops, hlen⟩ := Authority.redemptionBatch_spec hbatch
    rcases Task.run_bind_cases h with ⟨error, hcommit, hr⟩ | ⟨version, w₁, hcommit, h⟩
    · rcases commitRecords_run_cases hcommit with ⟨e', -, hw⟩ | ⟨version, hok, -⟩
      · exact .inl ⟨error, hr, hw⟩
      · cases hok
    obtain ⟨hcommitted, hsecrets⟩ := commitRecords_run.mp hcommit
    have henvelope : .put keyEnvelope e.toBytes (.exact self.envelopeRecordVersion) ∈
        b.operations := by simp [hops, revisionOperations]
    have hheadop : .put keyHead (encodeHead e.head) (.exact self.headRecordVersion) ∈
        b.operations := by simp [hops, revisionOperations]
    obtain ⟨v, hv⟩ := Stores.record_of_put hcommitted henvelope
    obtain ⟨v', hv'⟩ := Stores.record_of_put hcommitted hheadop
    rw [hscope] at hv hv'
    simp only at h
    rw [Task.run_bind, readExisting_run, hv] at h
    simp only [okOr_some] at h
    rw [Task.run_bind, readExisting_run, hv'] at h
    simp only [okOr_some, Task.run_pure] at h
    obtain ⟨rfl, rfl⟩ := Prod.mk.inj h
    refine .inr (.inr ⟨redemption, e, o, t, record, consumed,
      { self with
        envelopeRecordVersion := v
        headRecordVersion := v'
        config := o.config
        status := { self.status with head := o.head } }, ?_, ?_, rfl, rfl⟩)
    · exact ⟨hcheck, hrecord, hplan, hissue, hconsumed⟩
    · refine ⟨hnext, ⟨b, version, hscope, hops, hcommitted⟩, hlen, hsecrets, hv, hv', ?_⟩
      rw [hhead]

end Run

section Session

variable {I : Identity} {manifest : Bytes} {w w' : Stores}

/-! ## One request -/

/-- What a request does, and whether it succeeds, when nobody else is at work and the stores do not
fail. -/
inductive Turn (I : Identity) (handle : Option Authority) (w : Stores)
    (request : AuthorityRequest) (ok : Bool) (handle' : Option Authority) (w' : Stores) : Prop
  /-- It leaves the chain and the handle as they were. A request that only commits a configuration
  has failed then, and one that redeems an invitation has changed nothing. -/
  | stayed : SameChain I w w' → handle' = handle → (request.Advances → ok = false) →
      (∀ invitation prepared, request.Redeems invitation prepared → w' = w) →
      Turn I handle w request ok handle' w'
  | opened (nowMs : UInt64) (last : EncryptedConfigEnvelope) (self : Authority) :
      request = .open nowMs → Chain I.network w last → self.OpenedOn I w last nowMs → w' = w →
      handle' = some self → Turn I handle w request ok handle' w'
  | moved (self : Authority) (c : AuthorityCall) (next : NetworkConfigV1) (nowMs : UInt64)
      (random : SealRandomness) (rest : List (Operation StoreKey Bytes))
      (e : EncryptedConfigEnvelope) (opened : OpenedNetworkConfig) (self' : Authority) :
      handle = some self → request = .call c → self.Plans c next nowMs random →
      self.Moved next nowMs random rest w e opened self' w' →
      (∀ op ∈ rest, ∃ id, op.key = invitationKey id) →
      (self'.status.relayUrl = firstRelayUrl opened.config.asConfig ∨
        self'.status.relayUrl = self.status.relayUrl ∧
          next.relays = self.config.asConfig.relays) →
      handle' = some self' → ok = true → Turn I handle w request ok handle' w'

variable {self' : Authority}

variable {self : Authority}

theorem updating_run {α : Type} {x : StoreTask AuthorityError (α × Authority)}
    {r : Except AuthorityError α} (h : (updating self x).run serve w = ((r, self'), w')) :
    (∃ e, x.run serve w = (.error e, w') ∧ r = .error e ∧ self' = self) ∨
      ∃ a, x.run serve w = (.ok (a, self'), w') ∧ r = .ok a := by
  unfold updating at h
  rw [Task.run_then] at h
  rcases hx : x.run serve w with ⟨_ | ⟨a, moved⟩, w₁⟩
  · rw [hx] at h
    obtain ⟨hpair, rfl⟩ := Prod.mk.inj h
    obtain ⟨rfl, rfl⟩ := Prod.mk.inj hpair
    exact .inl ⟨_, rfl, rfl, rfl⟩
  · rw [hx] at h
    obtain ⟨hpair, rfl⟩ := Prod.mk.inj h
    obtain ⟨rfl, rfl⟩ := Prod.mk.inj hpair
    exact .inr ⟨a, rfl, rfl⟩

theorem updating_of_ok {α : Type} (self : Authority) {x : StoreTask AuthorityError (α × Authority)}
    {a : α} (h : x.run serve w = (.ok (a, self'), w')) :
    (updating self x).run serve w = ((.ok a, self'), w') := by
  unfold updating
  rw [Task.run_then, h]
  rfl

theorem keeping_run {α : Type} {x : StoreTask AuthorityError α} {r : Except AuthorityError α}
    (h : (keeping self x).run serve w = ((r, self'), w')) :
    self' = self ∧ x.run serve w = (r, w') := by
  unfold keeping at h
  rw [Task.run_then] at h
  obtain ⟨hpair, hw⟩ := Prod.mk.inj h
  obtain ⟨hr, hself⟩ := Prod.mk.inj hpair
  exact ⟨hself.symm, Prod.ext hr hw⟩

variable {c : AuthorityCall}

variable {nowMs : UInt64} {random : SealRandomness}

theorem Turn.of_plan {plan : Except AuthorityError NetworkConfigV1}
    {r : Except AuthorityError AuthorityStatus}
    (hplans : ∀ next, plan = .ok next → self.Plans c next nowMs random)
    (h : (updating self (self.commitPlan plan nowMs random)).run serve w = ((r, self'), w')) :
    Turn I (some self) w (.call c) r.isOk (some self') w' := by
  rcases updating_run h with ⟨_, hx, rfl, rfl⟩ | ⟨_, hx, rfl⟩
  · rcases Authority.commitPlan_run hx with ⟨_, -, rfl⟩ | ⟨_, _, _, _, -, hok, -⟩
    · exact .stayed (SameChain.refl I _) rfl (fun _ => rfl) fun _ _ _ => rfl
    · cases hok
  · rcases Authority.commitPlan_run hx with ⟨_, herror, -⟩ | ⟨next, e, opened, _, hplan, hok,
      hmoved, hrelay⟩
    · cases herror
    · obtain ⟨-, rfl⟩ := Prod.mk.inj (Except.ok.inj hok)
      exact .moved self c next nowMs random [] e opened self' rfl rfl (hplans next hplan) hmoved
        (by simp) (.inl hrelay) rfl rfl

theorem Turn.of_redeem {invitation : InvitationBundle} {prepared : PreparedJoinRequest}
    {clientAppRoot : AppRootKey} {secrets : Option EpochSecrets}
    {r : Except AuthorityError (JoinTicket × Authority)}
    (hplans : ∀ redemption, self.planRedeem invitation prepared clientAppRoot nowMs secrets =
      .ok redemption → self.Plans c redemption.next nowMs random)
    (h : (self.redeemInvitation invitation prepared clientAppRoot nowMs secrets random).run serve w =
      (r, w')) (hself : ∀ ticket moved, r = .ok (ticket, moved) → self' = moved)
    (hkept : ∀ e, r = .error e → self' = self) (hother : ¬ AuthorityRequest.Advances (.call c)) :
    Turn I (some self) w (.call c) r.isOk (some self') w' := by
  rcases Authority.redeemInvitation_cases h with ⟨e, hr, rfl⟩ | ⟨_, ticket, -, -, -, hr, rfl⟩ |
    ⟨redemption, e, opened, ticket, pending, consumed, moved, hredeemed, hmoved, hrelay, hr⟩
  · rw [hkept e hr]
    exact .stayed (SameChain.refl I _) rfl (fun h => absurd h hother) fun _ _ _ => rfl
  · rw [hself ticket self hr]
    exact .stayed (SameChain.refl I _) rfl (fun h => absurd h hother) fun _ _ _ => rfl
  · obtain rfl := hself ticket moved hr
    have hrelays : redemption.next.relays = self.config.asConfig.relays := by
      obtain ⟨_, _, _, -, -, hnext⟩ := (Authority.planRedeem_spec hredeemed.planned).1.next
      rw [hnext]
    refine .moved self c redemption.next nowMs random _ e opened self' rfl rfl
      (hplans redemption hredeemed.planned) hmoved ?_ (.inr ⟨hrelay, hrelays⟩) rfl (by rw [hr]; rfl)
    intro op hop
    rw [List.mem_singleton.mp hop]
    exact ⟨invitation.invitationId, rfl⟩

variable {e : EncryptedConfigEnvelope}

theorem Authority.Sound.exists_ticket (hs : self.Sound I w) (hI : I.Describes manifest)
    (a : Admission) (binding : EndpointBinding) (hsize : e.toBytes.length ≤ maxValueLen) :
    ∃ ticket, JoinTicket.issue self.onlineAdmin self.status.networkId a.nonce a.expiresAtMs e.head
      self.adminCertificate a.member.toBytes binding.toBytes e.toBytes = .ok ticket := by
  have hcertificate : self.adminCertificate = I.certificate.toBytes := by
    rw [hs.certificate]
    exact Signed.fromBytes_eq_ok.mp hI.certificate
  rw [hcertificate]
  exact JoinTicket.exists_issue I.certificate.ticketBlob a.member.ticketBlob binding.ticketBlob
    (EncryptedConfigEnvelope.ticketBlob hsize)

theorem Authority.Sound.turn (hs : self.Sound I w) (hI : I.Describes manifest)
    (hinv : AuthorityInv I w) {r : Except AuthorityError c.Value}
    (h : (self.perform c).run serve w = ((r, self'), w')) :
    Turn I (some self) w (.call c) r.isOk (some self') w' := by
  -- the calls that plan no configuration leave the chain alone
  have hquiet : (∀ (handle : Authority) next nowMs random, ¬ handle.Plans c next nowMs random) →
      ¬ AuthorityRequest.Advances (.call c) →
      (∀ invitation prepared, ¬ AuthorityRequest.Redeems invitation prepared (.call c)) →
      self' = self → Turn I (some self) w (.call c) r.isOk (some self') w' := by
    intro hplans hother hredeems hself
    have hsteps := (hs.perform_safe hI hinv c).run_steps storeMachine_serve
      (guarantee_allows I (.call c)) hinv
    rw [h] at hsteps
    refine .stayed (sameChain_of_steps hsteps hinv ?_).1 (congrArg some hself)
      (fun h => absurd h hother) fun invitation prepared h => absurd h (hredeems invitation prepared)
    rintro e e' ⟨handle, c', next, nowMs, hcall, hcommits⟩
    obtain ⟨random, hplan⟩ := hcommits.plans
    rw [← AuthorityRequest.call.inj hcall] at hplan
    exact hplans handle next nowMs random hplan
  cases c with
  | commitConfig next nowMs random =>
    rcases updating_run h with ⟨_, hx, rfl, rfl⟩ | ⟨_, hx, rfl⟩
    · rcases Authority.commitConfig_run hx with ⟨_, -, rfl⟩ | ⟨_, _, _, hok, -⟩
      · exact .stayed (SameChain.refl I _) rfl (fun _ => rfl) fun _ _ _ => rfl
      · cases hok
    · rcases Authority.commitConfig_run hx with ⟨_, herror, -⟩ | ⟨e, opened, _, hok, hmoved, hrelay⟩
      · cases herror
      · obtain ⟨-, rfl⟩ := Prod.mk.inj (Except.ok.inj hok)
        exact .moved self _ next nowMs random [] e opened self' rfl rfl
          (.commitConfig next nowMs random) hmoved (by simp) (.inl hrelay) rfl rfl
  | inviteMember request binding roles nowMs validForMs secrets random =>
    rcases Authority.inviteMember_run h with ⟨_, rfl, rfl, rfl⟩ | ⟨a, e, opened, hplan, hmoved,
      hrelay, hissue⟩
    · exact .stayed (SameChain.refl I _) rfl (fun _ => rfl) fun _ _ _ => rfl
    · obtain ⟨ticket, hticket⟩ := hs.exists_ticket hI a binding hmoved.size
      rw [hticket] at hissue
      refine .moved self _ a.next nowMs random [] e opened self' rfl rfl
        (.inviteMember random hplan) hmoved (by simp) (.inl hrelay) rfl ?_
      rw [hissue]
      rfl
  | revokeMember memberId nowMs secrets random =>
    exact Turn.of_plan (fun next hplan => .revokeMember random hplan) h
  | registerApp request nowMs random =>
    rcases updating_run h with ⟨_, hx, rfl, rfl⟩ | ⟨_, hx, rfl⟩
    · rcases Authority.registerApp_run hx with ⟨_, -, rfl⟩ | ⟨_, _, _, _, _, -, hok, -⟩
      · exact .stayed (SameChain.refl I _) rfl (fun _ => rfl) fun _ _ _ => rfl
      · cases hok
    · rcases Authority.registerApp_run hx with ⟨_, herror, -⟩ | ⟨planned, e, opened, _, _, hplan,
        hok, hmoved, hrelay⟩
      · cases herror
      · obtain ⟨-, rfl⟩ := Prod.mk.inj (Except.ok.inj hok)
        exact .moved self _ planned.1 nowMs random [] e opened self' rfl rfl
          (.registerApp random hplan) hmoved (by simp) (.inl hrelay) rfl rfl
  | authorizeAppBinding binding nowMs random =>
    exact Turn.of_plan (fun next hplan => .authorizeAppBinding random hplan) h
  | setVirtualDns name appAddr expiresAtMs nowMs random =>
    exact Turn.of_plan (fun next hplan => .setVirtualDns random hplan) h
  | removeVirtualDns name nowMs random =>
    exact Turn.of_plan (fun next hplan => .removeVirtualDns random hplan) h
  | registerRelay endpointId url roles expiresAtMs nowMs random =>
    exact Turn.of_plan (fun next hplan => .registerRelay random hplan) h
  | removeRelay endpointId nowMs random =>
    exact Turn.of_plan (fun next hplan => .removeRelay random hplan) h
  | createInvitation endpoint addresses relay appAddr name nowMs validForMs random =>
    exact hquiet (fun _ _ _ _ hplan => by cases hplan) id (fun _ _ => id) (keeping_run h).1
  | redeemInvitation invitation prepared clientAppRoot nowMs secrets random =>
    rcases updating_run h with ⟨e, hx, rfl, rfl⟩ | ⟨a, hx, rfl⟩
    · exact Turn.of_redeem (fun _ hplan => .redeemInvitation random hplan) hx
        (fun _ _ hok => by cases hok) (fun _ _ => rfl) id
    · refine Turn.of_redeem (fun _ hplan => .redeemInvitation random hplan) hx ?_ ?_ id
      · intro ticket moved hok
        exact (Prod.mk.inj (Except.ok.inj hok)).2
      · intro e herror
        cases herror
  | redeemInvitationOnline invitation prepared nowMs secrets random =>
    -- the application's key is opened first, which changes nothing
    have honline : ∀ result, (self.redeemInvitationOnline invitation prepared nowMs secrets
        random).run serve w = (result, w') →
        (∀ ticket moved, result = .ok (ticket, moved) → self' = moved) →
        (∀ e, result = .error e → self' = self) →
        Turn I (some self) w (.call (.redeemInvitationOnline invitation prepared nowMs secrets
          random)) result.isOk (some self') w' := by
      intro result hx hself hkept
      unfold Authority.redeemInvitationOnline at hx
      rcases Task.run_bind_cases hx with ⟨e, hsecret, hresult⟩ | ⟨bytes, w₁, hsecret, hredeem⟩
      · have hw : w = w' := (Prod.mk.inj hsecret).2
        rw [← hw, hkept e hresult]
        exact .stayed (SameChain.refl I w) rfl False.elim fun _ _ _ => rfl
      · obtain ⟨-, rfl⟩ := openSecret32_run.mp hsecret
        exact Turn.of_redeem (fun _ hplan => .redeemInvitationOnline random hplan) hredeem hself
          hkept id
    rcases updating_run h with ⟨e, hx, rfl, rfl⟩ | ⟨a, hx, rfl⟩
    · exact honline _ hx (fun _ _ hok => by cases hok) fun _ _ => rfl
    · refine honline _ hx ?_ ?_
      · intro ticket moved hok
        exact (Prod.mk.inj (Except.ok.inj hok)).2
      · intro e herror
        cases herror
  | revokeInvitation invitationId =>
    exact hquiet (fun _ _ _ _ hplan => by cases hplan) id (fun _ _ => id) (keeping_run h).1
  | installEnrollmentAppRoot appRoot =>
    exact hquiet (fun _ _ _ _ hplan => by cases hplan) id (fun _ _ => id) (keeping_run h).1
  | configUpdatesAfter baseHead =>
    exact hquiet (fun _ _ _ _ hplan => by cases hplan) id (fun _ _ => id) (keeping_run h).1

variable {request : AuthorityRequest} {reply : Except AuthorityError request.Value}

theorem turn (hI : I.Describes manifest) (hinv : AuthorityInv I w)
    {handle handle' : Option Authority} (hs : ∀ self, handle = some self → self.Sound I w)
    (h : (authorityBody manifest request handle).run serve w = ((reply, handle'), w')) :
    Turn I handle w request reply.isOk handle' w' := by
  cases request with
  | «open» nowMs =>
    have hsteps := (authorityBody_safe hI hinv (.open nowMs) handle hs).run_steps storeMachine_serve
      (guarantee_allows I _) hinv
    rw [h] at hsteps
    have hsame := (sameChain_of_steps hsteps hinv fun _ _ hcommits => by
      obtain ⟨_, _, _, _, hcall, -⟩ := hcommits
      cases hcall).1
    unfold authorityBody at h
    rw [Task.run_then] at h
    rcases hopen : (Authority.open manifest nowMs).run serve w with ⟨_ | self, w₁⟩
    · rw [hopen] at h
      exact .stayed hsame (Prod.mk.inj (Prod.mk.inj h).1).2.symm False.elim fun _ _ => False.elim
    · rw [hopen] at h
      obtain ⟨hpair, rfl⟩ := Prod.mk.inj h
      obtain ⟨last, hchain⟩ := hinv.chain
      obtain ⟨hopened, rfl⟩ := (open_eq_ok hI hchain).mp hopen
      exact .opened nowMs last self rfl hchain hopened rfl (Prod.mk.inj hpair).2.symm
  | call c =>
    cases handle with
    | none =>
      obtain ⟨hpair, rfl⟩ := Prod.mk.inj h
      obtain ⟨rfl, hnone⟩ := Prod.mk.inj hpair
      exact .stayed (SameChain.refl I _) hnone.symm (fun _ => rfl) fun _ _ _ => rfl
    | some self =>
      unfold authorityBody at h
      rw [Prog.run_bind] at h
      rcases hrun : (self.perform c).run serve w with ⟨⟨r, self'⟩, w₁⟩
      rw [hrun] at h
      obtain ⟨hpair, rfl⟩ := Prod.mk.inj h
      obtain ⟨rfl, rfl⟩ := Prod.mk.inj hpair
      exact (hs self rfl).turn hI hinv hrun

/-! ## What a revision leaves -/

variable {next : NetworkConfigV1} {rest : List (Operation StoreKey Bytes)}
  {opened : OpenedNetworkConfig}

theorem Authority.Moved.grows (h : self.Moved next nowMs random rest w e opened self' w')
    (hs : self.Sound I w) (hinv : AuthorityInv I w)
    (hrest : ∀ op ∈ rest, ∃ id, op.key = invitationKey id) :
    ∃ last, Grows I w w' last e ∧
      ∀ c, self.Plans c next nowMs random → self.Commits I c next nowMs last e := by
  obtain ⟨last, hlast, -, hfollows, hparse, -, -, -, hcommits⟩ := hs.extends h.seals
  obtain ⟨batch, version, hscope, hops, hcommit⟩ := h.batch
  have hrevision : RevisionBatch I w batch last e rest :=
    ⟨hlast, hfollows, hparse, hscope.trans hs.scope_eq, ⟨_, _, hops⟩, hrest⟩
  exact ⟨last, hrevision.grows hinv hcommit, hcommits⟩

theorem Authority.Moved.config_eq (hideal : HpkeIdeal)
    (h : self.Moved next nowMs random rest w e opened self' w') :
    opened.config.asConfig = next ∧ self'.config.asConfig = next := by
  obtain ⟨hsealed, hopens, -⟩ := Authority.sealNext_spec h.seals
  obtain ⟨-, -, heq⟩ := (hsealed.seals.opensTo_iff hideal _ _ _).mp hopens
  refine ⟨heq, ?_⟩
  rw [h.handle]
  exact heq

/-! ## Sessions -/

/-- The requests of a session, the latest first, with their replies; the handle and the stores that
they lead to from `handle` and `w`. -/
inductive Session (manifest : Bytes) (handle : Option Authority) (w : Stores) :
    List (Event (authorityApi manifest)) → Option Authority → Stores → Prop
  | nil : Session manifest handle w [] handle w
  | cons {log : List (Event (authorityApi manifest))} {handle₁ handle₂ : Option Authority}
      {w₁ w₂ : Stores} (request : AuthorityRequest) (reply : Except AuthorityError request.Value) :
      Session manifest handle w log handle₁ w₁ →
      (authorityBody manifest request handle₁).run serve w₁ = ((reply, handle₂), w₂) →
      Session manifest handle w (⟨request, reply⟩ :: log) handle₂ w₂

/-! ## What holds throughout a session -/

structure AtWork (I : Identity) (handle : Option Authority) (w : Stores) : Prop where
  inv : AuthorityInv I w
  sound : ∀ self, handle = some self → self.Sound I w
  synced : ∀ self last, handle = some self → Chain I.network w last → self.Synced I w last

variable {last : EncryptedConfigEnvelope}

theorem SameChain.synced (h : SameChain I w w') (hs : self.Synced I w last) :
    self.Synced I w' last :=
  ⟨h.envelope.trans hs.envelope, h.head.trans hs.head_record, hs.head⟩

variable {handle handle' : Option Authority}

theorem AtWork.step (hI : I.Describes manifest) (h : AtWork I handle w)
    (hrun : (authorityBody manifest request handle).run serve w = ((reply, handle'), w')) :
    AtWork I handle' w' ∧ AuthorityLe I w w' ∧
      Turn I handle w request reply.isOk handle' w' := by
  obtain ⟨hpost, hinv, hle⟩ := (authorityBody_safe hI h.inv request handle h.sound).run
    storeMachine_serve (guarantee_allows I request) h.inv
  rw [hrun] at hpost hinv hle
  have hturn := turn hI h.inv h.sound hrun
  refine ⟨⟨hinv, hpost.1, ?_⟩, hle, hturn⟩
  intro self' last hself' hchain'
  cases hturn with
  | stayed hsame heq _ _ =>
    exact hsame.synced (h.synced self' last (heq ▸ hself') (hsame.symm.chain hchain'))
  | opened nowMs last' self _ hchain hopened hw heq =>
    rw [hw] at hchain' ⊢
    rw [heq] at hself'
    obtain rfl := Option.some.inj hself'
    rw [hchain'.last_unique hchain]
    exact hopened.synced
  | moved self c next nowMs random rest e opened moved hself _ _ hmoved hrest _ heq _ =>
    rw [heq] at hself'
    obtain rfl := Option.some.inj hself'
    have hs := h.sound self hself
    obtain ⟨_, hgrows, -⟩ := hmoved.grows hs h.inv hrest
    obtain rfl := hchain'.last_unique hgrows.after
    refine ⟨?_, ?_, ?_⟩
    · rw [← hs.scope_eq]
      exact hmoved.envelope
    · rw [← hs.scope_eq]
      exact hmoved.head
    · rw [hmoved.handle]

theorem authorityBody_call_eq_ok {value : c.Value} :
    (authorityBody manifest (.call c) handle).run serve w = ((.ok value, handle'), w') ↔
      ∃ self self', handle = some self ∧ handle' = some self' ∧
        (self.perform c).run serve w = ((.ok value, self'), w') := by
  cases handle with
  | none =>
    constructor
    · intro h
      cases (Prod.mk.inj (Prod.mk.inj h).1).1
    · rintro ⟨_, _, hnone, -⟩
      cases hnone
  | some self =>
    unfold authorityBody
    rw [Prog.run_bind]
    constructor
    · intro h
      rcases hrun : (self.perform c).run serve w with ⟨⟨r, self'⟩, w₁⟩
      rw [hrun] at h
      obtain ⟨hpair, rfl⟩ := Prod.mk.inj h
      obtain ⟨rfl, rfl⟩ := Prod.mk.inj hpair
      exact ⟨self, self', rfl, rfl, hrun⟩
    · rintro ⟨_, self', hself, rfl, hrun⟩
      obtain rfl := Option.some.inj hself
      rw [hrun]
      rfl

theorem AtWork.commits (hI : I.Describes manifest) (h : AtWork I (some self) w)
    (hadvances : AuthorityRequest.Advances (.call c)) {value : c.Value}
    (hrun : (self.perform c).run serve w = ((.ok value, self'), w')) :
    ∃ next nowMs random e opened last, self.Plans c next nowMs random ∧
      (∃ rest, self.Moved next nowMs random rest w e opened self' w') ∧ Grows I w w' last e ∧
      self.Commits I c next nowMs last e ∧ AtWork I (some self') w' := by
  obtain ⟨hwork, -, hturn⟩ := h.step hI (authorityBody_call_eq_ok.mpr ⟨self, self', rfl, rfl, hrun⟩)
  cases hturn with
  | stayed _ _ hfailed _ => cases hfailed hadvances
  | opened _ _ _ hreq => cases hreq
  | moved self₀ c₀ next nowMs random rest e opened moved hself hcall hplans hmoved hrest _ heq _ =>
    obtain rfl := Option.some.inj hself
    obtain rfl := AuthorityRequest.call.inj hcall
    obtain rfl := Option.some.inj heq
    obtain ⟨last, hgrows, hcommits⟩ := hmoved.grows (h.sound self rfl) h.inv hrest
    exact ⟨next, nowMs, random, e, opened, last, hplans, ⟨rest, hmoved⟩, hgrows,
      hcommits c hplans, hwork⟩

variable {log : List (Event (authorityApi manifest))}

theorem Session.atWork (hI : I.Describes manifest) (h : AtWork I handle w)
    (hsession : Session manifest handle w log handle' w') :
    AtWork I handle' w' ∧ AuthorityLe I w w' := by
  induction hsession with
  | nil => exact ⟨h, (authorityContract I).refl w⟩
  | cons request reply _ hrun ih =>
    obtain ⟨hwork, hle⟩ := ih
    obtain ⟨hwork', hle', -⟩ := hwork.step hI hrun
    exact ⟨hwork', (authorityContract I).trans hle hle'⟩

def Succeeded (log : List (Event (authorityApi manifest))) (c : AuthorityCall) : Prop :=
  ∃ value : c.Value, ⟨.call c, (.ok value : Except AuthorityError c.Value)⟩ ∈ log

theorem Session.ledger (hI : I.Describes manifest) (h : AtWork I handle w)
    (hsession : Session manifest handle w log handle' w') :
    Ledger I (Succeeded log) w w' := by
  induction hsession with
  | nil => exact Ledger.refl I _ w
  | @cons log handle₁ handle₂ w₁ w₂ request reply hbefore hrun ih =>
    obtain ⟨hwork, -⟩ := hbefore.atWork hI h
    obtain ⟨-, -, hturn⟩ := hwork.step hI hrun
    have hledger : Ledger I (Succeeded (⟨request, reply⟩ :: log)) w w₁ := by
      refine ih.mono ?_
      rintro c ⟨value, hmem⟩
      exact ⟨value, List.mem_cons_of_mem _ hmem⟩
    cases hturn with
    | stayed hsame _ _ _ => exact hledger.same hsame
    | opened _ _ _ _ _ _ hw _ =>
      rw [hw]
      exact hledger
    | moved self c next nowMs random rest e opened moved hself hreq hplans hmoved hrest _ _ hok =>
      obtain ⟨last, hgrows, hcommits⟩ := hmoved.grows (hwork.sound self hself) hwork.inv hrest
      refine hledger.grows hgrows ?_ (hcommits c hplans)
      subst hreq
      cases reply with
      | error _ => cases hok
      | ok value => exact ⟨value, List.mem_cons_self⟩

theorem AtWork.current (h : AtWork I (some self) w) (hchain : Chain I.network w last) :
    last.Content I.encryption self.config.asConfig := by
  obtain ⟨e, he, hhead, hcontent⟩ := (h.sound self rfl).current
  have hsynced := (h.synced self last rfl hchain).head
  have hrevision : e.revision = last.revision :=
    congrArg ConfigHead.revision (hhead.trans hsynced)
  rw [← he.unique hchain.committed hrevision]
  exact hcontent

theorem Session.archive (hI : I.Describes manifest) (h : AtWork I handle w)
    (hsession : Session manifest handle w log handle' w') :
    Archive I (Succeeded log) w w' := by
  obtain ⟨hwork, hle⟩ := hsession.atWork hI h
  exact ⟨hwork.inv, hle, hsession.ledger hI h⟩

theorem AtWork.start (hinv : AuthorityInv I w) : AtWork I none w := by
  refine ⟨hinv, ?_, ?_⟩
  · intro self h
    cases h
  · intro self last h
    cases h

def NamedOnly (log : List (Event (authorityApi manifest))) : Prop :=
  ∀ event ∈ log, ∀ c, event.call = AuthorityRequest.call c → c.Named

/-- What holds of the requests and the last configuration when a session begins, and is kept by every
request, holds throughout. A request leaves the last configuration, and then has failed if all it
does is to commit one; or its call has planned the next one and sealed it, and succeeds. -/
theorem Session.induction {options : AuthorityInit} {random : InitRandomness} {g : Genesis}
    (hideal : HpkeIdeal) (hg : Initialized options random g manifest w)
    {Q : List (Event (authorityApi manifest)) → NetworkConfigV1 → Prop} (start : Q [] g.config)
    (stays : ∀ log (request : AuthorityRequest) (reply : Except AuthorityError request.Value) c,
      (request.Advances → reply.isOk = false) → Q log c → Q (⟨request, reply⟩ :: log) c)
    (moves : ∀ log (self : Authority) (call : AuthorityCall) (value : call.Value) next nowMs draws e,
      self.rootPublic = g.root.public → self.Plans call next nowMs draws →
      self.sealNext next nowMs draws = .ok e → Q log self.config.asConfig →
      Q (⟨.call call, (.ok value : Except AuthorityError call.Value)⟩ :: log) next)
    (hsession : Session manifest none w log handle w')
    (hchain : Chain (g.identity random).network w' last) {c : NetworkConfigV1}
    (hcontent : last.Content (g.identity random).encryption c) : Q log c := by
  induction hsession generalizing last c with
  | nil =>
    have hlast : last = g.envelope := (hg.committed_iff last).mp hchain.committed
    rw [hlast] at hcontent
    rw [(hg.published.content_iff hideal).mp hcontent]
    exact start
  | @cons log handle₁ handle₂ w₁ w₂ request reply hbefore hrun ih =>
    have hwork := (hbefore.atWork hg.describes (AtWork.start hg.inv)).1
    obtain ⟨-, -, hturn⟩ := hwork.step hg.describes hrun
    cases hturn with
    | stayed hsame _ hfailed _ =>
      exact stays log request reply c hfailed (ih (hsame.symm.chain hchain) hcontent)
    | opened nowMs _ _ hrequest _ _ hw _ =>
      subst hrequest
      rw [hw] at hchain
      exact stays log _ reply c False.elim (ih hchain hcontent)
    | moved self call next nowMs draws rest e opened self' hself hcall hplans hmoved hrest _ _ hok =>
      subst hcall
      obtain ⟨value, rfl⟩ : ∃ value, reply = .ok value := by
        cases reply with
        | error _ => cases hok
        | ok value => exact ⟨value, rfl⟩
      -- the new last envelope is the planned configuration, and the handle's was the one before
      subst hself
      have hs := hwork.sound self rfl
      obtain ⟨before, hbeforeChain⟩ := hwork.inv.chain
      obtain ⟨_, hgrows, hcommits⟩ := hmoved.grows hs hwork.inv hrest
      rw [hchain.last_unique hgrows.after] at hcontent
      have hpublished := ((hcommits call hplans).published hideal).1
      rw [(hpublished.content_iff hideal).mp hcontent]
      exact moves log self call value next nowMs draws _ hs.root hplans hmoved.seals
        (ih hbeforeChain (hwork.current hbeforeChain))

end Session

end Weaver

/-! ## A sample session -/

namespace Weaver.Sample

open Checked Wire Program Transparent

theorem Solo.session {handle handle₁ handle₂ : Option Authority} {w w₁ w₂ : Stores}
    {log : List (Event (authorityApi manifest))} {request : AuthorityRequest}
    {value : request.Value} (h : Session manifest handle w log handle₁ w₁)
    (hperform : Solo.perform (handle₁, w₁) request = some (value, handle₂, w₂)) :
    Session manifest handle w (⟨request, (.ok value : Except AuthorityError _)⟩ :: log) handle₂ w₂ :=
  .cons request (.ok value) h (Solo.perform_eq_some.mp hperform)

def inviting : Option (PreparedJoinRequest × JoinTicket × Solo) := do
  let prepared ← preparing.toOption
  let (_, s) ← Solo.perform (none, stores) (.open 1000)
  let (ticket, s) ← s.perform (.call (.inviteMember prepared.request prepared.endpointBinding
    .member 1000 40000 (some epochSecrets) sealing))
  return (prepared, ticket, s)

end Weaver.Sample
