import Weaver.Authority.ExactlyOnce
import Weaver.Authority.Reopen

/-!
# The tickets of a session

Two operations issue tickets: `invite_member` gives its ticket to the caller, and
`redeem_invitation` also keeps it in the record of the invitation, from which it answers when it is
called again. Each ticket carries an envelope that the authority has committed and that lists the
member (`JoinTicket.IssuedFor`); `Session.tickets` says this of all tickets that a session has
returned.
-/

namespace Weaver

open Checked Wire Versioned Program

variable [Crypto]

/-- The ticket was issued for the request and the endpoint binding: it carries an envelope that the
authority has committed, whose configuration lists the certificate and the binding. -/
structure JoinTicket.IssuedFor (t : JoinTicket) (g : Genesis) (random : InitRandomness)
    (w : Stores) (request : JoinRequest) (binding : EndpointBinding) (m : MemberCertificate)
    (e : EncryptedConfigEnvelope) (c : NetworkConfigV1) : Prop where
  committed : Committed g.root.public.networkId w e
  governed : Governed g random e c
  later : e.revision ≠ 0
  size : e.toBytes.length ≤ maxValueLen
  issued : JoinTicket.issue g.onlineAdmin g.root.public.networkId request.payload.nonce
    t.expiresAtMs e.head g.adminCertificate.toBytes m.toBytes binding.toBytes e.toBytes = .ok t
  network : request.payload.networkId = g.root.public.networkId
  expires : t.expiresAtMs ≤ request.payload.expiresAtMs
  certified : m.IssuedByAdmin g.adminCertificate.payload g.root.public.networkId
  keys : m.payload.memberId = request.payload.memberId ∧
    m.payload.signingPublicKey = request.payload.signingPublicKey ∧
    m.payload.encryptionPublicKey = request.payload.encryptionPublicKey
  lists : c.ListsMember m ∧ c.ListsEndpoint binding

def JoinTicket.Issued (t : JoinTicket) (g : Genesis) (random : InitRandomness) (w : Stores)
    (prepared : PreparedJoinRequest) : Prop :=
  ∃ m e c, t.IssuedFor g random w prepared.request prepared.endpointBinding m e c

/-! ## Issuing -/

section Issuing

variable {options : AuthorityInit} {random : InitRandomness} {g : Genesis} {manifest : Bytes}
  {w w' : Stores}

variable {prepared : PreparedJoinRequest}

theorem JoinTicket.Issued.later {t : JoinTicket} (h : t.Issued g random w prepared)
    (hle : AuthorityLe (g.identity random) w w') :
    t.Issued g random w' prepared := by
  obtain ⟨m, e, c, h⟩ := h
  exact ⟨m, e, c, { h with committed := hle.committed h.committed }⟩

variable {self : Authority} {nowMs : UInt64} {draws : SealRandomness} {e : EncryptedConfigEnvelope}

theorem Authority.Moved.governed (hideal : HpkeIdeal) {self' : Authority} {next : NetworkConfigV1}
    {rest : List (Operation StoreKey Bytes)} {opened : OpenedNetworkConfig}
    (h : self.Moved next nowMs draws rest w e opened self' w')
    (hs : self.Sound (g.identity random) w) (hinv : AuthorityInv (g.identity random) w)
    (hrest : ∀ op ∈ rest, ∃ id, op.key = invitationKey id) {call : AuthorityCall}
    (hplans : self.Plans call next nowMs draws)
    (hgoverned : ∀ e, Committed g.root.public.networkId w' e → ∃ c, Governed g random e c) :
    Committed g.root.public.networkId w' e ∧ Governed g random e next ∧ e.revision ≠ 0 := by
  obtain ⟨last, hgrows, hcommits⟩ := h.grows hs hinv hrest
  have hcommitted : Committed g.root.public.networkId w' e := hgrows.after.committed
  obtain ⟨c, hc⟩ := hgoverned e hcommitted
  -- what the envelope holds is what was planned
  have hpublished := ((hcommits call hplans).published hideal).1
  have hcontent : e.Content (g.identity random).encryption next :=
    (hpublished.content_iff hideal).mpr rfl
  obtain rfl := (hc.published.content_iff hideal).mp hcontent
  refine ⟨hcommitted, hc, ?_⟩
  intro hzero
  have hrevision := hgrows.follows.revision
  rw [hzero] at hrevision
  exact absurd hrevision.symm (Nat.succ_ne_zero _)

theorem Authority.Admitted.issuedFor {request : JoinRequest} {binding : EndpointBinding}
    {roles : MemberRoles} {appBindings : List Bytes} {a : Admission}
    (h : self.Admitted request binding roles nowMs appBindings a) (hholds : self.Holds g random)
    (hcommitted : Committed g.root.public.networkId w e) (hgoverned : Governed g random e a.next)
    (hlater : e.revision ≠ 0) (hsize : e.toBytes.length ≤ maxValueLen) {t : JoinTicket}
    (hissue : JoinTicket.issue self.onlineAdmin self.status.networkId a.nonce a.expiresAtMs e.head
      self.adminCertificate a.member.toBytes binding.toBytes e.toBytes = .ok t) :
    t.IssuedFor g random w request binding a.member e a.next := by
  obtain ⟨-, -, -, -, hexpires, -⟩ := JoinTicket.issue_spec hissue
  rw [← hexpires, hholds.admin, hholds.names.1, hholds.certificate, h.nonce] at hissue
  obtain ⟨serial, hmember⟩ := h.member
  obtain ⟨_, _, _, -, -, hnext⟩ := h.next
  have hnetwork : self.verifiedAdmin.payload.networkId = self.status.networkId := by
    rw [← h.current.network, hmember]
  refine ⟨hcommitted, hgoverned, hlater, hsize, hissue, ?_, ?_, ?_, ⟨?_, ?_, ?_⟩, ?_, ?_⟩
  · rw [← hholds.names.1]
    exact h.request_verifies.network
  · rw [hexpires]
    exact h.expires_request
  · have hissued := h.issued
    rw [hholds.verified, hholds.names.1] at hissued
    exact hissued
  · rw [hmember, ← h.request_verifies.member_id, hnetwork]
  · rw [hmember]
  · rw [hmember]
  · rw [hnext]
    exact List.mem_append_right _ (List.mem_singleton.mpr rfl)
  · rw [hnext]
    exact List.mem_append_right _ (List.mem_singleton.mpr rfl)

/-- What `redeem_invitation` returns: the ticket that the record of the invitation gives to the
request, or a new one, which the record then gives to the request. The record of another invitation
stays. -/
theorem Authority.redeemInvitation_issued (hideal : HpkeIdeal) (hholds : self.Holds g random)
    (hs : self.Sound (g.identity random) w) (hinv : AuthorityInv (g.identity random) w)
    (hgoverned : ∀ e, Committed g.root.public.networkId w' e → ∃ c, Governed g random e c)
    {invitation : InvitationBundle} {clientAppRoot : AppRootKey} {secrets : Option EpochSecrets}
    {r : Except AuthorityError (JoinTicket × Authority)}
    (h : (self.redeemInvitation invitation prepared clientAppRoot nowMs secrets draws).run serve w =
      (r, w')) :
    (w' = w ∧ ∀ t self', r = .ok (t, self') → ∃ record,
      w.record (g.identity random).scope (invitationKey invitation.invitationId) = some record ∧
        decodeConsumed record.bytes (hash prepared.toBytes) = .ok t) ∨
    ∃ t, t.Issued g random w' prepared ∧ (∃ self', r = .ok (t, self')) ∧
      (∃ record,
        w'.record (g.identity random).scope (invitationKey invitation.invitationId) = some record ∧
        decodeConsumed record.bytes (hash prepared.toBytes) = .ok t) ∧
      ∀ id, id ≠ invitation.invitationId →
        w'.record (g.identity random).scope (invitationKey id) =
          w.record (g.identity random).scope (invitationKey id) := by
  have hscope : self.scope = (g.identity random).scope := hs.scope_eq
  rcases Authority.redeemInvitation_cases h with ⟨err, rfl, rfl⟩ | ⟨record, t, -, hrecord, hdecode,
    rfl, rfl⟩ | ⟨redemption, e, opened, t, pending, consumed, self', hredeemed, hmoved, -, rfl⟩
  · refine .inl ⟨rfl, ?_⟩
    intro t self' hok
    cases hok
  · refine .inl ⟨rfl, ?_⟩
    intro t' self' hok
    obtain ⟨rfl, -⟩ := Prod.mk.inj (Except.ok.inj hok)
    rw [hscope] at hrecord
    exact ⟨record, hrecord, hdecode⟩
  · right
    have hrest : ∀ op ∈ [(.put (invitationKey invitation.invitationId) consumed
        (.exact pending.version) : Operation StoreKey Bytes)], ∃ id, op.key = invitationKey id := by
      intro op hop
      rw [List.mem_singleton.mp hop]
      exact ⟨_, rfl⟩
    obtain ⟨hcommitted, hnext, hlater⟩ := hmoved.governed hideal hs hinv hrest
      (.redeemInvitation draws hredeemed.planned) hgoverned
    have hadmitted := (Authority.planRedeem_spec hredeemed.planned).1
    have hissued := hadmitted.issuedFor hholds hcommitted hnext hlater hmoved.size hredeemed.issued
    -- the ticket is read back from the record that the batch writes
    obtain ⟨batch, version, hbatch, hops, hcommit⟩ := hmoved.batch
    have hmem : .put (invitationKey invitation.invitationId) consumed (.exact pending.version) ∈
        batch.operations := by
      rw [hops]
      exact List.mem_append_right _ (List.mem_singleton.mpr rfl)
    obtain ⟨v, hput⟩ := Stores.record_of_put hcommit hmem
    rw [hbatch, hscope] at hput
    refine ⟨t, ⟨_, e, _, hissued⟩, ⟨self', rfl⟩, ⟨⟨v, consumed⟩, hput, ?_⟩, ?_⟩
    · refine decodeConsumed_encodeConsumed hredeemed.consumed ?_
      exact JoinTicket.fromBytes_of_issue hissued.issued hissued.size
    · intro id hid
      rw [← hscope, ← hbatch]
      refine Stores.record_of_other hcommit ?_
      intro op hop
      rw [hops] at hop
      rcases List.mem_append.mp hop with hop | hop
      · unfold revisionOperations at hop
        simp only [List.mem_cons, List.not_mem_nil, or_false] at hop
        rcases hop with rfl | rfl | rfl
        · exact (invitationKey_ne_keyEnvelope id).symm
        · exact (invitationKey_ne_keyHead id).symm
        · exact (invitationKey_ne_historyKey id _).symm
      · rw [List.mem_singleton.mp hop]
        exact fun heq => hid (invitationKey_injective heq).symm

end Issuing

/-! ## Sessions -/

/-- The event is the answer, with the ticket, to a call that admits the member of the prepared
request. -/
inductive ReturnsTicket {manifest : Bytes} (prepared : PreparedJoinRequest) (ticket : JoinTicket) :
    Event (authorityApi manifest) → Prop
  | invited (roles : MemberRoles) (nowMs validForMs : UInt64) (secrets : Option EpochSecrets)
      (draws : SealRandomness) :
      ReturnsTicket prepared ticket ⟨.call (.inviteMember prepared.request prepared.endpointBinding
        roles nowMs validForMs secrets draws), Except.ok ticket⟩
  | redeemed (invitation : InvitationBundle) (clientAppRoot : AppRootKey) (nowMs : UInt64)
      (secrets : Option EpochSecrets) (draws : SealRandomness) :
      ReturnsTicket prepared ticket ⟨.call (.redeemInvitation invitation prepared clientAppRoot
        nowMs secrets draws), Except.ok ticket⟩
  /-- The member redeemed an invitation, with the installed key of the application. -/
  | redeemedOnline (invitation : InvitationBundle) (nowMs : UInt64)
      (secrets : Option EpochSecrets) (draws : SealRandomness) :
      ReturnsTicket prepared ticket ⟨.call (.redeemInvitationOnline invitation prepared nowMs
        secrets draws), Except.ok ticket⟩

section Session

variable {options : AuthorityInit} {random : InitRandomness} {g : Genesis} {manifest : Bytes}
  {w₀ w w' : Stores} {log : List (Event (authorityApi manifest))}
  {handle handle' : Option Authority}

def RedeemedFor (log : List (Event (authorityApi manifest))) (prepared : PreparedJoinRequest) :
    Prop :=
  ∃ event ∈ log, ∃ invitation, AuthorityRequest.Redeems invitation prepared event.call

variable {self self' : Authority} {c : AuthorityCall} {invitation : InvitationBundle}
  {prepared : PreparedJoinRequest} {r : Except AuthorityError c.Value}

theorem Authority.redeems_run (manifest : Bytes)
    (hredeems : AuthorityRequest.Redeems invitation prepared (.call c))
    (h : (self.perform c).run serve w = ((r, self'), w')) :
    ∃ clientAppRoot nowMs secrets draws result,
      ((result.isOk = false ∧ w' = w) ∨
        (self.redeemInvitation invitation prepared clientAppRoot nowMs secrets draws).run serve w =
          (result, w')) ∧
      ∀ prepared' t, ReturnsTicket prepared' t (⟨.call c, r⟩ : Event (authorityApi manifest)) →
        prepared' = prepared ∧ result = .ok (t, self') := by
  cases c with
  | redeemInvitation i p clientAppRoot nowMs secrets draws =>
    obtain ⟨rfl, rfl⟩ := hredeems
    rcases updating_run h with ⟨e, hx, rfl, rfl⟩ | ⟨a, hx, rfl⟩
    · refine ⟨clientAppRoot, nowMs, secrets, draws, .error e, .inr hx, ?_⟩
      intro prepared' t hreturns
      cases hreturns
    · refine ⟨clientAppRoot, nowMs, secrets, draws, .ok (a, self'), .inr hx, ?_⟩
      intro prepared' t hreturns
      cases hreturns
      exact ⟨rfl, rfl⟩
  | redeemInvitationOnline i p nowMs secrets draws =>
    obtain ⟨rfl, rfl⟩ := hredeems
    -- the key of the application is opened first
    have honline : ∀ result, (self.redeemInvitationOnline i p nowMs secrets draws).run serve w =
        (result, w') → ∃ clientAppRoot, (result.isOk = false ∧ w' = w) ∨
          (self.redeemInvitation i p clientAppRoot nowMs secrets draws).run serve w =
            (result, w') := by
      intro result hx
      unfold Authority.redeemInvitationOnline at hx
      rcases Task.run_bind_cases hx with ⟨e, hsecret, rfl⟩ | ⟨bytes, w₁, hsecret, hredeem⟩
      · exact ⟨⟨⟨zeroes 32⟩⟩, .inl ⟨rfl, (Prod.mk.inj hsecret).2.symm⟩⟩
      · obtain ⟨-, rfl⟩ := openSecret32_run.mp hsecret
        exact ⟨_, .inr hredeem⟩
    rcases updating_run h with ⟨e, hx, rfl, rfl⟩ | ⟨a, hx, rfl⟩
    · obtain ⟨clientAppRoot, hrun⟩ := honline _ hx
      refine ⟨clientAppRoot, nowMs, secrets, draws, .error e, hrun, ?_⟩
      intro prepared' t hreturns
      cases hreturns
    · obtain ⟨clientAppRoot, hrun⟩ := honline _ hx
      refine ⟨clientAppRoot, nowMs, secrets, draws, .ok (a, self'), hrun, ?_⟩
      intro prepared' t hreturns
      cases hreturns
      exact ⟨rfl, rfl⟩
  | _ => cases hredeems

variable {request : AuthorityRequest}

theorem consumed_of_steps {I : Identity} (h : Relation.ReflTransGen (Guarantee I request) w w')
    (hinv : AuthorityInv I w)
    (hother : ∀ invitation prepared, ¬ request.Redeems invitation prepared) {id : Bytes32}
    {record : VersionedBytes} (hrecord : w'.record I.scope (invitationKey id) = some record)
    (hconsumed : isConsumed record.bytes = true) :
    w.record I.scope (invitationKey id) = some record := by
  have hsteps : AuthorityInv I w' ∧ (w'.record I.scope (invitationKey id) = some record →
      w.record I.scope (invitationKey id) = some record) := by
    clear hrecord
    induction h with
    | refl => exact ⟨hinv, fun hafter => hafter⟩
    | @tail w₁ w₂ _ hstep ih =>
      obtain ⟨hinv₁, hbefore⟩ := ih
      refine ⟨(guarantee_allows I request _ _ hinv₁ hstep).1, ?_⟩
      intro hafter
      cases hstep.invitation hinv₁ id with
      | same hsame => exact hbefore (hsame.symm.trans hafter)
      | created record' _ _ hcreated hpending =>
        obtain rfl := Option.some.inj (hafter.symm.trans hcreated)
        rw [hconsumed] at hpending
        cases hpending
      | revoked _ _ _ _ hnone => cases hnone.symm.trans hafter
      | redeemed invitation prepared _ hredeems => exact absurd hredeems (hother _ _)
  exact hsteps.2 hrecord

/-- The tickets of a session: those in the records of the consumed invitations were issued for
requests that were presented, and those that calls returned for the requests of the calls. -/
structure Tickets (g : Genesis) (random : InitRandomness) (log : List (Event (authorityApi manifest)))
    (w : Stores) : Prop where
  stored : ∀ id record requestHash t,
    w.record (g.identity random).scope (invitationKey id) = some record →
    decodeConsumed record.bytes requestHash = .ok t →
    ∃ prepared, RedeemedFor log prepared ∧ hash prepared.toBytes = requestHash ∧
      t.Issued g random w prepared
  /-- The tickets that calls have returned, when no two requests that were presented collide. -/
  returned : ∀ event ∈ log, ∀ prepared t, ReturnsTicket prepared t event →
    (∀ prepared', RedeemedFor log prepared' → CollisionFree prepared' prepared) →
    t.Issued g random w prepared

theorem RedeemedFor.cons (h : RedeemedFor log prepared) (event : Event (authorityApi manifest)) :
    RedeemedFor (event :: log) prepared := by
  obtain ⟨event', hmem, hredeems⟩ := h
  exact ⟨event', List.mem_cons_of_mem _ hmem, hredeems⟩

theorem Tickets.before (event : Event (authorityApi manifest)) (h : Tickets g random log w)
    (hle : AuthorityLe (g.identity random) w w') :
    (∀ id record requestHash t,
      w.record (g.identity random).scope (invitationKey id) = some record →
      decodeConsumed record.bytes requestHash = .ok t →
      ∃ prepared, RedeemedFor (event :: log) prepared ∧ hash prepared.toBytes = requestHash ∧
        t.Issued g random w' prepared) ∧
    ∀ event' ∈ log, ∀ prepared t, ReturnsTicket prepared t event' →
      (∀ prepared', RedeemedFor (event :: log) prepared' → CollisionFree prepared' prepared) →
      t.Issued g random w' prepared := by
  constructor
  · intro id record requestHash t hrecord hdecode
    obtain ⟨prepared, hpresented, hhash, hissued⟩ := h.stored id record requestHash t hrecord hdecode
    exact ⟨prepared, hpresented.cons event, hhash, hissued.later hle⟩
  · intro event' hmem prepared t hreturns hfree
    have hissued := h.returned event' hmem prepared t hreturns
      fun prepared' hpresented => hfree prepared' (hpresented.cons event)
    exact hissued.later hle

theorem Tickets.redeem (hideal : HpkeIdeal) (h : Tickets g random log w)
    (hholds : self.Holds g random) (hs : self.Sound (g.identity random) w)
    (hinv : AuthorityInv (g.identity random) w) (hle : AuthorityLe (g.identity random) w w')
    (hgoverned : ∀ e, Committed g.root.public.networkId w' e → ∃ c, Governed g random e c)
    (hredeems : AuthorityRequest.Redeems invitation prepared (.call c))
    (hrun : (self.perform c).run serve w = ((r, self'), w')) :
    Tickets g random ((⟨.call c, r⟩ : Event (authorityApi manifest)) :: log) w' := by
  obtain ⟨hstored, hreturned⟩ := h.before ⟨.call c, r⟩ hle
  have hpresented : RedeemedFor ((⟨.call c, r⟩ : Event (authorityApi manifest)) :: log) prepared :=
    ⟨_, List.mem_cons_self, invitation, hredeems⟩
  obtain ⟨clientAppRoot, nowMs, secrets, draws, result, hcases, hreply⟩ :=
    Authority.redeems_run manifest hredeems hrun
  -- a redemption that changes nothing answers from the record, and another one writes it
  have hredeem : (w' = w ∧ ∀ t self', result = .ok (t, self') → ∃ record,
      w.record (g.identity random).scope (invitationKey invitation.invitationId) = some record ∧
        decodeConsumed record.bytes (hash prepared.toBytes) = .ok t) ∨
      ∃ t, t.Issued g random w' prepared ∧ (∃ self', result = .ok (t, self')) ∧
        (∃ record, w'.record (g.identity random).scope
            (invitationKey invitation.invitationId) = some record ∧
          decodeConsumed record.bytes (hash prepared.toBytes) = .ok t) ∧
        ∀ id, id ≠ invitation.invitationId →
          w'.record (g.identity random).scope (invitationKey id) =
            w.record (g.identity random).scope (invitationKey id) := by
    rcases hcases with ⟨hfailed, hw⟩ | hrun
    · refine .inl ⟨hw, ?_⟩
      intro t self' hok
      rw [hok] at hfailed
      cases hfailed
    · exact Authority.redeemInvitation_issued hideal hholds hs hinv hgoverned hrun
  rcases hredeem with ⟨rfl, hanswer⟩ | ⟨t, hissued, ⟨moved, hok⟩, ⟨record, hrecord, hdecode⟩, hothers⟩
  · refine ⟨hstored, ?_⟩
    intro event hmem prepared' t hreturns hfree
    rcases List.mem_cons.mp hmem with rfl | hmem
    · obtain ⟨rfl, hok⟩ := hreply prepared' t hreturns
      obtain ⟨record, hrecord, hdecode⟩ := hanswer t self' hok
      obtain ⟨prepared'', hpresented'', hhash, hissued⟩ := hstored _ record _ t hrecord hdecode
      obtain rfl := hfree prepared'' hpresented'' hhash
      exact hissued
    · exact hreturned event hmem prepared' t hreturns hfree
  · refine ⟨?_, ?_⟩
    · intro id record' requestHash t' hrecord' hdecode'
      by_cases hid : id = invitation.invitationId
      · rw [hid, hrecord] at hrecord'
        obtain rfl := Option.some.inj hrecord'
        obtain ⟨rfl, rfl⟩ := decodeConsumed_unique hdecode hdecode'
        exact ⟨prepared, hpresented, rfl, hissued⟩
      · rw [hothers id hid] at hrecord'
        exact hstored id record' requestHash t' hrecord' hdecode'
    · intro event hmem prepared' t' hreturns hfree
      rcases List.mem_cons.mp hmem with rfl | hmem
      · obtain ⟨rfl, hok'⟩ := hreply prepared' t' hreturns
        obtain ⟨rfl, -⟩ := Prod.mk.inj (Except.ok.inj (hok.symm.trans hok'))
        exact hissued
      · exact hreturned event hmem prepared' t' hreturns hfree

theorem Tickets.other (hideal : HpkeIdeal) (hg : Initialized options random g manifest w₀)
    (h : Tickets g random log w) (hwork : AtWork (g.identity random) handle w)
    (hholds : ∀ self, handle = some self → self.Holds g random)
    (hle : AuthorityLe (g.identity random) w w')
    (hgoverned : ∀ e, Committed g.root.public.networkId w' e → ∃ c, Governed g random e c)
    (hother : ∀ invitation prepared, ¬ request.Redeems invitation prepared)
    {reply : Except AuthorityError request.Value}
    (hrun : (authorityBody manifest request handle).run serve w = ((reply, handle'), w')) :
    Tickets g random ((⟨request, reply⟩ : Event (authorityApi manifest)) :: log) w' := by
  obtain ⟨hstored, hreturned⟩ := h.before ⟨request, reply⟩ hle
  have hsteps := (authorityBody_safe hg.describes hwork.inv request handle hwork.sound).run_steps
    storeMachine_serve (guarantee_allows _ request) hwork.inv
  rw [hrun] at hsteps
  refine ⟨?_, ?_⟩
  · intro id record requestHash t hrecord hdecode
    have hbefore := consumed_of_steps hsteps hwork.inv hother hrecord
      (isConsumed_of_decodeConsumed hdecode)
    exact hstored id record requestHash t hbefore hdecode
  · intro event hmem prepared t hreturns hfree
    rcases List.mem_cons.mp hmem with rfl | hmem
    · cases hreturns with
      | invited roles nowMs validForMs secrets draws =>
        obtain ⟨self, self', rfl, -, hperform⟩ := authorityBody_call_eq_ok.mp hrun
        rcases Authority.inviteMember_run hperform with ⟨_, herror, -⟩ |
          ⟨a, e, opened, hplan, hmoved, -, hissue⟩
        · cases herror
        obtain ⟨hcommitted, hnext, hlater⟩ := hmoved.governed hideal (hwork.sound self rfl)
          hwork.inv (by simp) (.inviteMember draws hplan) hgoverned
        have hadmitted := (Authority.planInvite_spec hplan).1
        exact ⟨_, e, _, hadmitted.issuedFor (hholds self rfl) hcommitted hnext hlater hmoved.size
          hissue.symm⟩
      | redeemed invitation => exact absurd ⟨rfl, rfl⟩ (hother invitation prepared)
      | redeemedOnline invitation => exact absurd ⟨rfl, rfl⟩ (hother invitation prepared)
    · exact hreturned event hmem prepared t hreturns hfree

theorem Session.tickets (hideal : HpkeIdeal) (hg : Initialized options random g manifest w)
    (hsession : Session manifest none w log handle w') (hnamed : NamedOnly log) :
    Tickets g random log w' := by
  induction hsession with
  | nil =>
    refine ⟨?_, ?_⟩
    · -- a new authority has no invitations
      intro id record requestHash t hrecord
      have hnone := hg.others (invitationKey id) (invitationKey_ne_keyEnvelope id)
        (invitationKey_ne_keyHead id) (invitationKey_ne_historyKey id 0)
      cases hnone.symm.trans hrecord
    · intro event hmem
      cases hmem
  | @cons log handle₁ handle₂ w₁ w₂ request reply hbefore hrun ih =>
    have hnamed₁ : NamedOnly log := fun event hmem => hnamed event (List.mem_cons_of_mem _ hmem)
    have hwork := (hbefore.atWork hg.describes (AtWork.start hg.inv)).1
    have hafter := Session.cons request reply hbefore hrun
    have harchive := hafter.archive hg.describes (AtWork.start hg.inv)
    obtain ⟨-, hle, -⟩ := hwork.step hg.describes hrun
    have hgoverned : ∀ e, Committed g.root.public.networkId w₂ e → ∃ c, Governed g random e c :=
      fun e he => harchive.governed hideal hg (fun _ => hnamed.succeeded) he
    have hholds : ∀ self, handle₁ = some self → self.Holds g random :=
      fun self hself => hbefore.holds hideal hg hself
    by_cases hredeems : ∃ invitation prepared, request.Redeems invitation prepared
    · obtain ⟨invitation, prepared, hredeems⟩ := hredeems
      cases request with
      | «open» nowMs => cases hredeems
      | call c =>
        cases handle₁ with
        | none =>
          -- without a handle the call fails
          obtain ⟨hpair, rfl⟩ := Prod.mk.inj hrun
          obtain ⟨rfl, -⟩ := Prod.mk.inj hpair
          obtain ⟨hstored, hreturned⟩ := (ih hnamed₁).before
            (⟨.call c, .error .corruptState⟩ : Event (authorityApi manifest)) hle
          refine ⟨hstored, ?_⟩
          intro event hmem prepared t hreturns hfree
          rcases List.mem_cons.mp hmem with rfl | hmem
          · cases hreturns
          · exact hreturned event hmem prepared t hreturns hfree
        | some self =>
          unfold authorityBody at hrun
          rw [Prog.run_bind] at hrun
          rcases hperform : (self.perform c).run serve w₁ with ⟨⟨r, self'⟩, w₃⟩
          rw [hperform] at hrun
          obtain ⟨hpair, rfl⟩ := Prod.mk.inj hrun
          obtain ⟨rfl, rfl⟩ := Prod.mk.inj hpair
          exact (ih hnamed₁).redeem hideal (hholds self rfl) (hwork.sound self rfl) hwork.inv hle
            hgoverned hredeems hperform
    · push Not at hredeems
      exact (ih hnamed₁).other hideal hg hwork hholds hle hgoverned hredeems hrun

end Session

end Weaver
