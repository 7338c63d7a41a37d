import Weaver.Authority.History

/-!
# An invitation is redeemed at most once

Every step of a request leaves the record of an invitation as it is, or creates it, or deletes a
pending one, or consumes it in the same batch that admits the new member (`Guarantee.invitation`).
A consumed record stays for good. That a deleted record stays deleted needs more than the contract
of the stores: the identifier of an invitation is drawn at random, so no two requests draw the same
one. `freshInvitations` states this as a rule on the processes, and `Settled` is what it gives for
an identifier whose record has been there.
-/

namespace Weaver

open Checked Wire Versioned Program

variable [Crypto]

/-! ## One step on the record of an invitation -/

/-- A redemption in one batch: the record of the invitation was pending and is consumed, and the
next envelope of the chain admits the new member. -/
structure RedeemedAtOnce (I : Identity) (w w' : Stores) (invitation : InvitationBundle)
    (prepared : PreparedJoinRequest) (ticket : JoinTicket) : Prop where
  pending : ∃ record, w.record I.scope (invitationKey invitation.invitationId) = some record ∧
    isConsumed record.bytes = false ∧ record.bytes = invitation.toBytes
  consumed : ∃ record, w'.record I.scope (invitationKey invitation.invitationId) = some record ∧
    decodeConsumed record.bytes (hash prepared.toBytes) = .ok ticket
  /-- The chain has one envelope more, which the ticket carries, and it admits the member. -/
  advances : ∃ e e', Chain I.network w e ∧ Chain I.network w' e' ∧ Extends e e' ∧
    ticket.embeddedConfig = e'.toBytes ∧ ticket.configHead = e'.head ∧
    ∃ config next, e.Content I.encryption config ∧ e'.Seals I.root next ∧
      Admits config next invitation prepared ticket

variable {I : Identity} {manifest : Bytes} {w w' : Stores}

variable {prepared : PreparedJoinRequest}

variable {ticket : JoinTicket}

theorem RedemptionBatch.atOnce {batch : AtomicBatch} {version : UInt64}
    {invitation : InvitationBundle} {e e' : EncryptedConfigEnvelope} {pending : VersionedBytes}
    {consumed : Bytes}
    (h : RedemptionBatch I w batch invitation prepared ticket e e' pending consumed)
    (hinv : AuthorityInv I w) (hcommit : w.state.commitBatch batch = .ok (version, w'.state)) :
    RedeemedAtOnce I w w' invitation prepared ticket := by
  obtain ⟨last, hchain⟩ := hinv.chain
  obtain ⟨hpending, v, hconsumed⟩ := h.consumes hcommit
  obtain ⟨hlast, hchain'⟩ :=
    (h.revision.advance hcommit).chain hchain h.revision.parent h.revision.follows h.revision.parses
  refine ⟨⟨pending, hpending, h.unused, h.bundle⟩, ⟨_, hconsumed, h.redeemed⟩, ?_⟩
  rw [← hlast] at hchain
  exact ⟨e, e', hchain, hchain', h.revision.follows, h.carries.1, h.carries.2, h.admits⟩

inductive InvitationStep (I : Identity) (request : AuthorityRequest) (w w' : Stores)
    (id : Bytes32) : Prop
  | same : w'.record I.scope (invitationKey id) = w.record I.scope (invitationKey id) →
      InvitationStep I request w w' id
  | created (record : VersionedBytes) : request.Creates id →
      w.record I.scope (invitationKey id) = none →
      w'.record I.scope (invitationKey id) = some record → isConsumed record.bytes = false →
      InvitationStep I request w w' id
  | revoked (record : VersionedBytes) : request.Revokes id →
      w.record I.scope (invitationKey id) = some record → isConsumed record.bytes = false →
      w'.record I.scope (invitationKey id) = none → InvitationStep I request w w' id
  | redeemed (invitation : InvitationBundle) (prepared : PreparedJoinRequest)
      (ticket : JoinTicket) : request.Redeems invitation prepared →
      invitation.invitationId = id → RedeemedAtOnce I w w' invitation prepared ticket →
      InvitationStep I request w w' id

variable {request : AuthorityRequest}

theorem Guarantee.invitation (h : Guarantee I request w w') (hinv : AuthorityInv I w)
    (id : Bytes32) : InvitationStep I request w w' id := by
  cases h with
  | stay heq => exact .same (by rw [heq])
  | secret _ _ _ hstate _ =>
    refine .same ?_
    unfold Stores.record
    rw [hstate]
  | commit batch version hwrites hcommit _ =>
    cases hwrites with
    | revision e e' _ hrevision => exact .same (hrevision.invitation hcommit (by simp))
    | redemption invitation prepared ticket e e' pending consumed hreq hredemption =>
      by_cases hid : invitation.invitationId = id
      · exact .redeemed invitation prepared ticket hreq hid (hredemption.atOnce hinv hcommit)
      · refine .same (hredemption.revision.invitation hcommit ?_)
        intro op hop
        rw [List.mem_singleton.mp hop]
        exact fun heq => hid (invitationKey_injective heq)
    | creation id' bytes hreq hbytes hscope hops =>
      by_cases hid : id' = id
      · subst hid
        have hmem : .put (invitationKey id') bytes .missing ∈ batch.operations := by
          rw [hops]
          exact List.mem_singleton.mpr rfl
        have hexpected := Stores.expected_of_commit hcommit hmem
        obtain ⟨v, hput⟩ := Stores.record_of_put hcommit hmem
        rw [hscope] at hexpected hput
        exact .created ⟨v, bytes⟩ hreq (Stores.record_of_missing hexpected) hput hbytes
      · exact .same (record_of_invitation_op hcommit hscope hops rfl
          fun heq => hid (invitationKey_injective heq))
    | revocation id' pending hreq hpending hknown hscope hops =>
      by_cases hid : id' = id
      · subst hid
        have hmem : .delete (invitationKey id') (.exact pending.version) ∈ batch.operations := by
          rw [hops]
          exact List.mem_singleton.mpr rfl
        have hexpected := Stores.expected_of_commit hcommit hmem
        have hdelete := Stores.record_of_delete hcommit hmem
        rw [hscope] at hexpected hdelete
        obtain ⟨record, hrecord, hversion⟩ := Stores.record_of_exact hexpected
        have hrecord' : w.record I.scope (invitationKey id') = some record := hrecord
        have hsame : record = pending := hknown record hrecord' hversion
        rw [hsame] at hrecord'
        exact .revoked pending hreq hrecord' hpending hdelete
      · exact .same (record_of_invitation_op hcommit hscope hops rfl
          fun heq => hid (invitationKey_injective heq))

/-! ## Fresh identifiers -/

def Drawn (id : Bytes32) (P : Pool (authorityApi manifest)) : Prop :=
  (∃ (i : ℕ) (request : AuthorityRequest) (p : Prog _ _),
    P.processes[i]? = some (.busy request p) ∧ AuthorityRequest.Creates id request) ∨
  ∃ event ∈ P.log, AuthorityRequest.Creates id event.call

/-- Any processes may appear, open handles and call methods, but no invitation gets an identifier
that has been drawn before. -/
def freshInvitations (manifest : Bytes) : Rules (authorityApi manifest) where
  Spawn _ handle := handle = none
  Start P _ request := ∀ id, AuthorityRequest.Creates id request → ¬ Drawn id P

structure Settled (id : Bytes32) (P : Pool (authorityApi manifest)) : Prop where
  drawn : Drawn id P
  quiet : ∀ (i : ℕ) request r k, P.processes[i]? = some (.busy request (.call r k)) →
    ¬ AuthorityRequest.Creates id request

def OneShot {α : Type} : Prog storeInterface α → Prop
  | .ret _ => True
  | .call _ k => ∀ answer, ∃ a, k answer = .ret a

structure FreshDraws (P : Pool (authorityApi manifest)) : Prop where
  oneShot : ∀ (i : ℕ) request p id, P.processes[i]? = some (.busy request p) →
    AuthorityRequest.Creates id request → OneShot p
  unique : ∀ (i j : ℕ) request request' p p' id, P.processes[i]? = some (.busy request p) →
    P.processes[j]? = some (.busy request' p') → AuthorityRequest.Creates id request →
    AuthorityRequest.Creates id request' → i = j
  logged : ∀ (i : ℕ) request p id, P.processes[i]? = some (.busy request p) →
    AuthorityRequest.Creates id request → ∀ event ∈ P.log,
    ¬ AuthorityRequest.Creates id event.call

variable {id : Bytes32} {P P' : Pool (authorityApi manifest)}

theorem Drawn.step {R : Rules (authorityApi manifest)} (h : Drawn id P) (hs : Step R P P') :
    Drawn id P' := by
  obtain ⟨i, request, p, hi, hcreates⟩ | ⟨event, hevent, hcreates⟩ := h
  · rcases hs.busy_after hi with ⟨p', hi'⟩ | ⟨reply, hlogged⟩
    · exact .inl ⟨i, request, p', hi', hcreates⟩
    · exact .inr ⟨_, hlogged, hcreates⟩
  · exact .inr ⟨event, hs.logged_after hevent, hcreates⟩

theorem Settled.step (h : Settled id P) (hs : Step (freshInvitations manifest) P P') :
    Settled id P' := by
  refine ⟨h.drawn.step hs, ?_⟩
  intro j request r k hj hcreates
  rcases hs.busy_before hj with ⟨p₀, hj₀, rfl | ⟨r₀, k₀, _, rfl, -⟩⟩ | ⟨_, -, hfresh, -, -⟩
  · exact h.quiet j request r k hj₀ hcreates
  · exact h.quiet j request r₀ k₀ hj₀ hcreates
  · exact hfresh id hcreates h.drawn

omit [Crypto] in
theorem OneShot.bind {α β : Type} {p : Prog storeInterface α} {f : α → Prog storeInterface β}
    (h : OneShot p) (hf : ∀ a, ∃ b, f a = .ret b) : OneShot (p.bind f) := by
  cases p with
  | ret a =>
    obtain ⟨b, hb⟩ := hf a
    change OneShot (f a)
    rw [hb]
    trivial
  | call r k =>
    intro answer
    obtain ⟨a, ha⟩ := h answer
    obtain ⟨b, hb⟩ := hf a
    refine ⟨b, ?_⟩
    change (k answer).bind f = .ret b
    rw [ha]
    exact hb

omit [Crypto] in
theorem OneShot.lift_andThen {ε α β : Type} {x : Except ε α} {f : α → StoreTask ε β}
    (hf : ∀ a, OneShot (f a)) : OneShot (Task.lift x >>= f : StoreTask ε β) := by
  cases x with
  | error e => trivial
  | ok a => exact hf a

theorem Authority.createInvitation_oneShot (self : Authority) (endpoint : EndpointId)
    (addresses : List SocketAddr) (relay : Option String) (appAddr : AppAddr) (name : VirtualName)
    (nowMs validForMs : UInt64) (random : Option Bytes32) :
    OneShot (self.createInvitation endpoint addresses relay appAddr name nowMs validForMs
      random) := by
  unfold Authority.createInvitation
  refine OneShot.lift_andThen fun invitation => OneShot.lift_andThen fun batch => ?_
  intro answer
  cases answer with
  | error e => exact ⟨_, rfl⟩
  | ok version => exact ⟨_, rfl⟩

theorem authorityBody_oneShot (h : request.Creates id) (handle : Option Authority) :
    OneShot (authorityBody manifest request handle) := by
  cases handle with
  | none =>
    cases request with
    | «open» nowMs => cases h
    | call c => trivial
  | some self =>
    unfold AuthorityRequest.Creates at h
    split at h
    · exact ((self.createInvitation_oneShot _ _ _ _ _ _ _ _).bind fun _ => ⟨_, rfl⟩).bind
        fun _ => ⟨_, rfl⟩
    · cases h

theorem FreshDraws.step (h : FreshDraws P) (hs : Step (freshInvitations manifest) P P') :
    FreshDraws P' := by
  refine ⟨?_, ?_, ?_⟩
  · intro i request p id hi hcreates
    rcases hs.busy_before hi with ⟨p₀, hi₀, rfl | ⟨r, k, answer, rfl, rfl⟩⟩ | ⟨handle, -, -, -, rfl⟩
    · exact h.oneShot i request p id hi₀ hcreates
    · obtain ⟨a, ha⟩ := h.oneShot i request _ id hi₀ hcreates answer
      rw [ha]
      trivial
    · exact authorityBody_oneShot hcreates handle
  · intro i j request request' p p' id hi hj hcreates hcreates'
    rcases hs.busy_before hi with ⟨p₀, hi₀, -⟩ | ⟨handle, -, hfresh, heq, -⟩
    · rcases hs.busy_before hj with ⟨p₀', hj₀, -⟩ | ⟨_, -, hfresh', -, -⟩
      · exact h.unique i j request request' p₀ p₀' id hi₀ hj₀ hcreates hcreates'
      · exact absurd (.inl ⟨i, request, p₀, hi₀, hcreates⟩) (hfresh' id hcreates')
    · -- the call at `i` is new, so that no other process has drawn its identifier
      subst heq
      rcases process_of_set hj with ⟨hji, -⟩ | ⟨-, hj₀⟩
      · exact hji.symm
      · exact absurd (.inl ⟨j, request', p', hj₀, hcreates'⟩) (hfresh id hcreates)
  · intro i request p id hi hcreates event hevent hcreates'
    rcases hs.logged_before hevent with hlogged | ⟨j, handle, hj, hprocesses⟩
    · rcases hs.busy_before hi with ⟨p₀, hi₀, -⟩ | ⟨_, -, hfresh, -, -⟩
      · exact h.logged i request p₀ id hi₀ hcreates event hlogged hcreates'
      · exact hfresh id hcreates (.inr ⟨event, hlogged, hcreates'⟩)
    · -- the process that has just returned is idle, and it was the only one with the identifier
      rw [hprocesses] at hi
      rcases process_of_set hi with ⟨-, heq⟩ | ⟨hne, hi₀⟩
      · cases heq
      · exact hne (h.unique i j request _ p _ id hi₀ hj hcreates hcreates')

/-! ## Reachable pools -/

/-- What holds of every pool that may come about: the processes keep the contract, the draws are
fresh, and the identifier of an invitation with a record is settled. -/
structure InvitationsSound (hI : I.Describes manifest) (P : Pool (authorityApi manifest)) :
    Prop where
  good : (authorityVerified hI (freshInvitations manifest) fun _ _ h => h).Good P
  draws : FreshDraws P
  settled : ∀ id record, P.world.record I.scope (invitationKey id) = some record → Settled id P

theorem FreshDraws.settled_of_acts (h : FreshDraws P) (h' : FreshDraws P')
    (ha : Acts (A := authorityApi manifest) request P P') (hcreates : request.Creates id) :
    Settled id P' := by
  obtain ⟨i, r, k, answer, w, hi, -, rfl⟩ := ha
  have hlt : i < P.processes.length := (List.getElem?_eq_some_iff.mp hi).1
  have hi' : (P.processes.set i (.busy request (k answer)))[i]? = some (.busy request (k answer)) :=
    List.getElem?_set_self hlt
  refine ⟨.inl ⟨i, request, k answer, hi', hcreates⟩, ?_⟩
  intro j request' r' k' hj hcreates'
  obtain rfl := h'.unique i j request request' _ _ id hi' hj hcreates hcreates'
  obtain ⟨a, ha⟩ := h.oneShot i request _ id hi hcreates answer
  have hj' : (P.processes.set i (.busy request (k answer)))[i]? =
      some (.busy request' (.call r' k')) := hj
  rw [hi', ha] at hj'
  cases hj'

theorem InvitationsSound.step {hI : I.Describes manifest} (h : InvitationsSound hI P)
    (hs : Step (freshInvitations manifest) P P') : InvitationsSound hI P' := by
  obtain ⟨hgood, hchange⟩ := h.good.step hs
  have hdraws := h.draws.step hs
  refine ⟨hgood, hdraws, ?_⟩
  intro id record hrecord
  have hold : ∀ record, P.world.record I.scope (invitationKey id) = some record → Settled id P' :=
    fun record hrecord => (h.settled id record hrecord).step hs
  rcases hchange with heq | ⟨request, hacts, hguarantee⟩
  · rw [heq] at hrecord
    exact hold record hrecord
  · cases Guarantee.invitation hguarantee h.good.inv id with
    | same heq =>
      rw [heq] at hrecord
      exact hold record hrecord
    | created _ hcreates _ _ _ => exact h.draws.settled_of_acts hdraws hacts hcreates
    | revoked _ _ _ _ hnone =>
      rw [hnone] at hrecord
      cases hrecord
    | redeemed invitation prepared ticket _ hid hredeemed =>
      obtain ⟨pending, hpending, -⟩ := hredeemed.pending
      rw [hid] at hpending
      exact hold pending hpending

theorem invitationsSound (hI : I.Describes manifest) (hinv : AuthorityInv I w)
    (hnone : ∀ id, w.record I.scope (invitationKey id) = none)
    (hP : Reachable (freshInvitations manifest) w P) : InvitationsSound hI P := by
  induction hP with
  | refl =>
    refine ⟨Verified.good hinv .refl, ⟨?_, ?_, ?_⟩, ?_⟩
    · intro i request p id hi
      cases hi
    · intro i j request request' p p' id hi
      cases hi
    · intro i request p id hi
      cases hi
    · intro id record hrecord
      have hrecord' : w.record I.scope (invitationKey id) = some record := hrecord
      rw [hnone id] at hrecord'
      cases hrecord'
  | tail _ hstep ih => exact ih.step hstep

theorem InvitationsSound.steps {hI : I.Describes manifest} (h : InvitationsSound hI P)
    (hs : Steps (freshInvitations manifest) P P') : InvitationsSound hI P' := by
  induction hs with
  | refl => exact h
  | tail _ hstep ih => exact ih.step hstep

theorem InvitationsSound.gone {hI : I.Describes manifest} (h : InvitationsSound hI P)
    (hsettled : Settled id P) (hnone : P.world.record I.scope (invitationKey id) = none)
    (hs : Steps (freshInvitations manifest) P P') :
    P'.world.record I.scope (invitationKey id) = none := by
  suffices hboth : Settled id P' ∧ P'.world.record I.scope (invitationKey id) = none from hboth.2
  induction hs with
  | refl => exact ⟨hsettled, hnone⟩
  | tail hsteps hstep ih =>
    have hsound := h.steps hsteps
    refine ⟨ih.1.step hstep, ?_⟩
    rcases (hsound.good.step hstep).2 with heq | ⟨request, hacts, hguarantee⟩
    · rw [heq]
      exact ih.2
    · cases Guarantee.invitation hguarantee hsound.good.inv id with
      | same heq =>
        rw [heq]
        exact ih.2
      | created _ hcreates _ _ _ =>
        -- the request that creates it would be waiting for its answer
        obtain ⟨i, r, k, _, _, hi, -⟩ := hacts
        exact absurd hcreates (ih.1.quiet i request r k hi)
      | revoked _ _ _ _ hgone => exact hgone
      | redeemed invitation prepared ticket _ hid hredeemed =>
        obtain ⟨pending, hpending, -⟩ := hredeemed.pending
        rw [hid, ih.2] at hpending
        cases hpending

/-! ## Redeeming again -/

def Consumes (I : Identity) (w : Stores) (id : Bytes32) (prepared : PreparedJoinRequest)
    (ticket : JoinTicket) : Prop :=
  ∃ record, w.record I.scope (invitationKey id) = some record ∧
    decodeConsumed record.bytes (hash prepared.toBytes) = .ok ticket

/-- An invitation and a prepared request are presented while both are unexpired: the clock reads no
earlier than when the network began, the request has verified, and the application is the
invitation's. -/
structure Presented (I : Identity) (since nowMs : UInt64) (invitation : InvitationBundle)
    (prepared : PreparedJoinRequest) (clientAppRoot : AppRootKey) : Prop where
  begun : since ≤ nowMs
  invitation_unexpired : nowMs < invitation.expiresAtMs
  request_unexpired : nowMs < prepared.request.payload.expiresAtMs
  verified : ∃ t request, prepared.verify I.network t = .ok request
  app : invitation.clientAppAddr = clientAppRoot.appAddr

variable {nowMs : UInt64}

theorem Created.verify {invitation : InvitationBundle} (h : Created I invitation)
    (hI : I.Describes manifest) (hcertificate : I.certificate.Verifies I.root I.network nowMs [])
    (hunexpired : nowMs < invitation.expiresAtMs) : invitation.verify I.root nowMs = .ok () := by
  obtain ⟨admin, hadmin⟩ := hcertificate.exists_admin
  have hpayload := (AdminCertificate.verify_eq_ok.mp hadmin).2
  have hparse : AdminCertificate.fromBytes invitation.adminCertificate = .ok I.certificate := by
    rw [h.certificate]
    exact hI.certificate
  unfold InvitationBundle.verify
  rw [failIf_neg, ok_bind, hparse, mapError_ok, ok_bind, h.network, hadmin, mapError_ok, ok_bind,
    failIf_neg, ok_bind]
  · unfold VerifiedAdmin.verifyBytes
    rw [hpayload, verifySignature_eq_ok.mpr h.signature]
    rfl
  · rw [hpayload, h.signer]
    exact not_not_intro rfl
  · rw [not_or, not_or, not_or, h.root, h.network, hcertificate.root_network, h.endpoint, not_le]
    exact ⟨not_not_intro rfl, not_not_intro rfl, hunexpired, by decide⟩

variable {self : Authority}

variable {clientAppRoot : AppRootKey}

theorem Presented.checks {since : UInt64} {invitation : InvitationBundle}
    (h : Presented I since nowMs invitation prepared clientAppRoot) (hI : I.Describes manifest)
    (hs : self.Sound I w) (hsince : I.certificate.payload.notBeforeMs = since)
    (hcreated : Created I invitation) :
    RedeemChecks I invitation prepared clientAppRoot nowMs := by
  obtain ⟨_, hverifies⟩ := hs.verifies
  have hunexpired : nowMs < I.certificate.payload.expiresAtMs :=
    h.invitation_unexpired.trans_le hcreated.expires
  have hcertificate : I.certificate.Verifies I.root I.network nowMs [] :=
    { hverifies with not_before := hsince.trans_le h.begun, unexpired := hunexpired }
  obtain ⟨_, request, hverified⟩ := h.verified
  obtain ⟨hrequest, hjoins, -⟩ := PreparedJoinRequest.verify_eq_ok.mp hverified
  have hrequest' : prepared.request.Verifies I.network nowMs :=
    { hrequest with unexpired := h.request_unexpired }
  exact ⟨hcreated.verify hI hcertificate h.invitation_unexpired, h.app, _,
    PreparedJoinRequest.verify_eq_ok.mpr ⟨hrequest', hjoins, rfl⟩⟩

variable {record : VersionedBytes}

theorem Authority.Sound.redeemInvitation_run (hs : self.Sound I w) {invitation : InvitationBundle}
    (hchecks : RedeemChecks I invitation prepared clientAppRoot nowMs)
    (hrecord : w.record I.scope (invitationKey invitation.invitationId) = some record)
    (hconsumed : isConsumed record.bytes = true) (secrets : Option EpochSecrets)
    (random : SealRandomness) :
    (self.redeemInvitation invitation prepared clientAppRoot nowMs secrets random).run serve w =
      ((decodeConsumed record.bytes (hash prepared.toBytes)).map fun ticket => (ticket, self), w) := by
  have hcheck : self.checkRedeem invitation prepared clientAppRoot nowMs = .ok () :=
    hs.checkRedeem_eq_ok.mpr hchecks
  unfold Authority.redeemInvitation
  rw [Task.run_bind, Task.run_lift, hcheck]
  simp only
  rw [Task.run_bind, readExisting_run, hs.scope_eq, hrecord]
  simp only [okOr_some, hconsumed, if_true]
  rw [Task.run_bind, Task.run_lift]
  cases decodeConsumed record.bytes (hash prepared.toBytes) with
  | error e => rfl
  | ok ticket => rfl

omit [Crypto] in
theorem decodeConsumed_of_ne {bytes : Bytes} {requestHash requestHash' : Bytes32}
    (h : decodeConsumed bytes requestHash = .ok ticket) (hne : requestHash' ≠ requestHash) :
    decodeConsumed bytes requestHash' = .error .invitationAlreadyUsed := by
  unfold decodeConsumed at h ⊢
  simp only [bind_eq_ok, failIf_eq_ok, Decidable.not_not, exists_and_left, exists_const] at h
  obtain ⟨hmagic, hhash, -⟩ := h
  have hhash' : (bytes.drop consumedMagic.length).take 32 ≠ requestHash'.val := by
    intro heq
    exact hne (Subtype.ext (heq.symm.trans hhash))
  simp only
  rw [failIf_neg hmagic, ok_bind, failIf_pos hhash']
  rfl

theorem Authority.Sound.revokeInvitation_run (hs : self.Sound I w)
    (hrecord : w.record I.scope (invitationKey id) = some record)
    (hconsumed : isConsumed record.bytes = true) :
    (self.revokeInvitation id).run serve w = (.error .invitationAlreadyUsed, w) := by
  unfold Authority.revokeInvitation
  rw [Task.run_bind, readExisting_run, hs.scope_eq, hrecord]
  simp only [okOr_some]
  rw [Task.run_bind, Task.run_lift, failIf_pos hconsumed]

/-! ## Exactly once -/

def Issued (P : Pool (authorityApi manifest)) (invitation : InvitationBundle) : Prop :=
  ∃ endpoint addresses relay appAddr name nowMs validForMs random,
    ⟨.call (.createInvitation endpoint addresses relay appAddr name nowMs validForMs random),
      Except.ok invitation⟩ ∈ P.log

def Answered (P : Pool (authorityApi manifest)) (invitation : InvitationBundle)
    (prepared : PreparedJoinRequest) (ticket : JoinTicket) : Prop :=
  (∃ clientAppRoot nowMs secrets random,
    ⟨.call (.redeemInvitation invitation prepared clientAppRoot nowMs secrets random),
      Except.ok ticket⟩ ∈ P.log) ∨
  ∃ nowMs secrets random,
    ⟨.call (.redeemInvitationOnline invitation prepared nowMs secrets random),
      Except.ok ticket⟩ ∈ P.log

def Consumed (I : Identity) (w : Stores) (id : Bytes32) : Prop :=
  ∃ record, w.record I.scope (invitationKey id) = some record ∧ isConsumed record.bytes = true

def CollisionFree (prepared prepared' : PreparedJoinRequest) : Prop :=
  hash prepared.toBytes = hash prepared'.toBytes → prepared = prepared'

structure ExactlyOnce (I : Identity) (since : UInt64) (P : Pool (authorityApi manifest))
    (id : Bytes32) : Prop where
  /-- All calls that returned a ticket returned the same one, for the same request. -/
  one_request : ∀ invitation invitation' prepared prepared' ticket ticket',
    invitation.invitationId = id → invitation'.invitationId = id →
    Answered P invitation prepared ticket → Answered P invitation' prepared' ticket' →
    ticket = ticket' ∧ (CollisionFree prepared prepared' → prepared = prepared')
  /-- A step of a call that redeems commits the whole redemption, or nothing. -/
  at_once : ∀ P' request invitation prepared, Acts (A := authorityApi manifest) request P P' →
    AuthorityRequest.Redeems invitation prepared request → P'.world = P.world ∨
      ∃ ticket, RedeemedAtOnce I P.world P'.world invitation prepared ticket
  consumed_by : ∀ P', Step (freshInvitations manifest) P P' → ¬ Consumed I P.world id →
    Consumed I P'.world id → ∃ request invitation prepared ticket,
      Acts (A := authorityApi manifest) request P P' ∧
      AuthorityRequest.Redeems invitation prepared request ∧ invitation.invitationId = id ∧
      RedeemedAtOnce I P.world P'.world invitation prepared ticket
  /-- A consumed invitation keeps its record, so that it is neither redeemed again nor revoked. -/
  consumed_stays : ∀ P', Steps (freshInvitations manifest) P P' → ∀ record,
    P.world.record I.scope (invitationKey id) = some record → isConsumed record.bytes = true →
    P'.world.record I.scope (invitationKey id) = some record ∧
    ∀ w' invitation prepared ticket, invitation.invitationId = id →
      ¬ RedeemedAtOnce I P'.world w' invitation prepared ticket
  not_revoked : Consumed I P.world id → ∀ self, .idle (some self) ∈ P.processes →
    (self.revokeInvitation id).run serve P.world = (.error .invitationAlreadyUsed, P.world)
  /-- A step that removes the record is a revocation, after which the record never returns and no
  call ever redeems the invitation. -/
  revoked : ∀ P' record, Step (freshInvitations manifest) P P' →
    P.world.record I.scope (invitationKey id) = some record →
    P'.world.record I.scope (invitationKey id) = none →
    (∃ request, Acts (A := authorityApi manifest) request P P' ∧
      AuthorityRequest.Revokes id request) ∧
    ∀ P'', Steps (freshInvitations manifest) P' P'' →
      P''.world.record I.scope (invitationKey id) = none ∧
      ∀ invitation prepared ticket, invitation.invitationId = id →
        ¬ Answered P'' invitation prepared ticket
  /-- The request that consumed the invitation gets its ticket again, and nothing is committed. -/
  retry : ∀ invitation prepared clientAppRoot nowMs ticket, invitation.invitationId = id →
    Issued P invitation → Consumes I P.world id prepared ticket →
    Presented I since nowMs invitation prepared clientAppRoot →
    ∀ self, .idle (some self) ∈ P.processes → ∀ secrets random,
      (self.redeemInvitation invitation prepared clientAppRoot nowMs secrets random).run serve
        P.world = (.ok (ticket, self), P.world)
  other_request : ∀ invitation prepared prepared' clientAppRoot nowMs ticket,
    invitation.invitationId = id → Issued P invitation → Consumes I P.world id prepared ticket →
    Presented I since nowMs invitation prepared' clientAppRoot → prepared' ≠ prepared →
    CollisionFree prepared' prepared →
    ∀ self, .idle (some self) ∈ P.processes → ∀ secrets random,
      (self.redeemInvitation invitation prepared' clientAppRoot nowMs secrets random).run serve
        P.world = (.error .invitationAlreadyUsed, P.world)

theorem AuthorityRequest.Redeems.only {invitation : InvitationBundle}
    (h : request.Redeems invitation prepared) :
    ¬ request.Advances ∧ (∀ id, ¬ request.Creates id) ∧ (∀ id, ¬ request.Revokes id) ∧
      ¬ request.Installs ∧ ∀ invitation' prepared', request.Redeems invitation' prepared' →
        invitation' = invitation ∧ prepared' = prepared := by
  unfold AuthorityRequest.Redeems at h
  split at h
  · obtain ⟨rfl, rfl⟩ := h
    exact ⟨not_false, fun _ => not_false, fun _ => not_false, not_false,
      fun _ _ h => ⟨h.1.symm, h.2.symm⟩⟩
  · obtain ⟨rfl, rfl⟩ := h
    exact ⟨not_false, fun _ => not_false, fun _ => not_false, not_false,
      fun _ _ h => ⟨h.1.symm, h.2.symm⟩⟩
  · cases h

theorem Guarantee.redemption {invitation : InvitationBundle} (h : Guarantee I request w w')
    (hinv : AuthorityInv I w) (hreq : request.Redeems invitation prepared) :
    w' = w ∨ ∃ ticket, RedeemedAtOnce I w w' invitation prepared ticket := by
  obtain ⟨hadvances, hcreates, hrevokes, hinstalls, hunique⟩ := hreq.only
  cases h with
  | stay heq => exact .inl heq
  | secret _ _ hinstall _ _ => exact absurd hinstall hinstalls
  | commit batch version hwrites hcommit _ =>
    cases hwrites with
    | revision _ _ hadvance _ => exact absurd hadvance hadvances
    | creation id _ hcreate _ _ _ => exact absurd hcreate (hcreates id)
    | revocation id _ hrevoke _ _ _ _ => exact absurd hrevoke (hrevokes id)
    | redemption invitation' prepared' ticket e e' pending consumed hreq' hredemption =>
      obtain ⟨rfl, rfl⟩ := hunique _ _ hreq'
      exact .inr ⟨ticket, hredemption.atOnce hinv hcommit⟩

section Sound

variable {hI : I.Describes manifest}

theorem InvitationsSound.answered (h : InvitationsSound hI P) {invitation : InvitationBundle}
    {ticket : JoinTicket} (ha : Answered P invitation prepared ticket) :
    Consumes I P.world invitation.invitationId prepared ticket := by
  obtain ⟨clientAppRoot, nowMs, secrets, random, hlog⟩ | ⟨nowMs, secrets, random, hlog⟩ := ha
  · exact (h.good.log _ hlog ticket rfl).1.record
  · exact (h.good.log _ hlog ticket rfl).record

theorem InvitationsSound.issued (h : InvitationsSound hI P) {invitation : InvitationBundle}
    (hi : Issued P invitation) : Created I invitation := by
  obtain ⟨_, _, _, _, _, _, _, _, hlog⟩ := hi
  exact (h.good.log _ hlog invitation rfl).1

theorem InvitationsSound.handle (h : InvitationsSound hI P)
    (hself : .idle (some self) ∈ P.processes) : self.Sound I P.world :=
  h.good.idle _ hself self rfl

variable {record : VersionedBytes}

theorem InvitationsSound.consumed (h : InvitationsSound hI P)
    (hs : Steps (freshInvitations manifest) P P')
    (hrecord : P.world.record I.scope (invitationKey id) = some record)
    (hconsumed : isConsumed record.bytes = true) :
    P'.world.record I.scope (invitationKey id) = some record := by
  have hle : AuthorityLe I P.world P'.world := (h.good.steps hs).2
  exact hle.consumed id record hrecord hconsumed

theorem InvitationsSound.consumed_by (h : InvitationsSound hI P)
    (hs : Step (freshInvitations manifest) P P') (hold : ¬ Consumed I P.world id)
    (hnew : Consumed I P'.world id) :
    ∃ request invitation prepared ticket, Acts (A := authorityApi manifest) request P P' ∧
      AuthorityRequest.Redeems invitation prepared request ∧ invitation.invitationId = id ∧
      RedeemedAtOnce I P.world P'.world invitation prepared ticket := by
  obtain ⟨record, hrecord, hconsumed⟩ := hnew
  rcases (h.good.step hs).2 with heq | ⟨request, hacts, hguarantee⟩
  · rw [heq] at hrecord
    exact absurd ⟨record, hrecord, hconsumed⟩ hold
  · cases Guarantee.invitation hguarantee h.good.inv id with
    | same heq =>
      rw [heq] at hrecord
      exact absurd ⟨record, hrecord, hconsumed⟩ hold
    | created record' _ _ hcreated hpending =>
      rw [hrecord] at hcreated
      rw [← Option.some.inj hcreated, hconsumed] at hpending
      cases hpending
    | revoked _ _ _ _ hnone =>
      rw [hnone] at hrecord
      cases hrecord
    | redeemed invitation prepared ticket hreq hid hredeemed =>
      exact ⟨request, invitation, prepared, ticket, hacts, hreq, hid, hredeemed⟩

theorem InvitationsSound.revoked_by (h : InvitationsSound hI P)
    (hs : Step (freshInvitations manifest) P P')
    (hold : P.world.record I.scope (invitationKey id) = some record)
    (hnew : P'.world.record I.scope (invitationKey id) = none) :
    ∃ request, Acts (A := authorityApi manifest) request P P' ∧
      AuthorityRequest.Revokes id request := by
  rcases (h.good.step hs).2 with heq | ⟨request, hacts, hguarantee⟩
  · rw [heq, hold] at hnew
    cases hnew
  · cases Guarantee.invitation hguarantee h.good.inv id with
    | same heq =>
      rw [heq, hold] at hnew
      cases hnew
    | created _ _ hnone _ _ =>
      rw [hold] at hnone
      cases hnone
    | revoked _ hrevokes _ _ _ => exact ⟨request, hacts, hrevokes⟩
    | redeemed _ _ _ _ hid hredeemed =>
      obtain ⟨_, hconsumed, -⟩ := hredeemed.consumed
      rw [hid, hnew] at hconsumed
      cases hconsumed

theorem InvitationsSound.exactlyOnce (hsound : InvitationsSound hI P) {since : UInt64}
    (hbegin : I.certificate.payload.notBeforeMs = since) (id : Bytes32) :
    ExactlyOnce I since P id := by
  refine ⟨?_, ?_, ?_, ?_, ?_, ?_, ?_, ?_⟩
  · intro invitation invitation' prepared prepared' ticket ticket' hid hid' ha ha'
    obtain ⟨record, hrecord, hdecode⟩ := hsound.answered ha
    obtain ⟨record', hrecord', hdecode'⟩ := hsound.answered ha'
    rw [hid] at hrecord
    rw [hid', hrecord] at hrecord'
    rw [← Option.some.inj hrecord'] at hdecode'
    obtain ⟨hhash, hticket⟩ := decodeConsumed_unique hdecode hdecode'
    exact ⟨hticket, fun hfree => hfree hhash⟩
  · intro P' request invitation prepared hacts hreq
    have hguarantee := hsound.good.acts hacts
    exact Guarantee.redemption hguarantee hsound.good.inv hreq
  · intro P' hs hold hnew
    exact hsound.consumed_by hs hold hnew
  · intro P' hs record hrecord hconsumed
    have hrecord' := hsound.consumed hs hrecord hconsumed
    refine ⟨hrecord', ?_⟩
    intro w' invitation prepared ticket hid hredeemed
    obtain ⟨pending, hpending, hunused, -⟩ := hredeemed.pending
    rw [hid, hrecord'] at hpending
    rw [← Option.some.inj hpending, hconsumed] at hunused
    cases hunused
  · intro hconsumed self hself
    obtain ⟨record, hrecord, hc⟩ := hconsumed
    exact (hsound.handle hself).revokeInvitation_run hrecord hc
  · intro P' record hs hold hnew
    refine ⟨hsound.revoked_by hs hold hnew, ?_⟩
    intro P'' hs'
    have hgone := (hsound.step hs).gone ((hsound.settled id record hold).step hs) hnew hs'
    refine ⟨hgone, ?_⟩
    intro invitation prepared ticket hid ha
    obtain ⟨_, hrecord, -⟩ := ((hsound.step hs).steps hs').answered ha
    rw [hid, hgone] at hrecord
    cases hrecord
  · intro invitation prepared clientAppRoot nowMs ticket hid hissued hconsumes hpresented self hself
      secrets sealing
    obtain ⟨record, hrecord, hdecode⟩ := hconsumes
    have hs := hsound.handle hself
    rw [← hid] at hrecord
    rw [hs.redeemInvitation_run (hpresented.checks hI hs hbegin (hsound.issued hissued)) hrecord
      (isConsumed_of_decodeConsumed hdecode), hdecode]
    rfl
  · intro invitation prepared prepared' clientAppRoot nowMs ticket hid hissued hconsumes hpresented
      hne hfree self hself secrets sealing
    obtain ⟨record, hrecord, hdecode⟩ := hconsumes
    have hs := hsound.handle hself
    rw [← hid] at hrecord
    have hhash : hash prepared'.toBytes ≠ hash prepared.toBytes := fun heq => hne (hfree heq)
    rw [hs.redeemInvitation_run (hpresented.checks hI hs hbegin (hsound.issued hissued)) hrecord
      (isConsumed_of_decodeConsumed hdecode), decodeConsumed_of_ne hdecode hhash]
    rfl

end Sound

/-- On the stores of an initialized authority, and for any interleaving of any processes in which
no identifier is drawn twice, every invitation is redeemed at most once, at once, and for good. -/
theorem invitation_exactly_once {options : AuthorityInit} {random : InitRandomness}
    {manifest : Bytes} {init : InitializedAuthority} {w : Stores}
    (hinit : ( Authority.initialize options random).run serve Stores.empty =
      (.ok (manifest, init), w))
    {P : Pool (authorityApi manifest)} (hP : Reachable (freshInvitations manifest) w P)
    (id : Bytes32) :
    ∃ I : Identity, I.Describes manifest ∧ I.network = init.status.networkId ∧
      I.encryption = random.memberEncryption ∧ ExactlyOnce I options.nowMs P id := by
  obtain ⟨g, hg, hnetwork⟩ := initialize_spec hinit
  have hI := hg.describes
  have hbegin : (g.identity random).certificate.payload.notBeforeMs = options.nowMs := by
    change g.adminCertificate.payload.notBeforeMs = options.nowMs
    rw [hg.planned.certificate]
  have hnone : ∀ id, w.record (g.identity random).scope (invitationKey id) = none :=
    fun id => hg.others _ (invitationKey_ne_keyEnvelope id) (invitationKey_ne_keyHead id)
      (invitationKey_ne_historyKey id 0)
  have hsound : InvitationsSound hI P := invitationsSound hI hg.inv hnone hP
  exact ⟨g.identity random, hI, hnetwork.symm, rfl, hsound.exactlyOnce hbegin id⟩

theorem not_drawn_alone {handle : Option Authority} {log : List (Event (authorityApi manifest))}
    (hlog : ∀ event ∈ log, ¬ AuthorityRequest.Creates id event.call) :
    ¬ Drawn id (.alone (authorityApi manifest) w handle log) := by
  rintro (⟨i, request, p, hi, -⟩ | ⟨event, hevent, hcreates⟩)
  · cases List.mem_singleton.mp (List.mem_of_getElem? hi)
  · exact hlog event hevent hcreates

end Weaver

/-! ## A sample redemption -/

namespace Weaver.Sample

open Program Transparent

/-- The sample invitation was issued and redeemed, exactly once. -/
theorem invitation_exactly_once_sample : ∃ (I : Identity) (P : Pool (authorityApi manifest))
    (invitation : InvitationBundle) (prepared : PreparedJoinRequest) (ticket : JoinTicket),
    Issued P invitation ∧ Answered P invitation prepared ticket ∧
      I.Describes manifest ∧ ExactlyOnce I options.nowMs P invitation.invitationId := by
  obtain ⟨init, hinit⟩ := initialize_eq_ok
  obtain ⟨_, hr⟩ := Option.isSome_iff_exists.mp redeeming_isSome
  unfold redeeming at hr
  simp only [Option.bind_eq_bind, Option.bind_eq_some_iff, Prod.exists] at hr
  obtain ⟨prepared, -, _, h₁, w₁, hopen, _, h₂, w₂, hregister, invitation, h₃, w₃, hcreate, ticket,
    h₄, w₄, hredeem, -⟩ := hr
  have hopened := Solo.reaches (R := freshInvitations manifest) rfl hopen fun _ h => False.elim h
  have hregistered := hopened.trans (Solo.steps hregister fun _ h => False.elim h)
  have hcreated := hregistered.trans (Solo.steps hcreate
    fun _ _ => not_drawn_alone (by simp [AuthorityRequest.Creates]))
  have hredeemed := hcreated.trans (Solo.steps hredeem fun _ h => False.elim h)
  obtain ⟨I, hI, -, -, honce⟩ := invitation_exactly_once hinit hredeemed _
  refine ⟨I, _, invitation, prepared, ticket, ?_, .inl ?_, hI, honce⟩
  · exact ⟨_, _, _, _, _, _, _, _, List.mem_append_left _ (List.mem_append_right _
      (List.mem_singleton.mpr rfl))⟩
  · exact ⟨_, _, _, _, List.mem_append_right _ (List.mem_singleton.mpr rfl)⟩

end Weaver.Sample
