import Weaver.Authority.Session
import Weaver.Store.Faults

/-!
# Failed administration changes nothing

An administrative operation on a handle, while no other process is at work and the backend does not
fail after a commit: when it fails, the stores and the handle are as they were, and when it succeeds,
exactly the records that it is about have changed. The handle may come from any history, with other
processes and with backend failures at any point.
-/

namespace Weaver

open Checked Wire Versioned Program

variable [Crypto]

/-! ## The operations end at a failed request -/

section Careful

variable {α β : Type} {Q : Except AuthorityError α → Prop}

omit [Crypto] in
theorem Careful.readExisting_bind {scope : StoreScope} {key : StoreKey} {missing : AuthorityError}
    {f : VersionedBytes → StoreTask AuthorityError α} (herror : ∀ e, Q (.error e))
    (hf : ∀ record, Careful IsError Q (f record)) :
    Careful IsError Q (readExisting scope key missing >>= f : StoreTask AuthorityError α) :=
  Careful.request_bind id herror (fun _ => ⟨_, rfl⟩) fun _ record _ _ => hf record

omit [Crypto] in
theorem Careful.commitRecords_bind {batch : AtomicBatch}
    {f : UInt64 → StoreTask AuthorityError α} (herror : ∀ e, Q (.error e)) :
    Careful IsError Q (commitRecords batch >>= f : StoreTask AuthorityError α) := by
  refine Careful.request_bind id herror (fun _ => ⟨_, rfl⟩) ?_
  intro answer version hanswer hok
  rw [mapError_eq_ok] at hok
  exact absurd ⟨version, hok⟩ hanswer

def Unchanged (self : Authority) (result : Except AuthorityError α × Authority) : Prop :=
  IsError result.1 ∧ result.2 = self

theorem Careful.updating {self : Authority} {x : StoreTask AuthorityError (α × Authority)}
    {Q : Except AuthorityError (α × Authority) → Prop} (h : Careful IsError Q x) :
    Careful (Unchanged self) (fun _ => True) (updating self x) := by
  refine Careful.bind h ?_ ?_
  · rintro r ⟨e, rfl⟩
    exact ⟨_, rfl, ⟨e, rfl⟩, rfl⟩
  · intro r _
    cases r with
    | error e => trivial
    | ok a => trivial

theorem Careful.keeping {self : Authority} {x : StoreTask AuthorityError α}
    (h : Careful IsError Q x) : Careful (Unchanged self) (fun _ => True) (keeping self x) := by
  refine Careful.bind h ?_ ?_
  · intro r hr
    exact ⟨_, rfl, hr, rfl⟩
  · intro r _
    trivial

variable (self : Authority) (nowMs : UInt64) (random : SealRandomness)

theorem Authority.commitConfig_careful (next : NetworkConfigV1) :
    Careful IsError IsError (self.commitConfig next nowMs random) := by
  have herror : ∀ e, IsError (.error e : Except AuthorityError (AuthorityStatus × Authority)) :=
    fun e => ⟨e, rfl⟩
  unfold Authority.commitConfig
  refine Careful.lift_bind herror ?_
  intro sealed _
  refine Careful.lift_bind herror ?_
  intro batch _
  exact Careful.commitRecords_bind herror

theorem Authority.commitPlan_careful (plan : Except AuthorityError NetworkConfigV1) :
    Careful IsError IsError (self.commitPlan plan nowMs random) := by
  unfold Authority.commitPlan
  refine Careful.lift_bind (fun e => ⟨e, rfl⟩) ?_
  intro next _
  exact self.commitConfig_careful nowMs random next

theorem Authority.registerApp_careful (request : AppRegistrationRequest) :
    Careful IsError IsError (self.registerApp request nowMs random) := by
  unfold Authority.registerApp
  refine Careful.lift_bind (fun e => ⟨e, rfl⟩) ?_
  intro planned _
  refine Careful.bind (self.commitConfig_careful nowMs random planned.1) ?_ ?_
  · rintro r ⟨e, rfl⟩
    exact ⟨_, rfl, e, rfl⟩
  · rintro r ⟨e, rfl⟩
    exact ⟨e, rfl⟩

theorem Authority.inviteMember_careful (request : JoinRequest) (binding : EndpointBinding)
    (roles : MemberRoles) (validForMs : UInt64) (secrets : Option EpochSecrets) :
    Careful (Unchanged self) (fun _ => True)
      (self.inviteMember request binding roles nowMs validForMs secrets random) := by
  unfold Authority.inviteMember
  split
  · trivial
  · next a _ =>
    refine Careful.bind (self.commitConfig_careful nowMs random a.next) ?_ ?_
    · rintro r ⟨e, rfl⟩
      exact ⟨_, rfl, ⟨e, rfl⟩, rfl⟩
    · -- the ticket is read back only once the admission is committed
      rintro r ⟨e, rfl⟩
      trivial

theorem Authority.redeemInvitation_careful (invitation : InvitationBundle)
    (prepared : PreparedJoinRequest) (clientAppRoot : AppRootKey) (secrets : Option EpochSecrets) :
    Careful IsError (fun _ => True)
      (self.redeemInvitation invitation prepared clientAppRoot nowMs secrets random) := by
  have herror : ∀ e : AuthorityError,
      (fun _ => True) (.error e : Except AuthorityError (JoinTicket × Authority)) :=
    fun _ => trivial
  unfold Authority.redeemInvitation
  refine Careful.lift_bind herror ?_
  intro _ _
  refine Careful.readExisting_bind herror ?_
  intro record
  split
  · refine Careful.lift_bind herror ?_
    intro ticket _
    trivial
  · refine Careful.lift_bind herror ?_
    intro _ _
    refine Careful.lift_bind herror ?_
    intro sealed _
    exact Careful.commitRecords_bind herror

theorem Authority.createInvitation_careful (endpoint : EndpointId) (addresses : List SocketAddr)
    (relay : Option String) (appAddr : AppAddr) (name : VirtualName) (validForMs : UInt64)
    (id : Option Bytes32) :
    Careful IsError (fun _ => True)
      (self.createInvitation endpoint addresses relay appAddr name nowMs validForMs id) := by
  unfold Authority.createInvitation
  refine Careful.lift_bind (fun _ => trivial) ?_
  intro invitation _
  refine Careful.lift_bind (fun _ => trivial) ?_
  intro batch _
  exact Careful.commitRecords_bind fun _ => trivial

theorem Authority.revokeInvitation_careful (invitationId : Bytes32) :
    Careful IsError (fun _ => True) (self.revokeInvitation invitationId) := by
  unfold Authority.revokeInvitation
  refine Careful.readExisting_bind (fun _ => trivial) ?_
  intro record
  refine Careful.lift_bind (fun _ => trivial) ?_
  intro _ _
  refine Careful.lift_bind (fun _ => trivial) ?_
  intro batch _
  exact Careful.commitRecords_bind fun _ => trivial

/-- The administrative operations: the calls that change a configuration by name, and those that
create, redeem and revoke invitations. -/
def AuthorityCall.Administers : AuthorityCall → Prop
  | .commitConfig .. | .redeemInvitationOnline .. | .installEnrollmentAppRoot ..
  | .configUpdatesAfter .. => False
  | _ => True

theorem Authority.perform_careful {c : AuthorityCall} (hc : c.Administers) :
    Careful (Unchanged self) (fun _ => True) (self.perform c) := by
  cases c with
  | commitConfig _ _ _ => exact hc.elim
  | redeemInvitationOnline _ _ _ _ _ => exact hc.elim
  | installEnrollmentAppRoot _ => exact hc.elim
  | configUpdatesAfter _ => exact hc.elim
  | inviteMember request binding roles nowMs validForMs secrets random =>
    exact self.inviteMember_careful nowMs random request binding roles validForMs secrets
  | revokeMember _ nowMs _ random => exact (self.commitPlan_careful nowMs random _).updating
  | registerApp request nowMs random =>
    exact (self.registerApp_careful nowMs random request).updating
  | authorizeAppBinding _ nowMs random => exact (self.commitPlan_careful nowMs random _).updating
  | setVirtualDns _ _ _ nowMs random => exact (self.commitPlan_careful nowMs random _).updating
  | removeVirtualDns _ nowMs random => exact (self.commitPlan_careful nowMs random _).updating
  | registerRelay _ _ _ _ nowMs random => exact (self.commitPlan_careful nowMs random _).updating
  | removeRelay _ nowMs random => exact (self.commitPlan_careful nowMs random _).updating
  | createInvitation endpoint addresses relay appAddr name nowMs validForMs id =>
    exact (self.createInvitation_careful nowMs endpoint addresses relay appAddr name validForMs
      id).keeping
  | redeemInvitation invitation prepared clientAppRoot nowMs secrets random =>
    exact (self.redeemInvitation_careful nowMs random invitation prepared clientAppRoot
      secrets).updating
  | revokeInvitation id => exact (self.revokeInvitation_careful id).keeping

end Careful

/-! ## What a committed batch changes -/

section Differ

variable {w w' : Stores}

structure Stores.DifferAt (w w' : Stores) (scope : StoreScope) (keys : List StoreKey) : Prop where
  differs : ∀ key ∈ keys, w'.record scope key ≠ w.record scope key
  same : ∀ scope' key, ¬ (scope' = scope ∧ key ∈ keys) →
    w'.record scope' key = w.record scope' key
  secrets : w'.secrets = w.secrets

omit [Crypto] in
theorem Stores.differAt_of_commit {batch : AtomicBatch} {version : UInt64} (hsound : w.state.Sound)
    (hcommit : w.state.commitBatch batch = .ok (version, w'.state))
    (hsecrets : w'.secrets = w.secrets)
    (hdelete : ∀ key expected, .delete key expected ∈ batch.operations →
      ∃ v, expected = .exact v) :
    w.DifferAt w' batch.scope (batch.operations.map Operation.key) := by
  refine ⟨?_, ?_, hsecrets⟩
  · intro key hkey heq
    obtain ⟨op, hop, rfl⟩ := List.mem_map.mp hkey
    cases op with
    | put key value expected =>
      -- the new version is one that no record had
      obtain ⟨n, hget, hnew, -⟩ :=
        (StateStore.commitBatch_spec hcommit).2.put _ _ _ (List.mem_map_of_mem hop)
      have hold : w.state.get (batch.scope, key) = some ⟨n, value⟩ := heq.symm.trans hget
      have hlt : n < w.state.nextRecord := hsound _ _ hold
      exact absurd hnew hlt.not_ge
    | delete key expected =>
      obtain ⟨v, rfl⟩ := hdelete key expected hop
      obtain ⟨record, hrecord, -⟩ := Stores.record_of_exact (Stores.expected_of_commit hcommit hop)
      have hnone : w'.record batch.scope key = none := Stores.record_of_delete hcommit hop
      exact absurd (hrecord.symm.trans (heq.symm.trans hnone)) (Option.some_ne_none record)
  · intro scope key hout
    by_cases hscope : batch.scope = scope
    · rw [← hscope]
      refine Stores.record_of_other hcommit ?_
      intro op hop heq
      exact hout ⟨hscope.symm, heq ▸ List.mem_map_of_mem hop⟩
    · exact Stores.record_of_scope hcommit hscope key

/-- A revision was committed: exactly the envelope, the head, the record of the new revision, which
was not there, and the records under the keys in `others` differ. -/
structure Authority.Revised (handle handle' : Authority) (w w' : Stores) (others : List StoreKey) :
    Prop where
  differ : w.DifferAt w' handle.scope
    ([keyEnvelope, keyHead, historyKey handle'.status.head.revision] ++ others)
  unwritten : w.record handle.scope (historyKey handle'.status.head.revision) = none
  next : handle'.status.head.revision.toNat = handle.status.head.revision.toNat + 1

theorem Authority.Moved.revised {self self' : Authority} {next : NetworkConfigV1} {nowMs : UInt64}
    {random : SealRandomness} {rest : List (Operation StoreKey Bytes)}
    {e : EncryptedConfigEnvelope} {opened : OpenedNetworkConfig}
    (h : self.Moved next nowMs random rest w e opened self' w') (hsound : w.state.Sound)
    (hrest : ∀ key expected, .delete key expected ∉ rest) :
    self.Revised self' w w' (rest.map Operation.key) := by
  obtain ⟨batch, version, hscope, hops, hcommit⟩ := h.batch
  have hhead : self'.status.head = e.head := by rw [h.handle]
  have hkeys : batch.operations.map Operation.key =
      [keyEnvelope, keyHead, historyKey e.revision] ++ rest.map Operation.key := by
    rw [hops, List.map_append]
    rfl
  have hdiffer : w.DifferAt w' batch.scope (batch.operations.map Operation.key) := by
    refine Stores.differAt_of_commit hsound hcommit h.secrets ?_
    intro key expected hmem
    rw [hops, List.mem_append] at hmem
    rcases hmem with hmem | hmem
    · simp [revisionOperations] at hmem
    · exact absurd hmem (hrest key expected)
  have hhistory : .put (historyKey e.revision) e.toBytes .missing ∈ batch.operations := by
    simp [hops, revisionOperations]
  have hmissing : Expected.missing.Holds (w.state.version (batch.scope, historyKey e.revision)) :=
    Stores.expected_of_commit hcommit hhistory
  rw [hkeys, hscope] at hdiffer
  rw [hscope] at hmissing
  refine ⟨?_, ?_, ?_⟩
  · rw [hhead]
    exact hdiffer
  · rw [hhead]
    exact Stores.record_of_missing hmissing
  · obtain ⟨hsealed, -, -⟩ := Authority.sealNext_spec h.seals
    obtain ⟨-, -, hrevision, -⟩ := hsealed.seals.header
    have hrev : e.head.revision = next.revision := hrevision
    rw [hhead, hrev]
    exact hsealed.next_revision

end Differ

/-! ## What an operation changes -/

section Effect

variable {w w' : Stores} {self self' : Authority}

omit [Crypto] in
theorem commitRecords_single_cases {α : Type} {a : α} {r : Except AuthorityError α}
    {batch : AtomicBatch} {scope : StoreScope} {op : Operation StoreKey Bytes}
    (hscope : batch.scope = scope) (hops : batch.operations = [op]) (hsound : w.state.Sound)
    (hdelete : ∀ key expected, op = .delete key expected → ∃ v, expected = .exact v)
    (h : (commitRecords batch >>= fun _ => pure a).run serve w = (r, w')) :
    (∃ e, r = .error e ∧ w' = w) ∨
      r = .ok a ∧ (∃ version, w.state.commitBatch batch = .ok (version, w'.state)) ∧
        w.DifferAt w' scope [op.key] := by
  rcases Task.run_bind_cases h with ⟨error, hcommit, hr⟩ | ⟨version, w₁, hcommit, h⟩
  · rcases commitRecords_run_cases hcommit with ⟨_, -, hw⟩ | ⟨_, hok, -⟩
    · exact .inl ⟨error, hr, hw⟩
    · cases hok
  · rw [Task.run_pure] at h
    obtain ⟨hr, rfl⟩ := Prod.mk.inj h
    obtain ⟨hcommitted, hsecrets⟩ := commitRecords_run.mp hcommit
    have hdiffer : w.DifferAt w₁ batch.scope (batch.operations.map Operation.key) := by
      refine Stores.differAt_of_commit hsound hcommitted hsecrets ?_
      intro key expected hmem
      rw [hops, List.mem_singleton] at hmem
      exact hdelete key expected hmem.symm
    rw [hscope, hops] at hdiffer
    exact .inr ⟨hr.symm, ⟨version, hcommitted⟩, hdiffer⟩

variable {nowMs : UInt64}

theorem Authority.createInvitation_run {endpoint : EndpointId} {addresses : List SocketAddr}
    {relay : Option String} {appAddr : AppAddr} {name : VirtualName} {validForMs : UInt64}
    {random : Option Bytes32} {r : Except AuthorityError InvitationBundle} (hsound : w.state.Sound)
    (h : (self.createInvitation endpoint addresses relay appAddr name nowMs validForMs random).run
      serve w = (r, w')) :
    (∃ e, r = .error e ∧ w' = w) ∨
      ∃ invitation id, r = .ok invitation ∧ random = some id ∧
        w.record self.scope (invitationKey id) = none ∧
        w.DifferAt w' self.scope [invitationKey id] := by
  unfold Authority.createInvitation at h
  rcases Task.run_lift_cases h with herror | ⟨invitation, hplan, h⟩
  · exact .inl herror
  have hid : random = some invitation.invitationId := by
    unfold Authority.planInvitation InvitationBundle.issue at hplan
    simp only [bind_eq_ok, okOr_eq_ok, pure_eq_ok_iff] at hplan
    obtain ⟨_, -, _, -, _, -, id, hrandom, _, -, rfl⟩ := hplan
    exact hrandom
  rcases Task.run_lift_cases h with herror | ⟨batch, hbatch, h⟩
  · exact .inl herror
  rw [mapError_eq_ok, AtomicBatch.put_eq_ok] at hbatch
  obtain ⟨-, -, hscope, hops⟩ := hbatch
  rcases commitRecords_single_cases hscope hops hsound (fun _ _ hop => by cases hop) h with
    herror | ⟨hr, ⟨version, hcommit⟩, hdiffer⟩
  · exact .inl herror
  · have hput : .put (invitationKey invitation.invitationId) invitation.toBytes .missing ∈
        batch.operations := by simp [hops]
    have hmissing := Stores.record_of_missing (Stores.expected_of_commit hcommit hput)
    rw [hscope] at hmissing
    exact .inr ⟨invitation, _, hr, hid, hmissing, hdiffer⟩

theorem Authority.revokeInvitation_run {id : Bytes32} {r : Except AuthorityError Unit}
    (hsound : w.state.Sound) (h : (self.revokeInvitation id).run serve w = (r, w')) :
    (∃ e, r = .error e ∧ w' = w) ∨
      r = .ok () ∧ w'.record self.scope (invitationKey id) = none ∧
        w.DifferAt w' self.scope [invitationKey id] := by
  unfold Authority.revokeInvitation at h
  rcases Task.run_bind_cases h with ⟨error, hread, hr⟩ | ⟨record, w₁, hread, h⟩
  · rw [readExisting_run] at hread
    exact .inl ⟨error, hr, (Prod.mk.inj hread).2.symm⟩
  rw [readExisting_run] at hread
  obtain ⟨-, rfl⟩ := Prod.mk.inj hread
  rcases Task.run_lift_cases h with herror | ⟨_, -, h⟩
  · exact .inl herror
  rcases Task.run_lift_cases h with herror | ⟨batch, hbatch, h⟩
  · exact .inl herror
  rw [mapError_eq_ok, AtomicBatch.delete_eq_ok] at hbatch
  obtain ⟨-, hscope, hops⟩ := hbatch
  have hexact : ∀ key expected, Operation.delete (invitationKey id) (.exact record.version) =
      (.delete key expected : Operation StoreKey Bytes) → ∃ v, expected = .exact v := by
    intro key expected hop
    exact ⟨record.version, (Operation.delete.inj hop).2.symm⟩
  rcases commitRecords_single_cases hscope hops hsound hexact h with
    herror | ⟨hr, ⟨version, hcommit⟩, hdiffer⟩
  · exact .inl herror
  · have hdelete : .delete (invitationKey id) (.exact record.version) ∈ batch.operations := by
      simp [hops]
    have hnone := Stores.record_of_delete hcommit hdelete
    rw [hscope] at hnone
    exact .inr ⟨hr, hnone, hdiffer⟩

def Stores.Consumed (w : Stores) (scope : StoreScope) (invitationId : Bytes32) : Prop :=
  ∃ record, w.record scope (invitationKey invitationId) = some record ∧
    isConsumed record.bytes = true

variable {random : SealRandomness}

theorem Authority.redeemInvitation_of_consumed {invitation : InvitationBundle}
    {prepared : PreparedJoinRequest} {clientAppRoot : AppRootKey} {secrets : Option EpochSecrets}
    {r : Except AuthorityError (JoinTicket × Authority)}
    (hconsumed : w.Consumed self.scope invitation.invitationId)
    (h : (self.redeemInvitation invitation prepared clientAppRoot nowMs secrets random).run serve w =
      (r, w')) : w' = w ∧ ∀ ticket self', r = .ok (ticket, self') → self' = self := by
  obtain ⟨record, hrecord, hused⟩ := hconsumed
  unfold Authority.redeemInvitation at h
  rcases Task.run_lift_cases h with ⟨e, hr, hw⟩ | ⟨_, -, h⟩
  · exact ⟨hw, fun _ _ hok => by rw [hr] at hok; cases hok⟩
  rw [Task.run_bind, readExisting_run, hrecord] at h
  simp only [okOr_some] at h
  rw [if_pos hused] at h
  rcases Task.run_lift_cases h with ⟨e, hr, hw⟩ | ⟨ticket, -, h⟩
  · exact ⟨hw, fun _ _ hok => by rw [hr] at hok; cases hok⟩
  · rw [Task.run_pure] at h
    obtain ⟨rfl, rfl⟩ := Prod.mk.inj h
    exact ⟨rfl, fun _ _ hok => (Prod.mk.inj (Except.ok.inj hok)).2.symm⟩

def AuthorityCall.Changes (handle handle' : Authority) (w w' : Stores) : AuthorityCall → Prop
  | .createInvitation _ _ _ _ _ _ _ random =>
    handle' = handle ∧ ∃ id, random = some id ∧
      w.record handle.scope (invitationKey id) = none ∧
      w.DifferAt w' handle.scope [invitationKey id]
  | .revokeInvitation id =>
    handle' = handle ∧ w'.record handle.scope (invitationKey id) = none ∧
      w.DifferAt w' handle.scope [invitationKey id]
  | .redeemInvitation invitation .. =>
    (w.Consumed handle.scope invitation.invitationId → handle' = handle ∧ w' = w) ∧
      (¬ w.Consumed handle.scope invitation.invitationId →
        handle.Revised handle' w w' [invitationKey invitation.invitationId])
  | _ => handle.Revised handle' w w' []

/-- A run of an operation that has changed nothing when it failed, and otherwise what it changes. -/
def AuthorityCall.Atomic (c : AuthorityCall) (handle handle' : Authority) (w w' : Stores)
    (r : Except AuthorityError c.Value) : Prop :=
  (∀ e, r = .error e → handle' = handle ∧ w' = w) ∧
    ∀ value, r = .ok value → c.Changes handle handle' w w'

variable {c : AuthorityCall}

theorem AuthorityCall.Atomic.failed (e : AuthorityError) (hself : self' = self) (hw : w' = w) :
    c.Atomic self self' w w' (.error e) := by
  refine ⟨fun _ _ => ⟨hself, hw⟩, ?_⟩
  intro value hok
  cases hok

theorem AuthorityCall.Atomic.succeeded (value : c.Value) (h : c.Changes self self' w w') :
    c.Atomic self self' w w' (.ok value) := by
  refine ⟨?_, fun _ _ => h⟩
  intro e herror
  cases herror

theorem Authority.commitPlan_atomic {plan : Except AuthorityError NetworkConfigV1}
    {r : Except AuthorityError AuthorityStatus} (hsound : w.state.Sound)
    (h : (updating self (self.commitPlan plan nowMs random)).run serve w = ((r, self'), w')) :
    (∃ e, r = .error e ∧ self' = self ∧ w' = w) ∨
      ∃ value, r = .ok value ∧ self.Revised self' w w' [] := by
  rcases updating_run h with ⟨e, hx, hr, hself⟩ | ⟨value, hx, hr⟩
  · rcases Authority.commitPlan_run hx with ⟨_, -, hw⟩ | ⟨_, _, _, _, -, hok, -⟩
    · exact .inl ⟨e, hr, hself, hw⟩
    · cases hok
  · rcases Authority.commitPlan_run hx with ⟨_, herror, -⟩ | ⟨_, e, opened, _, -, hok, hmoved, -⟩
    · cases herror
    · obtain ⟨-, rfl⟩ := Prod.mk.inj (Except.ok.inj hok)
      exact .inr ⟨value, hr, hmoved.revised hsound (by simp)⟩

theorem Authority.Sound.atomic {I : Identity} {manifest : Bytes} (hs : self.Sound I w)
    (hI : I.Describes manifest) (hsound : w.state.Sound) (hc : c.Administers)
    {r : Except AuthorityError c.Value} (h : (self.perform c).run serve w = ((r, self'), w')) :
    c.Atomic self self' w w' r := by
  -- the operations that commit one plan differ only in what they plan
  have hplan : (∃ e, r = .error e ∧ self' = self ∧ w' = w) ∨
      (∃ value, r = .ok value ∧ c.Changes self self' w w') → c.Atomic self self' w w' r := by
    intro hcases
    rcases hcases with ⟨e, rfl, hself, hw⟩ | ⟨value, rfl, hchanges⟩
    · exact .failed e hself hw
    · exact .succeeded value hchanges
  cases c with
  | commitConfig _ _ _ => exact hc.elim
  | redeemInvitationOnline _ _ _ _ _ => exact hc.elim
  | installEnrollmentAppRoot _ => exact hc.elim
  | configUpdatesAfter _ => exact hc.elim
  | inviteMember request binding roles nowMs validForMs secrets random =>
    rcases Authority.inviteMember_run h with hfailed | ⟨a, e, opened, -, hmoved, -, hissue⟩
    · exact hplan (.inl hfailed)
    · obtain ⟨ticket, hticket⟩ := hs.exists_ticket hI a binding hmoved.size
      exact hplan (.inr ⟨ticket, hissue.trans hticket, hmoved.revised hsound (by simp)⟩)
  | revokeMember _ _ _ _ => exact hplan (Authority.commitPlan_atomic hsound h)
  | registerApp request nowMs random =>
    rcases updating_run h with ⟨e, hx, hr, hself⟩ | ⟨value, hx, hr⟩
    · rcases Authority.registerApp_run hx with ⟨_, -, hw⟩ | ⟨_, _, _, _, _, -, hok, -⟩
      · exact hplan (.inl ⟨e, hr, hself, hw⟩)
      · cases hok
    · rcases Authority.registerApp_run hx with ⟨_, herror, -⟩ | ⟨_, _, _, _, _, -, hok, hmoved, -⟩
      · cases herror
      · obtain ⟨-, rfl⟩ := Prod.mk.inj (Except.ok.inj hok)
        exact hplan (.inr ⟨value, hr, hmoved.revised hsound (by simp)⟩)
  | authorizeAppBinding _ _ _ => exact hplan (Authority.commitPlan_atomic hsound h)
  | setVirtualDns _ _ _ _ _ => exact hplan (Authority.commitPlan_atomic hsound h)
  | removeVirtualDns _ _ _ => exact hplan (Authority.commitPlan_atomic hsound h)
  | registerRelay _ _ _ _ _ _ => exact hplan (Authority.commitPlan_atomic hsound h)
  | removeRelay _ _ _ => exact hplan (Authority.commitPlan_atomic hsound h)
  | createInvitation endpoint addresses relay appAddr name nowMs validForMs random =>
    obtain ⟨hself, hx⟩ := keeping_run h
    rcases Authority.createInvitation_run hsound hx with ⟨e, hr, hw⟩ | ⟨invitation, id, hr, hchanged⟩
    · exact hplan (.inl ⟨e, hr, hself, hw⟩)
    · exact hplan (.inr ⟨invitation, hr, hself, id, hchanged⟩)
  | redeemInvitation invitation prepared clientAppRoot nowMs secrets random =>
    rcases updating_run h with ⟨e, hx, hr, hself⟩ | ⟨value, hx, hr⟩
    · rcases Authority.redeemInvitation_cases hx with ⟨_, -, hw⟩ | ⟨_, _, -, -, -, hok, -⟩ |
        ⟨_, _, _, _, _, _, _, -, -, -, hok⟩
      · exact hplan (.inl ⟨e, hr, hself, hw⟩)
      · cases hok
      · cases hok
    · refine hplan (.inr ⟨value, hr, ?_, ?_⟩)
      · intro hconsumed
        obtain ⟨hw, hself⟩ := Authority.redeemInvitation_of_consumed hconsumed hx
        exact ⟨hself value self' rfl, hw⟩
      · intro hpending
        rcases Authority.redeemInvitation_cases hx with ⟨_, herror, -⟩ |
          ⟨record, _, -, hrecord, hdecode, -⟩ | ⟨_, e, opened, _, _, _, moved, -, hmoved, -, hok⟩
        · cases herror
        · exact absurd ⟨record, hrecord, isConsumed_of_decodeConsumed hdecode⟩ hpending
        · obtain ⟨-, rfl⟩ := Prod.mk.inj (Except.ok.inj hok)
          exact hmoved.revised hsound (by simp)
  | revokeInvitation id =>
    obtain ⟨hself, hx⟩ := keeping_run h
    rcases Authority.revokeInvitation_run hsound hx with ⟨e, hr, hw⟩ | ⟨hr, hchanged⟩
    · exact hplan (.inl ⟨e, hr, hself, hw⟩)
    · exact hplan (.inr ⟨(), hr, hself, hchanged⟩)

/-- A reachable handle, on which an administrative operation runs while no other process is at work
and the backend fails before a commit at most: when the operation fails, the stores and the handle
are as they were, and when it succeeds, exactly what it is about has changed. -/
theorem failed_administration_changes_nothing {options : AuthorityInit} {random : InitRandomness}
    {manifest : Bytes} {init : InitializedAuthority}
    (hinit : ( Authority.initialize options random).run serve Stores.empty =
      (.ok (manifest, init), w))
    {P : Pool (authorityApi manifest)}
    (hP : Reachable (processesOf manifest fun _ => True) w P)
    (hidle : .idle (some self) ∈ P.processes) {c : AuthorityCall} (hc : c.Administers)
    {r : Except AuthorityError c.Value}
    (hrun : FaultyRun (self.perform c) P.world (r, self') w') :
    (∀ e, r = .error e → self' = self ∧ w' = P.world) ∧
      ∀ value, r = .ok value → c.Changes self self' P.world w' := by
  obtain ⟨g, hg, -⟩ := initialize_spec hinit
  let V := authorityVerified hg.describes (processesOf manifest fun _ => True) fun _ _ h => h
  have hstart : V.Good (Pool.initial _ w) := Verified.good hg.inv .refl
  obtain ⟨hgood, -⟩ := hstart.steps hP
  have hs : self.Sound (g.identity random) P.world := hgood.idle _ hidle self rfl
  rcases (self.perform_careful hc).run hrun with hserved | ⟨⟨herror, hself⟩, hw⟩
  · exact hs.atomic hg.describes hgood.inv.sound hc hserved
  · -- a request failed before the commit
    refine ⟨fun _ _ => ⟨hself, hw⟩, ?_⟩
    intro value hok
    obtain ⟨e, he⟩ := herror
    cases he.symm.trans hok

end Effect

end Weaver

namespace Weaver.Sample

open Program Transparent

/-- The registration of an application by the sample authority changes exactly the records of its
revision. -/
theorem failed_administration_sample : ∃ (self self' : Authority) (w w' : Stores),
    self.Revised self' w w' [] := by
  obtain ⟨init, hinit⟩ := initialize_eq_ok
  obtain ⟨_, hr⟩ := Option.isSome_iff_exists.mp redeeming_isSome
  unfold redeeming at hr
  simp only [Option.bind_eq_bind, Option.bind_eq_some_iff, Prod.exists] at hr
  obtain ⟨prepared, -, _, h₁, w₁, hopen, app, h₂, w₂, hregister, -⟩ := hr
  obtain ⟨self, self', rfl, -, hrun⟩ :=
    authorityBody_call_eq_ok.mp (Solo.perform_eq_some.mp hregister)
  have hopened := Solo.reaches (R := processesOf manifest fun _ => True) rfl hopen
    fun _ _ => trivial
  have hfaulty := FaultyRun.of_run hrun
  have hatomic := failed_administration_changes_nothing hinit hopened (List.mem_singleton_self _)
    (by exact trivial) hfaulty
  exact ⟨self, self', w₁, w₂, hatomic.2 app rfl⟩

end Weaver.Sample
