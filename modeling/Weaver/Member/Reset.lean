import Weaver.Member.Preparation
import Weaver.Member.Tenancy

/-!
# Preparing, joining and leaving, from many places at once

`NetworkMembership::reset` forgets a membership: it deletes the records of the member's scope in one
batch, and then the member's secrets. Here `prepare_join`, `join` and `reset` are called by any
number of processes on the same stores, each of which may crash.

What should hold of the stores (`Consistent`) is that they never hold a prepared request together
with a configuration head, and that whatever they hold names secrets that are sealed. `prepare_join`
looks at the head and loads the secrets before it commits its request, and the commit says nothing
of either; so a `join` or a `reset` in between breaks it (`membership_corrupted`). As long as no
`prepare_join` overlaps with a `join` or a `reset`, it holds in every run
(`membership_consistent`).
-/

namespace Weaver

open Checked Wire Versioned Program

variable [Crypto]

/-! ## Forgetting a membership -/

omit [Crypto] in
/-- The loop of `reset` over the entries of the scope. -/
def resetBatch (scope : StoreScope) (entries : List StoredEntry) : Except StoreError AtomicBatch :=
  entries.foldlM (fun batch entry => batch.delete entry.key (.exact entry.value.version))
    (AtomicBatch.new scope)

/-- The loop of `reset` over the labels of the member's secrets. -/
def deleteMemberSecrets (networkId : NetworkId) : List String → StoreTask MembershipError Unit
  | [] => return ()
  | label :: rest => do
    match ← tryDeleteSecret (memberSecretId networkId label) with
    | .ok () => deleteMemberSecrets networkId rest
    | .error .notFound => deleteMemberSecrets networkId rest
    | .error e => Task.lift (.error (.secret e))

/-- `NetworkMembership::reset`. -/
def reset (stores : MembershipStores) (networkId : NetworkId) :
    StoreTask MembershipError Unit := do
  Task.lift (validateStores stores)
  let scope := StoreScope.member networkId
  let entries ← scanPrefixOr .store scope []
  let batch ← Task.lift ((resetBatch scope entries).mapError .store)
  if batch.operations ≠ [] then
    let _ ← commitOr .store batch
  deleteMemberSecrets networkId ["member-signing", "member-encryption", "endpoint"]

omit [Crypto] in
theorem resetBatch_eq_ok {scope : StoreScope} {entries : List StoredEntry} {batch : AtomicBatch}
    (h : resetBatch scope entries = .ok batch) :
    batch.scope = scope ∧ batch.operations =
      entries.map fun entry => .delete entry.key (.exact entry.value.version) := by
  -- the loop adds the deletions at the end of what it has
  have hloop : ∀ (entries : List StoredEntry) (b : AtomicBatch),
      entries.foldlM (fun batch entry => batch.delete entry.key (.exact entry.value.version)) b =
        .ok batch →
      batch.scope = b.scope ∧ batch.operations = b.operations ++
        entries.map fun entry => .delete entry.key (.exact entry.value.version) := by
    intro entries
    induction entries with
    | nil =>
      intro b hb
      obtain rfl := Except.ok.inj hb
      exact ⟨rfl, (List.append_nil _).symm⟩
    | cons entry rest ih =>
      intro b hb
      rw [List.foldlM_cons] at hb
      obtain ⟨b₁, hdelete, hrest⟩ := bind_eq_ok.mp hb
      obtain ⟨-, hscope₁, hops₁⟩ := AtomicBatch.delete_eq_ok.mp hdelete
      obtain ⟨hscope, hops⟩ := ih b₁ hrest
      refine ⟨hscope.trans hscope₁, ?_⟩
      rw [hops, hops₁, List.append_assoc, List.map_cons, List.singleton_append]
  exact hloop entries (AtomicBatch.new scope) h

/-! ## What should hold of the stores -/

section Contract

variable (networkId : NetworkId)

abbrev Stores.prepared (w : Stores) : Option VersionedBytes :=
  w.record (.member networkId) keyPreparedJoin

abbrev Stores.configHead (w : Stores) : Option VersionedBytes :=
  w.record (.member networkId) configHeadKey

/-- The member's certificate and its endpoint binding are stored, and their keys are those of the
sealed secrets. -/
def Credentialed (w : Stores) : Prop :=
  ∃ (m : MemberCertificate) (b : EndpointBinding),
    (∃ version, w.record (.member networkId) keyMemberCertificate = some ⟨version, m.toBytes⟩) ∧
    (∃ version, w.record (.member networkId) keyEndpointBinding = some ⟨version, b.toBytes⟩) ∧
    MemberKeys networkId w.secrets m.payload.signingPublicKey m.payload.encryptionPublicKey
      b.payload.endpointId

/-- The stores hold a prepared request or a configuration head, but not both, and the secrets that
these name are sealed. -/
structure Consistent (w : Stores) : Prop where
  one : w.prepared networkId = none ∨ w.configHead networkId = none
  prepared : Preparing networkId w
  joined : w.configHead networkId ≠ none → Credentialed networkId w

/-- How the stores change while members join and leave: a prepared request stays as it is or goes,
and a head comes only in the place of a prepared request. -/
structure SettlingLe (w w' : Stores) : Prop where
  prepared : w'.prepared networkId = w.prepared networkId ∨ w'.prepared networkId = none
  head : w.configHead networkId = none → w'.configHead networkId = none ∨
    w.prepared networkId ≠ none ∧ w'.prepared networkId = none

/-- What `join` and `reset` may do in one step. -/
structure SettleStep (w w' : Stores) : Prop where
  consistent : Consistent networkId w → Consistent networkId w'
  le : SettlingLe networkId w w'

variable {networkId} {w w' : Stores}

omit [Crypto] in
theorem SettlingLe.refl (w : Stores) : SettlingLe networkId w w := ⟨.inl rfl, .inl⟩

theorem SettleStep.refl (w : Stores) : SettleStep networkId w w := ⟨id, .refl w⟩

omit [Crypto] in
theorem SettlingLe.trans {w₁ w₂ w₃ : Stores} (h : SettlingLe networkId w₁ w₂)
    (h' : SettlingLe networkId w₂ w₃) : SettlingLe networkId w₁ w₃ := by
  have hprepared : w₃.prepared networkId = w₁.prepared networkId ∨
      w₃.prepared networkId = none := by
    rcases h'.prepared with heq | hnone
    · rw [heq]
      exact h.prepared
    · exact .inr hnone
  refine ⟨hprepared, ?_⟩
  intro hhead
  rcases h.head hhead with hhead₂ | ⟨hsome, hnone⟩
  · rcases h'.head hhead₂ with hhead₃ | ⟨hsome, hnone⟩
    · exact .inl hhead₃
    · rcases h.prepared with heq | hgone
      · rw [heq] at hsome
        exact .inr ⟨hsome, hnone⟩
      · exact absurd hgone hsome
  · refine .inr ⟨hsome, ?_⟩
    rcases h'.prepared with heq | hgone
    · exact heq.trans hnone
    · exact hgone

def Blank (networkId : NetworkId) (w : Stores) : Prop :=
  w.prepared networkId = none ∧ w.configHead networkId = none

omit [Crypto] in
theorem Blank.later (h : Blank networkId w) (hle : SettlingLe networkId w w') :
    Blank networkId w' := by
  obtain ⟨hprepared, hhead⟩ := h
  have hprepared' : w'.prepared networkId = none := by
    rcases hle.prepared with heq | hnone
    · exact heq.trans hprepared
    · exact hnone
  rcases hle.head hhead with hhead' | ⟨hsome, -⟩
  · exact ⟨hprepared', hhead'⟩
  · exact absurd hprepared hsome

theorem Blank.consistent (h : Blank networkId w) : Consistent networkId w := by
  obtain ⟨hprepared, hhead⟩ := h
  refine ⟨.inl hprepared, ?_, fun hsome => absurd hhead hsome⟩
  intro record hrecord
  rw [show w.record (.member networkId) keyPreparedJoin = none from hprepared] at hrecord
  cases hrecord

theorem SettleStep.to_blank (h : Blank networkId w') : SettleStep networkId w w' :=
  ⟨fun _ => h.consistent, ⟨.inr h.1, fun _ => .inl h.2⟩⟩

def settlingContract (networkId : NetworkId) : Contract Stores where
  Inv := Consistent networkId
  Le := SettlingLe networkId
  refl := .refl
  trans := .trans

theorem settling_allows : (settlingContract networkId).Allows (SettleStep networkId) :=
  fun _ _ hinv hstep => ⟨hstep.consistent hinv, hstep.le⟩

end Contract

/-! ## One process -/

section Safe

variable {networkId : NetworkId} {w : Stores}

theorem deleteMemberSecrets_safe (labels : List String) (h : Blank networkId w) :
    Safe storeMachine (settlingContract networkId) (SettleStep networkId)
      (deleteMemberSecrets networkId labels) (OnOk fun _ _ => True) w := by
  induction labels generalizing w with
  | nil => exact Safe.pure trivial
  | cons label rest ih =>
    unfold deleteMemberSecrets
    refine Safe.tryDeleteSecret_andThen SettleStep.refl ?_ ?_
    · intro w₁ hle₁ _
      have hblank : Blank networkId w₁ := h.later hle₁
      exact SettleStep.to_blank hblank
    · intro w₁ hle₁ _ answer w₂ hstep _
      have hblank : Blank networkId w₂ := (h.later hle₁).later hstep.le
      split
      · exact ih hblank
      · exact ih hblank
      · exact Safe.lift nofun

variable {entries : List StoredEntry}

omit [Crypto] in
theorem record_of_not_scanned (hentries : entries = w.state.scanPrefix (.member networkId) [])
    {key : StoreKey} (hkey : ∀ entry ∈ entries, entry.key ≠ key) :
    w.record (.member networkId) key = none := by
  cases hrecord : w.record (.member networkId) key with
  | none => rfl
  | some record =>
    have hmem : (⟨key, record⟩ : StoredEntry) ∈ entries := by
      rw [hentries]
      exact StateStore.mem_scanPrefix.mpr ⟨hrecord, List.nil_prefix⟩
    exact absurd rfl (hkey _ hmem)

variable {batch : AtomicBatch} {version : UInt64}

omit [Crypto] in
/-- A committed deletion of what was scanned: every key is deleted, as it was scanned, or it was
missing then and is as it was. -/
theorem record_of_reset {w₁ w₂ w₃ : Stores}
    (hentries : entries = w₁.state.scanPrefix (.member networkId) [])
    (hbatch : resetBatch (.member networkId) entries = .ok batch)
    (hcommit : w₂.state.commitBatch batch = .ok (version, w₃.state)) (key : StoreKey) :
    (∃ v, (Expected.exact v).Holds (w₂.state.version (.member networkId, key)) ∧
        w₃.record (.member networkId) key = none) ∨
      w₁.record (.member networkId) key = none ∧
        w₃.record (.member networkId) key = w₂.record (.member networkId) key := by
  obtain ⟨hscope, hops⟩ := resetBatch_eq_ok hbatch
  by_cases hkey : ∃ entry ∈ entries, entry.key = key
  · obtain ⟨entry, hentry, rfl⟩ := hkey
    have hdeleted : .delete entry.key (.exact entry.value.version) ∈ batch.operations := by
      rw [hops]
      exact List.mem_map_of_mem hentry
    have hexpected := Stores.expected_of_commit hcommit hdeleted
    have hgone := Stores.record_of_delete hcommit hdeleted
    rw [hscope] at hexpected hgone
    exact .inl ⟨_, hexpected, hgone⟩
  · have hnot : ∀ entry ∈ entries, entry.key ≠ key :=
      fun entry hentry heq => hkey ⟨entry, hentry, heq⟩
    refine .inr ⟨record_of_not_scanned hentries hnot, ?_⟩
    rw [← hscope]
    refine Stores.record_of_other hcommit ?_
    intro op hop
    rw [hops] at hop
    obtain ⟨entry, hentry, rfl⟩ := List.mem_map.mp hop
    exact hnot entry hentry

omit [Crypto] in
/-- A committed deletion of what was scanned leaves neither a request nor a head: what was there is
deleted, and a head that has come since would have taken the place of the request that the batch
expects. -/
theorem blank_of_reset {w₁ w₂ w₃ : Stores}
    (hentries : entries = w₁.state.scanPrefix (.member networkId) [])
    (hbatch : resetBatch (.member networkId) entries = .ok batch) (hle : SettlingLe networkId w₁ w₂)
    (hcommit : w₂.state.commitBatch batch = .ok (version, w₃.state)) : Blank networkId w₃ := by
  have hcases := record_of_reset hentries hbatch hcommit
  have hprepared : w₃.prepared networkId = none := by
    rcases hcases keyPreparedJoin with ⟨_, -, hgone⟩ | ⟨hnone, hsame⟩
    · exact hgone
    · rcases hle.prepared with heq | hnone₂
      · exact hsame.trans (heq.trans hnone)
      · exact hsame.trans hnone₂
  refine ⟨hprepared, ?_⟩
  rcases hcases configHeadKey with ⟨_, -, hgone⟩ | ⟨hnone, hsame⟩
  · exact hgone
  rcases hle.head hnone with hnone₂ | ⟨hsome, hnone₂⟩
  · exact hsame.trans hnone₂
  -- the request was scanned, and the batch has found it as it was
  rcases hcases keyPreparedJoin with ⟨_, hexpected, -⟩ | ⟨hmissing, -⟩
  · obtain ⟨record, hrecord, -⟩ := Stores.record_of_exact hexpected
    cases hrecord.symm.trans hnone₂
  · exact absurd hmissing hsome

theorem reset_safe (stores : MembershipStores) :
    Safe storeMachine (settlingContract networkId) (SettleStep networkId)
      (reset stores networkId) (OnOk fun _ _ => True) w := by
  unfold reset
  refine Safe.lift_andThen fun _ _ => ?_
  refine Safe.request_andThen ?_
  intro w₁ _ _ answer w₁' hscan
  obtain ⟨rfl, hanswer⟩ := storeMachine_scan hscan
  refine ⟨.refl _, ?_⟩
  intro entries hentries
  have hscanned := hanswer entries (mapError_eq_ok.mp hentries)
  refine Safe.lift_andThen fun batch hbatch => ?_
  rw [mapError_eq_ok] at hbatch
  split
  · refine Safe.commit_andThen SettleStep.refl (by simp) ?_
    intro w₂ hle₂ _ version w₃ hcommit _
    have hblank := blank_of_reset hscanned hbatch hle₂ hcommit
    exact ⟨SettleStep.to_blank hblank, fun _ => deleteMemberSecrets_safe _ hblank⟩
  · next hempty =>
    -- the scope was empty, and so there is nothing that names the secrets
    have hnone : entries = [] := by
      rw [not_not, (resetBatch_eq_ok hbatch).2] at hempty
      exact List.map_eq_nil_iff.mp hempty
    have hmissing : ∀ key, w₁'.record (.member networkId) key = none := fun key =>
      record_of_not_scanned hscanned (by rw [hnone]; exact nofun)
    exact deleteMemberSecrets_safe _ ⟨hmissing _, hmissing _⟩

theorem SettleStep.join {w' : Stores} {ticket : JoinTicket} {head : ConfigHead}
    {record : VersionedBytes} {prepared : PreparedJoinRequest} {m : MemberCertificate}
    {b : EndpointBinding}
    (hbatch : joinBatch (.member networkId) ticket head record.version = .ok batch)
    (hcommit : w.state.commitBatch batch = .ok (version, w'.state))
    (hsecrets : w'.secrets = w.secrets)
    (hrecord : w.prepared networkId = some record ∨ w.prepared networkId = none)
    (hprepared : PreparedJoinRequest.fromBytes record.bytes = .ok prepared)
    (hm : ticket.memberCertificate = m.toBytes) (hb : ticket.endpointBinding = b.toBytes)
    (hsigning : m.payload.signingPublicKey = prepared.request.payload.signingPublicKey)
    (hencryption : m.payload.encryptionPublicKey = prepared.request.payload.encryptionPublicKey)
    (hendpoint : b.payload.endpointId = prepared.request.payload.endpointId) :
    SettleStep networkId w w' := by
  obtain ⟨-, hscope, hops⟩ := joinBatch_eq_ok.mp hbatch
  have hput : ∀ {key value}, Operation.put key value .missing ∈
      joinOperations ticket head record.version →
      ∃ v, w'.record (.member networkId) key = some ⟨v, value⟩ := by
    intro key value hop
    rw [← hops] at hop
    rw [← hscope]
    exact Stores.record_of_put hcommit hop
  have hdelete : .delete keyPreparedJoin (.exact record.version) ∈ batch.operations := by
    rw [hops]
    unfold joinOperations
    simp
  have hgone : w'.prepared networkId = none := by
    have hnone := Stores.record_of_delete hcommit hdelete
    rw [hscope] at hnone
    exact hnone
  -- the batch has found the request in the version that was read
  have hthere : w.prepared networkId = some record := by
    rcases hrecord with hsome | hnone
    · exact hsome
    · have hexpected := Stores.expected_of_commit hcommit hdelete
      rw [hscope] at hexpected
      obtain ⟨_, hsome, -⟩ := Stores.record_of_exact hexpected
      exact absurd (hsome.symm.trans hnone) nofun
  refine ⟨?_, ⟨.inr hgone, fun _ => .inr ⟨?_, hgone⟩⟩⟩
  · intro hconsistent
    refine ⟨.inl hgone, ?_, ?_⟩
    · intro record' hrecord'
      rw [show w'.record (.member networkId) keyPreparedJoin = none from hgone] at hrecord'
      cases hrecord'
    · intro _
      have hstored := hconsistent.prepared.read hthere hprepared
      refine ⟨m, b, hput ?_, hput ?_, ?_⟩
      · rw [← hm]
        simp [joinOperations]
      · rw [← hb]
        simp [joinOperations]
      · rw [hsecrets, hsigning, hencryption, hendpoint]
        exact hstored.2
  · rw [hthere]
    exact nofun

theorem join_safe (stores : MembershipStores) {root : NetworkRootPublic}
    (hroot : root.networkId = networkId) (ticket : JoinTicket) (nowMs : UInt64) :
    Safe storeMachine (settlingContract networkId) (SettleStep networkId)
      (join stores root ticket nowMs) (OnOk fun _ _ => True) w := by
  subst hroot
  -- loading the keys changes nothing
  have hquiet : ∀ label, Prog.Only StoreRequest.Quiet (loadSecret32 root.networkId label) :=
    fun _ => ⟨trivial, fun _ => trivial⟩
  have hload : ∀ {κ : Type} {x : StoreTask MembershipError κ} {w : Stores},
      Prog.Only StoreRequest.Quiet x →
      Safe storeMachine (settlingContract root.networkId) (SettleStep root.networkId) x
        (OnOk fun _ _ => True) w :=
    fun h => Safe.of_quiet SettleStep.refl h fun _ _ _ _ => trivial
  unfold join
  refine Safe.lift_andThen fun _ _ => ?_
  refine Safe.read_andThen SettleStep.refl (by simp) ?_
  intro w₁ _ hinv₁ record hrecord
  rw [mapError_ok, ok_bind, okOr_eq_ok] at hrecord
  refine Safe.lift_andThen fun prepared hprepared => ?_
  rw [mapError_eq_ok] at hprepared
  refine Safe.lift_andThen fun request hrequest => ?_
  rw [mapError_eq_ok, PreparedJoinRequest.verify_eq_ok] at hrequest
  obtain ⟨-, -, rfl⟩ := hrequest
  refine Safe.lift_andThen fun _ hticket => ?_
  rw [mapError_eq_ok, JoinTicket.verify_eq_ok] at hticket
  obtain ⟨a, m, b, e, hticket⟩ := hticket
  refine Safe.andThen settling_allows hinv₁ (hload ((hquiet _).andThen fun _ => trivial)) ?_
  intro encryption w₂ hle₂ hinv₂ _
  refine Safe.lift_andThen fun _ _ => ?_
  refine Safe.andThen settling_allows hinv₂ (hload (hquiet _)) ?_
  intro endpoint w₃ hle₃ hinv₃ _
  refine Safe.lift_andThen fun _ _ => ?_
  refine Safe.andThen settling_allows hinv₃ (hload ((hquiet _).andThen fun _ => trivial)) ?_
  intro signing w₄ hle₄ hinv₄ _
  refine Safe.lift_andThen fun _ _ => Safe.lift_andThen fun _ _ => ?_
  refine Safe.lift_andThen fun _ _ => Safe.lift_andThen fun _ _ => ?_
  refine Safe.lift_andThen fun opened _ => Safe.lift_andThen fun member hmember => ?_
  rw [mapError_eq_ok, Signed.fromBytes_eq_ok, hticket.member.1] at hmember
  obtain rfl := Signed.toBytes_injective hmember
  refine Safe.lift_andThen fun _ hids => ?_
  simp only [failIf_eq_ok, not_or, Decidable.not_not] at hids
  obtain ⟨-, hsigning, hencryption⟩ := hids
  refine Safe.lift_andThen fun batch hbatch => ?_
  rw [mapError_eq_ok] at hbatch
  refine Safe.commit_andThen SettleStep.refl (by simp) ?_
  intro w₅ hle₅ _ version w₆ hcommit hsecrets
  have hle : SettlingLe root.networkId w₁ w₅ := hle₂.trans (hle₃.trans (hle₄.trans hle₅))
  have hrecord₅ : w₅.prepared root.networkId = some record ∨ w₅.prepared root.networkId = none := by
    rcases hle.prepared with heq | hnone
    · exact .inl (heq.trans hrecord)
    · exact .inr hnone
  refine ⟨SettleStep.join hbatch hcommit hsecrets hrecord₅ hprepared hticket.member.1
    hticket.endpoint.1 hsigning hencryption hticket.endpoint.2.endpoint, ?_⟩
  intro _
  exact Safe.pure trivial

end Safe

/-! ## All processes -/

/-- The calls of `NetworkMembership`, with the randomness that they draw. -/
inductive MembershipCall where
  | prepareJoin (stores : MembershipStores) (roles : MemberRoles) (expiresAtMs : UInt64)
      (random : PrepareRandomness)
  | join (stores : MembershipStores) (root : NetworkRootPublic) (ticket : JoinTicket)
      (nowMs : UInt64)
  | reset (stores : MembershipStores)

abbrev MembershipCall.Value : MembershipCall → Type
  | .prepareJoin .. => PreparedJoinRequest
  | .join .. => ConfigHead
  | .reset .. => Unit

def MembershipCall.task (networkId : NetworkId) :
    (c : MembershipCall) → StoreTask MembershipError c.Value
  | .prepareJoin stores roles expiresAtMs random =>
    Weaver.prepareJoin stores networkId roles expiresAtMs random
  | .join stores root ticket nowMs => Weaver.join stores root ticket nowMs
  | .reset stores => Weaver.reset stores networkId

def MembershipCall.For (networkId : NetworkId) : MembershipCall → Prop
  | .join _ root _ _ => root.networkId = networkId
  | _ => True

/-- The call is one of `prepare_join`. -/
def MembershipCall.Prepares : MembershipCall → Bool
  | .prepareJoin .. => true
  | _ => false

def membershipApi (networkId : NetworkId) : Api storeInterface.crashing Stores :=
  Api.crashing
    { Handle := Unit
      Call := MembershipCall
      Reply := fun c => Except MembershipError c.Value
      body := fun c _ => Prog.bind (c.task networkId) fun reply => .ret (reply, ())
      machine := fun _ => storeMachine }

def membershipProcesses (networkId : NetworkId) : Rules (membershipApi networkId) where
  Spawn _ _ := True
  Start _ _ c := MembershipCall.For networkId c

/-- Processes appear at any time; no call of `prepare_join` overlaps with one of `join` or
`reset`. -/
def membershipsApart (networkId : NetworkId) : Rules (membershipApi networkId) where
  Spawn _ _ := True
  Start P _ c := MembershipCall.For networkId c ∧
    ∀ (c' : MembershipCall) p, .busy c' p ∈ P.processes → c'.Prepares = MembershipCall.Prepares c

section Pool

variable {networkId : NetworkId} {w w' : Stores}

theorem PrepareStep.consistent (h : PrepareStep networkId w w') (hw : Consistent networkId w) :
    Consistent networkId w' := by
  have hhead : w'.configHead networkId = w.configHead networkId := h.other _ (by decide)
  refine ⟨?_, (preparing_allows w w' hw.prepared h).1, ?_⟩
  · rcases h.prepared with hsame | ⟨-, hnone, -⟩
    · rcases hw.one with hprepared | hnone
      · exact .inl (hsame.trans hprepared)
      · exact .inr (hhead.trans hnone)
    · exact .inr (hhead.trans hnone)
  · intro hsome
    rw [hhead] at hsome
    obtain ⟨m, b, ⟨v, hm⟩, ⟨v', hb⟩, hkeys⟩ := hw.joined hsome
    refine ⟨m, b, ⟨v, ?_⟩, ⟨v', ?_⟩, hkeys.mono h.secrets⟩
    · rw [h.other _ (by decide)]
      exact hm
    · rw [h.other _ (by decide)]
      exact hb

def consistentContract (networkId : NetworkId) : Contract Stores :=
  { preparingContract networkId with Inv := Consistent networkId }

theorem consistent_allows :
    (consistentContract networkId).Allows (PrepareStep networkId) := by
  intro w w' hinv hstep
  exact ⟨hstep.consistent hinv, (preparing_allows w w' hinv.prepared hstep).2⟩

theorem prepareJoin_keeps (stores : MembershipStores) (roles : MemberRoles) (expiresAtMs : UInt64)
    (random : PrepareRandomness) :
    Safe storeMachine (consistentContract networkId) (PrepareStep networkId)
      (prepareJoin stores networkId roles expiresAtMs random)
      (OnOk fun p w => p.StoredIn networkId w ∧
        w.record (.member networkId) configHeadKey = none) w := by
  have hinv : ∀ w, (consistentContract networkId).Inv w → (preparingContract networkId).Inv w :=
    fun _ h => Consistent.prepared h
  exact Safe.mono hinv (fun _ _ h => h) (fun _ _ h => h)
    (prepareJoin_safe stores roles expiresAtMs random)

def PhaseLe (networkId : NetworkId) : Bool → Stores → Stores → Prop
  | true => PreparingLe networkId
  | false => SettlingLe networkId

def MembershipCall.Step (networkId : NetworkId) : Bool → Stores → Stores → Prop
  | true => PrepareStep networkId
  | false => SettleStep networkId

omit [Crypto] in
theorem Safe.membershipCall {C : Contract Stores} {G : Stores → Stores → Prop}
    (hstay : ∀ w, G w w) (hallow : C.Allows G) (hinv : C.Inv w) {α : Type}
    {x : StoreTask MembershipError α} {Q : Except MembershipError α → Stores → Prop}
    (h : Safe storeMachine C G x Q w) :
    Safe storeMachine.crashing C G
      ((Prog.bind x fun reply => .ret (reply, ())).crashing (none, ()) fun r => (some r.1, r.2))
      (fun _ _ => True) w :=
  Safe.crashing (Q := fun _ _ => True) hstay (fun _ => trivial) (fun _ _ _ => trivial)
    (Safe.bind hallow hinv h fun _ _ _ _ _ => trivial)

/-- The calls that do not overlap with `prepare_join` keep the stores consistent, and so does
`prepare_join` by itself. -/
def membershipsVerified : Phased (membershipsApart networkId) where
  Phase := Bool
  phase c := MembershipCall.Prepares c
  Inv := Consistent networkId
  Le := PhaseLe networkId
  refl m w := by
    cases m with
    | true => exact (preparingContract networkId).refl w
    | false => exact SettlingLe.refl w
  trans m _ _ _ h h' := by
    cases m with
    | true => exact (preparingContract networkId).trans h h'
    | false => exact SettlingLe.trans h h'
  Guarantee c := MembershipCall.Step networkId (MembershipCall.Prepares c)
  allows c w w' hinv hstep := by
    cases c with
    | prepareJoin => exact consistent_allows w w' hinv hstep
    | join => exact settling_allows w w' hinv hstep
    | reset => exact settling_allows w w' hinv hstep
  apart P _ c hstart := hstart.2
  start P _ c hinv hstart := by
    cases c with
    | prepareJoin stores roles expiresAtMs random =>
      exact Safe.membershipCall (C := consistentContract networkId) PrepareStep.refl
        consistent_allows hinv (prepareJoin_keeps stores roles expiresAtMs random)
    | join stores root ticket nowMs =>
      exact Safe.membershipCall SettleStep.refl settling_allows hinv
        (join_safe stores hstart.1 ticket nowMs)
    | reset stores =>
      exact Safe.membershipCall SettleStep.refl settling_allows hinv (reset_safe stores)

end Pool

/-- As long as no `prepare_join` overlaps with a `join` or a `reset`, whatever the calls are, how
their requests interleave, and at which of them they crash: the stores never hold a prepared request
together with a configuration head, and the secrets that either of them names are sealed. -/
theorem membership_consistent {networkId : NetworkId} {w : Stores} (hw : Consistent networkId w)
    {P : Pool (membershipApi networkId)} (h : Reachable (membershipsApart networkId) w P) :
    (P.world.record (.member networkId) keyPreparedJoin = none ∨
      P.world.record (.member networkId) configHeadKey = none) ∧
    (∀ record, P.world.record (.member networkId) keyPreparedJoin = some record →
      ∃ p : PreparedJoinRequest, record.bytes = p.toBytes ∧
        MemberKeys networkId P.world.secrets p.request.payload.signingPublicKey
          p.request.payload.encryptionPublicKey p.request.payload.endpointId) ∧
    (P.world.record (.member networkId) configHeadKey ≠ none →
      Credentialed networkId P.world) := by
  have hconsistent : Consistent networkId P.world := membershipsVerified.inv_of_reachable hw h
  exact ⟨hconsistent.one, hconsistent.prepared, hconsistent.joined⟩

end Weaver

namespace Weaver.Sample

open Program Transparent

def twoMembers (networkId : NetworkId) : Pool (membershipApi networkId) :=
  ⟨Stores.empty, [.idle (), .idle ()], []⟩

def going {networkId : NetworkId} (i n : ℕ) : List (Move (membershipApi networkId)) :=
  List.replicate n (.advance i)

def allIdle {networkId : NetworkId} (P : Pool (membershipApi networkId)) : Bool :=
  P.processes.all fun
    | .idle _ => true
    | .busy _ _ => false

theorem reachable_follow {networkId : NetworkId} {R : Rules (membershipApi networkId)}
    (hspawn : ∀ P h, R.Spawn P h) {moves : List (Move (membershipApi networkId))}
    (hstart : ∀ i c, .launch i c ∈ moves → ∀ P h, R.Start P h c) :
    Reachable R Stores.empty ((twoMembers networkId).follow serve.crashing moves) := by
  have hserve : ∀ (c : MembershipCall) (w : Stores) (r : StoreRequest),
      (membershipApi networkId).machine c w r (serve.crashing w r).1 (serve.crashing w r).2 :=
    fun _ w r => storeMachine_serve w r
  have htwo : Reachable R Stores.empty (twoMembers networkId) :=
    .tail (.single (.spawn () (hspawn _ _))) (.spawn () (hspawn _ _))
  exact htwo.trans (Steps.follow hserve _ hstart)

def preparedAlone : Pool (membershipApi joinedNetwork) :=
  (Pool.alone _ Stores.empty () []).perform serve.crashing 0 ()
    (.prepareJoin memberStores .member 50000 memberDraws)

theorem preparedAlone_isSome :
    (preparedAlone.world.record (.member joinedNetwork) keyPreparedJoin).isSome = true := by
  decide +kernel

/-- The secrets that the stored request names are sealed. -/
theorem membership_consistent_sample : ∃ (record : VersionedBytes) (p : PreparedJoinRequest),
    preparedAlone.world.record (.member joinedNetwork) keyPreparedJoin = some record ∧
      record.bytes = p.toBytes ∧
      MemberKeys joinedNetwork preparedAlone.world.secrets p.request.payload.signingPublicKey
        p.request.payload.encryptionPublicKey p.request.payload.endpointId := by
  have hserve : ∀ (c : MembershipCall) (w : Stores) (r : StoreRequest),
      (membershipApi joinedNetwork).machine c w r (serve.crashing w r).1 (serve.crashing w r).2 :=
    fun _ w r => storeMachine_serve w r
  have hbusy : ∀ (c : MembershipCall) p,
      .busy c p ∉ (Pool.alone (membershipApi joinedNetwork) Stores.empty () []).processes := by
    intro c p hmem
    cases List.mem_singleton.mp hmem
  have hreachable : Reachable (membershipsApart joinedNetwork) Stores.empty preparedAlone :=
    .trans (Reachable.alone trivial) (Steps.perform (hserve _) rfl
      ⟨trivial, fun c p hmem => absurd hmem (hbusy c p)⟩)
  have hempty : Consistent joinedNetwork Stores.empty := Blank.consistent ⟨rfl, rfl⟩
  obtain ⟨record, hrecord⟩ := Option.isSome_iff_exists.mp preparedAlone_isSome
  obtain ⟨p, hbytes, hkeys⟩ := (membership_consistent hempty hreachable).2.1 record hrecord
  exact ⟨record, p, hrecord, hbytes, hkeys⟩

/-- A member is forgotten while another process prepares to join: the scope is scanned and found
empty, the request is prepared, and then the secrets are deleted. -/
def leaving : Pool (membershipApi joinedNetwork) :=
  (twoMembers joinedNetwork).follow serve.crashing
    (.launch 0 (.reset memberStores) :: going 0 1 ++
      .launch 1 (.prepareJoin memberStores .member 50000 memberDraws) :: going 1 10 ++ going 0 4)

theorem forgetting_result : allIdle leaving = true ∧
    (leaving.world.record (.member joinedNetwork) keyPreparedJoin).isSome = true ∧
    ∀ label ∈ ["member-signing", "member-encryption", "endpoint"],
      leaving.world.secrets.open (memberSecretId joinedNetwork label) = .error .notFound := by
  decide +kernel

/-- A member joins while another process prepares to join: the other one has looked for a head and
for a request before there was either, and commits its request after the head. -/
def overtaking (ticket : JoinTicket) : Pool (membershipApi root.public.networkId) :=
  (twoMembers root.public.networkId).follow serve.crashing
    (.launch 0 (.prepareJoin memberStores .member 50000 memberDraws) :: going 0 2 ++
      .launch 1 (.prepareJoin memberStores .member 50000 memberDraws) :: going 1 10 ++
      .launch 1 (.join memberStores root.public ticket 1100) :: going 1 6 ++ going 0 8)

set_option maxRecDepth 100000 in
theorem overtaking_result : (inviting.map fun invited =>
    let P := overtaking invited.2.1
    allIdle P && (P.world.record (.member root.public.networkId) keyPreparedJoin).isSome &&
      (P.world.record (.member root.public.networkId) configHeadKey).isSome) = some true := by
  decide +kernel

/-- Nothing is in progress, and a prepared request names secrets that are gone; or it stands beside
a configuration head. -/
theorem membership_corrupted :
    (∃ P : Pool (membershipApi joinedNetwork),
      Reachable (membershipProcesses joinedNetwork) Stores.empty P ∧ allIdle P = true ∧
      (P.world.record (.member joinedNetwork) keyPreparedJoin).isSome = true ∧
      ∀ label ∈ ["member-signing", "member-encryption", "endpoint"],
        P.world.secrets.open (memberSecretId joinedNetwork label) = .error .notFound) ∧
    ∃ P : Pool (membershipApi root.public.networkId),
      Reachable (membershipProcesses root.public.networkId) Stores.empty P ∧ allIdle P = true ∧
      (P.world.record (.member root.public.networkId) keyPreparedJoin).isSome = true ∧
      (P.world.record (.member root.public.networkId) configHeadKey).isSome = true := by
  refine ⟨⟨leaving, reachable_follow (fun _ _ => trivial) ?_, forgetting_result⟩, ?_⟩
  · intro i c hmem P h
    simp only [going, List.cons_append, List.mem_cons, List.mem_append, List.mem_replicate,
      reduceCtorEq, and_false, or_false, false_or] at hmem
    rcases hmem with heq | heq
    · cases heq
      trivial
    · cases heq
      trivial
  · have hresult := overtaking_result
    rw [Option.map_eq_some_iff] at hresult
    obtain ⟨⟨_, ticket, _⟩, -, hresult⟩ := hresult
    simp only [Bool.and_eq_true, and_assoc] at hresult
    refine ⟨overtaking ticket, reachable_follow (fun _ _ => trivial) ?_, hresult⟩
    intro i c hmem P h
    simp only [going, List.cons_append, List.mem_cons, List.mem_append, List.mem_replicate,
      reduceCtorEq, and_false, or_false, false_or] at hmem
    rcases hmem with heq | heq | heq
    · cases heq
      trivial
    · cases heq
      trivial
    · cases heq
      rfl

end Weaver.Sample
