import Weaver.Authority.Epochs
import Weaver.Config.Window

/-!
# Serials

A certificate has a serial, by which it is revoked. `next_serial` is one more than the largest serial
in the current configuration, among its administrators, its members and the revoked ones. A
configuration keeps every serial that was ever given out, since a revocation moves the member's
serial to the revoked ones. So the largest serial in the current configuration is the largest ever,
and a new member has a serial that nobody had before (`serials_never_reused`).
-/

namespace Weaver

open Checked Wire Collect Versioned Program
open scoped List

/-! ## The serials of a configuration -/

def NetworkConfigV1.serials (c : NetworkConfigV1) : List UInt64 :=
  c.admins.map (fun a => a.payload.serial) ++
    c.memberCertificates.map (fun m => m.payload.serial) ++ c.revokedSerials

theorem NetworkConfigV1.mem_serials {c : NetworkConfigV1} {serial : UInt64} :
    serial ∈ c.serials ↔ (∃ a, c.ListsAdmin a ∧ a.payload.serial = serial) ∨
      (∃ m, c.ListsMember m ∧ m.payload.serial = serial) ∨ serial ∈ c.revokedSerials := by
  have hmembers : ∀ m, m ∈ c.memberCertificates ↔ c.ListsMember m := fun m => mem_readable
  unfold NetworkConfigV1.serials
  simp only [List.mem_append, List.mem_map, NetworkConfigV1.mem_admins, hmembers, or_assoc]

theorem NetworkConfigV1.serials_eq {c c' : NetworkConfigV1} (hadmins : c'.adminKeys = c.adminKeys)
    (hmembers : c'.members = c.members) (hrevoked : c'.revokedSerials = c.revokedSerials) :
    c'.serials = c.serials := by
  unfold NetworkConfigV1.serials NetworkConfigV1.admins NetworkConfigV1.memberCertificates
  rw [hadmins, hmembers, hrevoked]

variable {m : MemberCertificate}

theorem NetworkConfigV1.serials_append {c c' : NetworkConfigV1}
    (hadmins : c'.adminKeys = c.adminKeys) (hmembers : c'.members = c.members ++ [m.toBytes])
    (hrevoked : c'.revokedSerials = c.revokedSerials) :
    c'.serials.Perm (m.payload.serial :: c.serials) := by
  have hread : MemberCertificate.fromBytes m.toBytes = .ok m := Signed.fromBytes_toBytes m
  have hcertificates : c'.memberCertificates = c.memberCertificates ++ [m] := by
    unfold NetworkConfigV1.memberCertificates
    rw [hmembers, List.filterMap_append, List.filterMap_cons, List.filterMap_nil, hread]
    rfl
  have hsame : c'.admins = c.admins := by
    unfold NetworkConfigV1.admins
    rw [hadmins]
  unfold NetworkConfigV1.serials
  rw [hcertificates, hsame, hrevoked, List.map_append]
  -- the new serial moves to the front over the members and the administrators
  calc c.admins.map (fun a => a.payload.serial) ++
        (c.memberCertificates.map (fun m => m.payload.serial) ++ [m.payload.serial]) ++
        c.revokedSerials
    _ = (c.admins.map (fun a => a.payload.serial) ++
          c.memberCertificates.map (fun m => m.payload.serial)) ++
        m.payload.serial :: c.revokedSerials := by
      simp only [List.append_assoc, List.cons_append, List.nil_append]
    _ ~ m.payload.serial :: ((c.admins.map (fun a => a.payload.serial) ++
          c.memberCertificates.map (fun m => m.payload.serial)) ++ c.revokedSerials) :=
      List.perm_middle

theorem RemovesMember.serials {c c' : NetworkConfigV1} (h : RemovesMember c c' m)
    (hadmins : c'.adminKeys = c.adminKeys) :
    c'.serials.Perm c.serials := by
  have hread : MemberCertificate.fromBytes m.toBytes = .ok m := Signed.fromBytes_toBytes m
  have hcertificates : c.memberCertificates.Perm (m :: c'.memberCertificates) := by
    have hperm := h.members.filterMap fun raw => (MemberCertificate.fromBytes raw).toOption
    rw [List.filterMap_cons, hread] at hperm
    exact hperm
  have hmembers := hcertificates.map fun m => m.payload.serial
  have hsame : c'.admins = c.admins := by
    unfold NetworkConfigV1.admins
    rw [hadmins]
  unfold NetworkConfigV1.serials
  rw [hsame, List.append_assoc, List.append_assoc]
  refine List.Perm.append_left _ ?_
  refine (List.Perm.append_left _ h.revoked.2).trans ?_
  exact List.perm_middle.trans (List.Perm.append_right _ hmembers.symm)

/-! ## The next serial -/

theorem le_foldl_max {l : List UInt64} {x y : UInt64} (h : x ≤ y ∨ x ∈ l) : x ≤ l.foldl max y := by
  induction l generalizing y with
  | nil =>
    rcases h with hle | hmem
    · exact hle
    · cases hmem
  | cons z l ih =>
    refine ih ?_
    rcases h with hle | hmem
    · exact .inl (hle.trans (le_max_left y z))
    · rcases List.mem_cons.mp hmem with rfl | hrest
      · exact .inl (le_max_right y x)
      · exact .inr hrest

theorem nextSerial_spec {c : NetworkConfigV1} {serial : UInt64} (h : nextSerial c = .ok serial) :
    ∀ x ∈ c.serials, x < serial := by
  unfold nextSerial at h
  simp only [bind_eq_ok, okOr_eq_ok, checkedAdd_eq_some, mapM_eq_ok] at h
  obtain ⟨admins, hadmins, members, hmembers, hserial⟩ := h
  have hone : (1 : UInt64).toNat = 1 := rfl
  have hlt : ∀ x, x ∈ c.revokedSerials ++ admins ++ members → x < serial := by
    intro x hx
    have hle : x ≤ (c.revokedSerials ++ admins ++ members).foldl max 0 := le_foldl_max (.inr hx)
    rw [UInt64.le_iff_toNat_le] at hle
    rw [UInt64.lt_iff_toNat_lt]
    omega
  intro x hx
  rcases NetworkConfigV1.mem_serials.mp hx with ⟨a, ha, rfl⟩ | ⟨m, hm, rfl⟩ | hrevoked
  · obtain ⟨x, hx, hread⟩ := exists_of_mem_left hadmins ha
    have hparse : AdminCertificate.fromBytes a.toBytes = .ok a := Signed.fromBytes_toBytes a
    rw [hparse] at hread
    obtain rfl := Except.ok.inj hread
    exact hlt _ (List.mem_append_left _ (List.mem_append_right _ hx))
  · obtain ⟨x, hx, hread⟩ := exists_of_mem_left hmembers hm
    have hparse : MemberCertificate.fromBytes m.toBytes = .ok m := Signed.fromBytes_toBytes m
    rw [hparse] at hread
    obtain rfl := Except.ok.inj hread
    exact hlt _ (List.mem_append_right _ hx)
  · exact hlt x (List.mem_append_left _ (List.mem_append_left _ hrevoked))

variable [Crypto]

variable {self : Authority} {nowMs : UInt64}

variable {secrets : Option EpochSecrets}

theorem Authority.planInvite_serial {request : JoinRequest} {binding : EndpointBinding}
    {roles : MemberRoles} {validForMs : UInt64} {a : Admission}
    (h : self.planInvite request binding roles nowMs validForMs secrets = .ok a) :
    nextSerial self.config.asConfig = .ok a.member.payload.serial := by
  unfold Authority.planInvite at h
  simp only [bind_eq_ok, mapError_eq_ok, pure_eq_ok_iff] at h
  obtain ⟨_, -, _, -, _, -, _, -, _, -, _, -, serial, hserial, member, hmember, _, -, _, -, _, -,
    rfl⟩ := h
  rw [hserial, (MemberCertificate.issueByAdmin_spec hmember).1]

theorem Authority.planRedeem_serial {invitation : InvitationBundle} {prepared : PreparedJoinRequest}
    {clientAppRoot : AppRootKey} {r : Redemption}
    (h : self.planRedeem invitation prepared clientAppRoot nowMs secrets = .ok r) :
    nextSerial self.config.asConfig = .ok r.member.payload.serial := by
  unfold Authority.planRedeem at h
  simp only [bind_eq_ok, mapError_eq_ok, pure_eq_ok_iff] at h
  obtain ⟨_, -, _, -, _, -, serial, hserial, member, hmember, _, -, _, -, _, -, _, -, rfl⟩ := h
  rw [hserial, (MemberCertificate.issueByAdmin_spec hmember).1]

/-! ## What an operation does to the serials -/

/-- The serials stay, or those of the second configuration are the first one's and that of the one
new member, which is the next serial. -/
inductive SerialStep (c c' : NetworkConfigV1) : Prop
  | same : c'.serials.Perm c.serials → (∀ m, c'.ListsMember m → c.ListsMember m) → SerialStep c c'
  | given (m : MemberCertificate) : c'.serials.Perm (m.payload.serial :: c.serials) →
      nextSerial c = .ok m.payload.serial →
      (∀ n, c'.ListsMember n → c.ListsMember n ∨ n = m) → SerialStep c c'

theorem Authority.Plans.serialStep {c : AuthorityCall} {next : NetworkConfigV1}
    {random : SealRandomness} (h : self.Plans c next nowMs random) (hnamed : c.Named) :
    SerialStep self.config.asConfig next := by
  have hadmitted : ∀ {request binding roles appBindings} {a : Admission},
      self.Admitted request binding roles nowMs appBindings a →
      nextSerial self.config.asConfig = .ok a.member.payload.serial →
      SerialStep self.config.asConfig a.next := by
    intro request binding roles appBindings a ha hserial
    refine .given a.member ?_ hserial fun n hn => ha.members_cases hn
    obtain ⟨_, _, _, -, -, hnext⟩ := ha.next
    rw [hnext]
    exact NetworkConfigV1.serials_append rfl rfl rfl
  by_cases hc : c.Adjusts
  · -- the tables of applications, names and relays have no certificates
    obtain ⟨_, _, _, _, _, _, -, rfl⟩ := h.adjusted hc
    exact .same (.of_eq (NetworkConfigV1.serials_eq rfl rfl rfl)) fun _ hm => hm
  cases h with
  | commitConfig _ _ _ => exact hnamed.elim
  | inviteMember _ hplan =>
    exact hadmitted (Authority.planInvite_spec hplan).1 (Authority.planInvite_serial hplan)
  | revokeMember _ hplan =>
    obtain ⟨removed, hrevoked⟩ := Authority.planRevoke_spec hplan
    have hremoves := hrevoked.removes
    obtain ⟨_, _, _, -, -, rfl⟩ := hrevoked.next
    exact .same (hremoves.serials rfl) fun _ hm => (List.mem_filter.mp hm).1
  | redeemInvitation _ hplan =>
    exact hadmitted (Authority.planRedeem_spec hplan).1 (Authority.planRedeem_serial hplan)
  | redeemInvitationOnline _ hplan =>
    exact hadmitted (Authority.planRedeem_spec hplan).1 (Authority.planRedeem_serial hplan)
  | _ => exact absurd trivial hc

section Step

omit [Crypto]

variable {c c' : NetworkConfigV1}

theorem SerialStep.subset (h : SerialStep c c') : c.serials ⊆ c'.serials := by
  cases h with
  | same hperm _ => exact hperm.symm.subset
  | given m hperm _ _ => exact fun x hx => hperm.symm.subset (List.mem_cons_of_mem _ hx)

theorem SerialStep.nodup (h : SerialStep c c') (hnodup : c.serials.Nodup) : c'.serials.Nodup := by
  cases h with
  | same hperm _ => exact hperm.nodup_iff.mpr hnodup
  | given m hperm hserial _ =>
    rw [hperm.nodup_iff, List.nodup_cons]
    refine ⟨?_, hnodup⟩
    intro hmem
    exact absurd (nextSerial_spec hserial _ hmem) (lt_irrefl _)

theorem SerialStep.fresh (h : SerialStep c c') (hm : c'.ListsMember m) (hnew : ¬ c.ListsMember m) :
    m.payload.serial ∉ c.serials := by
  cases h with
  | same _ hmembers => exact absurd (hmembers m hm) hnew
  | given n _ hserial hmembers =>
    obtain rfl := (hmembers m hm).resolve_left hnew
    intro hmem
    exact absurd (nextSerial_spec hserial _ hmem) (lt_irrefl _)

end Step

/-! ## From the genesis on -/

theorem planGenesis_serials {options : AuthorityInit} {random : InitRandomness} {g : Genesis}
    (h : planGenesis options random = .ok g) : g.config.serials = [2, 1] := by
  unfold planGenesis at h
  simp only [bind_eq_ok, mapError_eq_ok, okOr_eq_ok, pure_eq_ok_iff] at h
  obtain ⟨expiresAtMs, -, rootKey, -, memberSigning, -, adminKey, -, certificate, hcertificate,
    member, hmember, binding, -, epochSecrets, -, envelope, -, rfl⟩ := h
  have hadmin : AdminCertificate.fromBytes certificate.toBytes = .ok certificate :=
    Signed.fromBytes_toBytes certificate
  have hread : MemberCertificate.fromBytes member.toBytes = .ok member :=
    Signed.fromBytes_toBytes member
  unfold NetworkConfigV1.serials NetworkConfigV1.admins NetworkConfigV1.memberCertificates
  simp only [List.filterMap_cons, List.filterMap_nil, hadmin, hread, Except.toOption, List.map_cons,
    List.map_nil, List.append_nil, (AdminCertificate.issue_spec hcertificate).1,
    MemberCertificate.issue_spec hmember, List.cons_append, List.nil_append]

section Archive

variable {options : AuthorityInit} {random : InitRandomness} {g : Genesis} {manifest : Bytes}
  {Made : AuthorityCall → Prop} {w w' : Stores}

variable {e : EncryptedConfigEnvelope} {c : NetworkConfigV1}

theorem Archive.serials_nodup (hideal : HpkeIdeal) (hg : Initialized options random g manifest w)
    (hplan : planGenesis options random = .ok g) (h : Archive (g.identity random) Made w w')
    (hnamed : ∀ c, Made c → c.Named) (he : Committed (g.identity random).network w' e)
    (hc : Published (g.identity random) e c) : c.serials.Nodup := by
  refine h.invariant hideal hg (P := fun c => c.serials.Nodup) ?_ ?_ he hc
  · rw [planGenesis_serials hplan]
    decide
  · intro handle call next nowMs draws hmade hplans _ hbefore
    exact (hplans.serialStep (hnamed call hmade)).nodup hbefore

end Archive

/-- The credentials of the first configuration but the member's are listed by the second, which
revokes none of them. -/
structure SparesOthers (c c' : NetworkConfigV1) (m : MemberCertificate) : Prop where
  members : ∀ n, c.ListsMember n → n ≠ m → c'.ListsMember n ∧ n.payload.serial ∉ c'.revokedSerials
  admins : ∀ a, c.ListsAdmin a → c'.ListsAdmin a ∧ a.payload.serial ∉ c'.revokedSerials

omit [Crypto] in
theorem EpochStep.removed_of_gone [Crypto] {Made : AuthorityCall → Prop} {c c' : NetworkConfigV1}
    (h : EpochStep Made c c') (hm : c.ListsMember m) (hgone : ¬ c'.ListsMember m) :
    RemovesMember c c' m := by
  unfold NetworkConfigV1.ListsMember at hm hgone
  cases h with
  | same hsame =>
    rw [hsame.members] at hgone
    exact absurd hm hgone
  | added _ _ _ _ _ _ _ hadds =>
    rw [hadds.members] at hgone
    exact absurd (List.mem_append_left _ hm) hgone
  | removed _ removed _ _ _ hremoves =>
    rcases List.mem_cons.mp (hremoves.members.subset hm) with heq | hstill
    · rw [Signed.toBytes_injective heq]
      exact hremoves
    · exact absurd hstill hgone

omit [Crypto] in
theorem RemovesMember.spares {c c' : NetworkConfigV1} (h : RemovesMember c c' m)
    (hadmins : c'.adminKeys = c.adminKeys) (hnodup : c'.serials.Nodup) : SparesOthers c c' m := by
  have hdisjoint := (List.nodup_append.mp hnodup).2.2
  refine ⟨?_, ?_⟩
  · intro n hn hne
    have hlisted : c'.ListsMember n := by
      rcases List.mem_cons.mp (h.members.subset hn) with heq | hstill
      · exact absurd (Signed.toBytes_injective heq) hne
      · exact hstill
    refine ⟨hlisted, fun hrevoked => hdisjoint _ (List.mem_append_right _ ?_) _ hrevoked rfl⟩
    exact List.mem_map_of_mem (mem_readable.mpr hlisted)
  · intro a ha
    have hlisted : c'.ListsAdmin a := by
      unfold NetworkConfigV1.ListsAdmin
      rw [hadmins]
      exact ha
    refine ⟨hlisted, fun hrevoked => hdisjoint _ (List.mem_append_left _ ?_) _ hrevoked rfl⟩
    exact List.mem_map_of_mem (NetworkConfigV1.mem_admins.mpr hlisted)

/-- On the stores of an initialized authority, and for any interleaving of processes that use the
named operations only: the serials of every committed configuration are distinct, a new member's
serial differs from all those of earlier configurations, and a configuration that drops a member
keeps the other credentials and revokes none of them. -/
theorem serials_never_reused (hideal : HpkeIdeal) {options : AuthorityInit}
    {random : InitRandomness} {manifest : Bytes} {init : InitializedAuthority} {w : Stores}
    (hinit : ( Authority.initialize options random).run serve Stores.empty =
      (.ok (manifest, init), w))
    {Made : AuthorityCall → Prop} (hnamed : ∀ c, Made c → c.Named)
    {P : Pool (authorityApi manifest)} (hP : Reachable (processesOf manifest Made) w P) :
    (∀ e c, Committed init.status.networkId P.world e → e.Content random.memberEncryption c →
      c.serials.Nodup) ∧
    ∀ e e' c c', Committed init.status.networkId P.world e →
      Committed init.status.networkId P.world e' → e'.revision.toNat = e.revision.toNat + 1 →
      e.Content random.memberEncryption c → e'.Content random.memberEncryption c' →
      (∀ m, c'.ListsMember m → ¬ c.ListsMember m →
        ∀ e₀ c₀, Committed init.status.networkId P.world e₀ → e₀.revision ≤ e.revision →
          e₀.Content random.memberEncryption c₀ → m.payload.serial ∉ c₀.serials) ∧
      ∀ m, c.ListsMember m → ¬ c'.ListsMember m → SparesOthers c c' m := by
  obtain ⟨g, hplan, hg, hnetwork⟩ := initialize_planned hinit
  rw [hnetwork]
  have harchive := archive_of_reachable hg.describes hg.inv hP
  have hnodup : ∀ e c, Committed (g.identity random).network P.world e →
      e.Content random.memberEncryption c → c.serials.Nodup := fun e c he hc =>
    harchive.serials_nodup hideal hg hplan hnamed he
      (harchive.published_of_content hideal hg he hc)
  refine ⟨hnodup, ?_⟩
  intro e e' c c' he he' hrevision hc hc'
  obtain ⟨handle, call, nowMs, draws, hmade, rfl, hplans⟩ :=
    harchive.planned hideal hg he he' hrevision hc hc'
  refine ⟨?_, ?_⟩
  · intro m hm hnew e₀ c₀ he₀ hle hc₀ hmem
    -- the serials of earlier configurations are among those of the one before
    have hsubset : c₀.serials ⊆ handle.config.asConfig.serials := by
      refine harchive.related hideal hg (R := fun c c' => c.serials ⊆ c'.serials)
        (fun _ => List.Subset.refl _) (fun h h' => List.Subset.trans h h') ?_ he₀ he hle
        (harchive.published_of_content hideal hg he₀ hc₀)
        (harchive.published_of_content hideal hg he hc)
      intro handle call next nowMs draws hmade hplans _
      exact (hplans.serialStep (hnamed call hmade)).subset
    exact (hplans.serialStep (hnamed call hmade)).fresh hm hnew (hsubset hmem)
  · intro m hm hgone
    have hchange := hplans.change (hnamed call hmade)
    have hremoves := (hchange.epochStep hmade).removed_of_gone hm hgone
    exact hremoves.spares hchange.inherits.1.admins (hnodup e' c' he' hc')

end Weaver

namespace Weaver.Sample

open Checked Wire Program Transparent

def replacing : Option Solo := do
  let prepared ← preparing.toOption
  let other ← (PreparedJoinRequest.create root.public.networkId ⟨fill 45⟩ (fill 46) (fill 47)
    (fill 48) .member 50000).toOption
  let (_, s) ← Solo.perform (none, stores) (.open 1000)
  let (_, s) ← s.perform (.call (.inviteMember prepared.request prepared.endpointBinding
    .member 1000 40000 (some epochSecrets) sealing))
  let (_, s) ← s.perform (.call (.revokeMember prepared.request.payload.memberId 1100
    (some epochSecrets) sealing))
  let (_, s) ← s.perform (.call (.inviteMember other.request other.endpointBinding
    .member 1200 40000 (some epochSecrets) sealing))
  return s

theorem replacing_result : (replacing.bind fun s => s.1.map fun self =>
    self.config.asConfig.serials) = some [2, 1, 4, 3] := by
  decide +kernel

/-- In the sample, a member that comes after a revocation has a serial of its own. -/
theorem serials_never_reused_sample : ∃ (init : InitializedAuthority)
    (P : Pool (authorityApi manifest)), P.log.length = 4 ∧
    (∀ e c, Committed init.status.networkId P.world e → e.Content key c → c.serials.Nodup) ∧
    ∀ e e' c c', Committed init.status.networkId P.world e →
      Committed init.status.networkId P.world e' → e'.revision.toNat = e.revision.toNat + 1 →
      e.Content key c → e'.Content key c' →
      (∀ m, c'.ListsMember m → ¬ c.ListsMember m →
        ∀ e₀ c₀, Committed init.status.networkId P.world e₀ → e₀.revision ≤ e.revision →
          e₀.Content key c₀ → m.payload.serial ∉ c₀.serials) ∧
      ∀ m, c.ListsMember m → ¬ c'.ListsMember m → SparesOthers c c' m := by
  obtain ⟨init, hinit⟩ := initialize_eq_ok
  have hresult := replacing_result
  obtain ⟨_, hr, -⟩ := Option.bind_eq_some_iff.mp hresult
  unfold replacing at hr
  simp only [Option.bind_eq_bind, Option.bind_eq_some_iff, Prod.exists] at hr
  obtain ⟨prepared, -, other, -, _, h₁, w₁, hopen, _, h₂, w₂, hinvite, _, h₃, w₃, hrevoke, _, h₄, w₄,
    hagain, -⟩ := hr
  have hopened := Solo.reaches (R := processesOf manifest AuthorityCall.Named) rfl hopen
    fun _ h => by cases h
  have hinvited := hopened.trans (Solo.steps hinvite fun _ h => by cases h; trivial)
  have hrevoked := hinvited.trans (Solo.steps hrevoke fun _ h => by cases h; trivial)
  have hafter := hrevoked.trans (Solo.steps hagain fun _ h => by cases h; trivial)
  exact ⟨init, _, rfl, serials_never_reused hpkeIdeal hinit (fun _ h => h) hafter⟩

end Weaver.Sample
