import Weaver.Authority.Reopen
import Weaver.Lib.Table

/-!
# Virtual DNS

The records of the virtual DNS are a list in the configuration. `set_virtual_dns` leaves out the
name's record, adds the new one and sorts; `remove_virtual_dns` leaves the record out; and
`resolve_virtual_name` searches for an unexpired record with the name. What this is for is a map from
names to applications that expire (`Names`). `virtualDns_expiring_map`: throughout any session of
named operations, the configuration answers as the map does that the successful calls lead to.
-/

namespace Weaver

open Checked Wire Versioned Program

/-! ## The abstract map -/

abbrev Names := VirtualName → Option (AppAddr × UInt64)

def Names.resolve (M : Names) (name : VirtualName) (nowMs : UInt64) : Option AppAddr :=
  match M name with
  | some (appAddr, expiresAtMs) => if nowMs < expiresAtMs then some appAddr else none
  | none => none

/-! ## The records -/

def VirtualDnsRecord.nameBytes (record : VirtualDnsRecord) : Bytes := utf8 record.name.asStr

theorem utf8_asStr_inj {a b : VirtualName} : utf8 a.asStr = utf8 b.asStr ↔ a = b := by
  constructor
  · intro h
    have hstr : some a.asStr = some b.asStr := by
      rw [← fromUtf8_utf8 a.asStr, h, fromUtf8_utf8]
    have hname := VirtualName.new_asStr a
    rw [Option.some.inj hstr, VirtualName.new_asStr b] at hname
    exact (Option.some.inj hname).symm
  · intro h
    rw [h]

def namesOf (records : List VirtualDnsRecord) : Names := fun name =>
  (Table.lookup VirtualDnsRecord.nameBytes records (utf8 name.asStr)).map fun record =>
    (record.appAddr, record.expiresAtMs)

variable [Crypto]

def ValidatedNetworkConfig.resolveVirtualName (v : ValidatedNetworkConfig) (name : VirtualName)
    (nowMs : UInt64) : Option AppAddr :=
  (v.asConfig.virtualDns.find? fun record =>
    decide (record.name = name) && decide (nowMs < record.expiresAtMs)).map
      VirtualDnsRecord.appAddr

structure Represents (records : List VirtualDnsRecord) (M : Names) : Prop where
  sorted : Table.Strict VirtualDnsRecord.nameBytes records
  names : namesOf records = M

variable {M : Names}

theorem Represents.resolve {v : ValidatedNetworkConfig} (h : Represents v.asConfig.virtualDns M)
    (name : VirtualName) (nowMs : UInt64) :
    v.resolveVirtualName name nowMs = M.resolve name nowMs := by
  have hfind : (v.asConfig.virtualDns.find? fun record =>
      decide (record.name = name) && decide (nowMs < record.expiresAtMs)) =
      (Table.lookup VirtualDnsRecord.nameBytes v.asConfig.virtualDns (utf8 name.asStr)).filter
        fun record => decide (nowMs < record.expiresAtMs) := by
    rw [← h.sorted.find?_and]
    congr 1
    funext record
    exact congrArg (· && decide (nowMs < record.expiresAtMs))
      (decide_eq_decide.mpr utf8_asStr_inj.symm)
  unfold ValidatedNetworkConfig.resolveVirtualName Names.resolve
  rw [hfind, ← h.names]
  unfold namesOf
  cases Table.lookup VirtualDnsRecord.nameBytes v.asConfig.virtualDns (utf8 name.asStr) with
  | none => rfl
  | some record =>
    simp only [Option.filter_some, Option.map_some, decide_eq_true_eq]
    split <;> rfl

omit [Crypto] in
theorem drop_eq_filter (name : VirtualName) (records : List VirtualDnsRecord) :
    Table.drop VirtualDnsRecord.nameBytes (utf8 name.asStr) records =
      records.filter fun record => record.name ≠ name := by
  unfold Table.drop VirtualDnsRecord.nameBytes
  refine List.filter_congr ?_
  intro record _
  rw [decide_eq_decide]
  exact not_congr utf8_asStr_inj

variable {records : List VirtualDnsRecord}

omit [Crypto] in
theorem Represents.remove (h : Represents records M) (name : VirtualName) :
    Represents (records.filter fun record => record.name ≠ name) (Function.update M name none) := by
  rw [← drop_eq_filter]
  refine ⟨h.sorted.drop _, ?_⟩
  funext other
  unfold namesOf
  rw [h.sorted.lookup_drop, ← h.names, Function.update_apply]
  by_cases heq : other = name
  · rw [if_pos (utf8_asStr_inj.mpr heq), if_pos heq]
    rfl
  · rw [if_neg fun hbytes => heq (utf8_asStr_inj.mp hbytes), if_neg heq]
    rfl

omit [Crypto] in
theorem Represents.set (h : Represents records M) (name : VirtualName) (appAddr : AppAddr)
    (expiresAtMs : UInt64) :
    Represents (List.insertionSort
        (fun left right : VirtualDnsRecord => utf8 left.name.asStr ≤ utf8 right.name.asStr)
        ((records.filter fun record => record.name ≠ name) ++ [⟨name, appAddr, expiresAtMs⟩]))
      (Function.update M name (some (appAddr, expiresAtMs))) := by
  have hput : List.insertionSort
      (fun left right : VirtualDnsRecord => utf8 left.name.asStr ≤ utf8 right.name.asStr)
      ((records.filter fun record => record.name ≠ name) ++ [⟨name, appAddr, expiresAtMs⟩]) =
      Table.put VirtualDnsRecord.nameBytes ⟨name, appAddr, expiresAtMs⟩ records := by
    unfold Table.put
    rw [← drop_eq_filter]
    rfl
  rw [hput]
  refine ⟨h.sorted.put _, ?_⟩
  funext other
  unfold namesOf
  have hkey : VirtualDnsRecord.nameBytes ⟨name, appAddr, expiresAtMs⟩ = utf8 name.asStr := rfl
  rw [h.sorted.lookup_put, hkey, ← h.names, Function.update_apply]
  by_cases heq : other = name
  · rw [if_pos (utf8_asStr_inj.mpr heq), if_pos heq]
    rfl
  · rw [if_neg fun hbytes => heq (utf8_asStr_inj.mp hbytes), if_neg heq]
    rfl

/-! ## The calls -/

def AuthorityRequest.onNames : AuthorityRequest → Names → Names
  | .call (.setVirtualDns name appAddr expiresAtMs _ _), M =>
    Function.update M name (some (appAddr, expiresAtMs))
  | .call (.removeVirtualDns name _ _), M => Function.update M name none
  | _, M => M

/-- The map that the requests of a session lead to, the latest first: only those count that have
succeeded. -/
def replay {manifest : Bytes} : List (Event (authorityApi manifest)) → Names
  | [] => fun _ => none
  | event :: log =>
    if Except.isOk event.reply = true then AuthorityRequest.onNames event.call (replay log)
    else replay log

def AuthorityRequest.ChangesNames : AuthorityRequest → Prop
  | .call (.setVirtualDns ..) | .call (.removeVirtualDns ..) => True
  | _ => False

variable {request : AuthorityRequest}

theorem AuthorityRequest.onNames_other (h : ¬ request.ChangesNames) (M : Names) :
    request.onNames M = M := by
  cases request with
  | «open» _ => rfl
  | call c =>
    cases c with
    | setVirtualDns _ _ _ _ _ => exact absurd trivial h
    | removeVirtualDns _ _ _ => exact absurd trivial h
    | _ => rfl

theorem AuthorityRequest.ChangesNames.advances (h : request.ChangesNames) : request.Advances := by
  cases request with
  | «open» _ => cases h
  | call c =>
    cases c with
    | setVirtualDns _ _ _ _ _ => trivial
    | removeVirtualDns _ _ _ => trivial
    | _ => cases h

theorem Authority.Plans.represents {self : Authority} {c : AuthorityCall} {next : NetworkConfigV1}
    {nowMs : UInt64} {random : SealRandomness} (h : self.Plans c next nowMs random)
    (hnamed : c.Named) (hc : Represents self.config.asConfig.virtualDns M) :
    Represents next.virtualDns (AuthorityRequest.onNames (.call c) M) := by
  cases h with
  | commitConfig _ _ _ => exact hnamed.elim
  | setVirtualDns _ hplan =>
    obtain ⟨_, -, rfl⟩ := Authority.planSetDns_spec hplan
    exact hc.set _ _ _
  | removeVirtualDns _ hplan =>
    obtain ⟨_, -, rfl⟩ := Authority.planRemoveDns_spec hplan
    exact hc.remove _
  | inviteMember _ hplan =>
    obtain ⟨_, _, _, -, -, hnext⟩ := (Authority.planInvite_spec hplan).1.next
    rw [hnext]
    exact hc
  | redeemInvitation _ hplan =>
    obtain ⟨_, _, _, -, -, hnext⟩ := (Authority.planRedeem_spec hplan).1.next
    rw [hnext]
    exact hc
  | redeemInvitationOnline _ hplan =>
    obtain ⟨_, _, _, -, -, hnext⟩ := (Authority.planRedeem_spec hplan).1.next
    rw [hnext]
    exact hc
  | revokeMember _ hplan =>
    obtain ⟨removed, hrevoked⟩ := Authority.planRevoke_spec hplan
    obtain ⟨_, _, _, -, -, rfl⟩ := hrevoked.next
    exact hc
  | registerApp _ hplan =>
    obtain ⟨_, -, heq⟩ := Authority.planRegisterApp_spec hplan
    rw [heq]
    exact hc
  | authorizeAppBinding _ hplan =>
    obtain ⟨_, -, rfl⟩ := Authority.planAuthorize_spec hplan
    exact hc
  | registerRelay _ hplan =>
    obtain ⟨_, -, rfl⟩ := Authority.planRegisterRelay_spec hplan
    exact hc
  | removeRelay _ hplan =>
    obtain ⟨_, -, rfl⟩ := Authority.planRemoveRelay_spec hplan
    exact hc

variable {options : AuthorityInit} {random : InitRandomness}

theorem planGenesis_names {g : Genesis} (h : planGenesis options random = .ok g) :
    g.config.virtualDns = [] := by
  unfold planGenesis at h
  simp only [bind_eq_ok, mapError_eq_ok, okOr_eq_ok, pure_eq_ok_iff] at h
  obtain ⟨_, -, _, -, _, -, _, -, _, -, _, -, _, -, _, -, _, -, rfl⟩ := h
  rfl

variable {manifest : Bytes} {log : List (Event (authorityApi manifest))}

theorem replay_cons_other {reply : Except AuthorityError request.Value}
    (h : request.ChangesNames → reply.isOk = false) :
    replay (⟨request, reply⟩ :: log) = replay log := by
  rw [replay]
  split
  · next hok =>
    refine AuthorityRequest.onNames_other ?_ _
    intro hchanges
    rw [h hchanges] at hok
    cases hok
  · rfl

theorem Session.represents (hideal : HpkeIdeal) {g : Genesis} {w w' : Stores}
    (hg : Initialized options random g manifest w) (hplan : planGenesis options random = .ok g)
    {handle : Option Authority} (hsession : Session manifest none w log handle w')
    (hnamed : NamedOnly log) {last : EncryptedConfigEnvelope}
    (hchain : Chain (g.identity random).network w' last) {c : NetworkConfigV1}
    (hcontent : last.Content (g.identity random).encryption c) :
    Represents c.virtualDns (replay log) := by
  refine hsession.induction hideal hg
    (Q := fun log c => NamedOnly log → Represents c.virtualDns (replay log)) ?_ ?_ ?_ hchain hcontent
    hnamed
  · intro _
    rw [planGenesis_names hplan]
    exact ⟨List.Pairwise.nil, rfl⟩
  · intro log request reply c hfailed hbefore hnamed
    rw [replay_cons_other fun hchanges => hfailed hchanges.advances]
    exact hbefore fun event hmem => hnamed event (List.mem_cons_of_mem _ hmem)
  · intro log self call value next nowMs draws e _ hplans _ hbefore hnamed
    have hcall : call.Named := hnamed _ List.mem_cons_self call rfl
    exact hplans.represents hcall
      (hbefore fun event hmem => hnamed event (List.mem_cons_of_mem _ hmem))

/-- After any session of named operations on the stores of an initialized authority, the current
configuration resolves every name at every time as the map does that the successful calls lead to,
its records are strictly sorted by name, and a further request that does not change names leaves all
answers as they are. -/
theorem virtualDns_expiring_map (hideal : HpkeIdeal) {options : AuthorityInit}
    {random : InitRandomness} {manifest : Bytes} {init : InitializedAuthority} {w : Stores}
    (hinit : ( Authority.initialize options random).run serve Stores.empty =
      (.ok (manifest, init), w))
    {log : List (Event (authorityApi manifest))} {handle : Option Authority} {w₁ : Stores}
    (hsession : Session manifest none w log handle w₁) (hnamed : NamedOnly log)
    {last : EncryptedConfigEnvelope} (hchain : Chain init.status.networkId w₁ last)
    {v : ValidatedNetworkConfig} (hcontent : last.Content random.memberEncryption v.asConfig) :
    (∀ name nowMs, v.resolveVirtualName name nowMs = (replay log).resolve name nowMs) ∧
      v.asConfig.virtualDns.Pairwise (fun a b => utf8 a.name.asStr < utf8 b.name.asStr) ∧
      ∀ (request : AuthorityRequest) (reply : Except AuthorityError request.Value)
        (handle' : Option Authority) (w₂ : Stores) (last' : EncryptedConfigEnvelope)
        (v' : ValidatedNetworkConfig), ¬ request.ChangesNames →
        (∀ c, request = .call c → c.Named) →
        (authorityBody manifest request handle).run serve w₁ = ((reply, handle'), w₂) →
        Chain init.status.networkId w₂ last' →
        last'.Content random.memberEncryption v'.asConfig →
        ∀ name nowMs, v'.resolveVirtualName name nowMs = v.resolveVirtualName name nowMs := by
  obtain ⟨g, hplan, hg, hnetwork⟩ := initialize_planned hinit
  rw [hnetwork] at hchain ⊢
  have hrepresents := hsession.represents hideal hg hplan hnamed hchain hcontent
  refine ⟨hrepresents.resolve, hrepresents.sorted, ?_⟩
  intro request reply handle' w₂ last' v' hother hcall hrun hchain' hcontent' name nowMs
  have hnamed' : NamedOnly (⟨request, reply⟩ :: log) := by
    intro event hmem
    rcases List.mem_cons.mp hmem with rfl | hrest
    · exact hcall
    · exact hnamed event hrest
  have hrepresents' := (hsession.cons request reply hrun).represents hideal hg hplan hnamed' hchain'
    hcontent'
  rw [replay_cons_other fun hchanges => absurd hchanges hother] at hrepresents'
  rw [hrepresents'.resolve, hrepresents.resolve]

end Weaver

namespace Weaver.Sample

open Checked Wire Program Transparent

def retiredName : VirtualName := ⟨"old.virtual", by decide⟩

/-- The sample authority registers an application, sets its name, sets it again and sets another
name, which it then removes. -/
def publishing : Option Solo := do
  let (_, s) ← Solo.perform (none, stores) (.open 1000)
  let (_, s) ← s.perform (.call (.registerApp registration 1000 sealing))
  let (_, s) ← s.perform (.call (.setVirtualDns serviceName appRoot.appAddr 2000 1000 sealing))
  let (_, s) ← s.perform (.call (.setVirtualDns serviceName appRoot.appAddr 3000 1000 sealing))
  let (_, s) ← s.perform (.call (.setVirtualDns retiredName appRoot.appAddr 3000 1000 sealing))
  let (_, s) ← s.perform (.call (.removeVirtualDns retiredName 1000 sealing))
  return s

theorem publishing_isSome : (publishing.bind fun s => s.1).isSome = true := by decide +kernel

/-- The sample name resolves until the second time that was set for it. -/
theorem virtualDns_expiring_map_sample : ∃ self : Authority,
    self.config.resolveVirtualName serviceName 2500 = some appRoot.appAddr ∧
    self.config.resolveVirtualName serviceName 3000 = none ∧
    self.config.resolveVirtualName retiredName 2500 = none := by
  obtain ⟨init, hinit⟩ := initialize_eq_ok
  obtain ⟨self, hself⟩ := Option.isSome_iff_exists.mp publishing_isSome
  obtain ⟨⟨_, w⟩, hr, rfl⟩ := Option.bind_eq_some_iff.mp hself
  unfold publishing at hr
  simp only [Option.bind_eq_bind, Option.bind_eq_some_iff, Prod.exists, Option.pure_def,
    Option.some.injEq, Prod.mk.injEq] at hr
  obtain ⟨_, h₁, w₁, hopen, _, h₂, w₂, hregister, _, h₃, w₃, hset, _, h₄, w₄, hagain, _, h₅, w₅,
    hmail, _, _, w₆, hremove, rfl, rfl⟩ := hr
  have hsession := Solo.session (Solo.session (Solo.session (Solo.session (Solo.session
    (Solo.session .nil hopen) hregister) hset) hagain) hmail) hremove
  obtain ⟨g, hg, hnetwork⟩ := initialize_spec hinit
  have hwork := (hsession.atWork hg.describes (AtWork.start hg.inv)).1
  obtain ⟨last, hchain⟩ := hwork.inv.chain
  have hcontent := hwork.current hchain
  have hchain' : Chain init.status.networkId w₆ last := by
    rw [hnetwork]
    exact hchain
  have hresolves := (virtualDns_expiring_map hpkeIdeal hinit hsession (fun event hmem c hcall => by
    simp only [List.mem_cons, List.not_mem_nil, or_false] at hmem
    rcases hmem with rfl | rfl | rfl | rfl | rfl | rfl <;> cases hcall <;> trivial) hchain'
    hcontent).1
  refine ⟨self, ?_, ?_, ?_⟩
  · rw [hresolves]
    rfl
  · rw [hresolves]
    rfl
  · rw [hresolves]
    rfl

end Weaver.Sample
