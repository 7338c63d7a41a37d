import Mathlib.Logic.Relation
import Weaver.Authority.Endpoints
import Weaver.Authority.Session

/-!
# The serving relay

A relay that serves an authority shares a handle and the set of the endpoints that may use it among
its tasks. The reload task opens the authority anew, and puts the new handle and its endpoints in
their place when the heads differ. A bootstrap redemption changes the shared handle, and then
replaces the set. The handle is under one lock and the set under another, and neither task holds a
lock throughout.

`Relay.next` takes one step of a task, at the granularity of the locks. The reload task compares the
heads for equality only: it puts a handle back that a redemption has left behind
(`serving_regresses`). `serving_monotone` is what holds when a reload and a redemption are never in
progress together.
-/

namespace Weaver

open Checked Wire Program

variable [Crypto]

/-! ## The tasks -/

/-- A request to redeem an invitation, and what its redemption draws. The relay goes on to redeem
only when the request is for the endpoint at the other end of the connection. -/
structure BootstrapRedeemRequest where
  remoteId : EndpointId
  invitation : InvitationBundle
  prepared : PreparedJoinRequest
  nowMs : UInt64
  secrets : Option EpochSecrets
  random : SealRandomness
  remote : prepared.request.payload.endpointId = remoteId.asBytes

inductive ReloadTask where
  | opened (reloaded : Authority)
  | compared (reloaded : Authority)
  | computed (reloaded : Authority) (nextAllowed : Finset EndpointId)
  | replaced (nextAllowed : Finset EndpointId)

inductive RedemptionTask where
  | locked (request : BootstrapRedeemRequest)
  | redeemed (accepted : Bool)
  | accepted
  /-- It has computed the endpoints, and holds the read guard, which is kept alive by the condition
  of the `if let` until its body has run. -/
  | read (nextAllowed : Finset EndpointId)
  | done

def RedemptionTask.writes : RedemptionTask → Bool
  | .locked _ | .redeemed _ => true
  | _ => false

def RedemptionTask.guards : RedemptionTask → Bool
  | .read _ => true
  | task => task.writes

def RedemptionTask.ended : RedemptionTask → Bool
  | .done => true
  | _ => false

/-- What the tasks of a relay share, how far they are, and the other processes at work on the same
stores with their handles. -/
structure Relay where
  stores : Stores
  authority : Authority
  allowed : Finset EndpointId
  reload : Option ReloadTask
  redemptions : List RedemptionTask
  others : List (Option Authority)

/-- `serve`, up to where it starts its tasks. -/
def Relay.serve (manifest : Bytes) (nowMs : UInt64) (others : List (Option Authority))
    (w : Stores) : Except AuthorityError Relay := do
  let (opened, stores) := (Authority.open manifest nowMs).run Weaver.serve w
  let authority ← opened
  let allowed ← authority.allowedMemberEndpoints
  return { stores, authority, allowed, reload := none, redemptions := [], others }

/-! ## The steps -/

inductive ReloadStep where
  | open (nowMs : UInt64)
  | compare
  | compute
  | replaceAuthority
  | replaceAllowed

inductive RedemptionStep where
  | redeem
  | unlock
  | read
  | replaceAllowed

inductive RelayEvent where
  | reload (step : ReloadStep)
  | lock (request : BootstrapRedeemRequest)
  | redemption (i : ℕ) (step : RedemptionStep)
  | other (i : ℕ) (request : AuthorityRequest)

def Relay.readable (s : Relay) : Bool := s.redemptions.all fun task => !task.writes

def Relay.writable (s : Relay) : Bool := s.redemptions.all fun task => !task.guards

def Relay.nextReload (manifest : Bytes) (s : Relay) : ReloadStep → Option ReloadTask → Option Relay
  | .open nowMs, none =>
    match (Authority.open manifest nowMs).run Weaver.serve s.stores with
    | (.ok reloaded, stores) => some { s with stores, reload := some (.opened reloaded) }
    | (.error _, stores) => some { s with stores }
  | .compare, some (.opened reloaded) =>
    if s.readable = false then none
    else if reloaded.status.head = s.authority.status.head then some { s with reload := none }
    else some { s with reload := some (.compared reloaded) }
  | .compute, some (.compared reloaded) =>
    match reloaded.allowedMemberEndpoints with
    | .ok nextAllowed => some { s with reload := some (.computed reloaded nextAllowed) }
    | .error _ => some { s with reload := none }
  | .replaceAuthority, some (.computed reloaded nextAllowed) =>
    if s.writable = false then none
    else some { s with authority := reloaded, reload := some (.replaced nextAllowed) }
  | .replaceAllowed, some (.replaced nextAllowed) =>
    some { s with allowed := nextAllowed, reload := none }
  | _, _ => none

/-- A step of the redemption `i`. -/
def Relay.nextRedemption (s : Relay) (i : ℕ) : RedemptionStep → RedemptionTask → Option Relay
  | .redeem, .locked request =>
    match (s.authority.perform (.redeemInvitationOnline request.invitation request.prepared
      request.nowMs request.secrets request.random)).run Weaver.serve s.stores with
    | ((result, authority), stores) =>
      some { s with
        stores, authority, redemptions := s.redemptions.set i (.redeemed result.isOk) }
  | .unlock, .redeemed accepted =>
    some { s with
      redemptions := s.redemptions.set i (if accepted then .accepted else .done) }
  | .read, .accepted =>
    if s.readable = false then none
    else match s.authority.allowedMemberEndpoints with
      | .ok nextAllowed => some { s with redemptions := s.redemptions.set i (.read nextAllowed) }
      | .error _ => some { s with redemptions := s.redemptions.set i .done }
  | .replaceAllowed, .read nextAllowed =>
    some { s with allowed := nextAllowed, redemptions := s.redemptions.set i .done }
  | _, _ => none

def Relay.next (manifest : Bytes) (s : Relay) : RelayEvent → Option Relay
  | .reload step => s.nextReload manifest step s.reload
  | .lock request =>
    if s.writable = false then none
    else some { s with redemptions := s.redemptions ++ [.locked request] }
  | .redemption i step => s.redemptions[i]?.bind (s.nextRedemption i step)
  | .other i request =>
    s.others[i]?.bind fun handle =>
      match (authorityBody manifest request handle).run Weaver.serve s.stores with
      | ((_, handle'), stores) => some { s with stores, others := s.others.set i handle' }

def Relay.Step (manifest : Bytes) (rule : Relay → RelayEvent → Prop) (s s' : Relay) : Prop :=
  ∃ event, rule s event ∧ s.next manifest event = some s'

def Relay.Quiet (s : Relay) : Prop :=
  s.reload = none ∧ ∀ task ∈ s.redemptions, task.ended = true

def Relay.Apart (s : Relay) : RelayEvent → Prop
  | .reload (.open _) => ∀ task ∈ s.redemptions, task.ended = true
  | .lock _ => s.reload = none
  | _ => True

section Calls

variable {I : Identity} {manifest : Bytes} {w w' : Stores}

/-! ## What a call does to the stores and the handle -/

theorem authorityBody_keeps (hI : I.Describes manifest) (hinv : AuthorityInv I w)
    {handle handle' : Option Authority} (hs : ∀ self, handle = some self → self.Sound I w)
    {request : AuthorityRequest} {reply : Except AuthorityError request.Value}
    (hrun : (authorityBody manifest request handle).run serve w = ((reply, handle'), w')) :
    AuthorityInv I w' ∧ AuthorityLe I w w' ∧ ∀ self, handle' = some self → self.Sound I w' := by
  obtain ⟨hpost, hinv', hle⟩ := (authorityBody_safe hI hinv request handle hs).run
    storeMachine_serve (guarantee_allows I request) hinv
  rw [hrun] at hpost hinv' hle
  exact ⟨hinv', hle, hpost.1⟩

variable {self : Authority}

theorem Authority.Sound.revision_le (hs : self.Sound I w) {last : EncryptedConfigEnvelope}
    (hchain : Chain I.network w last) :
    self.status.head.revision ≤ last.revision := by
  obtain ⟨e, he, hhead, -⟩ := hs.current
  have hrevision : e.revision = self.status.head.revision := congrArg ConfigHead.revision hhead
  rw [← hrevision]
  exact hchain.revision_le he

theorem open_keeps (hI : I.Describes manifest) (hinv : AuthorityInv I w) {nowMs : UInt64}
    {result : Except AuthorityError Authority}
    (hrun : (Authority.open manifest nowMs).run serve w = (result, w')) :
    AuthorityInv I w' ∧ AuthorityLe I w w' ∧
      ∀ self, result = .ok self → self.Sound I w' ∧
        ∀ handle : Authority, handle.Sound I w' →
          handle.status.head.revision ≤ self.status.head.revision := by
  have hnone : ∀ self, (none : Option Authority) = some self → self.Sound I w := by
    intro self h
    cases h
  cases result with
  | error e =>
    have hbody : (authorityBody manifest (.open nowMs) none).run serve w =
        ((.error e, none), w') := by
      unfold authorityBody
      rw [Task.run_then, hrun]
      rfl
    obtain ⟨hinv', hle, -⟩ := authorityBody_keeps hI hinv hnone hbody
    refine ⟨hinv', hle, ?_⟩
    intro self h
    cases h
  | ok self =>
    have hbody : (authorityBody manifest (.open nowMs) none).run serve w =
        ((.ok (), some self), w') := by
      unfold authorityBody
      rw [Task.run_then, hrun]
      rfl
    obtain ⟨hwork, hle, -⟩ := (AtWork.start hinv).step hI hbody
    refine ⟨hwork.inv, hle, ?_⟩
    intro self' h
    obtain rfl := Except.ok.inj h
    refine ⟨hwork.sound self rfl, ?_⟩
    intro handle hs
    obtain ⟨last, hchain⟩ := hwork.inv.chain
    rw [(hwork.synced self last rfl hchain).head]
    exact hs.revision_le hchain

/-- A redemption whose endpoints parsed leaves a handle whose endpoints parse, when the request is
for an endpoint. The handle is the same unless the redemption succeeds, and no older. -/
theorem redeem_keeps (hideal : HpkeIdeal) (hI : I.Describes manifest) (hinv : AuthorityInv I w)
    {self' : Authority} (hs : self.Sound I w) {request : BootstrapRedeemRequest}
    {result : Except AuthorityError JoinTicket}
    (hrun : (self.perform (.redeemInvitationOnline request.invitation request.prepared
      request.nowMs request.secrets request.random)).run serve w = ((result, self'), w'))
    (hparses : ∃ endpoints, self.allowedMemberEndpoints = .ok endpoints) :
    AuthorityInv I w' ∧ AuthorityLe I w w' ∧ self'.Sound I w' ∧
      self.status.head.revision ≤ self'.status.head.revision ∧
      (∃ endpoints, self'.allowedMemberEndpoints = .ok endpoints) ∧
      (result.isOk = false → self' = self) := by
  have hsome : ∀ handle, some self = some handle → handle.Sound I w := by
    intro handle h
    rw [← Option.some.inj h]
    exact hs
  have hbody : (authorityBody manifest (.call (.redeemInvitationOnline request.invitation
      request.prepared request.nowMs request.secrets request.random)) (some self)).run serve w =
      ((result, some self'), w') := by
    unfold authorityBody
    rw [Prog.run_bind, hrun]
    rfl
  obtain ⟨hinv', hle, hs'⟩ := authorityBody_keeps hI hinv hsome hbody
  refine ⟨hinv', hle, hs' self' rfl, ?_⟩
  cases hs.turn hI hinv hrun with
  | stayed _ hsame _ _ =>
    obtain rfl := Option.some.inj hsame
    exact ⟨le_rfl, hparses, fun _ => rfl⟩
  | opened _ _ _ hrequest => cases hrequest
  | moved handle c next nowMs random rest e opened moved hhandle hcall hplans hmoved hrest _ heq
      hok =>
    obtain rfl := Option.some.inj hhandle
    obtain rfl := Option.some.inj heq
    obtain rfl := AuthorityRequest.call.inj hcall
    refine ⟨?_, ?_, ?_⟩
    · -- the new revision follows the last one
      obtain ⟨last, hgrows, -⟩ := hmoved.grows hs hinv hrest
      have hle := hs.revision_le hgrows.before
      have hnext := hgrows.follows.revision
      have hhead : self'.status.head = e.head := by rw [hmoved.handle]
      have hrevision : self'.status.head.revision = e.revision := congrArg _ hhead
      rw [UInt64.le_iff_toNat_le] at hle ⊢
      rw [hrevision]
      omega
    · -- the new configuration binds the endpoint of the request
      cases hplans with
      | redeemInvitationOnline _ hplan =>
        obtain ⟨hadmitted, -, -⟩ := Authority.planRedeem_spec hplan
        obtain ⟨_, _, _, -, -, hconfig⟩ := hadmitted.next
        obtain ⟨endpoints, hendpoints⟩ := hparses
        obtain ⟨parsed, hparsed, -⟩ := map_eq_ok.mp hendpoints
        have hbound : boundEndpoint request.prepared.endpointBinding.toBytes =
            .ok request.remoteId :=
          boundEndpoint_toBytes_eq_ok.mpr (hadmitted.endpoint.endpoint.trans request.remote)
        refine ⟨_, map_eq_ok.mpr ⟨parsed ++ [request.remoteId], ?_, rfl⟩⟩
        rw [(hmoved.config_eq hideal).2, hconfig]
        exact mapM_boundEndpoint_append hparsed hbound
    · intro hfailed
      rw [hok] at hfailed
      cases hfailed

end Calls

/-! ## What holds of a relay -/

def RedemptionTask.refreshes : RedemptionTask → Bool
  | .redeemed ok => ok
  | .accepted | .read _ => true
  | _ => false

def ReloadTask.Ahead (I : Identity) (w : Stores) (authority : Authority) : ReloadTask → Prop
  | .opened reloaded | .compared reloaded => reloaded.Sound I w ∧
    authority.status.head.revision ≤ reloaded.status.head.revision
  | .computed reloaded nextAllowed => reloaded.Sound I w ∧
    authority.status.head.revision ≤ reloaded.status.head.revision ∧
    reloaded.allowedMemberEndpoints = .ok nextAllowed
  | .replaced nextAllowed => authority.allowedMemberEndpoints = .ok nextAllowed

def Excluding (tasks : List RedemptionTask) : Prop :=
  ∀ (i j : ℕ) (a b : RedemptionTask), tasks[i]? = some a → tasks[j]? = some b →
    a.writes = true → b.guards = true → i = j

structure Relay.Served (I : Identity) (s : Relay) : Prop where
  inv : AuthorityInv I s.stores
  sound : s.authority.Sound I s.stores
  others : ∀ handle ∈ s.others, ∀ self, handle = some self → self.Sound I s.stores
  parses : ∃ endpoints, s.authority.allowedMemberEndpoints = .ok endpoints
  guards : Excluding s.redemptions
  /-- What a redemption has read is current while it holds the read guard. -/
  reading : ∀ (i : ℕ) (nextAllowed : Finset EndpointId),
    s.redemptions[i]? = some (.read nextAllowed) →
    s.authority.allowedMemberEndpoints = .ok nextAllowed
  fresh : s.authority.allowedMemberEndpoints = .ok s.allowed ∨
    (∃ task ∈ s.redemptions, task.refreshes = true) ∨
    ∃ nextAllowed, s.reload = some (.replaced nextAllowed)
  reload : ∀ task, s.reload = some task →
    (∀ other ∈ s.redemptions, other.ended = true) ∧ task.Ahead I s.stores s.authority

section Steps

variable {I : Identity} {manifest : Bytes} {s s' : Relay}

variable {task : RedemptionTask}

theorem RedemptionTask.eq_done (h : task.ended = true) : task = .done := by
  cases task with
  | done => rfl
  | locked | redeemed | accepted | read => cases h

theorem Relay.Served.current (h : s.Served I)
    (hended : ∀ task ∈ s.redemptions, task.ended = true)
    (hreload : ∀ nextAllowed, s.reload ≠ some (.replaced nextAllowed)) :
    s.authority.allowedMemberEndpoints = .ok s.allowed := by
  rcases h.fresh with hfresh | ⟨task, htask, hrefreshes⟩ | ⟨nextAllowed, hreplaced⟩
  · exact hfresh
  · rw [RedemptionTask.eq_done (hended task htask)] at hrefreshes
    cases hrefreshes
  · exact absurd hreplaced (hreload nextAllowed)

variable {authority : Authority}

theorem ReloadTask.Ahead.of_le {w w' : Stores} {task : ReloadTask} (h : task.Ahead I w authority)
    (hle : AuthorityLe I w w') : task.Ahead I w' authority := by
  cases task with
  | opened reloaded => exact ⟨hle.handle h.1, h.2⟩
  | compared reloaded => exact ⟨hle.handle h.1, h.2⟩
  | computed reloaded nextAllowed => exact ⟨hle.handle h.1, h.2⟩
  | replaced nextAllowed => exact h

theorem Relay.Served.of_le (h : s.Served I) {w' : Stores} (hinv : AuthorityInv I w')
    (hle : AuthorityLe I s.stores w') : Relay.Served I { s with stores := w' } :=
  { h with
    inv := hinv
    sound := hle.handle h.sound
    others := fun handle hmem self hself => hle.handle (h.others handle hmem self hself)
    reload := fun task htask => ⟨(h.reload task htask).1, (h.reload task htask).2.of_le hle⟩ }

theorem Relay.Served.goOn (h : s.Served I)
    (hcurrent : s.authority.allowedMemberEndpoints = .ok s.allowed) {reload : Option ReloadTask}
    (hreload : ∀ task, reload = some task →
      (∀ other ∈ s.redemptions, other.ended = true) ∧ task.Ahead I s.stores s.authority) :
    Relay.Served I { s with reload } :=
  { h with fresh := .inl hcurrent, reload := hreload }

theorem Relay.Served.open (h : s.Served I) (hI : I.Describes manifest) {nowMs : UInt64}
    (hended : ∀ task ∈ s.redemptions, task.ended = true) (hreload : s.reload = none)
    (hnext : s.nextReload manifest (.open nowMs) none = some s') :
    s'.Served I ∧ s'.authority = s.authority := by
  simp only [Relay.nextReload] at hnext
  rcases hopen : (Authority.open manifest nowMs).run Weaver.serve s.stores with
    ⟨_ | reloaded, stores⟩
  · rw [hopen] at hnext
    obtain rfl := Option.some.inj hnext
    obtain ⟨hinv, hle, -⟩ := open_keeps hI h.inv hopen
    exact ⟨h.of_le hinv hle, rfl⟩
  · rw [hopen] at hnext
    obtain rfl := Option.some.inj hnext
    obtain ⟨hinv, hle, hopened⟩ := open_keeps hI h.inv hopen
    obtain ⟨hsound, hahead⟩ := hopened reloaded rfl
    have hcurrent := h.current hended (by simp [hreload])
    refine ⟨(h.of_le hinv hle).goOn hcurrent ?_, rfl⟩
    intro task htask
    obtain rfl := Option.some.inj htask
    exact ⟨hended, hsound, hahead _ (hle.handle h.sound)⟩

theorem Relay.Served.goesOn (h : s.Served I) {task : ReloadTask} (hreload : s.reload = some task)
    {step : ReloadStep} (hnext : s.nextReload manifest step (some task) = some s') :
    s'.Served I ∧ s.authority.status.head.revision ≤ s'.authority.status.head.revision := by
  obtain ⟨hended, hahead⟩ := h.reload task hreload
  cases task with
  | opened reloaded =>
    have hcurrent := h.current hended (by simp [hreload])
    cases step with
    | compare =>
      simp only [Relay.nextReload] at hnext
      split at hnext
      · cases hnext
      split at hnext
      · obtain rfl := Option.some.inj hnext
        exact ⟨h.goOn hcurrent (by simp), le_rfl⟩
      · obtain rfl := Option.some.inj hnext
        refine ⟨h.goOn hcurrent ?_, le_rfl⟩
        intro task htask
        obtain rfl := Option.some.inj htask
        exact ⟨hended, hahead⟩
    | «open» | compute | replaceAuthority | replaceAllowed => cases hnext
  | compared reloaded =>
    have hcurrent := h.current hended (by simp [hreload])
    cases step with
    | compute =>
      simp only [Relay.nextReload] at hnext
      split at hnext
      · next nextAllowed hendpoints =>
        obtain rfl := Option.some.inj hnext
        refine ⟨h.goOn hcurrent ?_, le_rfl⟩
        intro task htask
        obtain rfl := Option.some.inj htask
        exact ⟨hended, hahead.1, hahead.2, hendpoints⟩
      · obtain rfl := Option.some.inj hnext
        exact ⟨h.goOn hcurrent (by simp), le_rfl⟩
    | «open» | compare | replaceAuthority | replaceAllowed => cases hnext
  | computed reloaded nextAllowed =>
    obtain ⟨hsound, hle, hendpoints⟩ := hahead
    cases step with
    | replaceAuthority =>
      simp only [Relay.nextReload] at hnext
      split at hnext
      · cases hnext
      obtain rfl := Option.some.inj hnext
      refine ⟨{ h with sound := hsound, parses := ⟨_, hendpoints⟩, reading := ?_, fresh := ?_,
                       reload := ?_ }, hle⟩
      · intro i read hread
        have hdone := RedemptionTask.eq_done (hended _ (List.mem_of_getElem? hread))
        cases hdone
      · exact .inr (.inr ⟨nextAllowed, rfl⟩)
      · intro task htask
        obtain rfl := Option.some.inj htask
        exact ⟨hended, hendpoints⟩
    | «open» | compare | compute | replaceAllowed => cases hnext
  | replaced nextAllowed =>
    cases step with
    | replaceAllowed =>
      obtain rfl := Option.some.inj hnext
      exact ⟨{ h with fresh := .inl hahead, reload := by simp }, le_rfl⟩
    | «open» | compare | compute | replaceAuthority => cases hnext

/-! ### Redemptions -/

variable {i : ℕ}

omit [Crypto] in
theorem getElem?_set_cases {α : Type} {l : List α} {j : ℕ} {x b : α}
    (h : (l.set i x)[j]? = some b) : j = i ∧ b = x ∨ j ≠ i ∧ l[j]? = some b := by
  rw [List.getElem?_set] at h
  split at h
  · next hij =>
    split at h
    · exact .inl ⟨hij.symm, (Option.some.inj h).symm⟩
    · cases h
  · next hij => exact .inr ⟨fun h => hij h.symm, h⟩

variable {tasks : List RedemptionTask} {x : RedemptionTask}

theorem Excluding.set (h : Excluding tasks) (hi : tasks[i]? = some task)
    (hwrites : x.writes = true → task.writes = true)
    (hguards : x.guards = true → task.guards = true) : Excluding (tasks.set i x) := by
  intro j k a b hj hk ha hb
  rcases getElem?_set_cases hj with ⟨rfl, rfl⟩ | ⟨-, hj'⟩
  · rcases getElem?_set_cases hk with ⟨rfl, -⟩ | ⟨-, hk'⟩
    · rfl
    · exact h j k task b hi hk' (hwrites ha) hb
  · rcases getElem?_set_cases hk with ⟨rfl, rfl⟩ | ⟨-, hk'⟩
    · exact h j k a task hj' hi ha (hguards hb)
    · exact h j k a b hj' hk' ha hb

theorem Relay.guards_of_writable (h : s.writable = true) (hi : s.redemptions[i]? = some task) :
    task.guards = false := by
  have hall := List.all_eq_true.mp h task (List.mem_of_getElem? hi)
  rw [Bool.not_eq_true'] at hall
  exact hall

theorem Relay.writes_of_readable (h : s.readable = true) (hi : s.redemptions[i]? = some task) :
    task.writes = false := by
  have hall := List.all_eq_true.mp h task (List.mem_of_getElem? hi)
  rw [Bool.not_eq_true'] at hall
  exact hall

theorem exists_refreshes_set (hi : tasks[i]? = some task)
    (hx : task.refreshes = true → x.refreshes = true) (h : ∃ t ∈ tasks, t.refreshes = true) :
    ∃ t ∈ tasks.set i x, t.refreshes = true := by
  obtain ⟨t, ht, hrefreshes⟩ := h
  obtain ⟨j, hj⟩ := List.mem_iff_getElem?.mp ht
  by_cases hij : i = j
  · subst hij
    rw [hi] at hj
    obtain rfl := Option.some.inj hj
    have hlt : i < tasks.length := (List.getElem?_eq_some_iff.mp hi).1
    exact ⟨x, List.mem_set hlt x, hx hrefreshes⟩
  · refine ⟨t, List.mem_iff_getElem?.mpr ⟨j, ?_⟩, hrefreshes⟩
    rw [List.getElem?_set_ne hij]
    exact hj

theorem Relay.Served.reload_eq_none (h : s.Served I) (hi : s.redemptions[i]? = some task)
    (htask : task.ended = false) : s.reload = none := by
  cases hreload : s.reload with
  | none => rfl
  | some reload =>
    have hended := (h.reload reload hreload).1 task (List.mem_of_getElem? hi)
    rw [htask] at hended
    cases hended

theorem Relay.Served.proceed (h : s.Served I) (hi : s.redemptions[i]? = some task)
    (hended : task.ended = false) (hguards : x.guards = false)
    (hcurrent : s.authority.allowedMemberEndpoints = .ok s.allowed ∨
      (task.refreshes = true → x.refreshes = true)) :
    Relay.Served I { s with redemptions := s.redemptions.set i x } := by
  have hnone := h.reload_eq_none hi hended
  have hwrites : x.writes = false := by
    cases x with
    | locked | redeemed => cases hguards
    | accepted | read | done => rfl
  refine { h with guards := h.guards.set hi (by simp [hwrites]) (by simp [hguards]),
                  reading := ?_, fresh := ?_, reload := by simp [hnone] }
  · intro j nextAllowed hj
    rcases getElem?_set_cases hj with ⟨-, rfl⟩ | ⟨-, hj⟩
    · cases hguards
    · exact h.reading j nextAllowed hj
  · rcases hcurrent with hcurrent | hrefreshes
    · exact .inl hcurrent
    rcases h.fresh with hfresh | hexists | ⟨_, hreplaced⟩
    · exact .inl hfresh
    · exact .inr (.inl (exists_refreshes_set hi hrefreshes hexists))
    · rw [hnone] at hreplaced
      cases hreplaced

variable {request : BootstrapRedeemRequest}

theorem Relay.Served.lock (h : s.Served I) (hreload : s.reload = none)
    (hwritable : s.writable = true) :
    Relay.Served I { s with redemptions := s.redemptions ++ [.locked request] } := by
  -- the new task is the last one, and the others hold no guard
  have hcases : ∀ (j : ℕ) (b : RedemptionTask),
      (s.redemptions ++ [.locked request])[j]? = some b →
      s.redemptions[j]? = some b ∨ j = s.redemptions.length ∧ b = .locked request := by
    intro j b hj
    by_cases hlt : j < s.redemptions.length
    · rw [List.getElem?_append_left hlt] at hj
      exact .inl hj
    · rw [List.getElem?_append_right (not_lt.mp hlt), List.getElem?_singleton] at hj
      split at hj
      · next hzero => exact .inr ⟨by omega, (Option.some.inj hj).symm⟩
      · cases hj
  refine { h with guards := ?_, reading := ?_, fresh := ?_, reload := by simp [hreload] }
  · intro j k a b hj hk ha hb
    rcases hcases k b hk with hk' | ⟨rfl, -⟩
    · have hguards := Relay.guards_of_writable hwritable hk'
      rw [hb] at hguards
      cases hguards
    · rcases hcases j a hj with hj' | ⟨rfl, -⟩
      · have hguards := Relay.guards_of_writable hwritable hj'
        cases a with
        | locked | redeemed => cases hguards
        | accepted | read | done => cases ha
      · rfl
  · intro j nextAllowed hj
    rcases hcases j _ hj with hj' | ⟨-, hlocked⟩
    · exact h.reading j nextAllowed hj'
    · cases hlocked
  · rcases h.fresh with hfresh | ⟨task, htask, hrefreshes⟩ | ⟨_, hreplaced⟩
    · exact .inl hfresh
    · exact .inr (.inl ⟨task, List.mem_append_left _ htask, hrefreshes⟩)
    · rw [hreload] at hreplaced
      cases hreplaced

theorem Relay.Served.redeem (h : s.Served I) (hideal : HpkeIdeal) (hI : I.Describes manifest)
    (hi : s.redemptions[i]? = some (.locked request)) {result : Except AuthorityError JoinTicket}
    {stores : Stores}
    (hrun : (s.authority.perform (.redeemInvitationOnline request.invitation request.prepared
      request.nowMs request.secrets request.random)).run Weaver.serve s.stores =
        ((result, authority), stores)) :
    Relay.Served I { s with
      stores, authority, redemptions := s.redemptions.set i (.redeemed result.isOk) } ∧
      s.authority.status.head.revision ≤ authority.status.head.revision := by
  obtain ⟨hinv, hle, hsound, hrevision, hparses, hfailed⟩ :=
    redeem_keeps hideal hI h.inv h.sound hrun h.parses
  have hnone := h.reload_eq_none hi rfl
  have hlt : i < s.redemptions.length := (List.getElem?_eq_some_iff.mp hi).1
  refine ⟨{ h.of_le hinv hle with
    sound := hsound, parses := hparses, guards := h.guards.set hi (fun _ => rfl) (fun _ => rfl),
    reading := ?_, fresh := ?_, reload := by simp [hnone] }, hrevision⟩
  · -- no other redemption holds a read guard
    intro j nextAllowed hj
    rcases getElem?_set_cases hj with ⟨-, hread⟩ | ⟨hji, hj'⟩
    · cases hread
    · exact absurd (h.guards i j _ _ hi hj' rfl rfl) hji.symm
  · cases hok : result.isOk with
    | true => exact .inr (.inl ⟨.redeemed true, List.mem_set hlt _, rfl⟩)
    | false =>
      rw [hfailed hok]
      rcases h.fresh with hfresh | hexists | ⟨_, hreplaced⟩
      · exact .inl hfresh
      · exact .inr (.inl (exists_refreshes_set hi (by intro hr; cases hr) hexists))
      · rw [hnone] at hreplaced
        cases hreplaced

theorem Relay.Served.read (h : s.Served I) (hi : s.redemptions[i]? = some .accepted)
    (hreadable : s.readable = true) {nextAllowed : Finset EndpointId}
    (hendpoints : s.authority.allowedMemberEndpoints = .ok nextAllowed) :
    Relay.Served I { s with redemptions := s.redemptions.set i (.read nextAllowed) } := by
  have hnone := h.reload_eq_none hi rfl
  have hlt : i < s.redemptions.length := (List.getElem?_eq_some_iff.mp hi).1
  refine { h with guards := ?_, reading := ?_, fresh := ?_, reload := by simp [hnone] }
  · -- no redemption holds the write guard
    intro j k a b hj _ ha _
    rcases getElem?_set_cases hj with ⟨-, rfl⟩ | ⟨-, hj'⟩
    · cases ha
    · rw [Relay.writes_of_readable hreadable hj'] at ha
      cases ha
  · intro j read hj
    rcases getElem?_set_cases hj with ⟨-, hread⟩ | ⟨-, hj'⟩
    · obtain rfl := RedemptionTask.read.inj hread
      exact hendpoints
    · exact h.reading j read hj'
  · exact .inr (.inl ⟨.read nextAllowed, List.mem_set hlt _, rfl⟩)

theorem Relay.Served.nextRedemption (h : s.Served I) (hideal : HpkeIdeal)
    (hI : I.Describes manifest) (hi : s.redemptions[i]? = some task) {step : RedemptionStep}
    (hnext : s.nextRedemption i step task = some s') :
    s'.Served I ∧ s.authority.status.head.revision ≤ s'.authority.status.head.revision := by
  cases task with
  | locked request =>
    cases step with
    | redeem =>
      simp only [Relay.nextRedemption] at hnext
      obtain rfl := Option.some.inj hnext
      exact h.redeem hideal hI hi rfl
    | unlock | read | replaceAllowed => cases hnext
  | redeemed accepted =>
    cases step with
    | unlock =>
      obtain rfl := Option.some.inj hnext
      refine ⟨h.proceed hi rfl ?_ (.inr ?_), le_rfl⟩
      · cases accepted <;> rfl
      · intro hrefreshes
        obtain rfl : accepted = true := hrefreshes
        rfl
    | redeem | read | replaceAllowed => cases hnext
  | accepted =>
    cases step with
    | read =>
      simp only [Relay.nextRedemption] at hnext
      split at hnext
      · cases hnext
      next hreadable =>
      obtain ⟨endpoints, hendpoints⟩ := h.parses
      rw [hendpoints] at hnext
      obtain rfl := Option.some.inj hnext
      exact ⟨h.read hi (Bool.not_eq_false _ ▸ hreadable) hendpoints, le_rfl⟩
    | redeem | unlock | replaceAllowed => cases hnext
  | read nextAllowed =>
    cases step with
    | replaceAllowed =>
      obtain rfl := Option.some.inj hnext
      -- the read guard has kept what was read current
      have hread := h.reading i nextAllowed hi
      have hreplaced : Relay.Served I { s with allowed := nextAllowed } :=
        { h with fresh := .inl hread }
      exact ⟨hreplaced.proceed hi rfl rfl (.inl hread), le_rfl⟩
    | redeem | unlock | read => cases hnext
  | done =>
    cases step with
    | redeem | unlock | read | replaceAllowed => cases hnext

theorem Relay.Served.step (hideal : HpkeIdeal) (hI : I.Describes manifest) (h : s.Served I)
    (hstep : Relay.Step manifest Relay.Apart s s') :
    s'.Served I ∧ s.authority.status.head.revision ≤ s'.authority.status.head.revision := by
  obtain ⟨event, hapart, hnext⟩ := hstep
  cases event with
  | reload step =>
    have hreload' : s.nextReload manifest step s.reload = some s' := hnext
    cases hreload : s.reload with
    | none =>
      rw [hreload] at hreload'
      cases step with
      | «open» nowMs =>
        obtain ⟨hserved, hauthority⟩ := h.open hI hapart hreload hreload'
        rw [hauthority]
        exact ⟨hserved, le_rfl⟩
      | compare | compute | replaceAuthority | replaceAllowed => cases hreload'
    | some task =>
      rw [hreload] at hreload'
      exact h.goesOn hreload hreload'
  | lock request =>
    simp only [Relay.next] at hnext
    split at hnext
    · cases hnext
    next hwritable =>
    obtain rfl := Option.some.inj hnext
    exact ⟨h.lock hapart (Bool.not_eq_false _ ▸ hwritable), le_rfl⟩
  | redemption i step =>
    obtain ⟨task, hi, hredemption⟩ := Option.bind_eq_some_iff.mp hnext
    exact h.nextRedemption hideal hI hi hredemption
  | other i request =>
    obtain ⟨handle, hi, hother⟩ := Option.bind_eq_some_iff.mp hnext
    have hhandle := h.others handle (List.mem_of_getElem? hi)
    rcases hrun : (authorityBody manifest request handle).run Weaver.serve s.stores with
      ⟨⟨reply, handle'⟩, stores⟩
    rw [hrun] at hother
    obtain rfl := Option.some.inj hother
    obtain ⟨hinv, hle, hsound⟩ := authorityBody_keeps hI h.inv hhandle hrun
    refine ⟨{ h.of_le hinv hle with others := ?_ }, le_rfl⟩
    intro x hx self hself
    rcases List.mem_or_eq_of_mem_set hx with hmem | rfl
    · exact hle.handle (h.others x hmem self hself)
    · exact hsound self hself

theorem Relay.Served.run (hideal : HpkeIdeal) (hI : I.Describes manifest) (h : s.Served I)
    (hrun : Relation.ReflTransGen (Relay.Step manifest Relay.Apart) s s') :
    s'.Served I ∧ s.authority.status.head.revision ≤ s'.authority.status.head.revision := by
  induction hrun with
  | refl => exact ⟨h, le_rfl⟩
  | tail _ hstep ih =>
    obtain ⟨hserved, hle⟩ := ih
    obtain ⟨hserved', hle'⟩ := hserved.step hideal hI hstep
    exact ⟨hserved', hle.trans hle'⟩

theorem Relay.Served.start (hI : I.Describes manifest) {w : Stores} (hinv : AuthorityInv I w)
    {nowMs : UInt64} {others : List (Option Authority)}
    (hothers : ∀ handle ∈ others, ∀ self, handle = some self → self.Sound I w)
    (hserve : Relay.serve manifest nowMs others w = .ok s) : s.Served I := by
  rcases hopen : (Authority.open manifest nowMs).run Weaver.serve w with ⟨opened, stores⟩
  unfold Relay.serve at hserve
  rw [hopen] at hserve
  simp only [bind_eq_ok, pure_eq_ok_iff] at hserve
  obtain ⟨authority, hopened, allowed, hallowed, rfl⟩ := hserve
  obtain ⟨hinv', hle, hnew⟩ := open_keeps hI hinv hopen
  exact {
    inv := hinv'
    sound := (hnew authority hopened).1
    others := fun handle hmem self hself => hle.handle (hothers handle hmem self hself)
    parses := ⟨allowed, hallowed⟩
    guards := by
      intro i j a b hi
      cases hi
    reading := by
      intro i nextAllowed hi
      cases hi
    fresh := .inl hallowed
    reload := by simp }

end Steps

/-- A relay starts to serve an authority, after a process has made any requests; the process goes
on, and any number of others start. When no reload begins during a redemption and no redemption
during a reload, the revision of the shared authority never decreases, however many redemptions
there are at once; and the allowed set is that of the shared authority whenever no task is in
progress. -/
theorem serving_monotone (hideal : HpkeIdeal) {options : AuthorityInit} {random : InitRandomness}
    {manifest : Bytes} {init : InitializedAuthority} {w₀ w : Stores}
    (hinit : ( Authority.initialize options random).run serve Stores.empty =
      (.ok (manifest, init), w₀))
    {log : List (Event (authorityApi manifest))} {handle : Option Authority}
    (hsession : Session manifest none w₀ log handle w) {nowMs : UInt64} {n : ℕ}
    {s₀ s s' : Relay}
    (hserve : Relay.serve manifest nowMs (handle :: List.replicate n none) w = .ok s₀)
    (hrun : Relation.ReflTransGen (Relay.Step manifest Relay.Apart) s₀ s)
    (hrun' : Relation.ReflTransGen (Relay.Step manifest Relay.Apart) s s') :
    s.authority.status.head.revision ≤ s'.authority.status.head.revision ∧
      (s.Quiet → s.authority.allowedMemberEndpoints = .ok s.allowed) := by
  obtain ⟨g, hg, -⟩ := initialize_spec hinit
  have hwork := (hsession.atWork hg.describes (AtWork.start hg.inv)).1
  have hothers : ∀ other ∈ handle :: List.replicate n none, ∀ self, other = some self →
      self.Sound (g.identity random) w := by
    intro other hmem self hself
    rcases List.mem_cons.mp hmem with rfl | hmem
    · exact hwork.sound self hself
    · rw [List.eq_of_mem_replicate hmem] at hself
      cases hself
  have hstart := Relay.Served.start hg.describes hwork.inv hothers hserve
  obtain ⟨hserved, -⟩ := hstart.run hideal hg.describes hrun
  refine ⟨(hserved.run hideal hg.describes hrun').2, ?_⟩
  intro hquiet
  refine hserved.current hquiet.2 ?_
  intro nextAllowed hreplaced
  rw [hquiet.1] at hreplaced
  cases hreplaced

end Weaver

namespace Weaver.Sample

open Checked Wire Program Transparent

/-! ## A reload that overtakes a redemption -/

def follow (s : Relay) : List RelayEvent → Option Relay
  | [] => some s
  | event :: events => (s.next manifest event).bind fun s => follow s events

theorem follow_run {rule : Relay → RelayEvent → Prop} {events : List RelayEvent} :
    ∀ {s s' : Relay}, (∀ event ∈ events, ∀ s, rule s event) → follow s events = some s' →
      Relation.ReflTransGen (Relay.Step manifest rule) s s' := by
  induction events with
  | nil =>
    intro s s' _ h
    obtain rfl := Option.some.inj h
    exact .refl
  | cons event events ih =>
    intro s s' hrule h
    obtain ⟨s₁, hnext, h⟩ := Option.bind_eq_some_iff.mp h
    have hrest := ih (fun e he => hrule e (List.mem_cons_of_mem _ he)) h
    exact .head ⟨event, hrule event List.mem_cons_self s, hnext⟩ hrest

/-- The authority registers an application, creates an invitation and keeps the application's key,
so that the invitation can be redeemed online. -/
def enrolling : Option (PreparedJoinRequest × InvitationBundle × Solo) := do
  let prepared ← preparing.toOption
  let (_, s) ← Solo.perform (none, stores) (.open 1000)
  let (_, s) ← s.perform (.call (.registerApp registration 1000 sealing))
  let (invitation, s) ← s.perform (.call (.createInvitation ⟨fill 50, valid_fifty⟩ [] none
    appRoot.appAddr serviceName 1000 50000 (some (fill 60))))
  let (_, s) ← s.perform (.call (.installEnrollmentAppRoot appRoot))
  return (prepared, invitation, s)

def redeemRequest (prepared : PreparedJoinRequest) (invitation : InvitationBundle) :
    BootstrapRedeemRequest where
  remoteId := ⟨prepared.request.payload.endpointId, rfl⟩
  invitation := invitation
  prepared := prepared
  nowMs := 1100
  secrets := some epochSecrets
  random := sealing
  remote := rfl

def serving : Option (BootstrapRedeemRequest × Solo × Relay) := do
  let (prepared, invitation, solo) ← enrolling
  let s ← (Relay.serve manifest 1050 [solo.1] solo.2).toOption
  return (redeemRequest prepared invitation, solo, s)

abbrev Free := Relation.ReflTransGen (Relay.Step manifest fun _ _ => True)

def redeemedMeanwhile (request : BootstrapRedeemRequest) : List RelayEvent :=
  [.reload (.open 1050), .lock request, .redemption 0 .redeem, .redemption 0 .unlock]

def putBack : List RelayEvent :=
  [.reload .compare, .reload .compute, .reload .replaceAuthority]

/-- Another process commits a name. A reload replaces the shared authority, and then a whole
redemption takes place before the reload replaces the allowed set. -/
def lostAdmission (request : BootstrapRedeemRequest) : List RelayEvent :=
  [.other 0 (.call (.setVirtualDns serviceName appRoot.appAddr 3000 1050 sealing)),
    .reload (.open 1050), .reload .compare, .reload .compute, .reload .replaceAuthority,
    .lock request, .redemption 0 .redeem, .redemption 0 .unlock, .redemption 0 .read,
    .redemption 0 .replaceAllowed, .reload .replaceAllowed]

def outdated (s : Relay) : Bool :=
  s.reload.isNone && s.redemptions.all RedemptionTask.ended &&
    match s.authority.allowedMemberEndpoints with
    | .ok endpoints => decide (endpoints ≠ s.allowed)
    | .error _ => false

theorem outdated_spec {s : Relay} (h : outdated s = true) :
    s.Quiet ∧ s.authority.allowedMemberEndpoints ≠ .ok s.allowed := by
  unfold outdated at h
  rw [Bool.and_eq_true, Bool.and_eq_true, Option.isNone_iff_eq_none, List.all_eq_true] at h
  obtain ⟨hquiet, hallowed⟩ := h
  refine ⟨hquiet, ?_⟩
  intro heq
  rw [heq] at hallowed
  exact of_decide_eq_true hallowed rfl

def regressing : Option (Solo × Relay × Relay × Relay) := do
  let (request, solo, s₀) ← serving
  let s ← follow s₀ (redeemedMeanwhile request)
  let s' ← follow s putBack
  return (solo, s₀, s, s')

theorem regressing_result : (regressing.map fun (_, _, s, s') =>
    decide (s'.authority.status.head.revision < s.authority.status.head.revision)) = some true := by
  decide +kernel

def losing : Option (Relay × Relay) := do
  let (request, _, s₀) ← serving
  let s ← follow s₀ (lostAdmission request)
  return (s₀, s)

theorem losing_result : (losing.map fun (_, s) => outdated s) = some true := by decide +kernel

theorem serving_session {request : BootstrapRedeemRequest} {solo : Solo} {s : Relay}
    (h : serving = some (request, solo, s)) :
    (∃ log, Session manifest none stores log solo.1 solo.2) ∧
      Relay.serve manifest 1050 [solo.1] solo.2 = .ok s := by
  unfold serving enrolling at h
  simp only [Option.bind_eq_bind, Option.bind_eq_some_iff, Prod.exists, Option.pure_def,
    Option.some.injEq, Prod.mk.injEq, toOption_eq_some] at h
  obtain ⟨_, _, _, _, ⟨_, -, _, h₁, w₁, hopen, _, h₂, w₂, hregister, _, h₃, w₃, hcreate, _, h₄, w₄,
    hinstall, -, -, rfl, rfl⟩, _, hserve, -, rfl, rfl⟩ := h
  exact ⟨⟨_, Solo.session (Solo.session (Solo.session (Solo.session .nil hopen) hregister) hcreate)
    hinstall⟩, hserve⟩

def admission : List RelayEvent :=
  [.redemption 0 .redeem, .redemption 0 .unlock, .redemption 0 .read, .redemption 0 .replaceAllowed]

def admitting : Option (BootstrapRedeemRequest × Solo × Relay × Relay × Relay) := do
  let (request, solo, s₀) ← serving
  let s₁ ← s₀.next manifest (.lock request)
  let s ← follow s₁ admission
  return (request, solo, s₀, s₁, s)

theorem admitting_result : (admitting.map fun (_, _, s₀, _, s) => s₀.reload.isNone &&
    s.reload.isNone && s.redemptions.all RedemptionTask.ended) = some true := by decide +kernel

/-- The redemption leaves the allowed set that of the shared authority, which is no older. -/
theorem serving_monotone_sample : ∃ (request : BootstrapRedeemRequest) (s₀ s : Relay),
    follow s₀ (.lock request :: admission) = some s ∧
      s₀.authority.status.head.revision ≤ s.authority.status.head.revision ∧
      s.authority.allowedMemberEndpoints = .ok s.allowed := by
  have hresult := admitting_result
  obtain ⟨_, hadmitting, hcheck⟩ := Option.map_eq_some_iff.mp hresult
  unfold admitting at hadmitting
  simp only [Option.bind_eq_bind, Option.bind_eq_some_iff, Prod.exists, Option.pure_def,
    Option.some.injEq] at hadmitting
  obtain ⟨request, handle, w, s₀, hserving, s₁, hlock, s, hfollow, rfl⟩ := hadmitting
  rw [Bool.and_eq_true, Bool.and_eq_true, Option.isNone_iff_eq_none, Option.isNone_iff_eq_none,
    List.all_eq_true] at hcheck
  obtain ⟨⟨hreload, hidle⟩, hended⟩ := hcheck
  obtain ⟨⟨log, hsession⟩, hserve⟩ := serving_session hserving
  obtain ⟨init, hinit⟩ := initialize_eq_ok
  have hrest : Relation.ReflTransGen (Relay.Step manifest Relay.Apart) s₁ s := by
    refine follow_run ?_ hfollow
    intro event hevent s
    simp only [admission, List.mem_cons, List.not_mem_nil, or_false] at hevent
    rcases hevent with rfl | rfl | rfl | rfl <;> trivial
  have hrun : Relation.ReflTransGen (Relay.Step manifest Relay.Apart) s₀ s :=
    .head ⟨.lock request, hreload, hlock⟩ hrest
  refine ⟨request, s₀, s, Option.bind_eq_some_iff.mpr ⟨s₁, hlock, hfollow⟩, ?_, ?_⟩
  · exact (serving_monotone hpkeIdeal hinit hsession (n := 0) hserve .refl hrun).1
  · exact (serving_monotone hpkeIdeal hinit hsession (n := 0) hserve hrun .refl).2
      ⟨hidle, hended⟩

/-- In one run the shared authority goes back to an earlier revision; the steps are those of a
reload and of a redemption only. In another, no task is in progress and the member that was admitted
last is not in the allowed set. -/
theorem serving_regresses : ∃ (init : InitializedAuthority)
    (log : List (Event (authorityApi manifest))) (handle : Option Authority) (w : Stores)
    (s₀ s s' s'' : Relay),
    ( Authority.initialize options random).run serve Stores.empty =
      (.ok (manifest, init), stores) ∧
    Session manifest none stores log handle w ∧
    Relay.serve manifest 1050 [handle] w = .ok s₀ ∧
    (Free s₀ s ∧ Free s s' ∧
      s'.authority.status.head.revision < s.authority.status.head.revision) ∧
    Free s₀ s'' ∧ s''.Quiet ∧ s''.authority.allowedMemberEndpoints ≠ .ok s''.allowed := by
  obtain ⟨_, hregressing, hless⟩ := Option.map_eq_some_iff.mp regressing_result
  obtain ⟨_, hlosing, houtdated⟩ := Option.map_eq_some_iff.mp losing_result
  unfold regressing at hregressing
  unfold losing at hlosing
  simp only [Option.bind_eq_bind, Option.bind_eq_some_iff, Prod.exists, Option.pure_def,
    Option.some.injEq] at hregressing hlosing
  obtain ⟨request, handle, w, s₀, hserving, s, hbefore, s', hafter, rfl⟩ := hregressing
  obtain ⟨_, _, _, _, hserving', s'', hlost, rfl⟩ := hlosing
  obtain ⟨rfl, -, rfl⟩ := Prod.mk.inj (Option.some.inj (hserving.symm.trans hserving'))
  obtain ⟨⟨log, hsession⟩, hserve⟩ := serving_session hserving
  obtain ⟨init, hinit⟩ := initialize_eq_ok
  have htrue : ∀ {events : List RelayEvent}, ∀ event ∈ events, ∀ _ : Relay, True :=
    fun _ _ _ => trivial
  exact ⟨init, log, _, _, s₀, s, s', s'', hinit, hsession, hserve,
    ⟨follow_run htrue hbefore, follow_run htrue hafter, of_decide_eq_true hless⟩,
    follow_run htrue hlost, outdated_spec houtdated⟩

end Weaver.Sample
